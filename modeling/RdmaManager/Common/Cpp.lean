import Mathlib.Data.Finmap
import Mathlib.Data.List.GetD
/-!
# The C++ a shallow embedding needs

`Act σ α` is a member function: it reads and writes an object `σ` and
either returns an `α` or throws, and what it had written when it threw
stays written. `wp` is its weakest precondition, with a postcondition
for each of the two exits, and the `wp_*` rules compute it.

The containers are Mathlib's: an `unordered_map` or `map` is a `Finmap`,
whose `operator[]` is `subscript`, and a `vector` is a list, which
`growTo` resizes. A `size_t` is a natural number reduced by `wrap64`
wherever the source does arithmetic on it.
-/

namespace RdmaManager

/-- `size_t` and `uint64_t` arithmetic is modulo `2 ^ 64`. -/
def wrap64 (n : ℕ) : ℕ := n % 2 ^ 64

theorem wrap64_of_lt {n : ℕ} (h : n < 2 ^ 64) : wrap64 n = n := Nat.mod_eq_of_lt h

/-- What a call can throw. `undefined` is no exception: it marks a call
whose behaviour the language leaves undefined, after which there is no
state to speak of. -/
inductive Exn
  | runtimeError (what : String)
  | outOfRange (what : String)
  | lengthError (what : String)
  | undefined (what : String)
  deriving DecidableEq, Repr

/-- **A member function** of an object `σ`: what it returns or throws,
and the object afterwards. -/
def Act (σ α : Type) : Type := σ → Except Exn α × σ

namespace Act

variable {σ τ α β : Type} {s : σ}

instance : Monad (Act σ) where
  pure a := fun s => (.ok a, s)
  bind x f := fun s =>
    match x s with
    | (.ok a, s') => f a s'
    | (.error e, s') => (.error e, s')

instance : MonadExceptOf Exn (Act σ) where
  throw e := fun s => (.error e, s)
  tryCatch x handle := fun s =>
    match x s with
    | (.ok a, s') => (.ok a, s')
    | (.error e, s') => handle e s'

/-- Read the object. -/
def get : Act σ σ := fun s => (.ok s, s)

/-- Write to the object. -/
def modify (f : σ → σ) : Act σ Unit := fun s => (.ok (), f s)

/-- Run a member function of a part of the object. -/
def zoom (part : τ → σ) (put : τ → σ → τ) (x : Act σ α) : Act τ α := fun t =>
  ((x (part t)).1, put t (x (part t)).2)

theorem bind_of_ok {x : Act σ α} {f : α → Act σ β} {s' : σ} {a : α} (h : x s = (.ok a, s')) :
    (x >>= f) s = f a s' := by
  change (match x s with | (.ok a, s') => f a s' | (.error e, s') => (.error e, s')) = _
  rw [h]

theorem bind_of_error {x : Act σ α} {f : α → Act σ β} {s' : σ} {e : Exn}
    (h : x s = (.error e, s')) : (x >>= f) s = (.error e, s') := by
  change (match x s with | (.ok a, s') => f a s' | (.error e, s') => (.error e, s')) = _
  rw [h]

@[simp] theorem pure_apply (a : α) : (pure a : Act σ α) s = (.ok a, s) := rfl

@[simp] theorem get_apply : (get : Act σ σ) s = (.ok s, s) := rfl

@[simp] theorem modify_apply (f : σ → σ) : modify f s = (.ok (), f s) := rfl

@[simp] theorem throw_apply (e : Exn) : (throw e : Act σ α) s = (.error e, s) := rfl

theorem tryCatch_of_ok {x : Act σ α} {handle : Exn → Act σ α} {s' : σ} {a : α}
    (h : x s = (.ok a, s')) : (tryCatch x handle : Act σ α) s = (Except.ok a, s') := by
  change (match x s with | (.ok a, s') => (Except.ok a, s') | (.error e, s') => handle e s') = _
  rw [h]

theorem tryCatch_of_error {x : Act σ α} {handle : Exn → Act σ α} {s' : σ} {e : Exn}
    (h : x s = (.error e, s')) : (tryCatch x handle : Act σ α) s = handle e s' := by
  change (match x s with | (.ok a, s') => (Except.ok a, s') | (.error e, s') => handle e s') = _
  rw [h]

/-- Run a member function on the first of two parts. -/
def onFst (x : Act σ α) : Act (σ × τ) α := zoom Prod.fst (fun p s => (s, p.2)) x

/-- `v[i]`, whose behaviour past the end is undefined. -/
def element (what : String) (v : List α) (i : ℕ) : Act σ α :=
  match v[i]? with
  | some a => pure a
  | none => throw (.undefined what)

/-- `v.at(i)`. -/
def elementAt (v : List α) (i : ℕ) : Act σ α :=
  match v[i]? with
  | some a => pure a
  | none => throw (.outOfRange "at")

/-- `try { x } catch (const std::runtime_error &)`: whether `x` returned. -/
def attempt (x : Act σ α) : Act σ Bool :=
  tryCatch (do let _ ← x; return true) fun
    | .runtimeError _ => return false
    | e => throw e

theorem attempt_of_ok {x : Act σ α} {s' : σ} {a : α} (h : x s = (.ok a, s')) :
    attempt x s = (.ok true, s') :=
  tryCatch_of_ok (bind_of_ok h)

theorem attempt_of_error {x : Act σ α} {s' : σ} {what : String}
    (h : x s = (.error (.runtimeError what), s')) : attempt x s = (.ok false, s') :=
  tryCatch_of_error (bind_of_error h)

/-- `try { x } catch (std::runtime_error &e)` that throws the text of `e`
again, with another in front of it. -/
def rethrow (text : String) (x : Act σ α) : Act σ α :=
  tryCatch x fun
    | .runtimeError what => throw (.runtimeError (text ++ what))
    | e => throw e

/-- Return what was returned, and throw what was thrown. -/
def ofExcept (x : Except Exn α) : Act σ α := fun s => (x, s)

/-- Run `x` with a local variable that it refers to; a throw drops it. -/
def withLocal (init : τ) (x : Act (σ × τ) α) : Act σ (α × τ) := fun s =>
  match x (s, init) with
  | (.ok a, p) => (.ok (a, p.2), p.1)
  | (.error e, p) => (.error e, p.1)

/-- **Weakest precondition**: `Q` holds of what `x` returns and leaves,
or `E` of what it throws and leaves. -/
def wp (x : Act σ α) (Q : α → σ → Prop) (E : Exn → σ → Prop) (s : σ) : Prop :=
  match x s with
  | (.ok a, s') => Q a s'
  | (.error e, s') => E e s'

variable {Q Q' : α → σ → Prop} {E E' : Exn → σ → Prop}

theorem wp_ok {x : Act σ α} {s' : σ} {a : α} (h : wp x Q E s) (hx : x s = (.ok a, s')) :
    Q a s' := by
  rw [wp, hx] at h
  exact h

theorem wp_error {x : Act σ α} {s' : σ} {e : Exn} (h : wp x Q E s) (hx : x s = (.error e, s')) :
    E e s' := by
  rw [wp, hx] at h
  exact h

/-- What never throws returns. -/
theorem ok_of_wp {x : Act σ α} (h : wp x Q (fun _ _ => False) s) :
    ∃ a, (x s).1 = .ok a ∧ Q a (x s).2 := by
  unfold wp at h
  rcases hx : x s with ⟨e | a, s'⟩ <;> rw [hx] at h
  · exact h.elim
  · exact ⟨a, rfl, h⟩

/-- What holds at both exits holds of the state left. -/
theorem wp_snd {x : Act σ α} {I : σ → Prop} :
    wp x (fun _ => I) (fun _ => I) s ↔ I (x s).2 := by
  unfold wp
  rcases x s with ⟨- | -, s'⟩ <;> rfl

/-- What holds of either outcome holds of the outcome. -/
theorem wp_result {x : Act σ α} {P : Except Exn α → σ → Prop} :
    wp x (fun a => P (.ok a)) (fun e => P (.error e)) s ↔ P (x s).1 (x s).2 := by
  unfold wp
  rcases x s with ⟨- | -, s'⟩ <;> rfl

theorem wp_mono {x : Act σ α} (h : wp x Q E s) (hQ : ∀ a s', Q a s' → Q' a s')
    (hE : ∀ e s', E e s' → E' e s') : wp x Q' E' s := by
  unfold wp at h ⊢
  rcases hx : x s with ⟨e | a, s'⟩ <;> rw [hx] at h
  · exact hE e s' h
  · exact hQ a s' h

theorem wp_bind {x : Act σ β} {f : β → Act σ α} :
    wp (x >>= f) Q E s ↔ wp x (fun b s' => wp (f b) Q E s') E s := by
  rcases hx : x s with ⟨e | b, s'⟩
  · rw [wp, bind_of_error hx, wp, hx]
  · rw [wp, bind_of_ok hx, wp, hx]
    rfl

theorem wp_pure {a : α} : wp (pure a : Act σ α) Q E s ↔ Q a s := Iff.rfl

theorem wp_throw {e : Exn} : wp (throw e : Act σ α) Q E s ↔ E e s := Iff.rfl

theorem wp_get {Q : σ → σ → Prop} : wp get Q E s ↔ Q s s := Iff.rfl

theorem wp_modify {Q : Unit → σ → Prop} {f : σ → σ} : wp (modify f) Q E s ↔ Q () (f s) := Iff.rfl

theorem wp_ite {p : Prop} [Decidable p] {x y : Act σ α} :
    wp (if p then x else y) Q E s ↔ (p → wp x Q E s) ∧ (¬ p → wp y Q E s) := by
  split_ifs with hp <;> simp [hp]

theorem wp_zoom {part : τ → σ} {put : τ → σ → τ} {x : Act σ α} {t : τ} {Q : α → τ → Prop}
    {E : Exn → τ → Prop} : wp (zoom part put x) Q E t ↔
      wp x (fun a s' => Q a (put t s')) (fun e s' => E e (put t s')) (part t) := by
  unfold wp zoom
  rcases x (part t) with ⟨- | -, s'⟩ <;> rfl

theorem wp_onFst {x : Act σ α} {p : σ × τ} {Q : α → σ × τ → Prop} {E : Exn → σ × τ → Prop} :
    wp (onFst x) Q E p ↔ wp x (fun a s' => Q a (s', p.2)) (fun e s' => E e (s', p.2)) p.1 :=
  wp_zoom

/-- A read past the end aside, `v[i]` is the element, with any default. -/
theorem wp_element {what : String} {v : List α} {i : ℕ} (default : α) :
    wp (element what v i) Q E s ↔
      (i < v.length → Q (v.getD i default) s) ∧ (v.length ≤ i → E (.undefined what) s) := by
  unfold element
  rcases lt_or_ge i v.length with hi | hi
  · simp [hi, wp_pure, Nat.not_le.mpr hi]
  · simp [hi, wp_throw, Nat.not_lt.mpr hi]

theorem wp_elementAt {v : List α} {i : ℕ} (default : α) :
    wp (elementAt v i) Q E s ↔
      (i < v.length → Q (v.getD i default) s) ∧ (v.length ≤ i → E (.outOfRange "at") s) := by
  unfold elementAt
  rcases lt_or_ge i v.length with hi | hi
  · simp [hi, wp_pure, Nat.not_le.mpr hi]
  · simp [hi, wp_throw, Nat.not_lt.mpr hi]

theorem wp_withLocal {init : τ} {x : Act (σ × τ) α} {Q : α × τ → σ → Prop} :
    wp (withLocal init x) Q E s ↔
      wp x (fun a p => Q (a, p.2) p.1) (fun e p => E e p.1) (s, init) := by
  unfold wp withLocal
  rcases x (s, init) with ⟨- | -, p⟩ <;> rfl

theorem wp_tryCatch {x : Act σ α} {handle : Exn → Act σ α} :
    wp (tryCatch x handle) Q E s ↔ wp x Q (fun e s' => wp (handle e) Q E s') s := by
  rcases hx : x s with ⟨e | a, s'⟩
  · rw [wp, tryCatch_of_error hx, wp, hx]
    rfl
  · rw [wp, tryCatch_of_ok hx, wp, hx]

/-- A `runtime_error` is caught, and nothing else is. -/
theorem wp_attempt {x : Act σ α} {Q : Bool → σ → Prop}
    (h : wp x (fun _ s' => Q true s')
      (fun e s' => (∀ what, e = .runtimeError what → Q false s') ∧
        ((∀ what, e ≠ .runtimeError what) → E e s')) s) : wp (attempt x) Q E s := by
  unfold attempt
  rw [wp_tryCatch, wp_bind]
  refine wp_mono h (fun _ _ hQ => hQ) fun e s' hE => ?_
  cases e with
  | runtimeError what => exact hE.1 what rfl
  | outOfRange what => exact hE.2 (by simp)
  | lengthError what => exact hE.2 (by simp)
  | undefined what => exact hE.2 (by simp)

/-- Something is thrown either way. -/
theorem wp_rethrow {text : String} {x : Act σ α} (h : wp x Q (fun _ s' => ∀ e, E e s') s) :
    wp (rethrow text x) Q E s := by
  unfold rethrow
  rw [wp_tryCatch]
  refine wp_mono h (fun _ _ hQ => hQ) ?_
  intro e s' hE
  cases e <;> exact hE _

/-- **What a function keeps true** of its object, whatever it returns or
throws. -/
def Preserves (I : σ → Prop) (x : Act σ α) : Prop := ∀ s, I s → wp x (fun _ => I) (fun _ => I) s

variable {I : σ → Prop}

theorem Preserves.snd {x : Act σ α} (hx : Preserves I x) (hs : I s) : I (x s).2 :=
  wp_snd.mp (hx s hs)

theorem preserves_true (x : Act σ α) : Preserves (fun _ => True) x := fun _ _ => wp_snd.mpr trivial

theorem preserves_pure (a : α) : Preserves I (pure a : Act σ α) := fun _ hs => hs

theorem preserves_throw (e : Exn) : Preserves I (throw e : Act σ α) := fun _ hs => hs

theorem preserves_modify {f : σ → σ} (hf : ∀ s, I s → I (f s)) : Preserves I (modify f) := hf

theorem Preserves.bind {x : Act σ β} {f : β → Act σ α} (hx : Preserves I x)
    (hf : ∀ b, Preserves I (f b)) : Preserves I (x >>= f) := by
  intro s hs
  rw [wp_bind]
  exact wp_mono (hx s hs) (fun b s' hs' => hf b s' hs') fun _ _ hs' => hs'

theorem preserves_get : Preserves I get := fun _ hs => hs

theorem Preserves.ite {p : Prop} [Decidable p] {x y : Act σ α} (hx : Preserves I x)
    (hy : Preserves I y) : Preserves I (if p then x else y) := by
  split_ifs
  · exact hx
  · exact hy

/-- A check that throws, before the rest of the function. -/
theorem preserves_guard {p : Prop} [Decidable p] {e : Exn} {rest : Unit → Act σ α}
    (hrest : Preserves I (rest ())) :
    Preserves I (if p then (throw e : Act σ Unit) >>= rest else rest ()) := by
  split_ifs
  · exact fun _ hs => hs
  · exact hrest

theorem preserves_element (what : String) (v : List α) (i : ℕ) :
    Preserves I (element what v i : Act σ α) := by
  unfold element
  split
  · exact preserves_pure _
  · exact preserves_throw _

/-- On a part of the object, where the rest does not matter. -/
theorem Preserves.zoom {J : τ → Prop} {part : τ → σ} {put : τ → σ → τ} {x : Act σ α}
    (hx : Preserves I x) (hpart : ∀ t, J t → I (part t)) (hput : ∀ t s', J t → I s' → J (put t s')) :
    Preserves J (zoom part put x) := by
  intro t ht
  rw [wp_zoom]
  exact wp_mono (hx _ (hpart t ht)) (fun _ s' hs' => hput t s' ht hs') fun _ s' hs' => hput t s' ht hs'

theorem Preserves.tryCatch {x : Act σ α} {handle : Exn → Act σ α} (hx : Preserves I x)
    (hhandle : ∀ e, Preserves I (handle e)) : Preserves I (tryCatch x handle) := by
  intro s hs
  rw [wp_tryCatch]
  exact wp_mono (hx s hs) (fun _ _ hs' => hs') fun e s' hs' => hhandle e s' hs'

theorem Preserves.attempt {x : Act σ α} (hx : Preserves I x) : Preserves I (attempt x) := by
  refine (hx.bind fun _ => preserves_pure true).tryCatch fun e => ?_
  cases e
  case runtimeError => exact preserves_pure false
  all_goals exact preserves_throw _

theorem Preserves.rethrow {text : String} {x : Act σ α} (hx : Preserves I x) :
    Preserves I (rethrow text x) := by
  refine hx.tryCatch fun e => ?_
  cases e <;> exact preserves_throw _

end Act

/-! ## Containers -/

/-- `map[key]`: the mapped value, after a default has been inserted for a
key that had none. -/
def subscript {κ β : Type} [DecidableEq κ] (default : β) (key : κ) (map : Finmap fun _ : κ => β) :
    β × Finmap fun _ : κ => β :=
  match map.lookup key with
  | some value => (value, map)
  | none => (default, map.insert key default)

theorem subscript_fst {κ β : Type} [DecidableEq κ] (default : β) (key : κ)
    (map : Finmap fun _ : κ => β) :
    (subscript default key map).1 = (map.lookup key).getD default := by
  unfold subscript
  cases map.lookup key <;> rfl

theorem subscript_of_some {κ β : Type} [DecidableEq κ] {default value : β} {key : κ}
    {map : Finmap fun _ : κ => β} (h : map.lookup key = some value) :
    subscript default key map = (value, map) := by
  unfold subscript
  rw [h]

theorem erase_of_lookup_none {κ β : Type} [DecidableEq κ] {key : κ} {map : Finmap fun _ : κ => β}
    (h : map.lookup key = none) : map.erase key = map := by
  refine Finmap.ext_lookup fun k => ?_
  rcases eq_or_ne k key with rfl | hne
  · rw [Finmap.lookup_erase, h]
  · rw [Finmap.lookup_erase_ne hne]

/-- Erasing the key undoes the insertion of the default. -/
theorem erase_subscript_snd {κ β : Type} [DecidableEq κ] (default : β) (key : κ)
    (map : Finmap fun _ : κ => β) :
    (subscript default key map).2.erase key = map.erase key := by
  unfold subscript
  cases h : map.lookup key with
  | some value => rfl
  | none =>
      refine Finmap.ext_lookup fun k => ?_
      rcases eq_or_ne k key with rfl | hne
      · simp
      · rw [Finmap.lookup_erase_ne hne, Finmap.lookup_erase_ne hne, Finmap.lookup_insert_of_ne _ hne]

/-- `if (v.size() < n) v.resize(n);` -/
def growTo {β : Type} (default : β) (n : ℕ) (v : List β) : List β :=
  if v.length < n then v ++ List.replicate (n - v.length) default else v

/-- `v.resize(n);` -/
def resize {β : Type} (default : β) (n : ℕ) (v : List β) : List β :=
  v.take n ++ List.replicate (n - v.length) default

theorem length_growTo {β : Type} (default : β) (n : ℕ) (v : List β) :
    (growTo default n v).length = max v.length n := by
  unfold growTo
  split_ifs
  · rw [List.length_append, List.length_replicate]
    omega
  · omega

theorem length_resize {β : Type} (default : β) (n : ℕ) (v : List β) :
    (resize default n v).length = n := by
  unfold resize
  rw [List.length_append, List.length_take, List.length_replicate]
  omega

/-- Growing changes no element, if one reads the default past the end. -/
theorem getD_growTo {β : Type} (default : β) (n i : ℕ) (v : List β) :
    (growTo default n v).getD i default = v.getD i default := by
  unfold growTo
  split_ifs with hlt
  · rcases lt_or_ge i v.length with hi | hi
    · rw [List.getD_append _ _ _ _ hi]
    · rw [List.getD_append_right _ _ _ _ hi, List.getD_eq_default _ _ hi]
      rcases lt_or_ge (i - v.length) (n - v.length) with hin | hin
      · rw [List.getD_replicate _ hin]
      · rw [List.getD_eq_default _ _ (by rwa [List.length_replicate])]
  · rfl

/-- Resizing to no less is growing. -/
theorem resize_eq_growTo {β : Type} {default : β} {n : ℕ} {v : List β} (h : v.length ≤ n) :
    resize default n v = growTo default n v := by
  unfold resize growTo
  rw [List.take_of_length_le h]
  split_ifs with hlt
  · rfl
  · rw [Nat.sub_eq_zero_of_le (Nat.not_lt.mp hlt), List.replicate_zero, List.append_nil]

/-- A write to an element shows there and nowhere else. -/
theorem getD_set {β : Type} {default x : β} {v : List β} {i : ℕ} (hi : i < v.length) (j : ℕ) :
    (v.set i x).getD j default = if j = i then x else v.getD j default := by
  split_ifs with hj
  · subst hj
    rw [List.getD_eq_getElem _ _ (by rwa [List.length_set]), List.getElem_set_self]
  · simp only [List.getD_eq_getElem?_getD]
    rw [List.getElem?_set_ne (fun he => hj he.symm)]

/-- An entry of a map stands in front of the rest of it. -/
theorem entries_eq_cons_erase {κ β : Type} [DecidableEq κ] {key : κ} {value : β}
    {map : Finmap fun _ : κ => β} (h : map.lookup key = some value) :
    map.entries = ⟨key, value⟩ ::ₘ (map.erase key).entries := by
  rw [← Finmap.entries_insert_of_notMem Finmap.notMem_erase_self]
  congr 1
  refine Finmap.ext_lookup fun k => ?_
  rcases eq_or_ne k key with rfl | hne
  · rw [Finmap.lookup_insert, h]
  · rw [Finmap.lookup_insert_of_ne _ hne, Finmap.lookup_erase_ne hne]

end RdmaManager
