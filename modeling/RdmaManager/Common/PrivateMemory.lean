import Mathlib.Data.List.GetD
import Mathlib.Data.List.Range
import Mathlib.Logic.Function.Basic
import RdmaManager.Common.Refinement
/-!
# Private memories in a shared one

A memory is a function of its addresses; `window` reads consecutive cells
of it and `splice` writes them. Owners of a private memory each
(`privateMemory`) are what the holders of disjoint blocks of one shared
memory are to look like: what a holder sees of it is a `view`, and the
four lemmas on views say what becomes of it when the holder gets a block,
gives one back, and when a range of the shared memory is written.

In a private memory an owner finds what it left (`finds_what_it_left`).
-/

namespace RdmaManager

variable {β ι : Type*} {mem : ℕ → β} {data : List β} {start len p : ℕ}

/-! ## Reading and writing a range -/

/-- The `len` cells from `start` on. -/
def window (mem : ℕ → β) (start len : ℕ) : List β := (List.range' start len).map mem

/-- The memory after `data` was written from `start` on. -/
def splice (mem : ℕ → β) (start : ℕ) (data : List β) (p : ℕ) : β :=
  if start ≤ p then data.getD (p - start) (mem p) else mem p

@[simp] theorem length_window : (window mem start len).length = len := by
  rw [window, List.length_map, List.length_range']

theorem getElem?_window {i : ℕ} (h : i < len) : (window mem start len)[i]? = some (mem (start + i)) := by
  rw [window, List.getElem?_map, List.getElem?_range' h, Nat.one_mul]
  rfl

theorem take_window (mem : ℕ → β) (start : ℕ) {k n : ℕ} (h : k ≤ n) :
    (window mem start n).take k = window mem start k := by
  unfold window
  rw [← List.map_take, List.take_range'_of_length_ge h]

theorem window_congr {mem' : ℕ → β} (h : ∀ p, start ≤ p → p < start + len → mem p = mem' p) :
    window mem start len = window mem' start len := by
  refine List.map_congr_left fun p hp => ?_
  rw [List.mem_range'_1] at hp
  exact h p hp.1 hp.2

theorem splice_of_outside (h : p < start ∨ start + data.length ≤ p) :
    splice mem start data p = mem p := by
  unfold splice
  split_ifs with hle
  · exact List.getD_eq_default _ _ (by omega)
  · rfl

@[simp] theorem splice_nil : splice mem start [] = mem :=
  funext fun p => splice_of_outside (by rw [List.length_nil]; omega)

theorem splice_of_inside (hle : start ≤ p) (hlt : p < start + data.length) :
    some (splice mem start data p) = data[p - start]? := by
  unfold splice
  rw [if_pos hle, List.getD_eq_getElem?_getD, List.getElem?_eq_getElem (by omega)]
  rfl

/-- What was written is read back. -/
theorem window_splice (mem : ℕ → β) (start : ℕ) (data : List β) :
    window (splice mem start data) start data.length = data := by
  refine List.ext_getElem? fun i => ?_
  rcases Nat.lt_or_ge i data.length with hlt | hge
  · rw [getElem?_window hlt, splice_of_inside (by omega) (by omega), Nat.add_sub_cancel_left]
  · rw [List.getElem?_eq_none (by rw [length_window]; exact hge), List.getElem?_eq_none hge]

/-- A range apart from what was written reads as before. -/
theorem window_splice_of_apart {start' : ℕ}
    (h : start' + len ≤ start ∨ start + data.length ≤ start') :
    window (splice mem start data) start' len = window mem start' len :=
  window_congr fun p hle hlt => splice_of_outside (by omega)

/-- Two memories agree on a range cell by cell. -/
theorem window_eq_iff {mem' : ℕ → β} :
    window mem start len = window mem' start len ↔
      ∀ p, start ≤ p → p < start + len → mem p = mem' p := by
  refine ⟨fun h p hle hlt => ?_, window_congr⟩
  have hcell := congrArg (·[p - start]?) h
  have haddr : start + (p - start) = p := by omega
  simpa only [getElem?_window (show p - start < len by omega), haddr, Option.some.injEq] using hcell

/-- Memories that agree on a range agree on its parts. -/
theorem window_eq_of_part {mem' : ℕ → β} {start' len' : ℕ}
    (h : window mem start len = window mem' start len) (hle : start ≤ start')
    (hlt : start' + len' ≤ start + len) : window mem start' len' = window mem' start' len' := by
  rw [window_eq_iff] at h ⊢
  intro p hp hp'
  exact h p (by omega) (by omega)

/-- Memories that agree on a range agree on it after the same data is
written to both. -/
theorem window_splice_congr {mem' : ℕ → β} {start' : ℕ}
    (h : window mem start len = window mem' start len) :
    window (splice mem start' data) start len = window (splice mem' start' data) start len := by
  rw [window_eq_iff] at h ⊢
  intro p hle hlt
  unfold splice
  split_ifs
  · rw [h p hle hlt]
  · exact h p hle hlt

/-! ## What a holder of blocks sees -/

/-- The address lies in one of the blocks, which are given by where they
start and how long they are. -/
def Covers (blocks : ℕ → Option ℕ) (p : ℕ) : Prop := ∃ k n, blocks k = some n ∧ k ≤ p ∧ p < k + n

open Classical in
/-- **The view of a holder**: the cells of its blocks, which lie in the
memory from `base` on. -/
noncomputable def view (mem : ℕ → β) (base : ℕ) (blocks : ℕ → Option ℕ) (p : ℕ) : Option β :=
  if Covers blocks p then some (mem (base + p)) else none

variable {base k n : ℕ} {blocks : ℕ → Option ℕ}

theorem view_of_covers (h : Covers blocks p) : view mem base blocks p = some (mem (base + p)) := if_pos h

theorem view_of_not_covers (h : ¬ Covers blocks p) : view mem base blocks p = none := if_neg h

theorem view_none : view mem base (fun _ => none) = fun _ => none := by
  funext p
  refine view_of_not_covers ?_
  rintro ⟨k, n, hk, -, -⟩
  simp at hk

theorem view_congr {mem' : ℕ → β} {blocks' : ℕ → Option ℕ}
    (hcovers : Covers blocks' p ↔ Covers blocks p)
    (hmem : Covers blocks p → mem' (base + p) = mem (base + p)) :
    view mem' base blocks' p = view mem base blocks p := by
  by_cases h : Covers blocks p
  · rw [view_of_covers (hcovers.mpr h), view_of_covers h, hmem h]
  · rw [view_of_not_covers (mt hcovers.mp h), view_of_not_covers h]

theorem covers_update_some (h : blocks k = none) :
    Covers (Function.update blocks k (some n)) p ↔ Covers blocks p ∨ k ≤ p ∧ p < k + n := by
  constructor
  · rintro ⟨j, m, hj, hle, hlt⟩
    rcases eq_or_ne j k with rfl | hne
    · rw [Function.update_self] at hj
      obtain rfl := Option.some.inj hj
      exact Or.inr ⟨hle, hlt⟩
    · rw [Function.update_of_ne hne] at hj
      exact Or.inl ⟨j, m, hj, hle, hlt⟩
  · rintro (⟨j, m, hj, hle, hlt⟩ | ⟨hle, hlt⟩)
    · have hne : j ≠ k := by
        rintro rfl
        rw [h] at hj
        simp at hj
      exact ⟨j, m, by rw [Function.update_of_ne hne, hj], hle, hlt⟩
    · exact ⟨k, n, Function.update_self _ _ _, hle, hlt⟩

/-- The block `k` shares no address with another one. -/
def BlockApart (blocks : ℕ → Option ℕ) (k n : ℕ) : Prop :=
  ∀ j m, j ≠ k → blocks j = some m → j + m ≤ k ∨ k + n ≤ j

theorem covers_update_none (hk : blocks k = some n) (hapart : BlockApart blocks k n) :
    Covers (Function.update blocks k none) p ↔ Covers blocks p ∧ ¬ (k ≤ p ∧ p < k + n) := by
  constructor
  · rintro ⟨j, m, hj, hle, hlt⟩
    rcases eq_or_ne j k with rfl | hne
    · rw [Function.update_self] at hj
      simp at hj
    · rw [Function.update_of_ne hne] at hj
      refine ⟨⟨j, m, hj, hle, hlt⟩, fun hin => ?_⟩
      have := hapart j m hne hj
      omega
  · rintro ⟨⟨j, m, hj, hle, hlt⟩, hout⟩
    have hne : j ≠ k := by
      rintro rfl
      rw [hk] at hj
      obtain rfl := Option.some.inj hj
      exact hout ⟨hle, hlt⟩
    exact ⟨j, m, by rw [Function.update_of_ne hne, hj], hle, hlt⟩

/-- A covered range is seen as it is. -/
theorem window_view (h : ∀ p, start ≤ p → p < start + len → Covers blocks p) :
    window (view mem base blocks) start len = (window mem (base + start) len).map some := by
  refine List.ext_getElem? fun i => ?_
  rcases Nat.lt_or_ge i len with hlt | hge
  · rw [getElem?_window hlt, view_of_covers (h _ (by omega) (by omega)), List.getElem?_map,
      getElem?_window hlt, Nat.add_assoc]
    rfl
  · rw [List.getElem?_eq_none (by rw [length_window]; exact hge),
      List.getElem?_eq_none (by rw [List.length_map, length_window]; exact hge)]

/-- What is seen of a range is there. -/
theorem window_of_view (h : window (view mem base blocks) start data.length = data.map some) :
    window mem (base + start) data.length = data := by
  have hcovers : ∀ p, start ≤ p → p < start + data.length → Covers blocks p := by
    intro p hle hlt
    by_contra hcov
    have hcell := congrArg (·[p - start]?) h
    have haddr : start + (p - start) = p := by omega
    simp only [getElem?_window (show p - start < data.length by omega), haddr,
      view_of_not_covers hcov, List.getElem?_map,
      List.getElem?_eq_getElem (show p - start < data.length by omega)] at hcell
    simp at hcell
  rw [window_view hcovers] at h
  exact (List.map_injective_iff.mpr fun _ _ => Option.some.inj) h

/-- Nothing is seen of a range apart from the blocks. -/
theorem window_view_of_apart (h : ∀ p, start ≤ p → p < start + len → ¬ Covers blocks p) :
    window (view mem base blocks) start len = List.replicate len none := by
  refine List.eq_replicate_iff.mpr ⟨length_window, fun v hv => ?_⟩
  obtain ⟨p, hp, rfl⟩ := List.mem_map.mp hv
  rw [List.mem_range'_1] at hp
  exact view_of_not_covers (h p hp.1 hp.2)

/-- **The holder gets a block.** -/
theorem view_update_some (h : blocks k = none) :
    view mem base (Function.update blocks k (some n)) =
      splice (view mem base blocks) k ((window mem (base + k) n).map some) := by
  have hlen : ((window mem (base + k) n).map some).length = n := by
    rw [List.length_map, length_window]
  funext p
  by_cases hin : k ≤ p ∧ p < k + n
  · refine Option.some.inj ?_
    rw [splice_of_inside hin.1 (by rw [hlen]; exact hin.2), List.getElem?_map,
      getElem?_window (by omega), view_of_covers ((covers_update_some h).mpr (Or.inr hin))]
    have haddr : base + k + (p - k) = base + p := by omega
    rw [haddr]
    rfl
  · rw [splice_of_outside (by rw [hlen]; omega)]
    refine view_congr ?_ fun _ => rfl
    rw [covers_update_some h, or_iff_left hin]

/-- **It gives one back.** -/
theorem view_update_none (hk : blocks k = some n) (hapart : BlockApart blocks k n) :
    view mem base (Function.update blocks k none) =
      splice (view mem base blocks) k (List.replicate n none) := by
  funext p
  by_cases hin : k ≤ p ∧ p < k + n
  · refine Option.some.inj ?_
    rw [splice_of_inside hin.1 (by rw [List.length_replicate]; exact hin.2),
      List.getElem?_replicate_of_lt (by omega),
      view_of_not_covers fun hcov => ((covers_update_none hk hapart).mp hcov).2 hin]
  · rw [splice_of_outside (by rw [List.length_replicate]; omega)]
    refine view_congr ?_ fun _ => rfl
    rw [covers_update_none hk hapart, and_iff_left hin]

/-- **A range of its blocks is written.** -/
theorem view_splice (h : ∀ p, start ≤ p → p < start + data.length → Covers blocks p) :
    view (splice mem (base + start) data) base blocks =
      splice (view mem base blocks) start (data.map some) := by
  funext p
  by_cases hin : start ≤ p ∧ p < start + data.length
  · refine Option.some.inj ?_
    rw [splice_of_inside hin.1 (by rw [List.length_map]; exact hin.2), List.getElem?_map,
      view_of_covers (h p hin.1 hin.2), splice_of_inside (by omega) (by omega)]
    have haddr : base + p - (base + start) = p - start := by omega
    rw [haddr, List.getElem?_eq_getElem (by omega)]
    rfl
  · rw [splice_of_outside (by rw [List.length_map]; omega)]
    exact view_congr Iff.rfl fun _ => splice_of_outside (by omega)

/-- **A range apart from its blocks is written.** -/
theorem view_splice_of_apart (h : ∀ p, start ≤ p → p < start + data.length → ¬ Covers blocks p) :
    view (splice mem (base + start) data) base blocks = view mem base blocks := by
  funext p
  refine view_congr Iff.rfl fun hcov => splice_of_outside ?_
  by_contra hout
  exact h p (by omega) (by omega) hcov

/-! ## Private memories -/

/-- What an owner of a private memory sees happen to it. -/
inductive MemoryEvent (ι β : Type*)
  /-- Cells come into it, with any contents. -/
  | granted (owner : ι) (start len : ℕ)
  /-- The owner finds `old` there and leaves `new`. -/
  | accessed (owner : ι) (start : ℕ) (old new : List β)
  | withdrawn (owner : ι) (start len : ℕ)

namespace MemoryEvent

/-- The event is one of another memory, or of other cells. -/
def Misses (owner : ι) (start len : ℕ) : MemoryEvent ι β → Prop
  | granted o start' len' => o = owner → start' + len' ≤ start ∨ start + len ≤ start'
  | accessed o start' _ new => o = owner → start' + new.length ≤ start ∨ start + len ≤ start'
  | withdrawn o start' len' => o = owner → start' + len' ≤ start ∨ start + len ≤ start'

end MemoryEvent

variable [DecidableEq ι]

/-- **A memory for each owner**, which only its own events change. -/
def privateMemory (ι β : Type*) [DecidableEq ι] : System (ι → ℕ → Option β) (MemoryEvent ι β) where
  Init own := own = fun _ _ => none
  Step own e own' :=
    match e with
    | .granted o start len =>
        window (own o) start len = List.replicate len none ∧ ∃ content : List β, content.length = len ∧
          own' = Function.update own o (splice (own o) start (content.map some))
    | .accessed o start old new =>
        window (own o) start old.length = old.map some ∧ new.length = old.length ∧
          own' = Function.update own o (splice (own o) start (new.map some))
    | .withdrawn o start len =>
        (∃ content : List β, content.length = len ∧ window (own o) start len = content.map some) ∧
          own' = Function.update own o (splice (own o) start (List.replicate len none))

variable {own own' : ι → ℕ → Option β} {owner : ι} {e : MemoryEvent ι β}

/-! ## Views that go on -/

section views

variable {o : ι} {blocks : ℕ → Option ℕ} (hview : own o = view mem base blocks)

include hview

/-- **A block that is granted** to a holder of others. -/
theorem step_granted (hnone : blocks k = none)
    (hapart : ∀ p, k ≤ p → p < k + n → ¬ Covers blocks p) :
    (privateMemory ι β).Step own (.granted o k n)
      (Function.update own o (view mem base (Function.update blocks k (some n)))) := by
  refine ⟨?_, window mem (base + k) n, length_window, ?_⟩
  · rw [hview]
    exact window_view_of_apart hapart
  · rw [hview, view_update_some hnone]

/-- **A block that is given back.** -/
theorem step_withdrawn (hk : blocks k = some n) (hapart : BlockApart blocks k n) :
    (privateMemory ι β).Step own (.withdrawn o k n)
      (Function.update own o (view mem base (Function.update blocks k none))) := by
  refine ⟨⟨window mem (base + k) n, length_window, ?_⟩, ?_⟩
  · rw [hview]
    exact window_view fun p hle hlt => ⟨k, n, hk, hle, hlt⟩
  · rw [hview, view_update_none hk hapart]

end views

/-- **A range of a block that is written**, of which no other holder sees
anything. -/
theorem step_accessed {views : ι → ℕ → Option ℕ} {o : ι}
    (hown : ∀ i, own i = view mem base (views i)) (hk : views o k = some n)
    (hle : k ≤ start) (hlt : start + data.length ≤ k + n)
    (hothers : ∀ i, i ≠ o → ∀ p, k ≤ p → p < k + n → ¬ Covers (views i) p) :
    (privateMemory ι β).Step own
      (.accessed o start (window mem (base + start) data.length) data)
      fun i => view (splice mem (base + start) data) base (views i) := by
  have hcovers : ∀ p, start ≤ p → p < start + data.length → Covers (views o) p := fun p hp hp' =>
    ⟨k, n, hk, by omega, by omega⟩
  refine ⟨?_, length_window.symm, funext fun i => ?_⟩
  · rw [hown, length_window]
    exact window_view hcovers
  · rcases eq_or_ne i o with rfl | hne
    · rw [Function.update_self, hown]
      exact view_splice hcovers
    · rw [Function.update_of_ne hne, hown]
      exact view_splice_of_apart fun p hp hp' => hothers i hne p (by omega) (by omega)

/-! ## What an owner finds -/

/-- A range that a splice into a memory misses reads as before. -/
theorem window_update_of_misses {o : ι} {start' : ℕ} {cells : List (Option β)}
    (h : o = owner → start' + cells.length ≤ start ∨ start + len ≤ start') :
    window (Function.update own o (splice (own o) start' cells) owner) start len =
      window (own owner) start len := by
  rcases eq_or_ne owner o with rfl | hne
  · rw [Function.update_self]
    exact window_splice_of_apart (by have := h rfl; omega)
  · rw [Function.update_of_ne hne]

theorem window_of_misses (hstep : (privateMemory ι β).Step own e own')
    (h : e.Misses owner start len) :
    window (own' owner) start len = window (own owner) start len := by
  cases e with
  | granted o start' len' =>
      obtain ⟨-, content, hlen, rfl⟩ := hstep
      exact window_update_of_misses (by rw [List.length_map, hlen]; exact h)
  | accessed o start' old new =>
      obtain ⟨-, -, rfl⟩ := hstep
      exact window_update_of_misses (by rw [List.length_map]; exact h)
  | withdrawn o start' len' =>
      obtain ⟨-, rfl⟩ := hstep
      exact window_update_of_misses (by rw [List.length_replicate]; exact h)

/-- What an owner left is there until an event of its own touches it. -/
theorem window_of_left {run : (ι → ℕ → Option β) × List (MemoryEvent ι β)}
    (hrun : (privateMemory ι β).traced.Reachable run) {pre mid : List (MemoryEvent ι β)} {old new : List β}
    (hevents : run.2 = pre ++ .accessed owner start old new :: mid)
    (hmid : ∀ e ∈ mid, e.Misses owner start new.length) :
    window (run.1 owner) start new.length = new.map some := by
  have hinv : (privateMemory ι β).traced.Invariant fun run => ∀ pre mid old new,
      run.2 = pre ++ .accessed owner start old new :: mid →
        (∀ e ∈ mid, MemoryEvent.Misses owner start new.length e) →
          window (run.1 owner) start new.length = new.map some := by
    refine ⟨fun run hinit pre mid old new hevents => ?_, ?_⟩
    · rw [hinit.2] at hevents
      simp at hevents
    · intro run e run' _ ih hstep pre mid old new hevents hmid
      have hlog : run'.2 = run.2 ++ [e] := hstep.2
      rw [hlog] at hevents
      rcases List.eq_nil_or_concat mid with rfl | ⟨mid, e', rfl⟩
      · -- the access itself
        obtain ⟨-, he⟩ := List.append_inj' hevents rfl
        obtain rfl := List.singleton_inj.mp he
        obtain ⟨-, hlen, heq⟩ := hstep.1
        have hwindow := window_splice (run.1 owner) start (new.map some)
        rw [List.length_map] at hwindow
        rw [heq, Function.update_self, hwindow]
      · rw [List.concat_eq_append, ← List.cons_append, ← List.append_assoc] at hevents
        obtain ⟨hbefore, he⟩ := List.append_inj' hevents rfl
        obtain rfl := List.singleton_inj.mp he
        rw [List.concat_eq_append] at hmid
        rw [window_of_misses hstep.1 (hmid e (by simp))]
        exact ih pre mid old new hbefore fun e' he' => hmid e' (by simp [he'])
  exact hinv.reachable hrun pre mid old new hevents hmid

/-- **An owner finds what it left**, whatever else has happened that is not
an event of its own on those cells. -/
theorem finds_what_it_left {run run' : (ι → ℕ → Option β) × List (MemoryEvent ι β)}
    (hrun : (privateMemory ι β).traced.Reachable run) {pre mid : List (MemoryEvent ι β)}
    {old new old' new' : List β} (hevents : run.2 = pre ++ .accessed owner start old new :: mid)
    (hmid : ∀ e ∈ mid, e.Misses owner start new.length)
    (hstep : (privateMemory ι β).traced.Step run (.accessed owner start old' new') run')
    (hlen : old'.length = new.length) : old' = new := by
  have hleft := window_of_left hrun hevents hmid
  obtain ⟨⟨hfound, -, -⟩, -⟩ := hstep
  rw [hlen, hleft] at hfound
  exact ((List.map_injective_iff.mpr fun _ _ => Option.some.inj) hfound).symm

end RdmaManager
