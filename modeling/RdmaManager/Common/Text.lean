import Mathlib.Algebra.Ring.Int.Defs
import Mathlib.Algebra.Ring.Nat
import Mathlib.Data.Int.Notation
import Mathlib.Data.List.DropRight
import Mathlib.Data.List.Infix
import Mathlib.Data.Nat.Notation
/-!
# Text, as the C++ library reads it

A string is a list of characters. `integer` reads an integer the way
`strtol` does: white space, a sign and digits, up to the first character
that is none. `strtoul` reads one in the base that its digits announce.
`rfind` finds the last occurrence of a word.
-/

namespace RdmaManager

/-- What a conversion of a string throws; `undefined` as for `Exn`. -/
inductive ParseError
  | invalidArgument
  | outOfRange
  | undefined
  deriving DecidableEq, Repr

namespace Text

variable {s t w ds rest sub : List Char} {c : Char}

/-- `isspace`. -/
def isSpace (c : Char) : Bool := c = ' ' || (9 ≤ c.toNat && c.toNat ≤ 13)

/-- The value of a digit. -/
def digitValue (c : Char) : ℕ := c.toNat - 48

/-- The value of a digit of a hexadecimal number. -/
def hexDigitValue (c : Char) : ℕ := if c.isDigit then digitValue c else c.toUpper.toNat - 55

/-- The number that digits stand for. -/
def decimal (ds : List Char) : ℕ := ds.foldl (fun n d => 10 * n + digitValue d) 0

/-- All of it is white space. -/
def Blank (s : List Char) : Prop := ∀ c ∈ s, isSpace c = true

/-- It is a row of digits. -/
def Digits (s : List Char) : Prop := s ≠ [] ∧ ∀ c ∈ s, c.isDigit = true

instance (s : List Char) : Decidable (Digits s) :=
  decidable_of_iff (s ≠ [] ∧ s.all Char.isDigit = true) (and_congr_right fun _ => List.all_eq_true)

/-- It does not begin with a digit. -/
def Ends (s : List Char) : Prop := ∀ c ∈ s.head?, c.isDigit = false

/-- The sign in front, as whether it is a minus, and what follows. -/
def sign : List Char → Bool × List Char
  | '-' :: s => (true, s)
  | '+' :: s => (false, s)
  | s => (false, s)

/-- **`strtol`, base 10**: the integer in front and the characters after it,
if there is one. -/
def integer (s : List Char) : Option (ℤ × List Char) :=
  let p := sign (s.dropWhile isSpace)
  let ds := p.2.takeWhile Char.isDigit
  if ds = [] then none
  else some (if p.1 then -(decimal ds : ℤ) else decimal ds, p.2.dropWhile Char.isDigit)

/-- The values of an `int`. -/
def IsInt (z : ℤ) : Prop := -2 ^ 31 ≤ z ∧ z < 2 ^ 31

instance (z : ℤ) : Decidable (IsInt z) := inferInstanceAs (Decidable (_ ∧ _))

/-- `std::stoi`. -/
def stoi (s : List Char) : Except ParseError ℤ :=
  match integer s with
  | none => .error .invalidArgument
  | some (z, _) => if IsInt z then .ok z else .error .outOfRange

/-- It throws. -/
def Throws (r : Except ParseError ℤ) : Prop := ∃ e, r = .error e ∧ e ≠ .undefined

/-- The digits of an octal number. -/
def isOctDigit (c : Char) : Bool := 48 ≤ c.toNat && c.toNat ≤ 55

/-- The base that the digits themselves announce, its digits, and where they
begin. -/
def announced : List Char → ℕ × (Char → Bool) × List Char
  | '0' :: x :: c :: s =>
      if x.toUpper = 'X' ∧ c.isHexDigit then (16, Char.isHexDigit, c :: s)
      else (8, isOctDigit, '0' :: x :: c :: s)
  | '0' :: s => (8, isOctDigit, '0' :: s)
  | s => (10, Char.isDigit, s)

/-- The integer in front, in the base that it announces. -/
def integerAuto (s : List Char) : Option ℤ :=
  let p := sign (s.dropWhile isSpace)
  let a := announced p.2
  let ds := a.2.2.takeWhile a.2.1
  if ds = [] then none
  else
    let n := ds.foldl (fun n d => a.1 * n + hexDigitValue d) 0
    some (if p.1 then -(n : ℤ) else n)

/-- `strtoul`, base 0: what is too large becomes the largest value, and a
minus is taken modulo `2 ^ 64`. -/
def strtoul (s : List Char) : ℤ :=
  match integerAuto s with
  | none => 0
  | some z => if z.natAbs < 2 ^ 64 then z % 2 ^ 64 else 2 ^ 64 - 1

/-- `std::string::rfind`. -/
def rfind (sub : List Char) : List Char → Option ℕ
  | [] => if sub = [] then some 0 else none
  | c :: s =>
      match rfind sub s with
      | some i => some (i + 1)
      | none => if sub <+: c :: s then some 0 else none

/-! ## Reading an integer -/

theorem not_isDigit_of_isSpace (h : isSpace c = true) : c.isDigit = false := by
  unfold isSpace at h
  rw [Bool.or_eq_true, Bool.and_eq_true, decide_eq_true_iff, decide_eq_true_iff,
    decide_eq_true_iff] at h
  rw [Bool.eq_false_iff]
  intro hdigit
  have hge : 48 ≤ c.toNat := by
    simp only [Char.isDigit, Bool.and_eq_true, decide_eq_true_iff] at hdigit
    exact hdigit.1
  rcases h with rfl | h
  · exact absurd hge (by decide)
  · omega

theorem Digits.head_not_isSpace (h : Digits (c :: ds)) : isSpace c = false := by
  rw [Bool.eq_false_iff]
  intro hspace
  have hdigit := h.2 c List.mem_cons_self
  rw [not_isDigit_of_isSpace hspace] at hdigit
  exact absurd hdigit (by decide)

theorem Blank.append (h : Blank s) (h' : Blank t) : Blank (s ++ t) := by
  intro c hc
  rcases List.mem_append.mp hc with hc | hc
  · exact h c hc
  · exact h' c hc

theorem Blank.dropWhile (h : Blank w) (p : Char → Bool) : Blank (w.dropWhile p) :=
  fun c hc => h c ((List.dropWhile_sublist p).subset hc)

theorem Blank.rdropWhile (h : Blank w) (p : Char → Bool) : Blank (w.rdropWhile p) :=
  fun c hc => h c ((List.rdropWhile_prefix p w).subset hc)

/-- What white space is dropped from, up to something else. -/
theorem dropWhile_blank_append (hw : Blank w) (hc : isSpace c = false) :
    (w ++ c :: s).dropWhile isSpace = c :: s := by
  rw [List.dropWhile_append_of_pos hw, List.dropWhile_cons_of_neg (by rw [hc]; decide)]

theorem Blank.ends (h : Blank t) : Ends t :=
  fun c hc => not_isDigit_of_isSpace (h c (List.mem_of_mem_head? hc))

theorem takeWhile_digits_append (hds : ∀ c ∈ ds, c.isDigit = true) (ht : Ends t) :
    (ds ++ t).takeWhile Char.isDigit = ds := by
  rw [List.takeWhile_append_of_pos hds]
  cases t with
  | nil => rw [List.takeWhile_nil, List.append_nil]
  | cons c t =>
      have hc := ht c rfl
      rw [List.takeWhile_cons_of_neg (by rw [hc]; decide), List.append_nil]

theorem dropWhile_digits_append (hds : ∀ c ∈ ds, c.isDigit = true) (ht : Ends t) :
    (ds ++ t).dropWhile Char.isDigit = t := by
  have hwhole := List.takeWhile_append_dropWhile (p := Char.isDigit) (l := ds ++ t)
  rw [takeWhile_digits_append hds ht] at hwhole
  exact List.append_cancel_left hwhole

theorem sign_of_ne (h : c ≠ '-') (h' : c ≠ '+') : sign (c :: s) = (false, c :: s) := by
  unfold sign
  split
  · next heq => exact absurd (List.cons.inj heq).1 h
  · next heq => exact absurd (List.cons.inj heq).1 h'
  · rfl

/-- A digit is no sign. -/
theorem sign_digits (hds : Digits ds) : sign (ds ++ rest) = (false, ds ++ rest) := by
  cases ds with
  | nil => exact absurd rfl hds.1
  | cons c ds =>
      have hdigit := hds.2 c List.mem_cons_self
      refine sign_of_ne ?_ ?_
      · rintro rfl
        exact absurd hdigit (by decide)
      · rintro rfl
        exact absurd hdigit (by decide)

theorem dropWhile_blank_digits (hw : Blank w) (hds : Digits ds) :
    (w ++ (ds ++ t)).dropWhile isSpace = ds ++ t := by
  cases ds with
  | nil => exact absurd rfl hds.1
  | cons c ds => exact dropWhile_blank_append hw hds.head_not_isSpace

/-- **Digits behind white space are read as their number.** -/
theorem integer_digits (hw : Blank w) (hds : Digits ds) (ht : Ends t) :
    integer (w ++ (ds ++ t)) = some ((decimal ds : ℤ), t) := by
  unfold integer
  rw [dropWhile_blank_digits hw hds]
  simp only
  rw [sign_digits hds]
  simp only
  rw [takeWhile_digits_append hds.2 ht, if_neg hds.1, dropWhile_digits_append hds.2 ht]
  rfl

theorem integer_minus_digits (hds : Digits ds) (ht : Ends t) :
    integer ('-' :: (ds ++ t)) = some (-(decimal ds : ℤ), t) := by
  unfold integer
  rw [List.dropWhile_cons_of_neg (by decide)]
  simp only [sign]
  rw [takeWhile_digits_append hds.2 ht, if_neg hds.1, dropWhile_digits_append hds.2 ht]
  rfl

theorem stoi_digits (hw : Blank w) (hds : Digits ds) (ht : Blank t) :
    stoi (w ++ (ds ++ t)) =
      if decimal ds < 2 ^ 31 then .ok (decimal ds : ℤ) else .error .outOfRange := by
  unfold stoi
  rw [integer_digits hw hds ht.ends]
  simp only
  have hint : IsInt (decimal ds) ↔ decimal ds < 2 ^ 31 := by
    unfold IsInt
    omega
  by_cases h : decimal ds < 2 ^ 31
  · rw [if_pos (hint.mpr h), if_pos h]
  · rw [if_neg (mt hint.mp h), if_neg h]

/-- A number is printed in digits. -/
theorem digits_toDigits (n : ℕ) : Digits (Nat.toDigits 10 n) :=
  ⟨Nat.toDigits_ne_nil, fun _ hc => Nat.isDigit_of_mem_toDigits (by decide) (by decide) hc⟩

/-- The digits that are printed stand for the number. -/
theorem decimal_toDigits (n : ℕ) : decimal (Nat.toDigits 10 n) = n := by
  have hread := Nat.ofDigitChars_ten_toDigits (n := n)
  rwa [Nat.ofDigitChars_eq_foldl] at hread

/-- **What `stoi` throws at**: no integer in front, or one that is none of an
`int`. -/
theorem stoi_throws_iff :
    Throws (stoi s) ↔ ∀ z, (integer s).map Prod.fst = some z → ¬ IsInt z := by
  unfold Throws stoi
  cases h : integer s with
  | none => simp
  | some p =>
      by_cases hint : IsInt p.1
      · simp [hint]
      · simp [hint]

theorem sign_append (hne : s ≠ []) : sign (s ++ t) = ((sign s).1, (sign s).2 ++ t) := by
  cases s with
  | nil => exact absurd rfl hne
  | cons c s =>
      rw [List.cons_append]
      by_cases hminus : c = '-'
      · rw [hminus]
        rfl
      · by_cases hplus : c = '+'
        · rw [hplus]
          rfl
        · rw [sign_of_ne hminus hplus, sign_of_ne hminus hplus]
          rfl

theorem length_sign_le (s : List Char) : (sign s).2.length ≤ s.length := by
  unfold sign
  split <;> simp

/-- Behind an integer less is left. -/
theorem length_of_integer {p : ℤ × List Char} (h : integer s = some p) : p.2.length < s.length := by
  unfold integer at h
  simp only at h
  split_ifs at h with hdigits hminus
  all_goals
    rw [← Option.some.inj h]
    have hwhole := congrArg List.length (List.takeWhile_append_dropWhile (p := Char.isDigit)
      (l := (sign (s.dropWhile isSpace)).2))
    have hpos := List.length_pos_of_ne_nil hdigits
    have hsign := length_sign_le (s.dropWhile isSpace)
    have hspace := (List.dropWhile_sublist (l := s) isSpace).length_le
    rw [List.length_append] at hwhole
    simp only
    omega

/-- What stands behind a number does not matter to it, if no digit follows at
once. -/
theorem integer_append (hends : Ends t) (hnone : integer t = none) :
    (integer (s ++ t)).map Prod.fst = (integer s).map Prod.fst := by
  by_cases hblank : s.dropWhile isSpace = []
  · -- all of it is white space, and the number would be one of `t`
    have hs : integer s = none := by
      unfold integer
      rw [hblank]
      rfl
    have hall : ∀ c ∈ s, isSpace c = true := List.dropWhile_eq_nil_iff.mp hblank
    have hst : integer (s ++ t) = integer t := by
      unfold integer
      rw [List.dropWhile_append_of_pos hall]
    rw [hst, hnone, hs]
  · -- digits that go to the end of `r` end there, by `hends`
    have htake : ∀ r : List Char, (r ++ t).takeWhile Char.isDigit = r.takeWhile Char.isDigit := by
      intro r
      by_cases hfull : (r.takeWhile Char.isDigit).length = r.length
      · have hall : ∀ c ∈ r, c.isDigit = true :=
          List.takeWhile_eq_self_iff.mp ((List.takeWhile_prefix _).eq_of_length hfull)
        rw [takeWhile_digits_append hall hends, (List.takeWhile_prefix _).eq_of_length hfull]
      · rw [List.takeWhile_append, if_neg hfull]
    have hdrop : (s ++ t).dropWhile isSpace = s.dropWhile isSpace ++ t := by
      rw [List.dropWhile_append, if_neg (by rw [List.isEmpty_iff]; exact hblank)]
    unfold integer
    rw [hdrop, sign_append hblank]
    simp only
    rw [htake]
    split_ifs <;> rfl

theorem integer_blank_append (hw : Blank w) : integer (w ++ s) = integer s := by
  unfold integer
  rw [List.dropWhile_append_of_pos hw]

theorem integer_append_blank (hw : Blank w) :
    (integer (s ++ w)).map Prod.fst = (integer s).map Prod.fst := by
  refine integer_append hw.ends ?_
  · rw [← List.append_nil w, integer_blank_append hw]
    rfl

/-- At a character that begins no integer, there is none. -/
theorem integer_append_stop (hspace : isSpace c = false) (hdigit : c.isDigit = false)
    (hminus : c ≠ '-') (hplus : c ≠ '+') :
    (integer (s ++ c :: t)).map Prod.fst = (integer s).map Prod.fst := by
  refine integer_append (fun d hd => ?_) ?_
  · rw [List.head?_cons, Option.mem_some_iff] at hd
    rw [← hd, hdigit]
  · unfold integer
    rw [List.dropWhile_cons_of_neg (by rw [hspace]; decide), sign_of_ne hminus hplus]
    simp only
    rw [List.takeWhile_cons_of_neg (by rw [hdigit]; decide), if_pos rfl]

/-! ## Finding a word -/

theorem rfind_eq_none (h : ¬ sub <:+: s) : rfind sub s = none := by
  induction s with
  | nil =>
      unfold rfind
      rw [if_neg]
      rintro rfl
      exact h (List.infix_refl [])
  | cons c s ih =>
      have hrest : ¬ sub <:+: s := fun hin => h (hin.trans (List.suffix_cons c s).isInfix)
      unfold rfind
      rw [ih hrest]
      simp only
      rw [if_neg fun hin => h hin.isInfix]

theorem rfind_eq_none_iff : rfind sub s = none ↔ ¬ sub <:+: s := by
  refine ⟨fun hnone => ?_, rfind_eq_none⟩
  induction s with
  | nil =>
      rintro hin
      unfold rfind at hnone
      rw [List.infix_nil.mp hin, if_pos rfl] at hnone
      exact absurd hnone (by simp)
  | cons c s ih =>
      intro hin
      unfold rfind at hnone
      cases hrest : rfind sub s with
      | some i =>
          rw [hrest] at hnone
          exact absurd hnone (by simp)
      | none =>
          rw [hrest] at hnone
          -- here, or further on
          rcases List.infix_cons_iff.mp hin with hprefix | hin
          · simp only at hnone
            rw [if_pos hprefix] at hnone
            exact absurd hnone (by simp)
          · exact ih hrest hin

/-- Where a word is found, it is. -/
theorem prefix_of_rfind {i : ℕ} (h : rfind sub s = some i) : sub <+: s.drop i := by
  induction s generalizing i with
  | nil =>
      unfold rfind at h
      split_ifs at h with hsub
      rw [hsub]
      exact List.nil_prefix
  | cons c s ih =>
      unfold rfind at h
      cases hrest : rfind sub s with
      | some j =>
          rw [hrest] at h
          rw [← Option.some.inj h, List.drop_succ_cons]
          exact ih hrest
      | none =>
          rw [hrest] at h
          simp only at h
          split_ifs at h with hprefix
          rw [← Option.some.inj h]
          exact hprefix

/-- A word is not in what lacks its characters, nor does it begin or end
there. -/
theorem infix_of_infix_append_left (hne : sub ≠ []) (hw : ∀ c ∈ sub, c ∉ w)
    (h : sub <:+: w ++ s) : sub <:+: s := by
  induction w with
  | nil => exact h
  | cons c w ih =>
      have hrest : ∀ c ∈ sub, c ∉ w := fun d hd hmem => hw d hd (List.mem_cons_of_mem c hmem)
      rw [List.cons_append] at h
      rcases List.infix_cons_iff.mp h with hprefix | h
      · cases sub with
        | nil => exact absurd rfl hne
        | cons d sub =>
            have heq := (List.cons_prefix_cons.mp hprefix).1
            exact absurd (heq ▸ List.mem_cons_self) (hw d List.mem_cons_self)
      · exact ih hrest h

theorem infix_of_infix_append_right (hne : sub ≠ []) (hw : ∀ c ∈ sub, c ∉ w)
    (h : sub <:+: s ++ w) : sub <:+: s := by
  rw [← List.reverse_infix, List.reverse_append] at h
  rw [← List.reverse_infix]
  refine infix_of_infix_append_left (by rwa [ne_eq, List.reverse_eq_nil_iff]) (fun c hc hmem => ?_) h
  exact hw c (List.mem_reverse.mp hc) (List.mem_reverse.mp hmem)

/-- A word whose last character does not come again is in nothing that lacks
the first character of the word. -/
theorem not_infix_tail (hlast : ∀ l, sub.getLast? = some l → l ∉ t) (hcons : sub = c :: s) :
    ¬ sub <:+: s ++ t := by
  have hne : sub ≠ [] := by rw [hcons]; exact List.cons_ne_nil c s
  rintro ⟨a, b, hab⟩
  -- the word is longer than `s`, so its last character would stand in `t`
  refine hlast (sub.getLast hne) (List.getLast?_eq_some_getLast hne) ?_
  have hlen : sub.dropLast.length = s.length := by rw [List.length_dropLast, hcons]; simp
  have hsplit : a ++ sub ++ b = (a ++ sub.dropLast) ++ sub.getLast hne :: b := by
    conv_lhs => rw [← List.dropLast_append_getLast hne]
    simp
  have hdrop : t = (a ++ sub.dropLast).drop s.length ++ sub.getLast hne :: b := by
    rw [← List.drop_append_of_le_length (by rw [List.length_append]; omega), ← hsplit, hab,
      List.drop_left]
  rw [hdrop]
  exact List.mem_append_right _ List.mem_cons_self

/-- **The last occurrence** is the one after which the word does not end
again. -/
theorem rfind_append (hne : sub ≠ []) (hlast : ∀ l, sub.getLast? = some l → l ∉ t) :
    rfind sub (s ++ (sub ++ t)) = some s.length := by
  induction s with
  | nil =>
      cases hsub : sub with
      | nil => exact absurd hsub hne
      | cons c u =>
          have htail := not_infix_tail hlast hsub
          rw [hsub] at htail
          rw [List.nil_append, List.cons_append]
          unfold rfind
          rw [rfind_eq_none htail]
          simp only
          rw [if_pos ⟨t, rfl⟩, List.length_nil]
  | cons c s ih =>
      rw [List.cons_append]
      unfold rfind
      rw [ih, List.length_cons]

end Text

end RdmaManager
