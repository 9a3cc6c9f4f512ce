import RdmaManager.Common.Binary64
import RdmaManager.Common.Text
/-!
# `StringHelper::parseByteSize`

A size is a number with a unit. Five of the units are looked for anywhere
in the string, one after the other, and what stands before the last
occurrence is read as a `double`; without any of them it is read as an
`int`. Both readers stop at the first character that they do not know.
-/

namespace RdmaManager

open Text

/-- The exponent of a number, where there is one behind `mark`. -/
def exponent (mark : Char) : List Char → ℤ
  | [] => 0
  | c :: s =>
      let p := sign s
      if c.toUpper = mark ∧ p.2.takeWhile Char.isDigit ≠ [] then
        if p.1 then -(decimal (p.2.takeWhile Char.isDigit) : ℤ)
        else decimal (p.2.takeWhile Char.isDigit)
      else 0

/-- The digits behind a point, and what follows. -/
def fraction (digit : Char → Bool) : List Char → List Char × List Char
  | '.' :: s => (s.takeWhile digit, s.dropWhile digit)
  | s => ([], s)

/-- A number with a point and an exponent, if it has a digit. -/
def numeral (base expBase : ℕ) (digit : Char → Bool) (value : Char → ℕ) (mark : Char)
    (s : List Char) : Option ℚ :=
  let whole := s.takeWhile digit
  let p := fraction digit (s.dropWhile digit)
  if whole = [] ∧ p.1 = [] then none
  else
    some (((whole ++ p.1).foldl (fun n d => base * n + value d) 0 : ℕ) *
      ((base : ℚ) ^ (-(p.1.length : ℤ)) * (expBase : ℚ) ^ exponent mark p.2))

/-- A hexadecimal number behind `0x`. -/
def hexNumeral : List Char → Option ℚ
  | '0' :: x :: s => if x.toUpper = 'X' then numeral 16 2 Char.isHexDigit hexDigitValue 'P' s else none
  | _ => none

/-- What `strtod` reads behind the sign. -/
def magnitude (s : List Char) : Double :=
  if ['I', 'N', 'F'] <+: s.map Char.toUpper then .infinite false
  else if ['N', 'A', 'N'] <+: s.map Char.toUpper then .nan
  else
    match hexNumeral s with
    | some q => .round q
    | none => .round ((numeral 10 10 Char.isDigit digitValue 'E' s).getD 0)

/-- `std::atof`, which is `0` where there is no number. -/
def atof (s : List Char) : Double :=
  let p := sign (s.dropWhile isSpace)
  match magnitude p.2 with
  | .finite q => .finite (if p.1 then -q else q)
  | .infinite _ => .infinite p.1
  | .nan => .nan

namespace StringHelper

/-- The characters that `ltrim` and `rtrim` remove. -/
def isTrimmed (c : Char) : Bool := [' ', '\n', '\r', '\t'].contains c

/-- `StringHelper::ltrim`. -/
def ltrim (value : List Char) : List Char :=
  if value.all isTrimmed then value else value.dropWhile isTrimmed

/-- `StringHelper::rtrim`. -/
def rtrim (value : List Char) : List Char :=
  if value.all isTrimmed then value else value.rdropWhile isTrimmed

/-- `StringHelper::trim`. -/
def trim (value : List Char) : List Char := rtrim (ltrim value)

/-- `StringHelper::upper`. -/
def upper (value : List Char) : List Char := value.map Char.toUpper

/-- `(int64_t)(std::atof(rtrim(value).c_str())*(int64_t)factor)`. -/
def scaled (value : List Char) (factor : ℕ) : Except ParseError ℤ :=
  match ((atof (rtrim value)).scale factor).toInt64 with
  | some z => .ok z
  | none => .error .undefined

/-- `i = value.rfind(unit); if(i != string::npos) …`. -/
def inUnit (unit : List Char) (factor : ℕ) (value : List Char) (otherwise : Except ParseError ℤ) :
    Except ParseError ℤ :=
  match rfind unit value with
  | some i => scaled (value.take i) factor
  | none => otherwise

/-- What `stoi` reads of a value without one of the larger units. -/
def beforeB (value : List Char) : List Char :=
  match rfind ['B'] value with
  | some i => rtrim (value.take i)
  | none => value

/-- **`StringHelper::parseByteSize`.** -/
def parseByteSize (value : List Char) : Except ParseError ℤ :=
  let value := upper (trim value)
  inUnit ['K', 'B'] 1000 value <|
    inUnit ['M', 'B'] 1000000 value <|
      inUnit ['G', 'B'] 1000000000 value <|
        inUnit ['T', 'B'] 1000000000000 value <|
          inUnit ['P', 'B'] 1000000000000000 value <|
            stoi (beforeB value)

/-! ## The grammar -/

/-- The larger units, with their factors. -/
def largeUnits : List (List Char × ℕ) :=
  [(['K', 'B'], 10 ^ 3), (['M', 'B'], 10 ^ 6), (['G', 'B'], 10 ^ 9), (['T', 'B'], 10 ^ 12),
    (['P', 'B'], 10 ^ 15)]

/-- All units, and none. -/
def units : List (List Char × ℕ) := ([], 1) :: (['B'], 1) :: largeUnits

/-- **A size**: a number in white space, and a unit in white space, in any
letter case. -/
structure Size (s : List Char) (number : List Char) (unit : List Char × ℕ) : Prop where
  known : unit ∈ units
  parts : ∃ w₁ w₂ u w₃, s = w₁ ++ (number ++ (w₂ ++ (u ++ w₃))) ∧ Blank w₁ ∧ Blank w₂ ∧ Blank w₃ ∧
    u.map Char.toUpper = unit.1

/-! ## Reading digits -/

variable {s t w w₁ w₂ w₃ ds u v : List Char} {c : Char} {x : List Char}

theorem toUpper_of_lt (h : c.toNat < 97) : c.toUpper = c := by
  unfold Char.toUpper
  rw [dif_neg]
  rintro ⟨hge, -⟩
  have hle : 97 ≤ c.toNat := hge
  omega

theorem toUpper_of_isSpace (h : isSpace c = true) : c.toUpper = c := by
  refine toUpper_of_lt ?_
  unfold isSpace at h
  rw [Bool.or_eq_true, Bool.and_eq_true, decide_eq_true_iff, decide_eq_true_iff,
    decide_eq_true_iff] at h
  rcases h with rfl | h
  · decide
  · omega

theorem toUpper_of_isDigit (h : c.isDigit = true) : c.toUpper = c := by
  refine toUpper_of_lt ?_
  simp only [Char.isDigit, Bool.and_eq_true, decide_eq_true_iff] at h
  have hle : c.toNat ≤ 57 := h.2
  omega

theorem isSpace_of_isTrimmed (h : isTrimmed c = true) : isSpace c = true := by
  unfold isTrimmed at h
  rw [List.contains_iff_mem] at h
  simp only [List.mem_cons, List.not_mem_nil, or_false] at h
  rcases h with rfl | rfl | rfl | rfl <;> decide

/-- No fraction and no exponent begins with white space. -/
theorem fraction_blank (digit : Char → Bool) (ht : Blank t) : fraction digit t = ([], t) := by
  unfold fraction
  split
  · exact absurd (ht '.' List.mem_cons_self) (by decide)
  · rfl

theorem exponent_blank (ht : Blank t) : exponent 'E' t = 0 := by
  cases t with
  | nil => rfl
  | cons c t =>
      have hspace := ht c List.mem_cons_self
      unfold exponent
      simp only
      rw [if_neg]
      rintro ⟨hmark, -⟩
      rw [toUpper_of_isSpace hspace] at hmark
      rw [hmark] at hspace
      exact absurd hspace (by decide)

theorem numeral_digits (hds : Digits ds) (ht : Blank t) :
    numeral 10 10 Char.isDigit digitValue 'E' (ds ++ t) = some (decimal ds : ℚ) := by
  unfold numeral
  simp only
  rw [takeWhile_digits_append hds.2 ht.ends, dropWhile_digits_append hds.2 ht.ends, fraction_blank _ ht, exponent_blank ht,
    if_neg fun h => hds.1 h.1]
  simp [decimal]

theorem hexNumeral_digits (hds : Digits ds) (ht : Blank t) : hexNumeral (ds ++ t) = none := by
  unfold hexNumeral
  split
  · next x s heq =>
      -- the second character is a digit or white space, and no `x`
      have hsecond : x.isDigit = true ∨ isSpace x = true := by
        have hmem : x ∈ ds.tail ++ t := by
          have htail : (ds ++ t).tail = x :: s := by rw [heq, List.tail_cons]
          rw [List.tail_append_of_ne_nil hds.1] at htail
          rw [htail]
          exact List.mem_cons_self
        rcases List.mem_append.mp hmem with hd | hw
        · exact Or.inl (hds.2 x (List.mem_of_mem_tail hd))
        · exact Or.inr (ht x hw)
      rw [if_neg]
      intro hx
      rcases hsecond with hd | hw
      · rw [toUpper_of_isDigit hd] at hx
        rw [hx] at hd
        exact absurd hd (by decide)
      · rw [toUpper_of_isSpace hw] at hx
        rw [hx] at hw
        exact absurd hw (by decide)
  · rfl

/-- No digits begin with a letter. -/
theorem not_prefix_of_digits (hds : Digits ds) {l : Char} {ls : List Char} (hl : l.isDigit = false) :
    ¬ (l :: ls) <+: (ds ++ t).map Char.toUpper := by
  cases ds with
  | nil => exact absurd rfl hds.1
  | cons c ds =>
      have hdigit := hds.2 c List.mem_cons_self
      rw [List.cons_append, List.map_cons, toUpper_of_isDigit hdigit]
      intro hprefix
      rw [← (List.cons_prefix_cons.mp hprefix).1, hl] at hdigit
      exact absurd hdigit (by decide)

/-- **Digits between white space are read as their number**, rounded. -/
theorem atof_digits (hw : Blank w) (hds : Digits ds) (ht : Blank t)
    (hexact : Double.round (decimal ds : ℚ) = .finite (decimal ds : ℚ)) :
    atof (w ++ (ds ++ t)) = .finite (decimal ds : ℚ) := by
  have hmagnitude : magnitude (ds ++ t) = .finite (decimal ds : ℚ) := by
    unfold magnitude
    rw [if_neg (not_prefix_of_digits hds (by decide)), if_neg (not_prefix_of_digits hds (by decide)),
      hexNumeral_digits hds ht, numeral_digits hds ht]
    exact hexact
  unfold atof
  rw [dropWhile_blank_digits hw hds]
  simp only
  rw [sign_digits hds]
  simp only
  rw [hmagnitude]
  rfl

/-! ## Trimming -/

/-- Between its first and its last character nothing of it is trimmed. -/
structure Core (x : List Char) : Prop where
  first : ∀ c ∈ x.head?, isTrimmed c = false
  last : ∀ c ∈ x.getLast?, isTrimmed c = false
  ne_nil : x ≠ []

theorem isTrimmed_of_isDigit (h : c.isDigit = true) : isTrimmed c = false := by
  rw [Bool.eq_false_iff]
  intro htrimmed
  rw [not_isDigit_of_isSpace (isSpace_of_isTrimmed htrimmed)] at h
  exact absurd h (by decide)

theorem not_all_isTrimmed {y z : List Char} (hx : Core x) : ¬ (y ++ (x ++ z)).all isTrimmed = true := by
  intro hall
  cases hx' : x with
  | nil => exact hx.ne_nil hx'
  | cons c s =>
      have hc := hx.first c (by rw [hx', List.head?_cons]; rfl)
      rw [List.all_eq_true] at hall
      rw [hall c (by rw [hx']; simp)] at hc
      exact absurd hc (by decide)

theorem ltrim_core (hx : Core x) (w s : List Char) :
    ltrim (w ++ (x ++ s)) = w.dropWhile isTrimmed ++ (x ++ s) := by
  have hstop : (x ++ s).dropWhile isTrimmed = x ++ s := by
    cases hx' : x with
    | nil => exact absurd hx' hx.ne_nil
    | cons c r =>
        have hc := hx.first c (by rw [hx', List.head?_cons]; rfl)
        rw [List.cons_append, List.dropWhile_cons_of_neg (by rw [hc]; decide)]
  unfold ltrim
  rw [if_neg (not_all_isTrimmed hx), List.dropWhile_append, hstop]
  split_ifs with hempty
  · rw [List.isEmpty_iff.mp hempty, List.nil_append]
  · rfl

theorem rtrim_core (hx : Core x) (s w : List Char) :
    rtrim (s ++ (x ++ w)) = s ++ (x ++ w.rdropWhile isTrimmed) := by
  have hstop : ∀ w : List Char, ((s ++ x) ++ w).rdropWhile isTrimmed =
      (s ++ x) ++ w.rdropWhile isTrimmed := by
    intro w
    induction w using List.reverseRecOn with
    | nil =>
        rw [List.rdropWhile_nil, List.append_nil, List.rdropWhile_eq_self_iff]
        intro hne
        rw [List.getLast_append_of_ne_nil hne hx.ne_nil,
          hx.last _ (List.getLast?_eq_some_getLast hx.ne_nil)]
        decide
    | append_singleton w c ih =>
        rw [← List.append_assoc, List.rdropWhile_concat, List.rdropWhile_concat]
        split_ifs
        · exact ih
        · rw [List.append_assoc]
  unfold rtrim
  rw [if_neg (not_all_isTrimmed hx), ← List.append_assoc, hstop, List.append_assoc]

theorem trim_core (hx : Core x) (w₁ w₃ : List Char) :
    trim (w₁ ++ (x ++ w₃)) = w₁.dropWhile isTrimmed ++ (x ++ w₃.rdropWhile isTrimmed) := by
  unfold trim
  rw [ltrim_core hx, rtrim_core hx]

theorem core_digits (hds : Digits ds) : Core ds where
  first c hc := isTrimmed_of_isDigit (hds.2 c (List.mem_of_mem_head? hc))
  last c hc := isTrimmed_of_isDigit (hds.2 c (List.mem_of_mem_getLast? hc))
  ne_nil := hds.1

theorem upper_blank (h : Blank w) : upper w = w :=
  (List.map_congr_left fun c hc => toUpper_of_isSpace (h c hc)).trans (List.map_id' w)

theorem upper_digits (h : Digits ds) : upper ds = ds :=
  (List.map_congr_left fun c hc => toUpper_of_isDigit (h.2 c hc)).trans (List.map_id' ds)

theorem upper_append (s t : List Char) : upper (s ++ t) = upper s ++ upper t := List.map_append

/-! ## Sizes are read -/

theorem units_not_trimmed : ∀ unit ∈ units, ∀ c ∈ unit.1, isTrimmed c = false := by
  have hall : (units.all fun unit => unit.1.all fun c => !isTrimmed c) = true := by decide
  intro unit hunit c hc
  have hkept := List.all_eq_true.mp (List.all_eq_true.mp hall unit hunit) c hc
  exact (Bool.not_eq_eq_eq_not ..).mp hkept

/-- Digits and a unit have no white space at their ends. -/
theorem core_unit {unit : List Char × ℕ} (hds : Digits ds) (hunit : unit ∈ units)
    (hu : upper u = unit.1) (hne : u ≠ []) : Core (ds ++ (w ++ u)) := by
  refine ⟨fun c hc => ?_, fun c hc => ?_, fun hnil => hds.1 (List.append_eq_nil_iff.mp hnil).1⟩
  · rw [List.head?_append_of_ne_nil _ hds.1] at hc
    exact (core_digits hds).first c hc
  · rw [← List.append_assoc, List.getLast?_append_of_ne_nil _ hne] at hc
    rw [Bool.eq_false_iff]
    intro htrimmed
    -- white space is its own upper case, and no unit has any
    have hupper := toUpper_of_isSpace (isSpace_of_isTrimmed htrimmed)
    have hmem : c ∈ unit.1 := by
      rw [← hu]
      exact List.mem_map.mpr ⟨c, List.mem_of_mem_getLast? hc, hupper⟩
    rw [units_not_trimmed unit hunit c hmem] at htrimmed
    exact absurd htrimmed (by decide)

/-- What is left of a size: white space aside, the digits and the unit. -/
theorem Size.cleaned {unit : List Char × ℕ} (h : Size s ds unit) (hds : Digits ds) :
    ∃ w₁ w₂ w₃, upper (trim s) = w₁ ++ (ds ++ (w₂ ++ (unit.1 ++ w₃))) ∧
      Blank w₁ ∧ Blank w₂ ∧ Blank w₃ := by
  obtain ⟨w₁, w₂, u, w₃, rfl, hw₁, hw₂, hw₃, hunit⟩ := h.parts
  have hfirst : Blank (w₁.dropWhile isTrimmed) := hw₁.dropWhile _
  rcases eq_or_ne u [] with rfl | hne
  · -- without a unit, the white space behind the digits is trimmed
    have hblank : Blank ((w₂ ++ w₃).rdropWhile isTrimmed) := (hw₂.append hw₃).rdropWhile _
    refine ⟨w₁.dropWhile isTrimmed, (w₂ ++ w₃).rdropWhile isTrimmed, [], ?_, hfirst, hblank,
      by simp [Blank]⟩
    rw [List.nil_append, trim_core (core_digits hds), ← hunit]
    simp only [upper_append, upper_blank hfirst, upper_digits hds, upper_blank hblank]
    simp
  · have hlast : Blank (w₃.rdropWhile isTrimmed) := hw₃.rdropWhile _
    have hassoc : ds ++ (w₂ ++ (u ++ w₃)) = (ds ++ (w₂ ++ u)) ++ w₃ := by simp
    refine ⟨w₁.dropWhile isTrimmed, w₂, w₃.rdropWhile isTrimmed, ?_, hfirst, hw₂, hlast⟩
    rw [hassoc, trim_core (core_unit hds h.known hunit hne)]
    change upper u = unit.1 at hunit
    simp only [upper_append, upper_blank hfirst, upper_digits hds, upper_blank hw₂, hunit,
      upper_blank hlast]
    simp

/-- A word with a letter that is not in the unit is not in a size. -/
theorem absent {l : Char} {sub : List Char} (hw₁ : Blank w₁) (hds : Digits ds) (hw₂ : Blank w₂)
    (hw₃ : Blank w₃) (hl : l ∈ sub) (hspace : isSpace l = false) (hdigit : l.isDigit = false)
    (hu : l ∉ u) : ¬ sub <:+: w₁ ++ (ds ++ (w₂ ++ (u ++ w₃))) := by
  intro hin
  have hmem := hin.subset hl
  simp only [List.mem_append] at hmem
  rcases hmem with hmem | hmem | hmem | hmem | hmem
  · exact absurd (hw₁ l hmem) (by rw [hspace]; decide)
  · exact absurd (hds.2 l hmem) (by rw [hdigit]; decide)
  · exact absurd (hw₂ l hmem) (by rw [hspace]; decide)
  · exact hu hmem
  · exact absurd (hw₃ l hmem) (by rw [hspace]; decide)

theorem inUnit_absent {unit : List Char} {factor : ℕ} {r : Except ParseError ℤ}
    (h : ¬ unit <:+: v) : inUnit unit factor v r = r := by
  unfold inUnit
  rw [rfind_eq_none h]

theorem scaled_digits {factor : ℕ} (hw₁ : Blank w₁) (hds : Digits ds) (hw₂ : Blank w₂)
    (hfactor : 1 ≤ factor) (hexact : decimal ds * factor ≤ 2 ^ 53) :
    scaled (w₁ ++ (ds ++ w₂)) factor = .ok ((decimal ds * factor : ℕ) : ℤ) := by
  have hle : decimal ds ≤ 2 ^ 53 := le_trans (Nat.le_mul_of_pos_right _ hfactor) hexact
  unfold scaled
  rw [rtrim_core (core_digits hds), atof_digits hw₁ hds (hw₂.rdropWhile _) (Double.round_natCast hle),
    Double.scale_natCast hexact, Double.toInt64_natCast hexact]

/-- The last character of a unit does not come behind it. -/
theorem not_mem_blank (hw : Blank w) {l : Char} (hl : isSpace l = false) : l ∉ w := by
  intro hmem
  rw [hw l hmem] at hl
  exact absurd hl (by decide)

theorem rfind_own {unit : List Char} (hne : unit ≠ []) (hlast : unit.getLast? = some 'B')
    (hw₃ : Blank w₃) :
    rfind unit (w₁ ++ (ds ++ (w₂ ++ (unit ++ w₃)))) = some (w₁ ++ (ds ++ w₂)).length := by
  have hassoc : w₁ ++ (ds ++ (w₂ ++ (unit ++ w₃))) = (w₁ ++ (ds ++ w₂)) ++ (unit ++ w₃) := by simp
  rw [hassoc]
  refine rfind_append hne fun l hl => ?_
  rw [hlast, Option.some.injEq] at hl
  exact hl ▸ not_mem_blank hw₃ (by decide)

theorem inUnit_own {unit : List Char} {factor : ℕ} {r : Except ParseError ℤ} (hne : unit ≠ [])
    (hlast : unit.getLast? = some 'B') (hw₁ : Blank w₁) (hds : Digits ds) (hw₂ : Blank w₂)
    (hw₃ : Blank w₃) (hfactor : 1 ≤ factor) (hexact : decimal ds * factor ≤ 2 ^ 53) :
    inUnit unit factor (w₁ ++ (ds ++ (w₂ ++ (unit ++ w₃)))) r =
      .ok ((decimal ds * factor : ℕ) : ℤ) := by
  have hassoc : w₁ ++ (ds ++ (w₂ ++ (unit ++ w₃))) = (w₁ ++ (ds ++ w₂)) ++ (unit ++ w₃) := by simp
  unfold inUnit
  rw [rfind_own hne hlast hw₃]
  simp only
  rw [hassoc, List.take_left, scaled_digits hw₁ hds hw₂ hfactor hexact]

/-- Without a larger unit, the digits are read as an `int`. -/
theorem stoi_small {unit : List Char} (hunit : unit = [] ∨ unit = ['B']) (hw₁ : Blank w₁)
    (hds : Digits ds) (hw₂ : Blank w₂) (hw₃ : Blank w₃) :
    stoi (beforeB (w₁ ++ (ds ++ (w₂ ++ (unit ++ w₃))))) =
      if decimal ds < 2 ^ 31 then .ok (decimal ds : ℤ) else .error .outOfRange := by
  unfold beforeB
  rcases hunit with rfl | rfl
  · rw [rfind_eq_none (absent hw₁ hds hw₂ hw₃ (List.mem_singleton_self 'B') (by decide) (by decide)
      List.not_mem_nil)]
    exact stoi_digits hw₁ hds (hw₂.append (by simpa using hw₃))
  · have hassoc : w₁ ++ (ds ++ (w₂ ++ (['B'] ++ w₃))) = (w₁ ++ (ds ++ w₂)) ++ (['B'] ++ w₃) := by simp
    rw [rfind_own (List.cons_ne_nil _ _) rfl hw₃]
    simp only
    rw [hassoc, List.take_left, rtrim_core (core_digits hds)]
    exact stoi_digits hw₁ hds (hw₂.rdropWhile _)

/-- The larger units, one after the other. -/
def inUnits (us : List (List Char × ℕ)) (value : List Char) (otherwise : Except ParseError ℤ) :
    Except ParseError ℤ :=
  us.foldr (fun unit r => inUnit unit.1 unit.2 value r) otherwise

theorem parseByteSize_eq :
    parseByteSize s =
      inUnits largeUnits (upper (trim s)) (stoi (beforeB (upper (trim s)))) := rfl

variable {us : List (List Char × ℕ)} {unit : List Char × ℕ} {r : Except ParseError ℤ}

theorem inUnits_absent (h : ∀ other ∈ us, ¬ other.1 <:+: v) : inUnits us v r = r := by
  induction us with
  | nil => rfl
  | cons other us ih =>
      show inUnit other.1 other.2 v (inUnits us v r) = r
      rw [inUnit_absent (h other List.mem_cons_self),
        ih fun other hother => h other (List.mem_cons_of_mem _ hother)]

theorem inUnits_own {r' : Except ParseError ℤ} (hmem : unit ∈ us)
    (h : ∀ other ∈ us, other ≠ unit → ¬ other.1 <:+: v)
    (hown : ∀ r, inUnit unit.1 unit.2 v r = r') : inUnits us v r = r' := by
  induction us with
  | nil => exact absurd hmem List.not_mem_nil
  | cons other us ih =>
      show inUnit other.1 other.2 v (inUnits us v r) = r'
      by_cases heq : other = unit
      · rw [heq]
        exact hown _
      · rw [inUnit_absent (h other List.mem_cons_self heq)]
        exact ih ((List.mem_cons.mp hmem).resolve_left (Ne.symm heq))
          fun other hother => h other (List.mem_cons_of_mem _ hother)

/-- A larger unit has a letter that no other unit has. -/
theorem units_letter : ∀ other ∈ largeUnits, ∀ unit ∈ units, other ≠ unit →
    ∃ l ∈ other.1, isSpace l = false ∧ l.isDigit = false ∧ l ∉ unit.1 := by
  have hall : (largeUnits.all fun other => units.all fun unit => decide (other = unit) ||
      other.1.any fun l => !isSpace l && !l.isDigit && !unit.1.contains l) = true := by decide
  intro other hother unit hunit hne
  have hletter := List.all_eq_true.mp (List.all_eq_true.mp hall other hother) unit hunit
  rw [decide_eq_false hne, Bool.false_or, List.any_eq_true] at hletter
  obtain ⟨l, hl, hown⟩ := hletter
  simp only [Bool.and_eq_true, Bool.not_eq_true', List.contains_eq_mem, decide_eq_false_iff_not]
    at hown
  exact ⟨l, hl, hown.1.1, hown.1.2, hown.2⟩

theorem largeUnits_factor : ∀ unit ∈ largeUnits,
    unit.1 ≠ [] ∧ unit.1.getLast? = some 'B' ∧ 1 < unit.2 := by
  decide

theorem units_small : ∀ unit ∈ units, unit ∉ largeUnits →
    (unit.1 = [] ∨ unit.1 = ['B']) ∧ unit.2 = 1 := by
  decide

/-- **What a size is read as.** -/
theorem parseByteSize_size (h : Size s ds unit) (hds : Digits ds)
    (hexact : decimal ds * unit.2 ≤ 2 ^ 53) :
    parseByteSize s =
      if unit.2 = 1 ∧ ¬ decimal ds < 2 ^ 31 then .error .outOfRange
      else .ok ((decimal ds * unit.2 : ℕ) : ℤ) := by
  obtain ⟨w₁, w₂, w₃, hcleaned, hw₁, hw₂, hw₃⟩ := h.cleaned hds
  have hother : ∀ other ∈ largeUnits, other ≠ unit →
      ¬ other.1 <:+: w₁ ++ (ds ++ (w₂ ++ (unit.1 ++ w₃))) := by
    intro other hmem hne
    obtain ⟨l, hl, hspace, hdigit, hunit⟩ := units_letter other hmem unit h.known hne
    exact absent hw₁ hds hw₂ hw₃ hl hspace hdigit hunit
  rw [parseByteSize_eq, hcleaned]
  by_cases hlarge : unit ∈ largeUnits
  · obtain ⟨hne, hlast, hfactor⟩ := largeUnits_factor unit hlarge
    rw [if_neg fun hone => by omega]
    exact inUnits_own hlarge hother fun r =>
      inUnit_own hne hlast hw₁ hds hw₂ hw₃ hfactor.le hexact
  · obtain ⟨hsmall, hone⟩ := units_small unit h.known hlarge
    rw [inUnits_absent fun other hmem => hother other hmem fun heq => hlarge (heq ▸ hmem),
      stoi_small hsmall hw₁ hds hw₂ hw₃, hone, Nat.mul_one]
    by_cases hint : decimal ds < 2 ^ 31
    · rw [if_pos hint, if_neg fun h => h.2 hint]
    · rw [if_neg hint, if_pos ⟨rfl, hint⟩]

/-! ## What is no size -/

/-- `atof` throws nothing. -/
theorem not_throws_scaled (factor : ℕ) : ¬ Throws (scaled v factor) := by
  rintro ⟨e, he, hdefined⟩
  unfold scaled at he
  split at he
  · exact absurd he (by simp)
  · exact hdefined (Except.error.inj he).symm

theorem throws_inUnit_iff {sub : List Char} {factor : ℕ} :
    Throws (inUnit sub factor v r) ↔ ¬ sub <:+: v ∧ Throws r := by
  by_cases h : sub <:+: v
  · obtain ⟨i, hi⟩ := Option.ne_none_iff_exists'.mp (mt rfind_eq_none_iff.mp (not_not.mpr h))
    unfold inUnit
    rw [hi]
    exact iff_of_false (not_throws_scaled factor) fun hthrows => hthrows.1 h
  · rw [inUnit_absent h]
    exact (and_iff_right h).symm

theorem throws_inUnits_iff :
    Throws (inUnits us v r) ↔ (∀ unit ∈ us, ¬ unit.1 <:+: v) ∧ Throws r := by
  induction us with
  | nil => simp [inUnits]
  | cons unit us ih =>
      show Throws (inUnit unit.1 unit.2 v (inUnits us v r)) ↔ _
      rw [throws_inUnit_iff, ih, List.forall_mem_cons, and_assoc]

theorem ltrim_suffix (s : List Char) : ∃ w, s = w ++ ltrim s ∧ ∀ c ∈ w, isTrimmed c = true := by
  unfold ltrim
  split_ifs
  · exact ⟨[], rfl, by simp⟩
  · refine ⟨s.takeWhile isTrimmed, List.takeWhile_append_dropWhile.symm, fun c hc => ?_⟩
    exact List.mem_takeWhile_imp hc

theorem rtrim_prefix (s : List Char) : ∃ w, s = rtrim s ++ w ∧ ∀ c ∈ w, isTrimmed c = true := by
  unfold rtrim
  split_ifs
  · exact ⟨[], (List.append_nil s).symm, by simp⟩
  · refine ⟨s.rtakeWhile isTrimmed, List.rdropWhile_append_rtakeWhile.symm, fun c hc => ?_⟩
    exact List.mem_rtakeWhile_imp hc

/-- What is trimmed is white space. -/
theorem trim_between (s : List Char) :
    ∃ w w', s = w ++ (trim s ++ w') ∧ (∀ c ∈ w, isTrimmed c = true) ∧
      ∀ c ∈ w', isTrimmed c = true := by
  obtain ⟨w, hs, hw⟩ := ltrim_suffix s
  obtain ⟨w', hl, hw'⟩ := rtrim_prefix (ltrim s)
  refine ⟨w, w', ?_, hw, hw'⟩
  unfold trim
  rw [← hl, ← hs]

theorem blank_of_trimmed (hw : ∀ c ∈ w, isTrimmed c = true) : Blank w :=
  fun c hc => isSpace_of_isTrimmed (hw c hc)

theorem infix_upper_trim_iff (hunit : unit ∈ largeUnits) :
    unit.1 <:+: upper (trim s) ↔ unit.1 <:+: upper s := by
  obtain ⟨w, w', hs, hw, hw'⟩ := trim_between s
  have hne := (largeUnits_factor unit hunit).1
  have hout : ∀ w : List Char, (∀ c ∈ w, isTrimmed c = true) → ∀ c ∈ unit.1, c ∉ w := by
    intro w hw c hc hmem
    have hnot := units_not_trimmed unit (List.mem_cons_of_mem _ (List.mem_cons_of_mem _ hunit)) c hc
    rw [hw c hmem] at hnot
    exact absurd hnot (by decide)
  have hupper : upper s = w ++ (upper (trim s) ++ w') := by
    conv_lhs => rw [hs]
    rw [upper_append, upper_append, upper_blank (blank_of_trimmed hw),
      upper_blank (blank_of_trimmed hw')]
  rw [hupper]
  refine ⟨fun h => ?_, fun h => ?_⟩
  · exact h.trans (List.infix_append' w _ w')
  · exact infix_of_infix_append_right hne (hout w' hw')
      (infix_of_infix_append_left hne (hout w hw) h)

/-! The integer in front of what is read is the integer in front of the
string. -/

theorem toNat_toUpper (h : 97 ≤ c.toNat) (h' : c.toNat ≤ 122) :
    c.toUpper.toNat = c.toNat - 32 := by
  unfold Char.toUpper
  rw [dif_pos ⟨h, h'⟩]
  show (c.val + ('A'.val - 'a'.val)).toNat = c.val.toNat - 32
  have hval : c.val.toNat = c.toNat := rfl
  have hshift : ('A'.val - 'a'.val).toNat = 2 ^ 32 - 32 := by decide
  rw [UInt32.toNat_add, hshift]
  omega

theorem isDigit_eq_false (h : 58 ≤ c.toNat) : c.isDigit = false := by
  rw [Bool.eq_false_iff]
  intro hdigit
  simp only [Char.isDigit, Bool.and_eq_true, decide_eq_true_iff] at hdigit
  have hle : c.toNat ≤ 57 := hdigit.2
  omega

theorem isSpace_eq_false (h : 58 ≤ c.toNat) : isSpace c = false := by
  rw [Bool.eq_false_iff]
  intro hspace
  unfold isSpace at hspace
  rw [Bool.or_eq_true, Bool.and_eq_true, decide_eq_true_iff, decide_eq_true_iff,
    decide_eq_true_iff] at hspace
  rcases hspace with rfl | hspace
  · exact absurd h (by decide)
  · omega

/-- Upper case is the same character, or a letter for a letter. -/
theorem toUpper_cases (c : Char) : c.toUpper = c ∨ 58 ≤ c.toNat ∧ 58 ≤ c.toUpper.toNat := by
  by_cases hlow : 97 ≤ c.toNat ∧ c.toNat ≤ 122
  · right
    rw [toNat_toUpper hlow.1 hlow.2]
    omega
  · left
    exact dif_neg hlow

theorem isDigit_toUpper (c : Char) : c.toUpper.isDigit = c.isDigit := by
  rcases toUpper_cases c with h | ⟨h, h'⟩
  · rw [h]
  · rw [isDigit_eq_false h, isDigit_eq_false h']

theorem isSpace_toUpper (c : Char) : isSpace c.toUpper = isSpace c := by
  rcases toUpper_cases c with h | ⟨h, h'⟩
  · rw [h]
  · rw [isSpace_eq_false h, isSpace_eq_false h']

theorem sign_upper (s : List Char) : sign (upper s) = ((sign s).1, upper (sign s).2) := by
  cases s with
  | nil => rfl
  | cons c s =>
      by_cases hminus : c = '-'
      · rw [hminus]
        rfl
      · by_cases hplus : c = '+'
        · rw [hplus]
          rfl
        · have hup : c.toUpper ≠ '-' ∧ c.toUpper ≠ '+' := by
            rcases toUpper_cases c with h | ⟨-, h⟩
            · rw [h]
              exact ⟨hminus, hplus⟩
            · refine ⟨fun heq => ?_, fun heq => ?_⟩
              · rw [heq] at h
                exact absurd h (by decide)
              · rw [heq] at h
                exact absurd h (by decide)
          rw [sign_of_ne hminus hplus]
          exact sign_of_ne hup.1 hup.2

theorem takeWhile_upper (s : List Char) :
    (upper s).takeWhile Char.isDigit = s.takeWhile Char.isDigit := by
  have hsame : (Char.isDigit ∘ Char.toUpper) = Char.isDigit := funext isDigit_toUpper
  unfold upper
  rw [List.takeWhile_map, hsame]
  exact (List.map_congr_left fun c hc => toUpper_of_isDigit (List.mem_takeWhile_imp hc)).trans
    (List.map_id' _)

theorem dropWhile_upper (s : List Char) :
    (upper s).dropWhile isSpace = upper (s.dropWhile isSpace) := by
  have hsame : (isSpace ∘ Char.toUpper) = isSpace := funext isSpace_toUpper
  unfold upper
  rw [List.dropWhile_map, hsame]

theorem integer_upper (s : List Char) :
    (integer (upper s)).map Prod.fst = (integer s).map Prod.fst := by
  unfold integer
  rw [dropWhile_upper, sign_upper]
  simp only
  rw [takeWhile_upper]
  split_ifs <;> rfl

theorem integer_beforeB (v : List Char) :
    (integer (beforeB v)).map Prod.fst = (integer v).map Prod.fst := by
  unfold beforeB
  cases hfound : rfind ['B'] v with
  | none => rfl
  | some i =>
      obtain ⟨t, ht⟩ := prefix_of_rfind hfound
      obtain ⟨w, hw, hblank⟩ := rtrim_prefix (v.take i)
      have hv : v = v.take i ++ 'B' :: t := by
        conv_lhs => rw [← List.take_append_drop i v, ← ht]
        rfl
      simp only
      conv_rhs => rw [hv]
      rw [integer_append_stop (by decide) (by decide) (by decide) (by decide)]
      conv_rhs => rw [hw]
      rw [integer_append_blank (blank_of_trimmed hblank)]

theorem integer_trim (s : List Char) :
    (integer (trim s)).map Prod.fst = (integer s).map Prod.fst := by
  obtain ⟨w, w', hs, hw, hw'⟩ := trim_between s
  conv_rhs => rw [hs]
  rw [integer_blank_append (blank_of_trimmed hw), integer_append_blank (blank_of_trimmed hw')]

/-- **What `parseByteSize` throws at**: a string with none of the larger units
in it, in any letter case, and no `int` in front. -/
theorem throws_parseByteSize_iff :
    Throws (parseByteSize s) ↔
      (∀ unit ∈ largeUnits, ¬ unit.1 <:+: upper s) ∧
        ∀ z, (integer s).map Prod.fst = some z → ¬ IsInt z := by
  rw [parseByteSize_eq, throws_inUnits_iff, stoi_throws_iff, integer_beforeB, integer_upper,
    integer_trim]
  refine and_congr_left fun _ => forall₂_congr fun unit hunit => ?_
  rw [infix_upper_trim_iff hunit]

/-- **`parseByteSize` and its grammar.** Whatever is taken for a number, as
long as digits are: sizes are read exactly and everything else makes it throw
if, and only if, no size without a larger unit is beyond an `int`, and a
string that is no size has none of the larger units in it and begins with no
`int`. -/
theorem parseByteSize_iff (IsNumber : List Char → Prop) (s : List Char) :
    ((∀ ds unit, Digits ds → Size s ds unit → decimal ds * unit.2 ≤ 2 ^ 53 →
          parseByteSize s = .ok ((decimal ds * unit.2 : ℕ) : ℤ)) ∧
        ((¬ ∃ number unit, IsNumber number ∧ Size s number unit) → Throws (parseByteSize s))) ↔
      (∀ ds unit, Digits ds → Size s ds unit → decimal ds * unit.2 ≤ 2 ^ 53 → unit.2 = 1 →
          decimal ds < 2 ^ 31) ∧
        ((¬ ∃ number unit, IsNumber number ∧ Size s number unit) →
          (∀ unit ∈ largeUnits, ¬ unit.1 <:+: upper s) ∧
            ∀ z, (integer s).map Prod.fst = some z → ¬ IsInt z) := by
  refine and_congr ?_ (imp_congr_right fun _ => throws_parseByteSize_iff)
  refine forall₂_congr fun ds unit => forall₃_congr fun hds h hexact => ?_
  rw [parseByteSize_size h hds hexact]
  by_cases hbeyond : unit.2 = 1 ∧ ¬ decimal ds < 2 ^ 31
  · rw [if_pos hbeyond]
    exact iff_of_false (by simp) fun hint => hbeyond.2 (hint hbeyond.1)
  · rw [if_neg hbeyond]
    exact iff_of_true rfl fun hone => not_not.mp fun hint => hbeyond ⟨hone, hint⟩

/-- A size has no other characters. -/
theorem not_size_of_mem (hmem : c ∈ s) (hdigit : c.isDigit = false) (hspace : isSpace c = false)
    (hunits : ∀ unit ∈ units, c.toUpper ∉ unit.1) :
    ¬ ∃ number unit, Digits number ∧ Size s number unit := by
  rintro ⟨number, unit, hnumber, hsize⟩
  obtain ⟨w₁, w₂, u, w₃, rfl, hw₁, hw₂, hw₃, hunit⟩ := hsize.parts
  simp only [List.mem_append] at hmem
  rcases hmem with hmem | hmem | hmem | hmem | hmem
  · exact not_mem_blank hw₁ hspace hmem
  · exact absurd (hnumber.2 c hmem) (by rw [hdigit]; decide)
  · exact not_mem_blank hw₂ hspace hmem
  · exact hunits unit hsize.known (hunit ▸ List.mem_map_of_mem hmem)
  · exact not_mem_blank hw₃ hspace hmem

/-- Three billion bytes are a size and are not read; `5x` is none and is read
as `5`. -/
theorem parseByteSize_threeBillion :
    (Size "3000000000".toList "3000000000".toList ([], 1) ∧
        Digits "3000000000".toList ∧ decimal "3000000000".toList = 3000000000 ∧
        parseByteSize "3000000000".toList = .error .outOfRange) ∧
      (¬ ∃ number unit, Digits number ∧ Size "5x".toList number unit) ∧
        parseByteSize "5x".toList = .ok 5 := by
  have hdigits : ("3000000000".toList.all Char.isDigit) = true := by decide
  refine ⟨⟨⟨by decide, [], [], [], [], by decide, ?_, ?_, ?_, rfl⟩,
    ⟨by decide, List.all_eq_true.mp hdigits⟩, by decide, by decide⟩, ?_, by decide⟩
  · exact fun c hc => absurd hc List.not_mem_nil
  · exact fun c hc => absurd hc List.not_mem_nil
  · exact fun c hc => absurd hc List.not_mem_nil
  · have hx : 'x' ∈ "5x".toList := by decide
    exact not_size_of_mem hx (by decide) (by decide) (by decide)

end StringHelper

end RdmaManager
