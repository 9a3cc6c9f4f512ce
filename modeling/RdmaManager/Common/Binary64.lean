import Mathlib.Algebra.Order.Field.Power
import Mathlib.Data.Int.Log
import Mathlib.Data.Rat.Floor
import Mathlib.Tactic.NormNum
/-!
# Doubles

The finite values of a `double` as rational numbers, with the results of
operations rounded to nearest, ties to even. The sign of a zero is not
kept. What the developments over it need is that the integers up to
`2 ^ 53` are values: operations whose exact results are such integers are
exact.
-/

namespace RdmaManager

/-- The nearest integer, the even one of two. -/
def roundHalfEven (q : ℚ) : ℤ :=
  if q - ⌊q⌋ < 1 / 2 then ⌊q⌋
  else if 1 / 2 < q - ⌊q⌋ then ⌊q⌋ + 1
  else if ⌊q⌋ % 2 = 0 then ⌊q⌋
  else ⌊q⌋ + 1

/-- A `double`. -/
inductive Double
  | finite (q : ℚ)
  | infinite (negative : Bool)
  | nan
  deriving DecidableEq, Repr

namespace Double

/-- The exponent of the last place of a number: it has 53 digits, unless it
is too small. -/
def lastPlace (q : ℚ) : ℤ := max (Int.log 2 |q| - 52) (-1074)

/-- **Rounding to a `double`**, to nearest and to even. -/
def round (q : ℚ) : Double :=
  if q = 0 then .finite 0
  else
    let r : ℚ := roundHalfEven (q / 2 ^ lastPlace q) * 2 ^ lastPlace q
    if |r| < 2 ^ 1024 then .finite r else .infinite (decide (q < 0))

/-- Multiplication with a positive finite factor. -/
def scale (factor : ℚ) : Double → Double
  | finite q => round (q * factor)
  | infinite negative => infinite negative
  | nan => nan

/-- The conversion to an `int64_t`, towards zero; its behaviour is undefined
where the result is none. -/
def toInt64 : Double → Option ℤ
  | finite q =>
      let z := if 0 ≤ q then ⌊q⌋ else ⌈q⌉
      if -(2 ^ 63 : ℤ) ≤ z ∧ z < (2 ^ 63 : ℤ) then some z else none
  | infinite _ => none
  | nan => none

theorem roundHalfEven_intCast (z : ℤ) : roundHalfEven z = z := by
  unfold roundHalfEven
  rw [Int.floor_intCast, sub_self, if_pos (by norm_num)]

/-- The last place of an integer that fits in 53 digits is at most its last
digit, unless it is `2 ^ 53`. -/
theorem lastPlace_natCast_le {n : ℕ} (hn : n < 2 ^ 53) : lastPlace n ≤ 0 := by
  have hlog : Nat.log 2 n < 53 := Nat.log_lt_of_lt_pow' (by norm_num) hn
  unfold lastPlace
  rw [abs_of_nonneg (Nat.cast_nonneg n), Int.log_natCast]
  omega

theorem lastPlace_top : lastPlace ((2 ^ 53 : ℕ) : ℚ) = 1 := by
  unfold lastPlace
  rw [abs_of_nonneg (Nat.cast_nonneg _), Int.log_natCast, Nat.log_pow (by norm_num)]
  norm_num

/-- Such an integer is a multiple of its last place. -/
theorem exists_div_lastPlace {n : ℕ} (hn : n ≤ 2 ^ 53) :
    ∃ z : ℤ, (n : ℚ) / 2 ^ lastPlace n = z := by
  rcases hn.lt_or_eq with hlt | rfl
  · obtain ⟨k, hk⟩ := Int.eq_ofNat_of_zero_le (neg_nonneg.mpr (lastPlace_natCast_le hlt))
    refine ⟨n * 2 ^ k, ?_⟩
    rw [show lastPlace (n : ℚ) = -(k : ℤ) by omega, zpow_neg, div_inv_eq_mul, zpow_natCast]
    push_cast
    rfl
  · -- it has 54 digits, the last of which is zero
    refine ⟨2 ^ 52, ?_⟩
    rw [lastPlace_top]
    norm_num

/-- **Integers up to `2 ^ 53` are values of a `double`.** -/
theorem round_natCast {n : ℕ} (hn : n ≤ 2 ^ 53) : round n = .finite n := by
  rcases Nat.eq_zero_or_pos n with rfl | hpos
  · unfold round
    rw [Nat.cast_zero, if_pos rfl]
  · obtain ⟨z, hz⟩ := exists_div_lastPlace hn
    have hback : (z : ℚ) * 2 ^ lastPlace n = n := by
      rw [← hz]
      exact div_mul_cancel₀ _ (zpow_ne_zero _ (by norm_num))
    have hsmall : |(n : ℚ)| < 2 ^ 1024 := by
      rw [abs_of_nonneg (Nat.cast_nonneg n)]
      have hle : (n : ℚ) ≤ 2 ^ 53 := by exact_mod_cast hn
      exact lt_of_le_of_lt hle (pow_lt_pow_right₀ (by norm_num) (by norm_num))
    unfold round
    rw [if_neg (Nat.cast_ne_zero.mpr hpos.ne'), hz, roundHalfEven_intCast, hback, if_pos hsmall]

theorem scale_natCast {n factor : ℕ} (h : n * factor ≤ 2 ^ 53) :
    (finite n).scale factor = .finite ((n * factor : ℕ) : ℚ) := by
  show round ((n : ℚ) * factor) = _
  rw [← Nat.cast_mul, round_natCast h]

theorem toInt64_natCast {n : ℕ} (h : n ≤ 2 ^ 53) : (finite n).toInt64 = some (n : ℤ) := by
  show (if _ then _ else _) = _
  rw [if_pos (Nat.cast_nonneg n), Int.floor_natCast, if_pos (by omega)]

end Double

end RdmaManager
