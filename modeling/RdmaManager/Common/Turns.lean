import Mathlib.Data.Int.CardIntervalMod
import Mathlib.Logic.Function.Basic
/-!
# Slots that take turns

`slots` slots are used one after the other, and again from the first. `turns`
counts the turns that a slot has had, `heldAfter` is what the slots hold when
in every turn a value is written to them: one of the last `slots` values each
(`heldAfter_of_recent`), or what they held at first.
-/

namespace RdmaManager

variable {α : Type*} {slots j m t : ℕ} {value init : ℕ → α}

/-- How many of `m` turns are those of the slot `j`. -/
def turns (slots j m : ℕ) : ℕ := m / slots + if j < m % slots then 1 else 0

theorem turns_eq_count (hj : j < slots) (m : ℕ) :
    turns slots j m = Nat.count (· ≡ j [MOD slots]) m := by
  rw [Nat.count_modEq_card m (Nat.zero_lt_of_lt hj), Nat.mod_eq_of_lt hj]
  rfl

theorem turns_succ (hj : j < slots) (m : ℕ) :
    turns slots j (m + 1) = turns slots j m + if m % slots = j then 1 else 0 := by
  rw [turns_eq_count hj, turns_eq_count hj, Nat.count_succ]
  simp only [Nat.ModEq, Nat.mod_eq_of_lt hj]

/-- What the slots hold after `m` values were written to them in turn. -/
def heldAfter (slots : ℕ) (value init : ℕ → α) : ℕ → ℕ → α
  | 0 => init
  | m + 1 => Function.update (heldAfter slots value init m) (m % slots) (value m)

theorem heldAfter_succ (slots : ℕ) (value init : ℕ → α) (m : ℕ) :
    heldAfter slots value init (m + 1) =
      Function.update (heldAfter slots value init m) (m % slots) (value m) := rfl

/-- A slot that has had no turn holds what it held at first. -/
theorem heldAfter_of_le (ht : t < slots) (hm : m ≤ t) : heldAfter slots value init m t = init t := by
  induction m with
  | zero => rfl
  | succ m ih =>
      have hne : t ≠ m % slots := by
        rw [Nat.mod_eq_of_lt (by omega)]
        omega
      rw [heldAfter_succ, Function.update_of_ne hne]
      exact ih (by omega)

/-- The last values written are there. -/
theorem heldAfter_of_recent (hj : j < m) (hm : m ≤ j + slots) :
    heldAfter slots value init m (j % slots) = value j := by
  induction m with
  | zero => exact absurd hj (Nat.not_lt_zero j)
  | succ m ih =>
      rw [heldAfter_succ]
      rcases Nat.lt_succ_iff_lt_or_eq.mp hj with hlt | rfl
      · have hne : j % slots ≠ m % slots := by
          intro hsame
          have hmul := (Nat.modEq_iff_dvd' hlt.le).mp hsame
          have hle := Nat.le_of_dvd (by omega) hmul
          omega
        rw [Function.update_of_ne hne]
        exact ih hlt (by omega)
      · exact Function.update_self _ _ _

end RdmaManager
