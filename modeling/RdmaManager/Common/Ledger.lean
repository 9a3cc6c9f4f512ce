import Mathlib.Data.List.Nodup
import Mathlib.Logic.Function.Basic
/-!
# Objects that are made and destroyed

Objects of one kind stand under handles, which are given out in
increasing order and never reused. `Ledger` says that the books are in
order: what was made is live or was destroyed, and nothing was destroyed
twice. An object of which neither holds twice over was destroyed exactly
once when it is no longer live (`count_eq_one`).
-/

namespace RdmaManager

/-- **The books of one kind of object**: the handles made and destroyed
so far, those that are live, and the next handle. -/
structure Ledger (made destroyed : List ℕ) (live : ℕ → Bool) (next : ℕ) : Prop where
  made : ∀ h ∈ made, live h = true ∨ h ∈ destroyed
  dead : ∀ h ∈ destroyed, h < next ∧ live h = false
  once : destroyed.Nodup

namespace Ledger

variable {made destroyed : List ℕ} {live : ℕ → Bool} {next next' h : ℕ}

theorem empty : Ledger [] [] live next where
  made _ hh := absurd hh List.not_mem_nil
  dead _ hh := absurd hh List.not_mem_nil
  once := List.nodup_nil

/-- Handles may be given to objects of another kind. -/
theorem mono (hl : Ledger made destroyed live next) (hle : next ≤ next') :
    Ledger made destroyed live next' where
  made := hl.made
  dead h hh := ⟨Nat.lt_of_lt_of_le (hl.dead h hh).1 hle, (hl.dead h hh).2⟩
  once := hl.once

/-- An object is made. -/
theorem make (hl : Ledger made destroyed live next) :
    Ledger (next :: made) destroyed (Function.update live next true) (next + 1) where
  made h hh := by
    rcases eq_or_ne h next with rfl | hne
    · exact Or.inl (Function.update_self _ _ _)
    · rw [Function.update_of_ne hne]
      exact hl.made h ((List.mem_cons.mp hh).resolve_left hne)
  dead h hh := by
    obtain ⟨hlt, hdead⟩ := hl.dead h hh
    exact ⟨by omega, by rw [Function.update_of_ne (by omega), hdead]⟩
  once := hl.once

/-- A live object is destroyed. -/
theorem destroy (hl : Ledger made destroyed live next) (hlive : live h = true) (hlt : h < next) :
    Ledger made (h :: destroyed) (Function.update live h false) next where
  made i hi := by
    rcases eq_or_ne i h with rfl | hne
    · exact Or.inr List.mem_cons_self
    · rw [Function.update_of_ne hne]
      exact (hl.made i hi).imp_right (List.mem_cons_of_mem h)
  dead i hi := by
    rcases List.mem_cons.mp hi with rfl | hi
    · exact ⟨hlt, Function.update_self _ _ _⟩
    · obtain ⟨hilt, hdead⟩ := hl.dead i hi
      exact ⟨hilt, by rw [Function.update_apply, hdead, ite_self]⟩
  once := by
    refine List.nodup_cons.mpr ⟨fun hmem => ?_, hl.once⟩
    have hdead := (hl.dead h hmem).2
    rw [hlive] at hdead
    simp at hdead

/-- **An object that was made and is not live was destroyed exactly once.** -/
theorem count_eq_one (hl : Ledger made destroyed live next) (hmade : h ∈ made)
    (hdead : live h = false) : destroyed.count h = 1 := by
  refine List.count_eq_one_of_mem hl.once ((hl.made h hmade).resolve_left ?_)
  rw [hdead]
  exact Bool.false_ne_true

end Ledger

end RdmaManager
