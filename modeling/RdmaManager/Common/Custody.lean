import Mathlib.Logic.Function.Basic
/-!
# Things and who holds them

Things come into use and go out of it, and are passed from one holder to
another. `Custody` says that each thing in use has exactly one holder and
that no holder has anything else; the three changes keep it.
-/

namespace RdmaManager

variable {ι κ : Type*} {used used' : κ → Prop} {holds holds' : ι → κ → Prop} {a b : ι} {k : κ}

/-- **Each thing in use has exactly one holder.** -/
structure Custody (used : κ → Prop) (holds : ι → κ → Prop) : Prop where
  held : ∀ k, used k → ∃ o, holds o k
  used : ∀ o k, holds o k → used k
  one : ∀ o o' k, holds o k → holds o' k → o = o'

namespace Custody

theorem of_none (hused : ∀ k, ¬ used k) (hholds : ∀ o k, ¬ holds o k) : Custody used holds where
  held k hk := absurd hk (hused k)
  used o k hk := absurd hk (hholds o k)
  one o _ k hk := absurd hk (hholds o k)

theorem congr (h : Custody used holds) (hused : ∀ j, used' j ↔ used j)
    (hholds : ∀ o j, holds' o j ↔ holds o j) : Custody used' holds' := by
  obtain rfl : used' = used := funext fun j => propext (hused j)
  obtain rfl : holds' = holds := funext fun o => funext fun j => propext (hholds o j)
  exact h

/-- A thing comes into use. -/
theorem take (h : Custody used holds) (hnew : ¬ used k) (hused : ∀ j, used' j ↔ j = k ∨ used j)
    (hholds : ∀ o j, holds' o j ↔ o = a ∧ j = k ∨ holds o j) : Custody used' holds' where
  held j hj := by
    rcases (hused j).mp hj with rfl | hj
    · exact ⟨a, (hholds a j).mpr (Or.inl ⟨rfl, rfl⟩)⟩
    · obtain ⟨o, ho⟩ := h.held j hj
      exact ⟨o, (hholds o j).mpr (Or.inr ho)⟩
  used o j hj := by
    rcases (hholds o j).mp hj with ⟨-, rfl⟩ | hj
    · exact (hused j).mpr (Or.inl rfl)
    · exact (hused j).mpr (Or.inr (h.used o j hj))
  one o o' j hj hj' := by
    rcases (hholds o j).mp hj with ⟨rfl, rfl⟩ | hold
    · rcases (hholds o' j).mp hj' with ⟨rfl, -⟩ | hold'
      · rfl
      · exact absurd (h.used o' j hold') hnew
    · rcases (hholds o' j).mp hj' with ⟨-, rfl⟩ | hold'
      · exact absurd (h.used o j hold) hnew
      · exact h.one o o' j hold hold'

/-- A thing goes out of use. -/
theorem give (h : Custody used holds) (hk : holds a k) (hused : ∀ j, used' j ↔ used j ∧ j ≠ k)
    (hholds : ∀ o j, holds' o j ↔ holds o j ∧ ¬ (o = a ∧ j = k)) : Custody used' holds' where
  held j hj := by
    obtain ⟨hold, hne⟩ := (hused j).mp hj
    obtain ⟨o, ho⟩ := h.held j hold
    exact ⟨o, (hholds o j).mpr ⟨ho, fun heq => hne heq.2⟩⟩
  used o j hj := by
    obtain ⟨hold, hother⟩ := (hholds o j).mp hj
    refine (hused j).mpr ⟨h.used o j hold, ?_⟩
    rintro rfl
    exact hother ⟨h.one o a j hold hk, rfl⟩
  one o o' j hj hj' := h.one o o' j ((hholds o j).mp hj).1 ((hholds o' j).mp hj').1

/-- A thing is passed on. -/
theorem pass (h : Custody used holds) (hk : holds a k) (hused : ∀ j, used' j ↔ used j)
    (hholds : ∀ o j, holds' o j ↔ o = b ∧ j = k ∨ holds o j ∧ ¬ (o = a ∧ j = k)) :
    Custody used' holds' := by
  have hgiven : Custody (fun j => used j ∧ j ≠ k) fun o j => holds o j ∧ ¬ (o = a ∧ j = k) :=
    h.give hk (fun _ => Iff.rfl) fun _ _ => Iff.rfl
  refine hgiven.take (k := k) (fun hk' => hk'.2 rfl) (fun j => ?_) hholds
  rw [hused]
  constructor
  · exact fun hj => (em (j = k)).imp_right fun hne => ⟨hj, hne⟩
  · rintro (rfl | ⟨hj, -⟩)
    · exact h.used a j hk
    · exact hj

end Custody

/-! ## A partial function as its pairs -/

variable {α β : Type*} [DecidableEq α] {f : α → Option β} {x : α} {y : β}

theorem update_some_iff (h : f x = none) (p : α × β) :
    Function.update f x (some y) p.1 = some p.2 ↔ p = (x, y) ∨ f p.1 = some p.2 := by
  obtain ⟨i, v⟩ := p
  rcases eq_or_ne i x with rfl | hne
  · rw [Function.update_self, h]
    simp [eq_comm]
  · rw [Function.update_of_ne hne]
    simp [hne]

theorem update_none_iff (h : f x = some y) (p : α × β) :
    Function.update f x none p.1 = some p.2 ↔ f p.1 = some p.2 ∧ p ≠ (x, y) := by
  obtain ⟨i, v⟩ := p
  rcases eq_or_ne i x with rfl | hne
  · rw [Function.update_self, h]
    simp [eq_comm]
  · rw [Function.update_of_ne hne]
    simp [hne]

end RdmaManager
