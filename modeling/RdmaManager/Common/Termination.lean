import Mathlib.Order.Nat
import Mathlib.Tactic.Push
import RdmaManager.Common.System
/-!
# Runs that end

`Ends` says of a state that no run from it goes on for ever. A measure that
every step lowers shows it; a run that is not continued then stops where no
step can be made.
-/

namespace RdmaManager

namespace System

variable {State Label : Type*} {M : System State Label} {s t : State}

/-- **Every run from the state ends.** -/
def Ends (M : System State Label) : State → Prop := Acc fun b a => ∃ l, M.Step a l b

/-- Nothing can happen any more. -/
def Stuck (M : System State Label) (s : State) : Prop := ∀ l t, ¬ M.Step s l t

/-- **A measure that every step lowers.** -/
theorem Reachable.ends (hs : M.Reachable s) (measure : State → ℕ)
    (hlower : ∀ a l b, M.Reachable a → M.Step a l b → measure b < measure a) : M.Ends s := by
  obtain ⟨n, hn⟩ : ∃ n, n = measure s := ⟨_, rfl⟩
  induction n using Nat.strong_induction_on generalizing s with
  | _ n ih =>
      refine Acc.intro s fun t ht => ?_
      obtain ⟨l, hstep⟩ := ht
      exact ih (measure t) (hn ▸ hlower s l t hs hstep) (hs.step hstep) rfl

/-- **A measure that some step lowers** until the goal is reached. -/
theorem Reachable.leads_of_lower (hs : M.Reachable s) (measure : State → ℕ) {goal : State → Prop}
    (hlower : ∀ a, M.Reachable a → ¬ goal a → ∃ l b, M.Step a l b ∧ measure b < measure a) :
    ∃ t, M.Leads s t ∧ goal t := by
  obtain ⟨n, hn⟩ : ∃ n, n = measure s := ⟨_, rfl⟩
  induction n using Nat.strong_induction_on generalizing s with
  | _ n ih =>
      by_cases hgoal : goal s
      · exact ⟨s, Leads.refl s, hgoal⟩
      · obtain ⟨l, t, hstep, hless⟩ := hlower s hs hgoal
        obtain ⟨u, hleads, hu⟩ := ih (measure t) (hn ▸ hless) (hs.step hstep) rfl
        exact ⟨u, Relation.ReflTransGen.head ⟨l, hstep⟩ hleads, hu⟩

/-- A run that goes on as long as it can stops. -/
theorem Ends.stops (h : M.Ends s) : ∃ t, M.Leads s t ∧ M.Stuck t := by
  induction h with
  | intro s _ ih =>
      by_cases hstuck : M.Stuck s
      · exact ⟨s, Leads.refl s, hstuck⟩
      · unfold Stuck at hstuck
        push Not at hstuck
        obtain ⟨l, t, hstep⟩ := hstuck
        obtain ⟨u, hleads, hu⟩ := ih t ⟨l, hstep⟩
        exact ⟨u, Relation.ReflTransGen.head ⟨l, hstep⟩ hleads, hu⟩

end System

end RdmaManager
