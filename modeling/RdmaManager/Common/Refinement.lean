import RdmaManager.Common.System
/-!
# Refinement

A step of a system shows an event, or nothing. One system refines another
under an abstraction of its states if each of its steps, seen from there,
is a step with the event it shows, or none where it shows nothing. Then
every run of the first is a run of the second with the same events
(`Refines.reachable`).
-/

namespace RdmaManager

namespace System

variable {State Label State' Event : Type*} {M : System State Label} {N : System State' Event}
variable {abs : State → State'} {shows : State → Label → State → Option Event}
variable {t : State} {events : List Event}

/-- The system that carries along the events of its run. -/
def trace (M : System State Label) (shows : State → Label → State → Option Event) :
    System (State × List Event) Label :=
  M.record (fun _ => []) fun s l t events => events ++ (shows s l t).toList

/-- The system all of whose labels are events. -/
def traced (N : System State' Event) : System (State' × List Event) Event :=
  N.trace fun _ e _ => some e

/-- **A refinement**: `M` does, under the abstraction, what `N` may do. -/
structure Refines (M : System State Label) (N : System State' Event) (abs : State → State')
    (shows : State → Label → State → Option Event) : Prop where
  init : ∀ s, M.Init s → N.Init (abs s)
  silent : ∀ s l t, M.Reachable s → M.Step s l t → shows s l t = none → abs t = abs s
  shown : ∀ s l t e, M.Reachable s → M.Step s l t → shows s l t = some e → N.Step (abs s) e (abs t)

/-- **A run of a refinement is a run of what it refines**, with the same
events. -/
theorem Refines.reachable (h : M.Refines N abs shows)
    (ht : (M.trace shows).Reachable (t, events)) : N.traced.Reachable (abs t, events) := by
  have hinv : (M.trace shows).Invariant fun p => N.traced.Reachable (abs p.1, p.2) := by
    refine ⟨fun p hinit => ?_, fun p l q hp hrun hstep => ?_⟩
    · rw [hinit.2]
      exact Reachable.init ⟨h.init _ hinit.1, rfl⟩
    · have hreach : M.Reachable p.1 := Reachable.of_record hp
      have hevents : q.2 = p.2 ++ (shows p.1 l q.1).toList := hstep.2
      cases hshown : shows p.1 l q.1 with
      | none =>
          rw [hshown, Option.toList_none, List.append_nil] at hevents
          rw [hevents, h.silent _ _ _ hreach hstep.1 hshown]
          exact hrun
      | some e =>
          rw [hshown] at hevents
          exact hrun.step (l := e) ⟨h.shown _ _ _ e hreach hstep.1 hshown, hevents⟩
  exact hinv.reachable ht

end System

end RdmaManager
