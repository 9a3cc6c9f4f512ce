import Mathlib.Logic.Relation
/-!
# Labelled transition systems

A system is a set of initial states and a labelled step relation. A run
is read through the two relations it induces: `Leads`, between the
states of one run, and `Reachable`, of the states some run from an
initial one visits. An invariant is proved once of the initial states
and of one step, and `Invariant.reachable` carries it to every run.

`restrict` keeps the steps that meet a condition, which is how a
statement about runs with a side condition on every step is read.
`record` adds a history variable that the steps write and never read.
-/

namespace RdmaManager

/-- **A labelled transition system.** -/
structure System (State Label : Type*) where
  /-- Where a run may begin. -/
  Init : State → Prop
  /-- What one labelled step may do. -/
  Step : State → Label → State → Prop

namespace System

variable {State Label History : Type*} {M : System State Label}
variable {s t u : State} {l : Label} {I J : State → Prop}

/-- `t` is visited by a run that has visited `s`. -/
def Leads (M : System State Label) : State → State → Prop :=
  Relation.ReflTransGen fun a b => ∃ l, M.Step a l b

/-- `t` is visited by some run from an initial state. -/
def Reachable (M : System State Label) (t : State) : Prop :=
  ∃ s, M.Init s ∧ M.Leads s t

theorem Leads.refl (s : State) : M.Leads s s := Relation.ReflTransGen.refl

theorem Leads.tail (h : M.Leads s t) (hstep : M.Step t l u) : M.Leads s u :=
  Relation.ReflTransGen.tail h ⟨l, hstep⟩

theorem Reachable.init (h : M.Init s) : M.Reachable s := ⟨s, h, Leads.refl s⟩

theorem Reachable.step (h : M.Reachable s) (hstep : M.Step s l t) : M.Reachable t := by
  obtain ⟨s₀, hinit, hleads⟩ := h
  exact ⟨s₀, hinit, hleads.tail hstep⟩

theorem Reachable.leads (h : M.Reachable s) (hleads : M.Leads s t) : M.Reachable t := by
  obtain ⟨s₀, hinit, hleads₀⟩ := h
  exact ⟨s₀, hinit, hleads₀.trans hleads⟩

/-- The labels can be taken one after the other from `s`, where `next`
says where each of them leads. -/
def StepsAlong (M : System State Label) (next : State → Label → State) : State → List Label → Prop
  | _, [] => True
  | s, l :: labels => M.Step s l (next s l) ∧ M.StepsAlong next (next s l) labels

theorem Leads.along {next : State → Label → State} {labels : List Label} (h : M.Leads s t)
    (hsteps : M.StepsAlong next t labels) : M.Leads s (labels.foldl next t) := by
  induction labels generalizing t with
  | nil => exact h
  | cons l labels ih => exact ih (h.tail hsteps.1) hsteps.2

theorem Reachable.along {next : State → Label → State} {labels : List Label} (h : M.Reachable s)
    (hsteps : M.StepsAlong next s labels) : M.Reachable (labels.foldl next s) :=
  h.leads ((Leads.refl s).along hsteps)

/-- A condition holds before each of the labels, taken one after the
other. -/
def MeetsAlong (ok : State → Label → Prop) (next : State → Label → State) :
    State → List Label → Prop
  | _, [] => True
  | s, l :: labels => ok s l ∧ MeetsAlong ok next (next s l) labels

instance (ok : State → Label → Prop) [∀ s l, Decidable (ok s l)] (next : State → Label → State) :
    ∀ s labels, Decidable (MeetsAlong ok next s labels)
  | _, [] => inferInstanceAs (Decidable True)
  | s, l :: labels =>
      have : Decidable (MeetsAlong ok next (next s l) labels) := instDecidableMeetsAlong ok next _ labels
      inferInstanceAs (Decidable (_ ∧ _))

/-- Where the steps are those that meet a condition, it is enough that each
label meets it. -/
theorem MeetsAlong.steps {ok : State → Label → Prop} {next : State → Label → State}
    (hstep : ∀ s l, ok s l → M.Step s l (next s l)) {labels : List Label}
    (h : MeetsAlong ok next s labels) : M.StepsAlong next s labels := by
  induction labels generalizing s with
  | nil => trivial
  | cons l labels ih => exact ⟨hstep s l h.1, ih h.2⟩

/-- **An inductive invariant**: it holds where a run begins and every
step from a reachable state keeps it. -/
structure Invariant (M : System State Label) (I : State → Prop) : Prop where
  init : ∀ s, M.Init s → I s
  step : ∀ s l t, M.Reachable s → I s → M.Step s l t → I t

/-- **An invariant holds in every reachable state.** -/
theorem Invariant.reachable (h : M.Invariant I) (ht : M.Reachable t) : I t := by
  obtain ⟨s, hinit, hleads⟩ := ht
  induction hleads with
  | refl => exact h.init s hinit
  | tail hleads hstep ih =>
      obtain ⟨l, hstep⟩ := hstep
      exact h.step _ l _ ⟨s, hinit, hleads⟩ ih hstep

/-- **What every step keeps, every run keeps**, from any state of it. -/
theorem Leads.keeps (hs : M.Reachable s)
    (hkeep : ∀ a l b, M.Reachable a → I a → M.Step a l b → I b)
    (h : M.Leads s t) (hI : I s) : I t := by
  induction h with
  | refl => exact hI
  | tail hleads hstep ih =>
      obtain ⟨l, hstep⟩ := hstep
      exact hkeep _ l _ (hs.leads hleads) ih hstep

/-! ## Conditions on the steps -/

/-- The system whose steps are those of `M` that meet `ok`. -/
def restrict (M : System State Label) (ok : State → Label → Prop) : System State Label where
  Init := M.Init
  Step s l t := ok s l ∧ M.Step s l t

/-- A run whose steps meet a condition is a run. -/
theorem Leads.of_restrict {ok : State → Label → Prop} (h : (M.restrict ok).Leads s t) :
    M.Leads s t := by
  induction h with
  | refl => exact Leads.refl s
  | tail _ hstep ih =>
      obtain ⟨l, hstep⟩ := hstep
      exact ih.tail hstep.2

theorem Reachable.of_restrict {ok : State → Label → Prop} (h : (M.restrict ok).Reachable t) :
    M.Reachable t := by
  obtain ⟨s, hinit, hleads⟩ := h
  exact ⟨s, hinit, hleads.of_restrict⟩

/-- What every step that meets a condition keeps, every run of such steps
keeps, from any state of a run. -/
theorem Leads.keeps_of_restrict {ok : State → Label → Prop} (hs : M.Reachable s)
    (hkeep : ∀ a l b, M.Reachable a → I a → ok a l → M.Step a l b → I b)
    (h : (M.restrict ok).Leads s t) (hI : I s) : I t := by
  induction h with
  | refl => exact hI
  | tail hleads hstep ih =>
      obtain ⟨l, hok, hstep⟩ := hstep
      exact hkeep _ l _ (hs.leads (Leads.of_restrict hleads)) ih hok hstep

/-! ## History variables -/

/-- The system that carries along a value written by every step. -/
def record (M : System State Label) (start : State → History)
    (write : State → Label → State → History → History) : System (State × History) Label where
  Init p := M.Init p.1 ∧ p.2 = start p.1
  Step p l q := M.Step p.1 l q.1 ∧ q.2 = write p.1 l q.1 p.2

/-- A recorded run is a run. -/
theorem Leads.of_record {start : State → History}
    {write : State → Label → State → History → History} {p q : State × History}
    (h : (M.record start write).Leads p q) : M.Leads p.1 q.1 := by
  induction h with
  | refl => exact Leads.refl p.1
  | tail _ hstep ih =>
      obtain ⟨l, hstep⟩ := hstep
      exact ih.tail hstep.1

theorem Reachable.of_record {start : State → History}
    {write : State → Label → State → History → History} {p : State × History}
    (h : (M.record start write).Reachable p) : M.Reachable p.1 := by
  obtain ⟨q, hinit, hleads⟩ := h
  exact ⟨q.1, hinit.1, hleads.of_record⟩

/-- Every run can be recorded. -/
theorem Reachable.record (h : M.Reachable t) (start : State → History)
    (write : State → Label → State → History → History) :
    ∃ x, (M.record start write).Reachable (t, x) := by
  obtain ⟨s, hinit, hleads⟩ := h
  induction hleads with
  | refl => exact ⟨start s, Reachable.init ⟨hinit, rfl⟩⟩
  | @tail a b _ hstep ih =>
      obtain ⟨l, hstep⟩ := hstep
      obtain ⟨x, hx⟩ := ih
      exact ⟨write a l b x, hx.step (l := l) ⟨hstep, rfl⟩⟩

end System

end RdmaManager
