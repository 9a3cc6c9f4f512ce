import Mathlib.Logic.Function.Basic
import Mathlib.Tactic.SplitIfs
import RdmaManager.Common.System
/-!
# Crossing calls

Two parties may call each other at the same time, and one call is to go
through. Each party has a flag. A caller raises its own, and yields if it
was up already; a callee raises its own too, and if it was up already it
refuses the call, unless the caller is the `winner`.

The flags need not be kept: `flag` says when one is up. Once both parties
are at rest and one of them has called, exactly one call is through
(`through_of_rest`).
-/

namespace RdmaManager

/-- One of two parties. -/
inductive Side
  | left
  | right
  deriving DecidableEq, Repr

/-- The other party. -/
def Side.other : Side → Side
  | left => right
  | right => left

@[simp] theorem Side.other_other (x : Side) : x.other.other = x := by cases x <;> rfl

theorem Side.other_ne (x : Side) : x.other ≠ x := by cases x <;> simp [Side.other]

theorem Side.eq_other_of_ne {x y : Side} (h : y ≠ x) : y = x.other := by
  cases x <;> cases y <;> first | rfl | exact absurd rfl h

/-- **How far the call of a party has come.** -/
inductive Phase
  | idle
  /-- The flag is raised, the call is on its way. -/
  | raised
  | accepted
  | through
  | refused
  /-- The flag was up before. -/
  | yielded
  deriving DecidableEq, Repr

/-- The callee has accepted the call. -/
def Phase.engaged : Phase → Bool
  | accepted => true
  | through => true
  | _ => false

/-- The caller has raised its flag. -/
def Phase.up : Phase → Bool
  | idle => false
  | yielded => false
  | _ => true

namespace Crossing

/-- What a party does for its call, or the other one for it. -/
inductive Label
  | raise (x : Side)
  | answer (x : Side)
  | finish (x : Side)

/-- The flag of a party is up: it raised it as a caller or as a callee. -/
def flag (s : Side → Phase) (x : Side) : Bool := (s x).up || (s x.other).engaged

/-- Where a label leads. -/
def next (winner : Side) (s : Side → Phase) : Label → Side → Phase
  | .raise x => Function.update s x (if flag s x = true then .yielded else .raised)
  | .answer x =>
      Function.update s x (if flag s x.other = true ∧ x ≠ winner then .refused else .accepted)
  | .finish x => Function.update s x .through

/-- A party calls once. -/
def Enabled (s : Side → Phase) : Label → Prop
  | .raise x => s x = .idle
  | .answer x => s x = .raised
  | .finish x => s x = .accepted

/-- **The calls of two parties.** -/
def calls (winner : Side) : System (Side → Phase) Label where
  Init s := s = fun _ => .idle
  Step s l t := Enabled s l ∧ t = next winner s l

variable {winner : Side} {s : Side → Phase}

/-- What holds between the two calls. -/
structure Sane (winner : Side) (s : Side → Phase) : Prop where
  /-- At most one call is accepted. -/
  one : ∀ x, (s x).engaged = true → (s x.other).engaged = false
  /-- Who loses and is accepted all the same, is called by nobody. -/
  lone : ∀ x, (s x).engaged = true → x ≠ winner → (s x.other).up = false
  /-- A refused call crossed another. -/
  crossed : ∀ x, s x = .refused → x ≠ winner ∧ (s x.other).up = true
  /-- Who yields is called. -/
  called : ∀ x, s x = .yielded → (s x.other).engaged = true

theorem Phase.up_of_engaged {a : Phase} (h : a.engaged = true) : a.up = true := by
  cases a <;> first | rfl | exact absurd h (by decide)

/-- The call of one party goes on. -/
theorem Sane.update {x : Side} {a : Phase} (hsane : Sane winner s)
    (hone : a.engaged = true → (s x.other).engaged = false)
    (hlone : a.engaged = true → x ≠ winner → (s x.other).up = false)
    (hlone' : (s x.other).engaged = true → x = winner → a.up = false)
    (hcrossed : a = .refused → x ≠ winner ∧ (s x.other).up = true)
    (hcrossed' : s x.other = .refused → a.up = true)
    (hcalled : a = .yielded → (s x.other).engaged = true)
    (hcalled' : s x.other = .yielded → a.engaged = true) : Sane winner (Function.update s x a) := by
  have hself : Function.update s x a x = a := Function.update_self _ _ _
  have hother : Function.update s x a x.other = s x.other := Function.update_of_ne x.other_ne _ _
  refine ⟨fun y hy => ?_, fun y hy hne => ?_, fun y hy => ?_, fun y hy => ?_⟩ <;>
    by_cases hyx : y = x
  · rw [hyx, hself] at hy
    rw [hyx, hother]
    exact hone hy
  · obtain rfl := Side.eq_other_of_ne hyx
    rw [hother] at hy
    rw [Side.other_other, hself]
    by_contra hengaged
    rw [hone (eq_true_of_ne_false hengaged)] at hy
    exact absurd hy (by decide)
  · rw [hyx, hself] at hy
    rw [hyx, hother]
    exact hlone hy (hyx ▸ hne)
  · obtain rfl := Side.eq_other_of_ne hyx
    rw [hother] at hy
    rw [Side.other_other, hself]
    refine hlone' hy ?_
    by_contra hx
    exact hne (Side.eq_other_of_ne fun hw => hx hw.symm).symm
  · rw [hyx, hself] at hy
    rw [hyx, hother]
    exact hcrossed hy
  · obtain rfl := Side.eq_other_of_ne hyx
    rw [hother] at hy
    rw [Side.other_other, hself]
    exact ⟨(hsane.crossed _ hy).1, hcrossed' hy⟩
  · rw [hyx, hself] at hy
    rw [hyx, hother]
    exact hcalled hy
  · obtain rfl := Side.eq_other_of_ne hyx
    rw [hother] at hy
    rw [Side.other_other, hself]
    exact hcalled' hy

/-- **Every step keeps the parties sane.** -/
theorem Sane.step {l : Label} (hsane : Sane winner s) (henabled : Enabled s l) :
    Sane winner (next winner s l) := by
  cases l with
  | raise x =>
      have hidle : s x = .idle := henabled
      have hflag : flag s x = (s x.other).engaged := by
        unfold flag
        rw [hidle]
        rfl
      have hnot : s x.other ≠ .yielded := by
        intro hbad
        have hcalled := hsane.called _ hbad
        rw [Side.other_other, hidle] at hcalled
        exact absurd hcalled (by decide)
      show Sane winner (Function.update s x (if flag s x = true then .yielded else .raised))
      rw [hflag]
      split_ifs with hup
      · refine hsane.update nofun nofun (fun _ _ => rfl) nofun ?_ (fun _ => hup) ?_
        · intro hbad
          rw [hbad] at hup
          exact absurd hup (by decide)
        · exact fun hbad => absurd hbad hnot
      · refine hsane.update nofun nofun (fun hbad => absurd hbad hup) nofun
          (fun _ => rfl) nofun ?_
        exact fun hbad => absurd hbad hnot
  | answer x =>
      have hraised : s x = .raised := henabled
      have hflag : flag s x.other = (s x.other).up := by
        unfold flag
        rw [Side.other_other, hraised]
        exact Bool.or_false _
      show Sane winner
        (Function.update s x (if flag s x.other = true ∧ x ≠ winner then .refused else .accepted))
      rw [hflag]
      split_ifs with hback
      · refine hsane.update nofun nofun (fun _ hbad => absurd hbad hback.2)
          (fun _ => ⟨hback.2, hback.1⟩) (fun _ => rfl) nofun ?_
        intro hbad
        rw [hbad] at hback
        exact absurd hback.1 (by decide)
      · -- the other call is not accepted
        have hdown : x ≠ winner → (s x.other).up = false := fun hne =>
          eq_false_of_ne_true fun hup => hback ⟨hup, hne⟩
        have hfree : (s x.other).engaged = false := by
          by_contra hengaged
          rw [Bool.not_eq_false] at hengaged
          by_cases hx : x = winner
          · have hlone := hsane.lone _ hengaged (hx ▸ x.other_ne)
            rw [Side.other_other, hraised] at hlone
            exact absurd hlone (by decide)
          · rw [Phase.up_of_engaged hengaged] at hdown
            exact absurd (hdown hx) (by decide)
        refine hsane.update (fun _ => hfree) (fun _ => hdown) ?_ nofun (fun _ => rfl) nofun
          (fun _ => rfl)
        intro hbad
        rw [hfree] at hbad
        exact absurd hbad (by decide)
  | finish x =>
      have haccepted : s x = .accepted := henabled
      have hengaged : (s x).engaged = true := by
        rw [haccepted]
        rfl
      have hfree := hsane.one x hengaged
      refine hsane.update (fun _ => hfree) (fun _ => hsane.lone x hengaged) ?_ nofun
        (fun _ => rfl) nofun (fun _ => rfl)
      intro hbad
      rw [hfree] at hbad
      exact absurd hbad (by decide)

theorem invariant_sane : (calls winner).Invariant (Sane winner) := by
  refine ⟨?_, ?_⟩
  · rintro s rfl
    exact ⟨fun _ hbad => absurd hbad (by decide), fun _ hbad => absurd hbad (by decide),
      fun _ hbad => absurd hbad (by decide), fun _ hbad => absurd hbad (by decide)⟩
  · rintro s l t - hsane ⟨henabled, rfl⟩
    exact hsane.step henabled

/-- **One call is through**, once both parties are at rest and one has
called. -/
theorem through_of_rest (hreach : (calls winner).Reachable s)
    (hrest : ∀ x, s x ≠ .raised ∧ s x ≠ .accepted) (hmade : ∃ x, s x ≠ .idle) :
    ∃ x, s x = .through ∧ (s x.other).engaged = false := by
  have hsane := invariant_sane.reachable hreach
  have hthrough : ∀ x, (s x).engaged = true → s x = .through := by
    intro x hx
    have haccepted := (hrest x).2
    cases hs : s x <;> rw [hs] at hx haccepted <;>
      first | rfl | exact absurd hx (by decide) | exact absurd rfl haccepted
  have hdone : ∀ x, (s x).engaged = true → ∃ x, s x = .through ∧ (s x.other).engaged = false :=
    fun x hx => ⟨x, hthrough x hx, hsane.one x hx⟩
  obtain ⟨x, hx⟩ := hmade
  have hxrest := hrest x
  cases hs : s x with
  | idle => exact absurd hs hx
  | raised => exact absurd hs hxrest.1
  | accepted => exact absurd hs hxrest.2
  | through => exact hdone x (by rw [hs]; rfl)
  | yielded => exact hdone _ (hsane.called x hs)
  | refused =>
      -- the call that crossed it is neither idle nor on its way
      obtain ⟨hne, hup⟩ := hsane.crossed x hs
      have hother := hrest x.other
      refine hdone x.other ?_
      cases ho : s x.other with
      | idle | yielded => rw [ho] at hup; exact absurd hup (by decide)
      | raised => exact absurd ho hother.1
      | accepted | through => rfl
      | refused =>
          have hcrossed := hsane.crossed _ ho
          exact absurd (Side.eq_other_of_ne fun hw => hne hw.symm).symm hcrossed.1

end Crossing

end RdmaManager
