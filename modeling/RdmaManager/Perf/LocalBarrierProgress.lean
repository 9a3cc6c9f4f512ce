import Mathlib.Algebra.BigOperators.Group.Finset.Basic
import Mathlib.Algebra.Order.BigOperators.Group.Finset
import RdmaManager.Common.Termination
import RdmaManager.Perf.LocalBarrier
/-!
# The local barrier ends

Every step leaves fewer, a spurious wakeup too. Where nobody can go on, a
benchmark is over or waits for a thread that was ready when it did not look.
Without spurious wakeups no thread leaves the wait before it is notified, so
none is missed.
-/

namespace RdmaManager

namespace LocalBarrier

variable {Op : Type*} {n i : ℕ} {all : List Op} {w w' : LocalBarrier Op}

/-! ## The steps that are left -/

/-- The steps that the benchmark has left for the operation. -/
def mainLeft (n : ℕ) : PerfMain → ℕ
  | .choosing => 0
  | .joining j => n - j + 1
  | .unlocking => n + 2
  | .signaling => n + 3
  | .notifying => n + 4
  | .locking => n + 5
  | .resetting => n + 6
  | .awaiting j => n + 7 + (n - j)
  | .starting j => 2 * n + 8 + 10 * (n - j)

/-- **The steps that are left**: for each operation those of the benchmark,
and ten for each of its threads. -/
def measure (n : ℕ) (w : LocalBarrier Op) : ℕ :=
  w.operations.length * (12 * n + 9) + mainLeft n w.main +
    ∑ i ∈ Finset.range n, (w.threads i).left

theorem sum_left_update (threads : ℕ → PerfThread Op) (stage : PerfThread Op) (hi : i < n) :
    ∑ j ∈ Finset.range n, (Function.update threads i stage j).left + (threads i).left =
      ∑ j ∈ Finset.range n, (threads j).left + stage.left := by
  have hmem := Finset.mem_range.mpr hi
  have hrest : ∑ j ∈ (Finset.range n).erase i, (Function.update threads i stage j).left =
      ∑ j ∈ (Finset.range n).erase i, (threads j).left :=
    Finset.sum_congr rfl fun j hj => by rw [Function.update_of_ne (Finset.ne_of_mem_erase hj)]
  rw [← Finset.add_sum_erase _ _ hmem, ← Finset.add_sum_erase _ (fun j => (threads j).left) hmem,
    hrest, Function.update_self]
  omega

theorem Inv.measure_go (h : Inv n all w) {stage : PerfThread Op} (hnext : Onward w i stage) :
    measure n (w.go i stage) < measure n w := by
  have hi : i < n := by
    by_contra hout
    have hleft := hnext.left
    rw [h.outside i (Nat.le_of_not_lt hout)] at hleft
    exact Nat.succ_ne_zero _ hleft
  have hsum := sum_left_update w.threads stage hi
  have hleft := hnext.left
  show w.operations.length * (12 * n + 9) + mainLeft n w.main +
    ∑ j ∈ Finset.range n, (Function.update w.threads i stage j).left < _
  unfold measure
  omega

variable [DecidableEq Op] {e : LocalEvent}

/-- **What the benchmark does** brings the end nearer. -/
theorem measure_main (hstep : w.mainStep n = some w') : measure n w' < measure n w := by
  unfold LocalBarrier.mainStep at hstep
  unfold measure
  cases hmain : w.main <;> rw [hmain] at hstep <;> simp only at hstep
  case choosing =>
    cases hops : w.operations with
    | nil => simp [hops] at hstep
    | cons op operations =>
        obtain rfl : _ = w' := by simpa [hops] using hstep
        simp only [mainLeft, List.length_cons, Nat.add_mul]
        omega
  case starting j =>
    split_ifs at hstep with hj <;> obtain rfl := Option.some.inj hstep
    · have hsum := sum_left_update w.threads .started hj
      simp only [mainLeft, setThread, PerfThread.left] at hsum ⊢
      omega
    · simp only [mainLeft]
      omega
  case awaiting j =>
    split_ifs at hstep with hj hready <;> obtain rfl := Option.some.inj hstep
    · simp only [mainLeft]
      omega
    · simp only [mainLeft]
      omega
  case notifying =>
    obtain rfl := Option.some.inj hstep
    have hsum : ∑ i ∈ Finset.range n, (notifyAll (w.threads i)).left ≤
        ∑ i ∈ Finset.range n, (w.threads i).left := by
      refine Finset.sum_le_sum fun i _ => ?_
      rw [PerfThread.left_notifyAll]
      split_ifs <;> omega
    simp only [mainLeft]
    omega
  case locking =>
    split_ifs at hstep with hfree
    obtain rfl := Option.some.inj hstep
    simp only [mainLeft]
    omega
  case joining j =>
    split_ifs at hstep with hj hstopped <;> obtain rfl := Option.some.inj hstep
    · simp only [mainLeft]
      omega
    · simp only [mainLeft]
      omega
  all_goals
    obtain rfl := Option.some.inj hstep
    simp only [mainLeft]
    omega

/-- **Every step leaves fewer.** -/
theorem Inv.measure_lt (h : Inv n all w) (hstep : w.step n e = some w') :
    measure n w' < measure n w := by
  cases e with
  | main => exact measure_main hstep
  | thread i =>
      obtain ⟨stage, hnext, -, rfl⟩ := h.threadStep_cases hstep
      exact h.measure_go hnext
  | spurious i =>
      obtain ⟨-, hnext, rfl⟩ := h.spuriousStep_eq hstep
      exact h.measure_go hnext

/-! ## Where nobody can go on -/

/-- The benchmark waits for a thread that is no longer ready. -/
def Missed (w : LocalBarrier Op) (i : ℕ) : Prop :=
  w.ready i = false ∧ (w.threads i).left ≤ 2 ∧
    ((∃ j, w.main = .starting j ∧ i < j) ∨ ∃ j ≤ i, w.main = .awaiting j)

/-- Nobody can go on, unless a wait returns that was not notified. -/
def Idle (n : ℕ) (w : LocalBarrier Op) : Prop :=
  ∀ e, Steady e → w.step n e = none

omit [DecidableEq Op] in
/-- A thread that cannot go on has returned, waits, or needs the lock. -/
theorem waits_of_threadStep (hnone : w.threadStep i = none) :
    w.threads i = .stopped ∨ w.threads i = .waiting ∨
      ¬ (w.threads i).Holds ∧ w.waitLock ≠ none := by
  unfold LocalBarrier.threadStep at hnone
  cases hstage : w.threads i with
  | stopped => exact Or.inl rfl
  | waiting => exact Or.inr (Or.inl rfl)
  | testing =>
      rw [hstage] at hnone
      cases hsignaled : w.signaled <;> simp [hsignaled] at hnone
  | started => simpa [hstage, PerfThread.Holds] using hnone
  | woken => simpa [hstage, PerfThread.Holds] using hnone
  | _ => simp [hstage] at hnone

theorem Inv.free_of_idle (h : Inv n all w) (hidle : Idle n w) : w.waitLock = none := by
  cases hlock : w.waitLock with
  | none => rfl
  | some party =>
      cases party with
      | main =>
          have hholds := h.main_holds.mp hlock
          have hnone : w.mainStep n = none := hidle .main trivial
          unfold LocalBarrier.mainStep at hnone
          cases hmain : w.main <;> rw [hmain] at hholds hnone <;>
            simp [PerfMain.Holds] at hholds hnone
      | thread i =>
          have hholds := (h.thread_holds i).mp hlock
          rcases waits_of_threadStep (hidle (.thread i) trivial) with hstage | hstage | ⟨hnot, -⟩
          · rw [hstage] at hholds
            exact absurd hholds not_false
          · rw [hstage] at hholds
            exact absurd hholds not_false
          · exact absurd hholds hnot

/-- **Where nobody can go on**, everything was measured, or the benchmark has
missed a thread. -/
theorem Inv.complete_or_missed (h : Inv n all w) (hidle : Idle n w) :
    w.Complete n all ∨ ∃ i < n, Missed w i := by
  have hfree := h.free_of_idle hidle
  have hwaits : ∀ i, w.threads i = .stopped ∨ w.threads i = .waiting := by
    intro i
    rcases waits_of_threadStep (hidle (.thread i) trivial) with hstage | hstage | ⟨-, hlock⟩
    · exact Or.inl hstage
    · exact Or.inr hstage
    · exact absurd hfree hlock
  have hnone : w.mainStep n = none := hidle .main trivial
  unfold LocalBarrier.mainStep at hnone
  cases hmain : w.main <;> rw [hmain] at hnone <;> simp only at hnone
  case choosing =>
    have hops : w.operations = [] := by
      cases hops : w.operations with
      | nil => rfl
      | cons op operations => simp [hops] at hnone
    refine Or.inl ⟨hmain, hops, fun i hi => ?_⟩
    simpa [hops] using h.done i hi (Or.inl hmain)
  case starting j => split_ifs at hnone
  case awaiting j =>
    split_ifs at hnone with hj hready
    have hnot : w.ready j = false := by simpa using hready
    refine Or.inr ⟨j, hj, hnot, ?_, Or.inr ⟨j, le_rfl, hmain⟩⟩
    rcases hwaits j with hstage | hstage
    · simp [hstage, PerfThread.left]
    · rw [h.ready, hstage] at hnot
      exact Bool.noConfusion hnot
  case locking => exact absurd hnone (by simp [hfree])
  case joining j =>
    split_ifs at hnone with hj hstopped
    have hleft := h.atMost j hj
    rw [(hwaits j).resolve_left hstopped, hmain] at hleft
    simp [PerfThread.left, PerfMain.atMost] at hleft
  all_goals exact absurd hnone (Option.some_ne_none _)

/-- A benchmark that has missed a thread does not see it later. -/
theorem Missed.main (h : Missed w i) (hi : i < n) (hstep : w.mainStep n = some w') :
    Missed w' i := by
  obtain ⟨hready, hleft, hstage⟩ := h
  unfold LocalBarrier.mainStep at hstep
  rcases hstage with ⟨j, hmain, hij⟩ | ⟨j, hji, hmain⟩ <;> rw [hmain] at hstep <;>
    simp only at hstep
  · split_ifs at hstep with hj <;> obtain rfl := Option.some.inj hstep
    · refine ⟨hready, ?_, Or.inl ⟨j + 1, rfl, Nat.lt_succ_of_lt hij⟩⟩
      simpa [setThread, hij.ne] using hleft
    · exact ⟨hready, hleft, Or.inr ⟨0, Nat.zero_le i, rfl⟩⟩
  · split_ifs at hstep with hj hseen <;> obtain rfl := Option.some.inj hstep
    · have hne : j ≠ i := by
        rintro rfl
        rw [hready] at hseen
        exact Bool.noConfusion hseen
      exact ⟨hready, hleft, Or.inr ⟨j + 1, Nat.lt_of_le_of_ne hji hne, rfl⟩⟩
    · omega

omit [DecidableEq Op] in
theorem Missed.go (h : Missed w i) {j : ℕ} {stage : PerfThread Op} (hnext : Onward w j stage) :
    Missed (w.go j stage) i := by
  obtain ⟨hready, hleft, hmain⟩ := h
  rcases eq_or_ne i j with rfl | hne
  · have hless := hnext.left
    refine ⟨?_, ?_, hmain⟩
    · show Function.update w.ready i stage.ready i = false
      rw [Function.update_self]
      exact PerfThread.not_ready (by omega)
    · show (Function.update w.threads i stage i).left ≤ 2
      rw [Function.update_self]
      omega
  · refine ⟨?_, ?_, hmain⟩
    · show Function.update w.ready j stage.ready i = false
      rwa [Function.update_of_ne hne]
    · show (Function.update w.threads j stage i).left ≤ 2
      rwa [Function.update_of_ne hne]

theorem Inv.missed_step (h : Inv n all w) (hi : i < n) (hmissed : Missed w i)
    (hstep : w.step n e = some w') : Missed w' i := by
  cases e with
  | main => exact hmissed.main hi hstep
  | thread j =>
      obtain ⟨stage, hnext, -, rfl⟩ := h.threadStep_cases hstep
      exact hmissed.go hnext
  | spurious j =>
      obtain ⟨-, hnext, rfl⟩ := h.spuriousStep_eq hstep
      exact hmissed.go hnext

omit [DecidableEq Op] in
theorem Missed.not_complete (h : Missed w i) : ¬ w.Complete n all := by
  rintro ⟨hmain, -, -⟩
  rcases h.2.2 with ⟨j, hstarting, -⟩ | ⟨j, -, hawaiting⟩
  · simp [hmain] at hstarting
  · simp [hmain] at hawaiting

/-- **What a spurious wakeup can do**: every run ends; where nobody can go on
everything was measured, unless the benchmark has missed a thread; and then
it waits for that thread in all that follows. -/
theorem complete_iff_not_missed (h : (runs n all).Reachable w) :
    (runs n all).Ends w ∧
      (Idle n w → (w.Complete n all ↔ ∀ i < n, ¬ Missed w i)) ∧
      ∀ i < n, Missed w i → ∀ w', (runs n all).Leads w w' → ¬ w'.Complete n all := by
  refine ⟨h.ends (measure n) fun a l b ha hstep => ?_,
    fun hidle => ⟨fun hc i _ hmissed => ?_, fun hno => ?_⟩, fun i hi hmissed w' hleads => ?_⟩
  · exact (runs_invariant.reachable ha).measure_lt hstep
  · exact hmissed.not_complete hc
  · rcases (runs_invariant.reachable h).complete_or_missed hidle with hc | ⟨i, hi, hmissed⟩
    · exact hc
    · exact absurd hmissed (hno i hi)
  · have hkeep := hleads.keeps h (fun a l b ha hm hstep =>
      (runs_invariant.reachable ha).missed_step hi hm hstep) hmissed
    exact hkeep.not_complete

/-- A benchmark for one operation. -/
def oneOperation : LocalBarrier ℕ :=
  ⟨.choosing, [1], 0, false, none, fun _ => .stopped, fun _ => false, fun _ => []⟩

theorem oneOperation_fresh : oneOperation.Fresh [1] :=
  ⟨rfl, rfl, rfl, fun _ => rfl, fun _ => rfl, fun _ => rfl⟩

/-- What happens, where it can. -/
def next (n : ℕ) (w : LocalBarrier Op) (e : LocalEvent) : LocalBarrier Op := (w.step n e).getD w

theorem step_next (h : (w.step n e).isSome) : w.step n e = some (next n w e) := by
  unfold next
  cases hstep : w.step n e with
  | none => simp [hstep] at h
  | some w' => rfl

/-- The first thread wakes up and begins, before it was seen. -/
def early : List LocalEvent :=
  [.main, .main, .thread 0, .thread 0, .thread 0, .spurious 0, .thread 0, .thread 0, .thread 0]

theorem complete_iff_not_missed_early :
    ¬ ∃ w, (runs 2 [1]).Leads (early.foldl (next 2) oneOperation) w ∧ w.Complete 2 [1] := by
  have hsteps : System.MeetsAlong (fun w e => (w.step 2 e).isSome) (next 2) oneOperation early := by
    decide
  have hrun : (runs 2 [1]).StepsAlong (next 2) oneOperation early := by
    refine hsteps.steps ?_
    intro w e h
    exact step_next h
  have hinit : (runs 2 [1]).Reachable oneOperation := System.Reachable.init oneOperation_fresh
  rintro ⟨w, hleads, hcomplete⟩
  refine (complete_iff_not_missed (hinit.along hrun)).2.2 0 (by decide) ?_ w hleads hcomplete
  exact ⟨by decide, by decide, Or.inl ⟨1, by decide, by decide⟩⟩

/-! ## Runs without a spurious wakeup -/

/-- Nobody has left the wait while the threads gather. -/
def Gathering (n : ℕ) (w : LocalBarrier Op) : Prop :=
  w.main.Gathers → ∀ i < n, w.main.Started i → 6 ≤ (w.threads i).left

theorem Gathering.main (h : Gathering n w) (hstep : w.mainStep n = some w') : Gathering n w' := by
  unfold LocalBarrier.mainStep at hstep
  intro hgathers i hi hstarted
  have hold := fun hg hs => h hg i hi hs
  cases hmain : w.main <;> rw [hmain] at hstep hold <;> simp only at hstep
  case choosing =>
    cases hops : w.operations with
    | nil => simp [hops] at hstep
    | cons op operations =>
        obtain rfl : _ = w' := by simpa [hops] using hstep
        exact absurd hstarted (Nat.not_lt_zero i)
  case starting j =>
    split_ifs at hstep with hj <;> obtain rfl := Option.some.inj hstep
    · show 6 ≤ (Function.update w.threads j .started i).left
      rcases eq_or_ne i j with rfl | hne
      · rw [Function.update_self]
        simp [PerfThread.left]
      · rw [Function.update_of_ne hne]
        exact hold trivial (Nat.lt_of_le_of_ne (Nat.le_of_lt_succ hstarted) hne)
    · exact hold trivial (Nat.lt_of_lt_of_le hi (Nat.le_of_not_lt hj))
  case awaiting j =>
    split_ifs at hstep with hj hready <;> obtain rfl := Option.some.inj hstep <;>
      exact hold trivial trivial
  case locking =>
    split_ifs at hstep with hfree
    obtain rfl := Option.some.inj hstep
    exact hold trivial trivial
  case joining j =>
    split_ifs at hstep with hj hstopped <;> obtain rfl := Option.some.inj hstep <;>
      exact absurd hgathers not_false
  case resetting =>
    obtain rfl := Option.some.inj hstep
    exact hold trivial trivial
  all_goals
    obtain rfl := Option.some.inj hstep
    exact absurd hgathers not_false

theorem steady_invariant :
    (steady n all).Invariant fun w => Inv n all w ∧ Gathering n w where
  init w h := ⟨Inv.start h, fun hgathers => by simp [h.main, PerfMain.Gathers] at hgathers⟩
  step w e w' _ h hstep := by
    obtain ⟨hsteady, hstep⟩ := hstep
    refine ⟨h.1.step hstep, ?_⟩
    cases e with
    | main => exact h.2.main hstep
    | spurious i => exact absurd hsteady not_false
    | thread i =>
        obtain ⟨stage, hnext, hwaits, rfl⟩ := h.1.threadStep_cases hstep
        intro hgathers j hj hstarted
        show 6 ≤ (Function.update w.threads i stage j).left
        have hold := h.2 hgathers j hj hstarted
        rcases eq_or_ne j i with rfl | hne
        · rw [Function.update_self]
          have hleft := hnext.left
          have hsix : (w.threads j).left ≠ 6 := by
            intro hsix
            cases hstage : w.threads j <;> rw [hstage] at hsix hwaits <;>
              simp [PerfThread.left] at hsix hwaits
          omega
        · rwa [Function.update_of_ne hne]

/-- **The threads measure together**: a thread that measures has the
operation of the benchmark, every thread was started for it and is past the
barrier, and no thread has measured more, or fewer, than this operation. -/
theorem measures_together (h : (steady n all).Reachable w) {op : Op}
    (hstage : w.threads i = .measuring op) :
    op = w.testOperation ∧ ∀ j < n, w.main.Started j ∧ (w.threads j).Past ∧
      (w.measured j = w.measured i ∨ w.measured j = w.measured i ++ [op]) := by
  obtain ⟨hinv, hgathering⟩ := steady_invariant.reachable h
  have hi : i < n := by
    by_contra hout
    simp [hinv.outside i (Nat.le_of_not_lt hout)] at hstage
  have hatMost := hinv.atMost i hi
  rw [hstage] at hatMost
  have hstarted := PerfMain.started_of_atMost hatMost
  have hover : ¬ w.main.Gathers := by
    intro hgathers
    have hsix := hgathering hgathers i hi hstarted
    rw [hstage] at hsix
    simp [PerfThread.left] at hsix
  have hop := hinv.operation i op hstage
  have hmine : w.measured i ++ op :: w.operations = all := by
    rw [hop]
    refine hinv.not_done i hi fun hdone => ?_
    rcases hdone with hmain | ⟨-, hstopped⟩
    · rw [hmain] at hstarted
      exact hstarted
    · simp [hstage] at hstopped
  refine ⟨hop, fun j hj => ⟨?_, ?_, ?_⟩⟩
  · cases hmain : w.main <;> rw [hmain] at hstarted hover <;>
      first | trivial | exact absurd trivial hover
  · by_contra hlate
    have hless : 5 < (w.threads j).left := by
      by_contra hle
      exact hlate (PerfThread.past_of_left (Nat.le_of_not_lt hle))
    exact hover (PerfMain.gathers_of_atMost (lt_of_lt_of_le hless (hinv.atMost j hj)))
  · by_cases hdone : w.Done j
    · right
      have hmore : w.measured i ++ [op] ++ w.operations = all := by simpa using hmine
      exact List.append_cancel_right ((hinv.done j hj hdone).trans hmore.symm)
    · left
      have hother := hinv.not_done j hj hdone
      rw [← hmine, ← hop] at hother
      exact List.append_cancel_right hother

/-- Two threads gather, and one begins to measure. -/
def gathered : List LocalEvent :=
  List.replicate 4 .main ++ List.replicate 3 (.thread 0) ++ List.replicate 3 (.thread 1) ++
    List.replicate 8 .main ++ List.replicate 4 (.thread 0)

theorem measures_together_gathered :
    (gathered.foldl (next 2) oneOperation).threads 0 = .measuring 1 ∧
      ((gathered.foldl (next 2) oneOperation).threads 1).Past := by
  have hsteps : System.MeetsAlong (fun w e => Steady e ∧ (w.step 2 e).isSome) (next 2) oneOperation
      gathered := by
    decide
  have hrun : (steady 2 [1]).StepsAlong (next 2) oneOperation gathered := by
    refine hsteps.steps ?_
    intro w e h
    exact ⟨h.1, step_next h.2⟩
  have hinit : (steady 2 [1]).Reachable oneOperation := System.Reachable.init oneOperation_fresh
  have hreach := hinit.along hrun
  have hstage : (gathered.foldl (next 2) oneOperation).threads 0 = .measuring 1 := by decide
  exact ⟨hstage, ((measures_together hreach hstage).2 1 (by decide)).2.1⟩

/-- **No wakeup is lost**: every run ends, and where it ends every thread has
measured all operations, in their order. -/
theorem all_measured (h : (steady n all).Reachable w) :
    (steady n all).Ends w ∧ ((steady n all).Stuck w → w.Complete n all) := by
  refine ⟨h.ends (measure n) fun a l b ha hstep => ?_, fun hstuck => ?_⟩
  · exact (steady_invariant.reachable ha).1.measure_lt hstep.2
  · obtain ⟨hinv, hgathering⟩ := steady_invariant.reachable h
    have hidle : Idle n w := by
      intro e hsteady
      cases hstep : w.step n e with
      | none => rfl
      | some w' => exact absurd ⟨hsteady, hstep⟩ (hstuck e w')
    rcases hinv.complete_or_missed hidle with hc | ⟨i, hi, -, hleft, hmain⟩
    · exact hc
    · have hsix : 6 ≤ (w.threads i).left := by
        rcases hmain with ⟨j, hmain, hij⟩ | ⟨j, -, hmain⟩
        · exact hgathering (hmain ▸ trivial) i hi (hmain ▸ hij)
        · exact hgathering (hmain ▸ trivial) i hi (hmain ▸ trivial)
      omega

/-- A benchmark of two threads ends. -/
theorem all_measured_oneOperation :
    ∃ w, (steady 2 [1]).Reachable w ∧ w.measured 0 = [1] ∧ w.measured 1 = [1] := by
  have hinit : (steady 2 [1]).Reachable oneOperation := System.Reachable.init oneOperation_fresh
  obtain ⟨w, hleads, hstuck⟩ := (all_measured hinit).1.stops
  have hw := hinit.leads hleads
  have hcomplete := (all_measured hw).2 hstuck
  exact ⟨w, hw, hcomplete.measured 0 (by decide), hcomplete.measured 1 (by decide)⟩

end LocalBarrier

end RdmaManager
