import Mathlib.Data.List.Basic
import RdmaManager.Common.System
/-!
# A thread with a kill flag

An object owns a thread that runs a loop until it is told to stop. A start
call launches the thread, unless the flag `running` is set, and waits
until it is; a stop call sets the flag `kill`, unless `running` is not
set, and joins the thread. The loop tests `kill` before every pass, and
sets `running` where it begins and clears it where it ends.

Nothing clears `kill`. So what a start call is there for, `Serves`, holds
up to the first stop that finds the thread running, as long as every pass
comes back to the test (`serves_iff`).
-/

namespace RdmaManager

/-- What a piece of a pass comes to. -/
inductive Piece (L : Type)
  /-- The pass goes on. -/
  | on (l : L)
  /-- It is over. -/
  | again
  /-- The loop is left. -/
  | leave
  /-- An exception leaves the thread, which ends the program. -/
  | throw

/-- **A thread with a kill flag** of an object `B`: what its start and stop
calls do around it, and the passes of its loop, which have local
variables `L` and take inputs `M`. -/
structure Worker (B L M : Type) where
  /-- Before the thread is launched. -/
  launch : B → B
  /-- Where a pass begins. -/
  entry : L
  piece : M → L → B → Piece L × B
  /-- When a piece can run. -/
  Can : M → L → B → Prop
  /-- After `kill` is set. -/
  interrupt : B → B
  /-- When the object lets the stop call go on to the `join`. -/
  Joinable : B → Prop
  /-- After the `join`. -/
  joined : B → B
  /-- What others do to the object. -/
  World : B → B → Prop

/-- Where a thread stands. -/
inductive ThreadStage (L : Type)
  | launched
  | testing
  | within (l : L)
  | leaving
  | ended
  | threw

namespace ThreadStage

variable {L : Type}

/-- The thread has not left its loop. -/
def looping : ThreadStage L → Bool
  | .launched => true
  | .testing => true
  | .within _ => true
  | _ => false

def threwAway : ThreadStage L → Bool
  | .threw => true
  | _ => false

end ThreadStage

/-- The stage after a piece of a pass. -/
def Piece.stage {L : Type} : Piece L → ThreadStage L
  | .on l => .within l
  | .again => .testing
  | .leave => .leaving
  | .throw => .threw

/-- The pass has not left the loop. -/
def Piece.stays {L : Type} : Piece L → Bool
  | .on _ => true
  | .again => true
  | _ => false

theorem Piece.looping_stage {L : Type} (p : Piece L) : p.stage.looping = p.stays := by
  cases p <;> rfl

/-- Where the calls of the object's owner stand. -/
inductive ControlStage
  /-- No call was made. -/
  | fresh
  /-- A start call is about to test `running`. -/
  | awaiting
  /-- It is about to test `kill`. -/
  | checking
  /-- The last call was a start call. -/
  | started (success : Bool)
  /-- A stop call has set `kill`. -/
  | interrupting
  | joining
  /-- The last call was a stop call. -/
  | stopped
  deriving DecidableEq, Repr

/-- There is no call under way. -/
def ControlStage.atRest : ControlStage → Bool
  | .fresh => true
  | .started _ => true
  | .stopped => true
  | _ => false

/-- The flags, the threads that were launched, and the object. -/
structure WorkerState (B L : Type) where
  kill : Bool
  running : Bool
  threads : List (ThreadStage L)
  control : ControlStage
  object : B

/-- Before the first call. -/
def WorkerState.unused {B L : Type} (object : B) : WorkerState B L := ⟨false, false, [], .fresh, object⟩

/-- What happens. -/
inductive WorkerEvent (B M : Type)
  | start
  /-- A start call tests `running`. -/
  | await
  /-- It tests `kill`. -/
  | check
  | stop
  | interrupt
  | join
  /-- A thread begins. -/
  | begun (i : ℕ)
  /-- It tests `kill`. -/
  | test (i : ℕ)
  | piece (i : ℕ) (m : M)
  /-- It ends. -/
  | leave (i : ℕ)
  | world (object : B)

namespace Worker

variable {B L M : Type}

/-- The state after an event. -/
def exec (w : Worker B L M) (s : WorkerState B L) : WorkerEvent B M → WorkerState B L
  | .start =>
      if s.running then { s with control := .started true }
      else { s with
        object := w.launch s.object
        threads := s.threads ++ [.launched]
        control := .awaiting }
  | .await => { s with control := if s.running then .started true else .checking }
  | .check => { s with control := if s.kill then .started false else .awaiting }
  | .stop =>
      if s.running then { s with kill := true, control := .interrupting }
      else { s with control := .stopped }
  | .interrupt => { s with object := w.interrupt s.object, control := .joining }
  | .join => { s with object := w.joined s.object, control := .stopped }
  | .begun i => { s with running := true, threads := s.threads.set i .testing }
  | .test i => { s with threads := s.threads.set i (if s.kill then .leaving else .within w.entry) }
  | .piece i m =>
      match s.threads[i]? with
      | some (.within l) =>
          let (p, object) := w.piece m l s.object
          { s with object, threads := s.threads.set i p.stage }
      | _ => s
  | .leave i => { s with running := false, threads := s.threads.set i .ended }
  | .world object => { s with object }

/-- When it may happen. -/
def Enabled (w : Worker B L M) (s : WorkerState B L) : WorkerEvent B M → Prop
  | .start => s.control.atRest = true
  | .await => s.control = .awaiting
  | .check => s.control = .checking
  | .stop => s.control.atRest = true
  | .interrupt => s.control = .interrupting
  | .join => s.control = .joining ∧ s.threads.getLast? = some .ended ∧ w.Joinable s.object
  | .begun i => s.threads[i]? = some .launched
  | .test i => s.threads[i]? = some .testing
  | .piece i m => ∃ l, s.threads[i]? = some (.within l) ∧ w.Can m l s.object
  | .leave i => s.threads[i]? = some .leaving
  | .world object => w.World s.object object

/-- **The runs**, up to an exception that ends the program. -/
def runs (w : Worker B L M) : System (WorkerState B L) (WorkerEvent B M) where
  Init s := s.kill = false ∧ s.running = false ∧ s.threads = [] ∧ s.control = .fresh
  Step s e s' := s.threads.any ThreadStage.threwAway = false ∧ w.Enabled s e ∧ s' = w.exec s e

/-- **What a start call is there for**, up to the next stop call: it returns
`true`, the thread is in its loop and does not see `kill` set, and
`running` is set. -/
def Serves (s : WorkerState B L) : Prop :=
  match s.control with
  | .awaiting => s.kill = false ∧ ∃ x, s.threads.getLast? = some x ∧ x.looping = true
  | .checking => s.kill = false ∧ ∃ x, s.threads.getLast? = some x ∧ x.looping = true
  | .started success => success = true ∧ s.running = true ∧ s.kill = false ∧
      ∃ x, s.threads.getLast? = some x ∧ x.looping = true
  | _ => True

/-- `kill` is not set where a start call is made, and until it is every
pass stays in the loop. -/
def Spared (w : Worker B L M) (s : WorkerState B L) : WorkerEvent B M → Prop
  | .start => s.kill = false
  | .piece i m => s.kill = true ∨
      ∀ l, s.threads[i]? = some (.within l) → (w.piece m l s.object).1.stays = true
  | _ => True

/-! ## The phases of a run -/

/-- **The phases** before the first stop that finds the thread running, and
what is left to say after it. -/
inductive Phase (s : WorkerState B L) : Prop
  | idle (hkill : s.kill = false) (hrunning : s.running = false) (hthreads : s.threads = [])
      (hcontrol : s.control = .fresh ∨ s.control = .stopped)
  | starting (hkill : s.kill = false) (hrunning : s.running = false)
      (hthreads : s.threads = [.launched])
      (hcontrol : s.control = .awaiting ∨ s.control = .checking)
  | serving (x : ThreadStage L) (hkill : s.kill = false) (hrunning : s.running = true)
      (hthreads : s.threads = [x]) (hx : x = .testing ∨ ∃ l, x = .within l)
      (hcontrol : s.control = .awaiting ∨ s.control = .checking ∨ s.control = .started true)
  | killed (hkill : s.kill = true)
      (hcontrol : s.control = .interrupting ∨ s.control = .joining ∨ s.control = .stopped)

variable {w : Worker B L M} {s s' : WorkerState B L}

theorem Phase.serves (h : Phase s) : Serves s := by
  unfold Serves
  cases h with
  | idle hkill hrunning hthreads hcontrol =>
      rcases hcontrol with hcontrol | hcontrol <;> rw [hcontrol] <;> trivial
  | starting hkill hrunning hthreads hcontrol =>
      have hloop : ∃ x, s.threads.getLast? = some x ∧ x.looping = true := by
        rw [hthreads]
        exact ⟨_, rfl, rfl⟩
      rcases hcontrol with hcontrol | hcontrol <;> rw [hcontrol] <;> exact ⟨hkill, hloop⟩
  | serving x hkill hrunning hthreads hx hcontrol =>
      have hloop : ∃ x, s.threads.getLast? = some x ∧ x.looping = true := by
        rw [hthreads]
        refine ⟨x, rfl, ?_⟩
        rcases hx with rfl | ⟨l, rfl⟩ <;> rfl
      rcases hcontrol with hcontrol | hcontrol | hcontrol <;> rw [hcontrol]
      · exact ⟨hkill, hloop⟩
      · exact ⟨hkill, hloop⟩
      · exact ⟨rfl, hrunning, hkill, hloop⟩
  | killed hkill hcontrol =>
      rcases hcontrol with hcontrol | hcontrol | hcontrol <;> rw [hcontrol] <;> trivial

/-- The only thread is the first. -/
theorem of_getElem?_singleton {α : Type} {x y : α} {i : ℕ} (h : [x][i]? = some y) : i = 0 ∧ x = y := by
  cases i with
  | zero => exact ⟨rfl, Option.some.inj h⟩
  | succ i => simp at h

theorem exec_piece {i : ℕ} {m : M} {l : L} (hat : s.threads[i]? = some (.within l)) :
    w.exec s (.piece i m) = { s with
      threads := s.threads.set i (w.piece m l s.object).1.stage
      object := (w.piece m l s.object).2 } := by
  show (match s.threads[i]? with | some (.within l) => _ | _ => s) = _
  rw [hat]

theorem Phase.init (h : w.runs.Init s) : Phase s :=
  .idle h.1 h.2.1 h.2.2.1 (Or.inl h.2.2.2)

theorem not_rest_of_starting (hcontrol : s.control = .awaiting ∨ s.control = .checking) :
    s.control.atRest ≠ true := by
  rcases hcontrol with hcontrol | hcontrol <;> rw [hcontrol] <;> exact Bool.false_ne_true

/-- A start call, before any stop that found the thread running. -/
theorem Phase.start (h : Phase s) (hrest : s.control.atRest = true) (hkill : s.kill = false) :
    Phase (w.exec s .start) := by
  cases h with
  | idle _ hrunning hthreads hcontrol =>
      rw [show w.exec s .start = _ from if_neg (by rw [hrunning]; exact Bool.false_ne_true)]
      refine .starting hkill hrunning ?_ (Or.inl rfl)
      rw [hthreads, List.nil_append]
  | starting _ hrunning hthreads hcontrol => exact absurd hrest (not_rest_of_starting hcontrol)
  | serving x _ hrunning hthreads hx hcontrol =>
      rw [show w.exec s .start = _ from if_pos hrunning]
      exact .serving x hkill hrunning hthreads hx (Or.inr (Or.inr rfl))
  | killed hbad hcontrol => exact absurd (hkill.symm.trans hbad) Bool.false_ne_true

/-- It waits for the thread to begin. -/
theorem Phase.await (h : Phase s) (hawaits : s.control = .awaiting) : Phase (w.exec s .await) := by
  cases h with
  | idle _ _ _ hcontrol | killed _ hcontrol => simp [hawaits] at hcontrol
  | starting hkill hrunning hthreads hcontrol =>
      refine .starting hkill hrunning hthreads (Or.inr ?_)
      exact if_neg (by rw [hrunning]; exact Bool.false_ne_true)
  | serving x hkill hrunning hthreads hx hcontrol =>
      exact .serving x hkill hrunning hthreads hx (Or.inr (Or.inr (if_pos hrunning)))

theorem Phase.check (h : Phase s) (hchecks : s.control = .checking) : Phase (w.exec s .check) := by
  have hagain : s.kill = false → (w.exec s .check).control = .awaiting :=
    fun hkill => if_neg (by rw [hkill]; exact Bool.false_ne_true)
  cases h with
  | idle _ _ _ hcontrol | killed _ hcontrol => simp [hchecks] at hcontrol
  | starting hkill hrunning hthreads hcontrol =>
      exact .starting hkill hrunning hthreads (Or.inl (hagain hkill))
  | serving x hkill hrunning hthreads hx hcontrol =>
      exact .serving x hkill hrunning hthreads hx (Or.inl (hagain hkill))

/-- A stop call. -/
theorem Phase.stop (h : Phase s) (hrest : s.control.atRest = true) : Phase (w.exec s .stop) := by
  by_cases hrunning : s.running = true
  · rw [show w.exec s .stop = _ from if_pos hrunning]
    exact .killed rfl (Or.inl rfl)
  · rw [show w.exec s .stop = _ from if_neg hrunning]
    cases h with
    | idle hkill hrunning hthreads hcontrol => exact .idle hkill hrunning hthreads (Or.inr rfl)
    | starting hkill _ hthreads hcontrol => exact absurd hrest (not_rest_of_starting hcontrol)
    | serving x hkill hbad hthreads hx hcontrol => exact absurd hbad hrunning
    | killed hkill hcontrol => exact .killed hkill (Or.inr (Or.inr rfl))

/-- Whatever a thread does after that. -/
theorem Phase.of_kill (h : Phase s) (hkill : s.kill = true) (hkill' : s'.kill = true)
    (hcontrol' : s'.control = s.control) : Phase s' := by
  cases h with
  | idle hbad _ _ _ | starting hbad _ _ _ | serving _ hbad _ _ _ _ =>
      exact absurd (hbad.symm.trans hkill) Bool.false_ne_true
  | killed _ hcontrol => exact .killed hkill' (by rwa [hcontrol'])

/-- A thread begins. -/
theorem Phase.begun {i : ℕ} (h : Phase s) (hat : s.threads[i]? = some .launched) :
    Phase (w.exec s (.begun i)) := by
  cases h with
  | idle _ _ hthreads _ =>
      rw [hthreads] at hat
      simp at hat
  | starting hkill _ hthreads hcontrol =>
      rw [hthreads] at hat
      obtain ⟨rfl, -⟩ := of_getElem?_singleton hat
      refine .serving .testing hkill rfl ?_ (Or.inl rfl) (hcontrol.imp_right Or.inl)
      show s.threads.set 0 _ = _
      rw [hthreads]
      rfl
  | serving x _ _ hthreads hx _ =>
      rw [hthreads] at hat
      obtain ⟨rfl, hlaunched⟩ := of_getElem?_singleton hat
      rw [hlaunched] at hx
      simp at hx
  | killed hkill hcontrol => exact .killed hkill hcontrol

/-- The thread that is in its loop goes on within it. -/
theorem Phase.serve {i : ℕ} {x y : ThreadStage L} (h : Phase s) (hat : s.threads[i]? = some x)
    (hx : x = .testing ∨ ∃ l, x = .within l) (hy : s.kill = false → y = .testing ∨ ∃ l, y = .within l)
    {object : B} : Phase { s with threads := s.threads.set i y, object } := by
  cases h with
  | idle _ _ hthreads _ =>
      rw [hthreads] at hat
      simp at hat
  | starting _ _ hthreads _ =>
      rw [hthreads] at hat
      obtain ⟨-, rfl⟩ := of_getElem?_singleton hat
      simp at hx
  | serving _ hkill hrunning hthreads _ hcontrol =>
      rw [hthreads] at hat
      obtain ⟨rfl, -⟩ := of_getElem?_singleton hat
      refine .serving y hkill hrunning ?_ (hy hkill) hcontrol
      show s.threads.set 0 _ = _
      rw [hthreads]
      rfl
  | killed hkill hcontrol => exact .killed hkill hcontrol

/-- A thread ends only after `kill` was set. -/
theorem Phase.kill_of_leaving {i : ℕ} (h : Phase s) (hat : s.threads[i]? = some .leaving) :
    s.kill = true := by
  cases h with
  | idle _ _ hthreads _ =>
      rw [hthreads] at hat
      simp at hat
  | starting _ _ hthreads _ =>
      rw [hthreads] at hat
      simpa using (of_getElem?_singleton hat).2
  | serving x _ _ hthreads hx _ =>
      rw [hthreads] at hat
      obtain ⟨-, rfl⟩ := of_getElem?_singleton hat
      simp at hx
  | killed hkill _ => exact hkill

/-- **Every spared step** keeps the phases. -/
theorem Phase.exec (h : Phase s) {e : WorkerEvent B M} (henabled : w.Enabled s e)
    (hspared : w.Spared s e) : Phase (w.exec s e) := by
  cases e with
  | start => exact h.start henabled hspared
  | await => exact h.await henabled
  | check => exact h.check henabled
  | stop => exact h.stop henabled
  | interrupt =>
      have hinterrupts : s.control = .interrupting := henabled
      cases h with
      | idle _ _ _ hcontrol | starting _ _ _ hcontrol | serving _ _ _ _ _ hcontrol =>
          simp [hinterrupts] at hcontrol
      | killed hkill _ => exact .killed hkill (Or.inr (Or.inl rfl))
  | join =>
      have hjoins : s.control = .joining := henabled.1
      cases h with
      | idle _ _ _ hcontrol | starting _ _ _ hcontrol | serving _ _ _ _ _ hcontrol =>
          simp [hjoins] at hcontrol
      | killed hkill _ => exact .killed hkill (Or.inr (Or.inr rfl))
  | begun i => exact h.begun henabled
  | test i =>
      refine h.serve henabled (Or.inl rfl) fun hkill => Or.inr ⟨w.entry, ?_⟩
      exact if_neg (by rw [hkill]; exact Bool.false_ne_true)
  | piece i m =>
      obtain ⟨l, hat, -⟩ := henabled
      rw [exec_piece hat]
      refine h.serve hat (Or.inr ⟨l, rfl⟩) fun hkill => ?_
      have hstays := (hspared.resolve_left (by rw [hkill]; exact Bool.false_ne_true)) l hat
      cases hp : (w.piece m l s.object).1 with
      | on l' => exact Or.inr ⟨l', rfl⟩
      | again => exact Or.inl rfl
      | leave | throw =>
          rw [hp] at hstays
          exact absurd hstays Bool.false_ne_true
  | leave i => exact h.of_kill (h.kill_of_leaving henabled) (h.kill_of_leaving henabled) rfl
  | world object =>
      cases h with
      | idle hkill hrunning hthreads hcontrol => exact .idle hkill hrunning hthreads hcontrol
      | starting hkill hrunning hthreads hcontrol => exact .starting hkill hrunning hthreads hcontrol
      | serving x hkill hrunning hthreads hx hcontrol =>
          exact .serving x hkill hrunning hthreads hx hcontrol
      | killed hkill hcontrol => exact .killed hkill hcontrol

/-! ## Every run -/

theorem phase_invariant (w : Worker B L M) : (w.runs.restrict w.Spared).Invariant Phase := by
  refine ⟨fun s hinit => Phase.init (w := w) hinit, ?_⟩
  rintro s e s' - h ⟨hspared, -, henabled, rfl⟩
  exact h.exec henabled hspared

/-- A step that is not spared is a start call that finds `kill` set, or a
pass that leaves the loop. -/
theorem Phase.not_serves (h : Phase s) {e : WorkerEvent B M} (henabled : w.Enabled s e)
    (hspared : ¬ w.Spared s e) : ¬ Serves (w.exec s e) := by
  cases e with
  | start =>
      have hkill : s.kill = true := eq_true_of_ne_false hspared
      intro hserves
      by_cases hrunning : s.running = true
      · rw [show w.exec s .start = _ from if_pos hrunning] at hserves
        exact absurd (hserves.2.2.1.symm.trans hkill) Bool.false_ne_true
      · rw [show w.exec s .start = _ from if_neg hrunning] at hserves
        exact absurd (hserves.1.symm.trans hkill) Bool.false_ne_true
  | piece i m =>
      obtain ⟨l, hat, -⟩ := henabled
      rw [Spared, not_or] at hspared
      obtain ⟨hkill, hleaves⟩ := hspared
      have hgone : (w.piece m l s.object).1.stage.looping = false := by
        rw [Piece.looping_stage, ← Bool.not_eq_true]
        intro hstays
        refine hleaves fun l' hat' => ?_
        obtain rfl : l = l' := by
          rw [hat] at hat'
          simpa using hat'
        exact hstays
      have hexec := exec_piece (w := w) (m := m) hat
      cases h with
      | idle _ _ hthreads _ =>
          rw [hthreads] at hat
          simp at hat
      | starting _ _ hthreads _ =>
          rw [hthreads] at hat
          simpa using (of_getElem?_singleton hat).2
      | serving x _ _ hthreads _ hcontrol =>
          -- the thread that a start call waits for, or has started, is out of its loop
          have hlast : (w.exec s (.piece i m)).threads.getLast? =
              some (w.piece m l s.object).1.stage := by
            obtain ⟨rfl, -⟩ := of_getElem?_singleton (hthreads ▸ hat)
            rw [hexec]
            show (s.threads.set 0 _).getLast? = _
            rw [hthreads]
            rfl
          have hout : ¬ ∃ x, (w.exec s (.piece i m)).threads.getLast? = some x ∧ x.looping = true := by
            rintro ⟨x, hx, hloops⟩
            rw [hlast] at hx
            rw [← Option.some.inj hx, hgone] at hloops
            exact Bool.false_ne_true hloops
          have hsame : (w.exec s (.piece i m)).control = s.control := by rw [hexec]
          unfold Serves
          rw [hsame]
          rcases hcontrol with hcontrol | hcontrol | hcontrol <;> rw [hcontrol]
          · exact fun hserves => hout hserves.2
          · exact fun hserves => hout hserves.2
          · exact fun hserves => hout hserves.2.2.2
      | killed hbad _ => exact absurd hbad hkill
  | await | check | stop | interrupt | join | begun | test | leave | world => exact absurd trivial hspared

/-- **A start call does what it is there for** in every run before the first
stop that finds the thread running; and a step from there that is not
spared is the end of it. -/
theorem serves_iff (hreach : (w.runs.restrict w.Spared).Reachable s) :
    Serves s ∧ ∀ e s', w.runs.Step s e s' → (Serves s' ↔ w.Spared s e) := by
  have hphase := (phase_invariant w).reachable hreach
  refine ⟨hphase.serves, ?_⟩
  rintro e s' ⟨-, henabled, rfl⟩
  refine ⟨fun hserves => ?_, fun hspared => (hphase.exec henabled hspared).serves⟩
  by_contra hspared
  exact hphase.not_serves henabled hspared hserves

/-! ## Before the first start -/

theorem init_unused (w : Worker B L M) (object : B) : w.runs.Init (.unused object) :=
  ⟨rfl, rfl, rfl, rfl⟩

end Worker

end RdmaManager
