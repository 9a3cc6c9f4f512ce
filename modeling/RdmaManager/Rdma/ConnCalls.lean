import RdmaManager.Common.System
import RdmaManager.Rdma.Base
/-!
# Runs of connection calls

The calls that set up, connect and disconnect the ids of one RDMA object,
in any order, and what is to hold of every one of them (`WellDone`). A
run carries a `Trail`, which says what a caller knows of each id: whether
it was set up, whether anything about it changed since it was last
connected, and which id an object of the device was made for.
-/

namespace RdmaManager

/-- The calls of the connection state machine. -/
inductive ConnCall
  | initQP
  | initQPWithSuppliedID (id : ℕ)
  | setRemoteConnData (id : ℕ) (conn : IbConn)
  | connectQP (id : ℕ)
  | disconnectQP (id : ℕ)
  deriving DecidableEq, Repr

/-- The id a call is about. `initQP` picks the next one itself. -/
def ConnCall.target (s : BaseRDMA) : ConnCall → ℕ
  | initQP => s.nextConnKey
  | initQPWithSuppliedID id => id
  | setRemoteConnData id _ => id
  | connectQP id => id
  | disconnectQP id => id

/-- What the callers did to each id, and for which id each object of the
device was made. -/
structure Trail where
  /-- The id was set up. -/
  inited : ℕ → Bool
  /-- It was set up again or given remote data since the last `connectQP`. -/
  changed : ℕ → Bool
  /-- It was given remote data since the last `connectQP`. -/
  rerouted : ℕ → Bool
  owner : ℕ → Option ℕ

namespace Trail

def empty : Trail := ⟨fun _ => false, fun _ => false, fun _ => false, fun _ => none⟩

/-- The marks a call leaves on its id. -/
def mark (id : ℕ) (t : Trail) : ConnCall → Trail
  | .initQP => { t with
      inited := Function.update t.inited id true
      changed := Function.update t.changed id true }
  | .initQPWithSuppliedID _ => { t with
      inited := Function.update t.inited id true
      changed := Function.update t.changed id true }
  | .setRemoteConnData _ _ => { t with
      changed := Function.update t.changed id true
      rerouted := Function.update t.rerouted id true }
  | .connectQP _ => { t with
      changed := Function.update t.changed id false
      rerouted := Function.update t.rerouted id false }
  | .disconnectQP _ => t

/-- The trail after a call that left `s'`: the objects it made are its
id's. -/
def write (s s' : BaseRDMA) (call : ConnCall) (t : Trail) : Trail :=
  { t.mark (call.target s) call with
    owner := fun h =>
      if s.device.next ≤ h ∧ h < s'.device.next then some (call.target s) else t.owner h }

/-- A call that made no object. -/
theorem write_owner_of_still {s s' : BaseRDMA} {call : ConnCall} {t : Trail}
    (hnext : s'.device.next = s.device.next) (h : ℕ) :
    (t.write s s' call).owner h = t.owner h := by
  refine (if_neg fun hmade => ?_).trans ?_
  · rw [hnext] at hmade
    exact absurd hmade.2 (Nat.not_lt.mpr hmade.1)
  · cases call <;> rfl

end Trail

/-- **A transport**, as far as its connection state machine goes. -/
structure Transport (σ : Type) where
  base : σ → BaseRDMA
  /-- A newly constructed object whose device never fails. -/
  Init : σ → Prop
  /-- The object after a call, whatever it returned or threw. -/
  exec : σ → ConnCall → σ
  /-- The peer route stored for the id can be used. -/
  Usable : BaseRDMA → ℕ → Prop
  /-- The calls that this transport answers as it should. -/
  Sound : BaseRDMA → Trail → ConnCall → Prop

namespace Transport

variable {σ : Type}

/-- The runs of calls on one object, with ids that can index a vector. -/
def runs (T : Transport σ) : System (σ × Trail) ConnCall :=
  System.record
    { Init := T.Init
      Step := fun s call s' => call.target (T.base s) + 1 < 2 ^ 64 ∧ s' = T.exec s call }
    (fun _ => Trail.empty)
    fun s call s' t => t.write (T.base s) (T.base s') call

/-- The state after a call, with the trail. -/
def next (T : Transport σ) (p : σ × Trail) (call : ConnCall) : σ × Trail :=
  (T.exec p.1 call, p.2.write (T.base p.1) (T.base (T.exec p.1 call)) call)

/-- Those whose calls are all sound ones. -/
def soundRuns (T : Transport σ) : System (σ × Trail) ConnCall :=
  T.runs.restrict fun p call => T.Sound (T.base p.1) p.2 call

theorem runs_step_next {T : Transport σ} {p : σ × Trail} {call : ConnCall}
    (hid : call.target (T.base p.1) + 1 < 2 ^ 64) : T.runs.Step p call (T.next p call) :=
  ⟨⟨hid, rfl⟩, rfl⟩

/-- **What is to hold of a call**, from `s` with the trail `t` to `s'`. -/
structure WellDone (T : Transport σ) (s : BaseRDMA) (t : Trail) (call : ConnCall) (s' : BaseRDMA) :
    Prop where
  /-- A connected id is usable. -/
  usable : ∀ id, call = .connectQP id → t.inited id = true →
    s'.connected.lookup id = some true ∧ T.Usable s' id
  /-- Connecting an id again calls no device. -/
  idle : ∀ id, call = .connectQP id → s.connected.lookup id = some true → t.changed id = false →
    s'.device.calls = s.device.calls
  /-- Nothing is destroyed twice. -/
  once : s'.device.qpsDestroyed.Nodup ∧ s'.device.ahsDestroyed.Nodup
  /-- What is destroyed is the id's own. -/
  owned : ∀ h, h ∈ s'.device.qpsDestroyed ∧ h ∉ s.device.qpsDestroyed ∨
      h ∈ s'.device.ahsDestroyed ∧ h ∉ s.device.ahsDestroyed →
    ∃ id, call = .disconnectQP id ∧ t.owner h = some id

end Transport

end RdmaManager
