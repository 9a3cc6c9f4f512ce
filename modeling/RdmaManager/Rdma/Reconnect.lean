import RdmaManager.Rdma.ReliableReconnect
import RdmaManager.Rdma.UnreliableReconnect
/-!
# Reconnecting, on both transports

`WellDone` holds of every call of every run of sound calls, on a
`ReliableRDMA` and on an `UnreliableRDMA`. It does not hold of every run:
an id that was connected and disconnected cannot be connected again on
either of them.
-/

namespace RdmaManager

open Transport

/-- **The connection state machine of both transports**, in every run of
sound calls. -/
theorem connections_wellDone (call : ConnCall) (p q : BaseRDMA × Trail)
    (p' q' : UnreliableRDMA × Trail) :
    (ReliableRDMA.transport.soundRuns.Reachable p →
      ReliableRDMA.transport.soundRuns.Step p call q →
        ReliableRDMA.transport.WellDone p.1 p.2 call q.1) ∧
    (UnreliableRDMA.transport.soundRuns.Reachable p' →
      UnreliableRDMA.transport.soundRuns.Step p' call q' →
        UnreliableRDMA.transport.WellDone p'.1.toBaseRDMA p'.2 call q'.1.toBaseRDMA) :=
  ⟨fun hp hstep => ReliableRDMA.wellDone hp hstep,
    fun hp hstep => UnreliableRDMA.wellDone hp hstep⟩

/-! ## Two runs -/

/-- A device that never fails. -/
def steadyDevice : Device := Device.opened (fun _ => 0) fun h => h.toUInt32

/-- A `ReliableRDMA` on it. -/
def steadyReliable : BaseRDMA := ReliableRDMA.blank steadyDevice 4096 7 1 IbConn.zero

/-- An `UnreliableRDMA` on it. -/
def steadyUnreliable : UnreliableRDMA :=
  (UnreliableRDMA.construct
    (UnreliableRDMA.blank steadyDevice 4096 7 1 IbConn.zero fun n => n.toUInt32)).2

theorem steadyReliable_init : ReliableRDMA.transport.Init steadyReliable :=
  ⟨_, _, _, _, _, _, fun _ => rfl, rfl⟩

theorem steadyUnreliable_init : UnreliableRDMA.transport.Init steadyUnreliable := by
  refine ⟨fun _ => 0, fun h => h.toUInt32, 4096, 7, 1, IbConn.zero, fun n => n.toUInt32,
    fun _ => rfl, ?_⟩
  exact Prod.ext (by rfl) rfl

/-- The connection data of a remote queue pair. -/
def remoteConn : IbConn := { IbConn.zero with qpNum := 5, lid := 2 }

/-- What comes before a `connectQP` of id `0`. -/
def setUp : List ConnCall := [.initQPWithSuppliedID 0, .setRemoteConnData 0 remoteConn]

/-- A connection that is made, torn down and set up again. -/
def reconnect : List ConnCall := setUp ++ [.connectQP 0, .disconnectQP 0] ++ setUp

/-- The state after calls on a newly constructed object. -/
def after {σ : Type} (T : Transport σ) (s : σ) (calls : List ConnCall) : σ × Trail :=
  calls.foldl T.next (s, Trail.empty)

/-- A `connectQP` of id `0` is well done. -/
def ConnectsWell {σ : Type} (T : Transport σ) (p : σ × Trail) : Prop :=
  T.WellDone (T.base p.1) p.2 (.connectQP 0) (T.base (T.exec p.1 (.connectQP 0)))

/-- The first connection of an id is made on both transports. -/
theorem connections_wellDone_first :
    ConnectsWell ReliableRDMA.transport (after ReliableRDMA.transport steadyReliable setUp) ∧
      ConnectsWell UnreliableRDMA.transport
        (after UnreliableRDMA.transport steadyUnreliable setUp) := by
  have hid : 0 + 1 < 2 ^ 64 := by decide
  have hreliable : ReliableRDMA.transport.soundRuns.Reachable
      (after ReliableRDMA.transport steadyReliable setUp) := by
    refine System.Reachable.along (System.Reachable.init ⟨steadyReliable_init, rfl⟩) ?_
    exact ⟨⟨trivial, runs_step_next hid⟩, ⟨trivial, runs_step_next hid⟩, trivial⟩
  have hunreliable : UnreliableRDMA.transport.soundRuns.Reachable
      (after UnreliableRDMA.transport steadyUnreliable setUp) := by
    refine System.Reachable.along (System.Reachable.init ⟨steadyUnreliable_init, rfl⟩) ?_
    exact ⟨⟨trivial, runs_step_next hid⟩, ⟨trivial, runs_step_next hid⟩, trivial⟩
  have hdone := connections_wellDone (.connectQP 0) (after ReliableRDMA.transport steadyReliable setUp)
    (ReliableRDMA.transport.next (after ReliableRDMA.transport steadyReliable setUp) (.connectQP 0))
    (after UnreliableRDMA.transport steadyUnreliable setUp)
    (UnreliableRDMA.transport.next (after UnreliableRDMA.transport steadyUnreliable setUp)
      (.connectQP 0))
  refine ⟨hdone.1 hreliable ⟨?_, runs_step_next hid⟩,
    hdone.2 hunreliable ⟨⟨?_, ?_⟩, runs_step_next hid⟩⟩
  · left
    decide +kernel
  · decide +kernel
  · left
    decide +kernel

/-- The calls of `reconnect` can be made on any object. -/
theorem reconnect_reachable {σ : Type} {T : Transport σ} {s : σ} (hinit : T.Init s) :
    T.runs.Reachable (after T s reconnect) := by
  have hid : 0 + 1 < 2 ^ 64 := by decide
  refine System.Reachable.along (System.Reachable.init ⟨hinit, rfl⟩) ?_
  exact ⟨runs_step_next hid, runs_step_next hid, runs_step_next hid, runs_step_next hid,
    runs_step_next hid, runs_step_next hid, trivial⟩

theorem not_connectsWell {σ : Type} {T : Transport σ} {p : σ × Trail}
    (hinited : p.2.inited 0 = true)
    (hfalse : (T.base (T.exec p.1 (.connectQP 0))).connected.lookup 0 = some false) :
    ¬ ConnectsWell T p := by
  intro hdone
  have htrue := (hdone.usable 0 rfl hinited).1
  rw [hfalse] at htrue
  simp at htrue

/-- **An id that was disconnected is not connected again**, on neither
transport. -/
theorem reconnect_not_wellDone :
    (ReliableRDMA.transport.runs.Reachable
        (after ReliableRDMA.transport steadyReliable reconnect) ∧
      ¬ ConnectsWell ReliableRDMA.transport
        (after ReliableRDMA.transport steadyReliable reconnect)) ∧
    UnreliableRDMA.transport.runs.Reachable
        (after UnreliableRDMA.transport steadyUnreliable reconnect) ∧
      ¬ ConnectsWell UnreliableRDMA.transport
        (after UnreliableRDMA.transport steadyUnreliable reconnect) := by
  refine ⟨⟨reconnect_reachable steadyReliable_init, ?_⟩,
    reconnect_reachable steadyUnreliable_init, ?_⟩
  · exact not_connectsWell (by decide +kernel) (by decide +kernel)
  · exact not_connectsWell (by decide +kernel) (by decide +kernel)

end RdmaManager
