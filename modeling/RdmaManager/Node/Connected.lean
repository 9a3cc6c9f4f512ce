import RdmaManager.Node.UnreliableLinks
import RdmaManager.Rdma.Reconnect
/-!
# A call of `connect` that returned `true`

On both transports such a call has left its node connected, in histories
of sound events (`connect_honest`). A node that is refused before its own
handler has seen the other's request is told that it is connected all the
same (`connect_not_honest`).
-/

namespace RdmaManager

/-- **Every event of every sound history is honest**, on both transports. -/
theorem connect_honest (retries : ℕ) (event : HostEvent) (s s' : Host ReliableRDMA)
    (u u' : Host UnreliableRDMA) :
    ((Host.soundRuns retries).Reachable s → (Host.soundRuns retries).Step s event s' →
      s.Honest event s') ∧
    ((Host.soundRuns retries).Reachable u → (Host.soundRuns retries).Step u event u' →
      u.Honest event u') :=
  ⟨Host.honest ReliableRDMA.lawful, Host.honest UnreliableRDMA.lawful⟩

/-! ## Two histories -/

/-- A newly constructed server. -/
def newHost {σ : Type} (api : σ) (ownIpPort : String) : Host σ where
  server := {
    api := api
    ownNodeID := 0
    nodeIDsConnection := []
    nodeIDsQPs := []
    connections := ∅
    name := "RDMAServer"
    ownIpPort := ownIpPort
    nodeType := .server
    sequencerIpPort := "10.0.0.9:5600"
    sockets := ∅
    buffer := BaseMemory.new 4096 64
    currentSRQ := sizeMax }
  call := none
  linked _ := false
  made _ := false

/-- The node `ownNodeID` calls `connect` and asks the node `peerID`. -/
def asks (ownNodeID peerID : UInt64) (ipPort : String) : List HostEvent :=
  [.connect ipPort 55, .advance none, .answer (.ok (.nodeIDResponse ⟨ownNodeID, 0⟩)), .advance none,
    .answer (.ok (.getNodeIDForIpPortResponse ⟨ipPort, "RDMAServer", peerID, NodeType.server.code, 0⟩)),
    .advance none, .advance none, .advance none]

/-- It is answered, and goes on up to `connectQP`. -/
def goesOn : List HostEvent :=
  [.answer (.ok (.rdmaConnResponse ⟨8192, 3, 5, 9, 0, Vector.replicate 16 0⟩)), .advance none,
    .advance none, .advance none]

/-- Node `1` after events. -/
def reliableAfter (events : List HostEvent) : Host ReliableRDMA :=
  events.foldl (Host.exec 5) (newHost (ReliableRDMA.fresh steadyReliable) "10.0.0.1:5200")

def unreliableAfter (events : List HostEvent) : Host UnreliableRDMA :=
  events.foldl (Host.exec 5) (newHost steadyUnreliable "10.0.0.1:5200")

/-- What comes before the `connectQP` of node `1`. -/
def beforeConnectQP : List HostEvent := asks 1 2 "10.0.0.2:5200" ++ goesOn

theorem reliable_fresh : (reliableAfter []).Fresh := ⟨⟨rfl, rfl⟩, rfl, rfl, rfl, rfl, rfl⟩

theorem unreliable_fresh : (unreliableAfter []).Fresh := by
  refine ⟨⟨steadyDevice, 4096, 7, 1, IbConn.zero, fun n => n.toUInt32, ?_⟩, rfl, rfl, rfl, rfl, rfl⟩
  exact Prod.ext (by rfl) rfl

/-- Events that are sound and can happen make a sound history. -/
theorem soundRuns_reachable {σ : Type} [Linker σ] {s : Host σ} {events : List HostEvent}
    (hfresh : s.Fresh)
    (h : System.MeetsAlong (fun s event => s.Sound event ∧ s.Enabled event) (Host.exec 5) s events) :
    (Host.soundRuns 5).Reachable (events.foldl (Host.exec 5) s) := by
  refine System.Reachable.along (System.Reachable.init hfresh) (h.steps ?_)
  intro s event hmeets
  exact ⟨hmeets.1, hmeets.2, rfl⟩

/-- The first connection of a node, on both transports. -/
theorem connect_honest_first :
    (reliableAfter beforeConnectQP).Honest (.advance none)
        (reliableAfter (beforeConnectQP ++ [.advance none])) ∧
      (unreliableAfter beforeConnectQP).Honest (.advance none)
        (unreliableAfter (beforeConnectQP ++ [.advance none])) := by
  have hhonest := connect_honest 5 (.advance none) (reliableAfter beforeConnectQP)
    (reliableAfter (beforeConnectQP ++ [.advance none])) (unreliableAfter beforeConnectQP)
    (unreliableAfter (beforeConnectQP ++ [.advance none]))
  refine ⟨hhonest.1 ?_ ⟨?_, ?_, ?_⟩, hhonest.2 ?_ ⟨?_, ?_, ?_⟩⟩
  · exact soundRuns_reachable reliable_fresh (by decide +kernel)
  · decide +kernel
  · trivial
  · exact List.foldl_append
  · exact soundRuns_reachable unreliable_fresh (by decide +kernel)
  · decide +kernel
  · trivial
  · exact List.foldl_append

/-- Node `2`, which calls `connect` for node `1`. -/
def otherHost : Host ReliableRDMA :=
  (asks 2 1 "10.0.0.1:5200").foldl (Host.exec 5)
    (newHost (ReliableRDMA.fresh steadyReliable) "10.0.0.2:5200")

/-- The request that node `1` has sent by then. -/
def smallRequest : Request :=
  .rdmaConnRequest ⟨4096, 7, 2, 1, Vector.replicate 16 0, 0, 1⟩

/-- Node `1` is refused, and destroys its queue pair. -/
def refused : List HostEvent :=
  asks 1 2 "10.0.0.2:5200" ++ [.answer (.ok (.errorMessage 0)), .advance none]

/-- **Two nodes call `connect` for each other**, and node `2` handles the
request of node `1` while its own is on its way: node `1` is refused, and
returns `true` with no queue pair for node `2`. -/
theorem connect_not_honest :
    (Host.runs 5).Reachable otherHost ∧
      ((reliableAfter (asks 1 2 "10.0.0.2:5200")).call.bind fun call =>
        call.request (reliableAfter (asks 1 2 "10.0.0.2:5200")).server.toRDMAClient) =
          some ("10.0.0.2:5200", smallRequest) ∧
      (RDMAServer.handle smallRequest otherHost.server).1 = .ok (.errorMessage 0) ∧
      (Host.runs 5).Reachable (reliableAfter refused) ∧
      (Host.runs 5).Step (reliableAfter refused) (.advance none)
        (reliableAfter (refused ++ [.advance none])) ∧
      ¬ (reliableAfter refused).Honest (.advance none)
        (reliableAfter (refused ++ [.advance none])) := by
  have halong : ∀ {s : Host ReliableRDMA} {events : List HostEvent}, s.Fresh →
      System.MeetsAlong Host.Enabled (Host.exec 5) s events →
      (Host.runs 5).Reachable (events.foldl (Host.exec 5) s) := by
    intro s events hfresh h
    refine System.Reachable.along (System.Reachable.init hfresh) (h.steps ?_)
    intro s event henabled
    exact ⟨henabled, rfl⟩
  refine ⟨?_, by decide +kernel, by decide +kernel, ?_, ⟨trivial, List.foldl_append⟩, fun hhonest => ?_⟩
  · exact halong ⟨⟨rfl, rfl⟩, rfl, rfl, rfl, rfl, rfl⟩ (by decide +kernel)
  · exact halong reliable_fresh (by decide +kernel)
  · have hlive := hhonest.installed ⟨"10.0.0.2:5200", 2, .destroyingCQ ⟨some 2, some 0, some 1⟩⟩
      ⟨"10.0.0.2:5200", 2, .returned true⟩ (by decide +kernel) rfl (by decide +kernel) rfl
    exact absurd hlive.2 (by decide +kernel)

end RdmaManager
