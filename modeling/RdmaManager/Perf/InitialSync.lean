import RdmaManager.Node.RemoteBlocks
import RdmaManager.Perf.Barrier
/-!
# The initial sync

Before the tests a server waits until all clients have been through a
barrier, and then until all of them are disconnected again. A client says
that it is gone from its destructor, but what would say so there is
commented out, and nothing else sends an `RDMAConnDisconnect`. So a connected
node stays connected, and a server that was told to expect a client
never gets past the initial sync (`initialSyncAsServer_returns_iff`).
-/

namespace RdmaManager

open Act BaseRDMA

/-- The function of a client that sends the request: `connect`,
`remoteAlloc` or `remoteFree`. -/
def Request.FromClient (request : Request) : Prop :=
  (∃ (s : RDMAClient ReliableRDMA) (call : Call) (ipPort : String),
      call.request s = some (ipPort, request)) ∨
    ∃ call : MemoryCall, request = .memoryResourceRequest call.request

/-- **No function of a client sends an `RDMAConnDisconnect`.** -/
theorem Request.FromClient.ne_disconnect {request : Request} (h : request.FromClient) (nodeid : UInt64) :
    request ≠ .rdmaConnDisconnect nodeid := by
  rcases h with ⟨s, call, ipPort, hrequest⟩ | ⟨call, rfl⟩
  · rintro rfl
    unfold Call.request at hrequest
    split at hrequest <;> simp at hrequest
  · simp

/-! ## A connected node stays connected -/

/-- The ids that are connected. -/
def BaseRDMA.Connected (b : BaseRDMA) (id : ℕ) : Prop := b.connected.lookup id = some true

namespace RDMAServer

variable {s s' : RDMAServer ReliableRDMA}

/-- There is no shared receive queue, and no node is disconnected. -/
structure Stays (s s' : RDMAServer ReliableRDMA) : Prop where
  srq : s'.currentSRQ = sizeMax
  connected : ∀ id, s.base.Connected id → s'.base.Connected id

/-- **A message of a client** disconnects no node, even if it makes the
handler throw. -/
theorem stays_handle (hsrq : s.currentSRQ = sizeMax) {request : Request}
    (hrequest : ∀ nodeid, request ≠ .rdmaConnDisconnect nodeid) : Stays s (handle request s).2 := by
  have hsame : Stays s s := ⟨hsrq, fun _ h => h⟩
  have hof : ∀ b flags, b.connected = s.base.connected →
      Stays s (RDMAServer.withBase { s with nodeIDsQPs := flags } b) := fun b flags hb =>
    ⟨hsrq, fun id hid => by
      show b.connected.lookup id = some true
      rw [hb]
      exact hid⟩
  have hrerouted : ∀ {b₁ b₂ nodeID conn}, ReliableRDMA.Initialized s.base nodeID b₁ →
      Rerouted b₁ nodeID conn b₂ → b₂.connected = s.base.connected := by
    intro b₁ b₂ nodeID conn hinit hrerouted
    rw [hrerouted.eq]
    exact hinit.connected
  refine wp_snd.mp ?_
  cases request with
  | rdmaConnRequest req =>
      unfold handle
      simp only [wp_bind]
      have hqueue : wp (connectQueue req) (fun _ s' => Stays s s') (fun _ s' => Stays s s') s := by
        refine wp_connectQueue rfl (fun flags _ _ _ => ⟨hsrq, fun _ h => h⟩) (fun flags _ _ => ?_)
          fun _ flags _ => ⟨hsrq, fun _ h => h⟩
        refine wp_setUpQueue hsrq (fun e d _ _ => ⟨hof _ flags rfl, hof _ flags rfl⟩)
          (fun b₁ b₂ hinit hre _ => hof b₂ flags (hrerouted hinit hre)) (fun b₁ b₂ h old hinit hre _ _ => ?_)
          fun b₁ b₂ e d hinit hre _ _ _ => ?_
        · -- one more node is connected
          refine ⟨hsrq, fun id hid => ?_⟩
          show (b₂.connected.insert _ true).lookup id = some true
          rcases eq_or_ne id req.nodeid.toNat with rfl | hne
          · exact Finmap.lookup_insert _
          · rw [Finmap.lookup_insert_of_ne _ hne, hrerouted hinit hre]
            exact hid
        · have hconnected : b₂.connected = s.base.connected := hrerouted hinit hre
          exact ⟨hof { b₂ with device := d } flags hconnected, hof { b₂ with device := d } flags hconnected⟩
      refine wp_mono hqueue (fun connResp s' hdone => ?_) fun _ _ h => h
      cases connResp <;> exact hdone
  | memoryResourceRequest reqMsg =>
      unfold handle
      simp only [wp_bind, wp_zoom, wp_pure]
      exact wp_mono ((wp_snd (I := fun _ => True)).mpr trivial) (fun _ _ _ => ⟨hsrq, fun _ h => h⟩)
        fun _ _ _ => ⟨hsrq, fun _ h => h⟩
  | rdmaConnDisconnect nodeid => exact absurd rfl (hrequest nodeid)
  | nodeIDRequest | getNodeIDForIpPortRequest | getAllNodeIDsRequest | unknown => exact hsame

end RDMAServer

/-! ## The wait -/

/-- Where `initialSyncAsServer` stands. -/
inductive InitialSyncStage
  | barrier (stage : ServerBarrier)
  /-- It is about to test `!server->getConnectedConnIDs().empty()`. -/
  | waiting
  | returned
  deriving DecidableEq

/-- The server of the initial sync, and where `initialSyncAsServer` stands. -/
structure InitialSync where
  server : RDMAServer ReliableRDMA
  stage : InitialSyncStage

/-- What happens. -/
inductive InitialSyncEvent
  /-- The thread of the server handles a message. -/
  | handles (request : Request)
  /-- The barrier takes a snapshot of the connected ids. -/
  | counts (clientIds : List ℕ)
  /-- Its next verb succeeds or throws, or its next test is made. -/
  | goesOn (success : Bool)
  | looks (connIDs : List ℕ)
  deriving DecidableEq, Repr

namespace InitialSync

variable (expected_clients : ℕ) (w : InitialSync)

/-- What can happen. -/
def Enabled : InitialSyncEvent → Prop
  | .handles request => request.FromClient
  | .counts clientIds => ConnectedConnIDs w.server.base.connected clientIds
  | .goesOn _ => True
  | .looks connIDs => ConnectedConnIDs w.server.base.connected connIDs

/-- `initialSyncAsServer`, from where it stands. -/
def next (success : Bool) : InitialSyncStage → InitialSyncStage
  | .barrier (.returned _) => .waiting
  | .barrier stage => .barrier (stage.next expected_clients success)
  | stage => stage

def exec : InitialSyncEvent → InitialSync
  | .handles request => { w with server := (RDMAServer.handle request w.server).2 }
  | .counts clientIds =>
      match w.stage with
      | .barrier stage => { w with stage := .barrier (stage.snapshot clientIds) }
      | _ => w
  | .goesOn success => { w with stage := next expected_clients success w.stage }
  | .looks connIDs =>
      match w.stage with
      | .waiting => { w with stage := if connIDs.isEmpty then .returned else .waiting }
      | _ => w

/-- **The runs of the initial sync**, from a server that nobody has
connected to. -/
def runs : System InitialSync InitialSyncEvent where
  Init w := w.server.base.connected = ∅ ∧ w.server.currentSRQ = sizeMax ∧ w.stage = .barrier .away
  Step w e w' := w.Enabled e ∧ w' = w.exec expected_clients e

/-! ## It does not end -/

variable {expected_clients} {w} {connected connected' : ℕ → Prop} {stage : ServerBarrier}

/-- So many nodes are connected. -/
def AtLeast (n : ℕ) (connected : ℕ → Prop) : Prop :=
  ∃ ids : Finset ℕ, n ≤ ids.card ∧ ∀ id ∈ ids, connected id

/-- What the barrier has seen is connected, and it has seen enough once it
polls. -/
def Seen (n : ℕ) (connected : ℕ → Prop) : ServerBarrier → Prop
  | .away => True
  | .comparing clientIds alreadyConnectedIds =>
      (∀ id ∈ clientIds, connected id) ∧ ∀ id ∈ alreadyConnectedIds, connected id
  | .posting clientIds alreadyConnectedIds left =>
      (∀ id ∈ clientIds, connected id) ∧ (∀ id ∈ alreadyConnectedIds, connected id) ∧
        ∀ id ∈ left, connected id
  | .counting clientIds alreadyConnectedIds =>
      (∀ id ∈ clientIds, connected id) ∧ ∀ id ∈ alreadyConnectedIds, connected id
  | .sleeping alreadyConnectedIds => ∀ id ∈ alreadyConnectedIds, connected id
  | .polling _ _ => AtLeast n connected
  | .sending _ _ => AtLeast n connected
  | .returned _ => AtLeast n connected
  | .threw => True

theorem AtLeast.mono {n : ℕ} (h : AtLeast n connected) (hmono : ∀ id, connected id → connected' id) :
    AtLeast n connected' := by
  obtain ⟨ids, hcard, hids⟩ := h
  exact ⟨ids, hcard, fun id hid => hmono id (hids id hid)⟩

theorem Seen.mono {n : ℕ} (h : Seen n connected stage) (hmono : ∀ id, connected id → connected' id) :
    Seen n connected' stage := by
  cases stage with
  | away | threw => trivial
  | comparing clientIds ids | counting clientIds ids =>
      exact ⟨fun id hid => hmono id (h.1 id hid), fun id hid => hmono id (h.2 id hid)⟩
  | posting clientIds ids left =>
      exact ⟨fun id hid => hmono id (h.1 id hid), fun id hid => hmono id (h.2.1 id hid),
        fun id hid => hmono id (h.2.2 id hid)⟩
  | sleeping ids => exact fun id hid => hmono id (h id hid)
  | polling | sending | returned => exact AtLeast.mono h hmono

theorem Seen.snapshot {n : ℕ} (h : Seen n connected stage) {clientIds : List ℕ}
    (hids : ∀ id ∈ clientIds, connected id) : Seen n connected (stage.snapshot clientIds) := by
  cases stage with
  | away => exact ⟨hids, by simp⟩
  | sleeping ids => exact ⟨hids, h⟩
  | _ => exact h

theorem Seen.next {n : ℕ} (h : Seen n connected stage) (success : Bool) :
    Seen n connected (stage.next n success) := by
  cases stage with
  | away | sleeping | returned | threw => exact h
  | comparing clientIds ids =>
      simp only [ServerBarrier.next]
      split_ifs
      · exact ⟨h.1, h.2, h.1⟩
      · exact h
  | posting clientIds ids left =>
      cases left with
      | nil => exact ⟨h.1, h.2.1⟩
      | cons nodeID left =>
          obtain ⟨hclient, hids, hleft⟩ := h
          have hrest : ∀ id ∈ left, connected id := fun id hid => hleft id (List.mem_cons_of_mem _ hid)
          simp only [ServerBarrier.next]
          split_ifs
          · exact ⟨hclient, hids, hrest⟩
          · refine ⟨hclient, fun id hid => ?_, hrest⟩
            rcases Finset.mem_insert.mp hid with rfl | hid
            · exact hleft _ List.mem_cons_self
            · exact hids id hid
          · trivial
  | counting clientIds ids =>
      simp only [ServerBarrier.next]
      split_ifs with hless
      · exact h.2
      · exact ⟨ids, Nat.le_of_not_lt hless, h.2⟩
  | polling clientIds left | sending clientIds left =>
      cases left with
      | nil => exact h
      | cons nodeID left =>
          simp only [ServerBarrier.next]
          split_ifs
          · exact h
          · trivial

/-- **What holds throughout**: once the server waits for its clients to
leave, there are as many as it was told to expect. -/
structure Inv (expected_clients : ℕ) (w : InitialSync) : Prop where
  srq : w.server.currentSRQ = sizeMax
  stage : match w.stage with
    | .barrier stage => Seen expected_clients w.server.base.Connected stage
    | .waiting => AtLeast expected_clients w.server.base.Connected
    | .returned => expected_clients = 0

theorem Inv.step (h : Inv expected_clients w) {e : InitialSyncEvent} (hcan : w.Enabled e) :
    Inv expected_clients (w.exec expected_clients e) := by
  obtain ⟨server, stage⟩ := w
  obtain ⟨hsrq, hstage⟩ := h
  cases e with
  | handles request =>
      have hstays := RDMAServer.stays_handle hsrq hcan.ne_disconnect
      refine ⟨hstays.srq, ?_⟩
      cases stage with
      | barrier stage => exact Seen.mono hstage hstays.connected
      | waiting => exact AtLeast.mono hstage hstays.connected
      | returned => exact hstage
  | counts clientIds =>
      cases stage with
      | barrier stage => exact ⟨hsrq, Seen.snapshot hstage fun id hid => (hcan.mem_iff id).mp hid⟩
      | waiting | returned => exact ⟨hsrq, hstage⟩
  | goesOn success =>
      refine ⟨hsrq, ?_⟩
      cases stage with
      | barrier stage =>
          cases stage with
          | returned clientIds => exact hstage
          | _ => exact Seen.next hstage success
      | waiting | returned => exact hstage
  | looks connIDs =>
      cases stage with
      | waiting =>
          refine ⟨hsrq, ?_⟩
          cases connIDs with
          | nil =>
              -- nobody is connected
              obtain ⟨ids, hcard, hids⟩ := hstage
              have hempty : ids = ∅ := Finset.eq_empty_of_forall_notMem fun id hid =>
                absurd ((hcan.mem_iff id).mpr (hids id hid)) List.not_mem_nil
              rw [hempty, Finset.card_empty] at hcard
              exact Nat.le_zero.mp hcard
          | cons id connIDs => exact hstage
      | barrier | returned => exact ⟨hsrq, hstage⟩

theorem inv_invariant : (runs expected_clients).Invariant (Inv expected_clients) where
  init w hinit := by
    obtain ⟨-, hsrq, hstage⟩ := hinit
    refine ⟨hsrq, ?_⟩
    rw [hstage]
    trivial
  step w e w' _ h hstep := by
    obtain ⟨hcan, rfl⟩ := hstep
    exact h.step hcan

/-- **The initial sync of a server ends only if no client is expected.** -/
theorem initialSyncAsServer_returns_iff (expected_clients : ℕ) :
    (∃ w, (runs expected_clients).Reachable w ∧ w.stage = .returned) ↔ expected_clients = 0 := by
  constructor
  · rintro ⟨w, hreach, hreturned⟩
    have hstage := (inv_invariant.reachable hreach).stage
    rwa [hreturned] at hstage
  · rintro rfl
    have hnone : ConnectedConnIDs Fabric.small.server.base.connected [] := by decide
    have hstart : (runs 0).Reachable ⟨Fabric.small.server, .barrier .away⟩ := .init ⟨rfl, rfl, rfl⟩
    have hsteps : (runs 0).StepsAlong (exec 0) ⟨Fabric.small.server, .barrier .away⟩
        [.counts [], .goesOn true, .goesOn true, .goesOn true, .goesOn true, .goesOn true, .looks []] :=
      ⟨⟨hnone, rfl⟩, ⟨trivial, rfl⟩, ⟨trivial, rfl⟩, ⟨trivial, rfl⟩, ⟨trivial, rfl⟩, ⟨trivial, rfl⟩,
        ⟨hnone, rfl⟩, trivial⟩
    exact ⟨_, hstart.along hsteps, rfl⟩

end InitialSync

end RdmaManager
