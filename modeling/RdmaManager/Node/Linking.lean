import RdmaManager.Common.System
import RdmaManager.Node.Server
/-!
# Linking

A server makes calls of `connect`, one after the other, and its own
handler runs between any two stages of them. Every answer may be any, and
every call of the device may fail. Three of the four ways in which
`connect` returns `true` leave the queue pair to others: there is a socket
to the address already, the node is marked already, the node refuses. So
the history keeps which nodes are `linked`: those the handler has answered
with an `RDMAConnResponse` and those an earlier call returned `true` for,
until they disconnect.

`Lawful.step` is the induction step of both transports: what a `Lawful`
transport keeps true of its tables, every event keeps.
-/

namespace RdmaManager

/-- Every live queue pair stays alive. -/
def Device.Keeps (d d' : Device) : Prop := ∀ h, d.qps h ≠ none → d'.qps h ≠ none

/-- What a call that runs has in hand. -/
inductive Hold
  | nothing
  /-- A queue pair that is not in the tables. -/
  | pair (qpPt : IbQp)
  /-- The entry of a node, which is not connected yet. -/
  | entry (id : ℕ)

/-- **A transport that `connect` can be called on.** -/
class Linker (σ : Type) extends RdmaApi σ where
  /-- A newly constructed object, on any device. -/
  Fresh : σ → Prop
  /-- The node has a queue pair, or an address handle, and is connected. -/
  Installed : σ → ℕ → Prop
  /-- The next call of the device does not fail if it is to make an address
  handle. -/
  Able : σ → Bool
  /-- What is cleaned up after a refusal is what the call has made. -/
  Cleans : Bool

/-- **A server and its latest call of `connect`**, with the nodes that are
linked and the objects of the device that the call has made. A client is
a server that handles nothing. -/
structure Host (σ : Type) where
  server : RDMAServer σ
  call : Option Call
  linked : ℕ → Bool
  made : ℕ → Bool

/-- What can happen at a host. -/
inductive HostEvent
  /-- `connect` is called. -/
  | connect (ipPort : String) (retServerNodeID : UInt64)
  /-- It goes on to the next stage. -/
  | advance (fault : Option Exn)
  /-- Its message is answered, or the exchange of messages throws. -/
  | answer (reply : Except Exn Response)
  /-- The handler handles a message. -/
  | handle (request : Request)

/-- The nodes that are linked after the handler's answer to a message. -/
def relink (request : Request) (answer : Except Exn Response) (linked : ℕ → Bool) : ℕ → Bool :=
  match request, answer with
  | .rdmaConnRequest req, .ok (.rdmaConnResponse _) => Function.update linked req.nodeid.toNat true
  | .rdmaConnDisconnect nodeid, _ => Function.update linked nodeid.toNat false
  | _, _ => linked

/-- The id that the call has its entry for, between `setQP` and
`connectQP`. -/
def Call.entry (call : Call) : Option ℕ :=
  match call.stage with
  | .settingLocalConnData _ _ => some call.retServerNodeID.toNat
  | .settingRemoteConnData _ => some call.retServerNodeID.toNat
  | .connecting => some call.retServerNodeID.toNat
  | _ => none

namespace Host

variable {σ : Type} [Linker σ] {retries : ℕ} {s : Host σ} {call : Call}

/-- The queue pairs of the device, and so on. -/
def device (s : Host σ) : Device := s.server.base.device

/-- The host after a piece of its call. -/
def goneTo (s : Host σ) (call : Call) (client : RDMAClient σ) : Host σ where
  server := { s.server with toRDMAClient := client }
  call := some call
  linked :=
    if call.stage = .returned true then Function.update s.linked call.retServerNodeID.toNat true
    else s.linked
  made h := s.made h || decide (s.device.next ≤ h ∧ h < client.base.device.next)

def goOn (s : Host σ) (call : Call) (x : Act (RDMAClient σ) Call) : Host σ :=
  s.goneTo (call.run x s.server.toRDMAClient).1 (call.run x s.server.toRDMAClient).2

/-- The host after an event. -/
def exec (retries : ℕ) (s : Host σ) : HostEvent → Host σ
  | .connect ipPort retServerNodeID =>
      { s with call := some (Call.enter ipPort retServerNodeID), made := fun _ => false }
  | .advance fault =>
      match s.call with
      | some call => if call.running = true then s.goOn call (call.advance fault) else s
      | none => s
  | .answer reply =>
      match s.call with
      | some call => if call.running = true then s.goOn call (call.receive retries reply) else s
      | none => s
  | .handle request =>
      { s with
        server := (RDMAServer.handle request s.server).2
        linked := relink request (RDMAServer.handle request s.server).1 s.linked }

/-- Calls are made one after the other, and none after one that failed. -/
def Enabled (s : Host σ) : HostEvent → Prop
  | .connect _ _ => ∀ call ∈ s.call, call.stage = .returned true
  | _ => True

instance (s : Host σ) (event : HostEvent) : Decidable (s.Enabled event) :=
  match event with
  | .connect _ _ => inferInstanceAs (Decidable (∀ call ∈ s.call, _ = _))
  | .advance _ | .answer _ | .handle _ => inferInstanceAs (Decidable True)

/-- A newly constructed server, with any shared receive queue. -/
def Fresh (s : Host σ) : Prop :=
  Linker.Fresh s.server.api ∧ s.server.nodeIDsQPs = [] ∧ s.server.connections = ∅ ∧
    s.server.sockets = ∅ ∧ s.call = none ∧ s.linked = fun _ => false

/-- The histories of a server. -/
def runs (retries : ℕ) : System (Host σ) HostEvent where
  Init := Fresh
  Step s event s' := s.Enabled event ∧ s' = s.exec retries event

/-- A node that `connect` leaves to others is linked, only a `ReliableRDMA`
is refused, and `m_connected` is not `false` where `connectQP` is called. -/
def SoundAt (s : Host σ) (call : Call) : Prop :=
  match call.stage with
  | .identified => call.ipPort ∈ s.server.sockets →
      s.linked ((s.server.connections.lookup call.ipPort).getD 0).toNat = true
  | .marking => s.server.marked call.retServerNodeID.toNat = true →
      s.linked call.retServerNodeID.toNat = true
  | .destroyingQP _ => Linker.Cleans σ = true
  | .destroyingCQ _ => s.linked call.retServerNodeID.toNat = true
  | .connecting => s.server.base.connected.lookup call.retServerNodeID.toNat ≠ some false ∧
      Linker.Able s.server.api = true
  | _ => True

instance (s : Host σ) (call : Call) : Decidable (s.SoundAt call) :=
  match call with
  | ⟨_, _, .identified⟩ => inferInstanceAs (Decidable (_ ∈ _ → _ = _))
  | ⟨_, _, .marking⟩ => inferInstanceAs (Decidable (_ = _ → _ = _))
  | ⟨_, _, .destroyingQP _⟩ => inferInstanceAs (Decidable (_ = _))
  | ⟨_, _, .destroyingCQ _⟩ => inferInstanceAs (Decidable (_ = _))
  | ⟨_, _, .connecting⟩ => inferInstanceAs (Decidable (_ ≠ _ ∧ _ = _))
  | ⟨_, _, .entered⟩ | ⟨_, _, .requestingNodeID⟩ | ⟨_, _, .lookingUp _⟩ | ⟨_, _, .lookedUp⟩
  | ⟨_, _, .initializing⟩ | ⟨_, _, .requesting _ _ _⟩ | ⟨_, _, .settingQP _ _ _⟩
  | ⟨_, _, .settingLocalConnData _ _⟩ | ⟨_, _, .settingRemoteConnData _⟩ | ⟨_, _, .returned _⟩
  | ⟨_, _, .threw _⟩ => inferInstanceAs (Decidable True)

/-- And a node does not disconnect while it is being connected. -/
def Sound (s : Host σ) : HostEvent → Prop
  | .advance _ => ∀ call ∈ s.call, s.SoundAt call
  | .handle (.rdmaConnRequest req) =>
      s.server.base.connected.lookup req.nodeid.toNat ≠ some false ∧ Linker.Able s.server.api = true
  | .handle (.rdmaConnDisconnect nodeid) =>
      s.server.base.connected.lookup nodeid.toNat = some true →
        ∀ call ∈ s.call, call.entry ≠ some nodeid.toNat
  | _ => True

instance (s : Host σ) (event : HostEvent) : Decidable (s.Sound event) :=
  match event with
  | .advance _ => inferInstanceAs (Decidable (∀ call ∈ s.call, s.SoundAt call))
  | .handle (.rdmaConnRequest _) => inferInstanceAs (Decidable (_ ≠ _ ∧ _ = _))
  | .handle (.rdmaConnDisconnect _) => inferInstanceAs (Decidable (_ = _ → ∀ call ∈ s.call, _ ≠ _))
  | .handle (.memoryResourceRequest _) | .handle (.nodeIDRequest _)
  | .handle (.getNodeIDForIpPortRequest _) | .handle (.getAllNodeIDsRequest _) | .handle .unknown
  | .connect _ _ | .answer _ => inferInstanceAs (Decidable True)

/-- The histories of sound events. -/
def soundRuns (retries : ℕ) : System (Host σ) HostEvent := (runs retries).restrict Sound

/-- **What is to hold of an event.** -/
structure Honest (s : Host σ) (event : HostEvent) (s' : Host σ) : Prop where
  /-- A call that returns `true` leaves its node connected. -/
  installed : ∀ call call', s.call = some call → call.running = true → s'.call = some call' →
    call'.stage = .returned true → Linker.Installed s'.server.api call'.retServerNodeID.toNat
  /-- It destroys no queue pair that it has not made. -/
  destroyed : (∀ request, event ≠ .handle request) → ∀ h, s.device.qps h ≠ none →
    s'.device.qps h = none → s.made h = true

end Host

/-! ## Lawful transports -/

open Act BaseRDMA

/-- **What a transport keeps true of its tables**: `W linked hold o` says
that the linked nodes are installed, whatever the running call holds. The
laws are about the calls of `connect` and those of the handler. -/
structure Lawful {σ : Type} [Linker σ] (W : (ℕ → Bool) → Hold → σ → Prop) : Prop where
  fresh : ∀ {o}, Linker.Fresh o → W (fun _ => false) .nothing o
  mono : ∀ {l l' hold o}, W l hold o → (∀ i, l' i = true → l i = true) → W l' hold o
  installed : ∀ {l o id}, W l .nothing o → l id = true → Linker.Installed o id
  init_pair : ∀ {l o stack}, W l .nothing o →
    wp (RdmaApi.initQPDetached IbQp.null stack)
      (fun p o' => W l (.pair p.2.1) o' ∧ (RdmaApi.base o).device.Keeps (RdmaApi.base o').device ∧
        (Linker.Cleans σ = true → p.1 = p.2.1 ∧ ∀ h, p.1.qp = some h →
          (RdmaApi.base o).device.next ≤ h ∧ h < (RdmaApi.base o').device.next))
      (fun _ o' => (RdmaApi.base o).device.Keeps (RdmaApi.base o').device) o
  set_qp : ∀ {l o id qpPt}, W l (.pair qpPt) o →
    wp (RdmaApi.onBase (setQP id qpPt))
      (fun _ o' => W l (.entry id) o' ∧ (RdmaApi.base o).device.Keeps (RdmaApi.base o').device)
      (fun _ o' => (RdmaApi.base o).device.Keeps (RdmaApi.base o').device) o
  set_local : ∀ {l o id conn}, W l (.entry id) o →
    wp (RdmaApi.onBase (setLocalConnData id conn))
      (fun _ o' => W l (.entry id) o' ∧ (RdmaApi.base o).device.Keeps (RdmaApi.base o').device)
      (fun _ o' => (RdmaApi.base o).device.Keeps (RdmaApi.base o').device) o
  set_remote : ∀ {l o id conn}, W l (.entry id) o →
    wp (RdmaApi.onBase (setRemoteConnData id conn))
      (fun _ o' => W l (.entry id) o' ∧ (RdmaApi.base o).device.Keeps (RdmaApi.base o').device)
      (fun _ o' => (RdmaApi.base o).device.Keeps (RdmaApi.base o').device) o
  connect_qp : ∀ {l o id}, W l (.entry id) o →
    (RdmaApi.base o).connected.lookup id ≠ some false → Linker.Able o = true →
    wp (RdmaApi.onBase (RdmaApi.connectQP σ id))
      (fun _ o' => W (Function.update l id true) .nothing o' ∧
        (RdmaApi.base o).device.Keeps (RdmaApi.base o').device)
      (fun _ o' => (RdmaApi.base o).device.Keeps (RdmaApi.base o').device) o
  destroy_qp : ∀ {l o qp}, Linker.Cleans σ = true → W l (.pair qp) o →
    wp (RdmaApi.onBase (onDevice (ibvDestroyQp qp.qp)))
      (fun err o' => (err = 0 → W l .nothing o') ∧ ∀ h, qp.qp ≠ some h →
        (RdmaApi.base o).device.qps h ≠ none → (RdmaApi.base o').device.qps h ≠ none)
      (fun _ o' => ∀ h, qp.qp ≠ some h →
        (RdmaApi.base o).device.qps h ≠ none → (RdmaApi.base o').device.qps h ≠ none) o
  destroy_cq : ∀ {l o c c'}, W l .nothing o →
    wp (RdmaApi.onBase (onDevice (destroyCQ c c')))
      (fun _ o' => W l .nothing o' ∧ (RdmaApi.base o).device.Keeps (RdmaApi.base o').device)
      (fun _ o' => (RdmaApi.base o).device.Keeps (RdmaApi.base o').device) o
  /-- What the handler does to connect a node, up to a throw. -/
  set_up : ∀ {l hold o id}, W l hold o → (RdmaApi.base o).connected.lookup id ≠ some false →
    Linker.Able o = true → ∀ x, (x = RdmaApi.initQPWithSuppliedID id ∨
      ∃ srq, x = RdmaApi.initQPForSRQWithSuppliedID srq id) →
    wp x (fun _ o₁ => ∀ conn, wp (RdmaApi.onBase (setRemoteConnData id conn))
        (fun _ o₂ => wp (RdmaApi.onBase (RdmaApi.connectQP σ id))
          (fun _ o' => W (Function.update l id true) hold o') (fun _ o' => W l hold o') o₂)
        (fun _ o' => W l hold o') o₁)
      (fun _ o' => W l hold o') o
  disconnect_qp : ∀ {l hold o id}, W l hold o →
    ((RdmaApi.base o).connected.lookup id = some true → ∀ i, hold = .entry i → i ≠ id) →
    wp (RdmaApi.onBase (RdmaApi.disconnectQP σ id))
      (fun _ o' => W (Function.update l id false) hold o')
      (fun _ o' => W (Function.update l id false) hold o') o

namespace Lawful

variable {σ : Type} [Linker σ] {W : (ℕ → Bool) → Hold → σ → Prop}

/-! ## The handler -/

variable {l : ℕ → Bool} {hold : Hold} {s : RDMAServer σ}

/-- A queue pair is entered for a node, with or without a shared receive
queue. -/
theorem wp_initQP {nodeID : ℕ} {Q : Unit → RDMAServer σ → Prop} {E : Exn → RDMAServer σ → Prop}
    (h : ∀ x, (x = RdmaApi.initQPWithSuppliedID nodeID ∨
      ∃ srq, x = RdmaApi.initQPForSRQWithSuppliedID srq nodeID) →
      wp x (fun a api => Q a { s with api }) (fun e api => E e { s with api }) s.api) :
    wp (RDMAServer.initQP nodeID) Q E s := by
  unfold RDMAServer.initQP
  simp only [wp_bind, wp_get, wp_ite, RDMAServer.wp_onApi]
  exact ⟨fun _ => h _ (Or.inl rfl), fun _ => h _ (Or.inr ⟨_, rfl⟩)⟩

/-- **A queue pair is set up** for a node, which is linked if it is answered. -/
theorem wp_setUpQueue (hlaw : Lawful W) (hW : W l hold s.api) {nodeID : ℕ} {req : RDMAConnRequest}
    (hfresh : s.base.connected.lookup nodeID ≠ some false) (hable : Linker.Able s.api = true) :
    wp (RDMAServer.setUpQueue nodeID req)
      (fun resp s' => W (if resp.isSome = true then Function.update l nodeID true else l) hold s'.api)
      (fun _ s' => W l hold s'.api) s := by
  unfold RDMAServer.setUpQueue
  simp only [wp_bind, wp_get, wp_ite, wp_pure]
  refine wp_attempt (wp_initQP fun x hx => ?_)
  refine wp_mono (hlaw.set_up hW hfresh hable x hx) ?_ ?_
  · intro _ o₁ hentered
    refine ⟨fun hbad => absurd hbad (by simp), fun _ => ?_⟩
    rw [RDMAServer.wp_onApi]
    refine wp_mono (hentered _) ?_ fun _ _ hkept => hkept
    intro _ o₂ hlink
    refine wp_attempt ?_
    rw [RDMAServer.wp_onApi]
    refine wp_mono hlink ?_ ?_
    · intro _ o₃ hW₃
      refine ⟨fun hbad => absurd hbad (by simp), fun _ => ?_⟩
      rw [wp_element IbConn.zero]
      refine ⟨fun _ => hW₃, fun _ => hlaw.mono hW₃ fun i hi => ?_⟩
      rw [Function.update_apply, hi, ite_self]
    · intro e o₃ hkept
      exact ⟨fun _ _ => ⟨fun _ => hkept, fun hbad => absurd rfl hbad⟩, fun _ => hkept⟩
  · intro e o₁ hkept
    exact ⟨fun _ _ => ⟨fun _ => hkept, fun hbad => absurd rfl hbad⟩, fun _ => hkept⟩

/-- A message is one the handler can handle. -/
def Handles (hold : Hold) (s : RDMAServer σ) : Request → Prop
  | .rdmaConnRequest req =>
      s.base.connected.lookup req.nodeid.toNat ≠ some false ∧ Linker.Able s.api = true
  | .rdmaConnDisconnect nodeid =>
      s.base.connected.lookup nodeid.toNat = some true → ∀ i, hold = .entry i → i ≠ nodeid.toNat
  | _ => True

/-- **Any message** keeps what the transport keeps, and links the nodes it
should. -/
theorem handle (hlaw : Lawful W) (hW : W l hold s.api) {request : Request}
    (hhandles : Handles hold s request) :
    W (relink request (RDMAServer.handle request s).1 l) hold (RDMAServer.handle request s).2.api := by
  have hwp : wp (RDMAServer.handle request)
      (fun response s' => W (relink request (.ok response) l) hold s'.api)
      (fun e s' => W (relink request (.error e) l) hold s'.api) s := by
    cases request with
    | rdmaConnRequest req =>
        obtain ⟨hfresh, hable⟩ := hhandles
        have hconnect : wp (RDMAServer.connectQueue req)
            (fun resp s' => W (if resp.isSome = true then
              Function.update l req.nodeid.toNat true else l) hold s'.api)
            (fun _ s' => W l hold s'.api) s := by
          refine RDMAServer.wp_connectQueue rfl ?_ ?_ ?_
          · intro _ _ _ _
            exact hW
          · intro flags _ _
            exact hlaw.wp_setUpQueue (s := { s with nodeIDsQPs := flags }) hW hfresh hable
          · intro _ _ _
            exact hW
        unfold RDMAServer.handle
        simp only [wp_bind]
        refine wp_mono hconnect ?_ fun _ _ hkept => hkept
        intro resp s' hlinked
        cases resp with
        | none => exact hlinked
        | some resp => exact hlinked
    | memoryResourceRequest reqMsg =>
        unfold RDMAServer.handle
        simp only [wp_bind, wp_zoom, wp_pure]
        exact wp_mono ((wp_snd (I := fun _ => True)).mpr trivial) (fun _ _ _ => hW) fun _ _ _ => hW
    | rdmaConnDisconnect nodeid =>
        unfold RDMAServer.handle
        simp only [wp_bind, wp_pure]
        rw [RDMAServer.wp_onApi]
        exact hlaw.disconnect_qp hW hhandles
    | nodeIDRequest | getNodeIDForIpPortRequest | getAllNodeIDsRequest | unknown => exact hW
  unfold wp at hwp
  rcases hx : RDMAServer.handle request s with ⟨e | response, s'⟩ <;> rw [hx] at hwp <;> exact hwp

end Lawful

namespace Host

variable {σ : Type} [Linker σ] {W : (ℕ → Bool) → Hold → σ → Prop} {s : Host σ} {call : Call}

/-! ## The invariant -/

/-- What is known while a call stands at its stage. -/
def Stands (W : (ℕ → Bool) → Hold → σ → Prop) (s : Host σ) (call : Call) : Prop :=
  match call.stage with
  | .returned false => True
  | .threw _ => True
  | .requesting qp qpPt _ => W s.linked (.pair qpPt) s.server.api ∧
      (Linker.Cleans σ = true → qp = qpPt ∧ ∀ h, qp.qp = some h → s.made h = true)
  | .settingQP qpPt _ _ => W s.linked (.pair qpPt) s.server.api
  | .settingLocalConnData _ _ => W s.linked (.entry call.retServerNodeID.toNat) s.server.api
  | .settingRemoteConnData _ => W s.linked (.entry call.retServerNodeID.toNat) s.server.api
  | .connecting => W s.linked (.entry call.retServerNodeID.toNat) s.server.api
  | .destroyingQP qp => Linker.Cleans σ = true →
      W s.linked (.pair qp) s.server.api ∧ ∀ h, qp.qp = some h → s.made h = true
  | _ => W s.linked .nothing s.server.api

/-- What every sound event keeps. -/
structure Inv (W : (ℕ → Bool) → Hold → σ → Prop) (s : Host σ) : Prop where
  idle : s.call = none → W s.linked .nothing s.server.api
  stands : ∀ call, s.call = some call → s.Stands W call

/-- A queue pair that is alive in `s` and dead with the client `client` was
made by the call. -/
def Spares (s : Host σ) (client : RDMAClient σ) : Prop :=
  ∀ h, s.device.qps h ≠ none → client.base.device.qps h = none → s.made h = true

theorem spares_of_keeps {client : RDMAClient σ} (h : s.device.Keeps client.base.device) :
    s.Spares client := by
  intro i hlive hdead
  exact absurd hdead (h i hlive)

/-- What does not touch the transport destroys nothing. -/
theorem spares_of_api {client : RDMAClient σ} (heq : client.api = s.server.api) :
    s.Spares client := by
  refine spares_of_keeps ?_
  change s.device.Keeps (RdmaApi.base client.api).device
  rw [heq]
  exact fun _ hlive => hlive

/-- A call returns where its node is linked. -/
theorem stands_returned {ipPort : String} {ret : UInt64} {client : RDMAClient σ}
    (hlinked : s.linked ret.toNat = true) (hW : W s.linked .nothing client.api) :
    (s.goneTo ⟨ipPort, ret, .returned true⟩ client).Stands W ⟨ipPort, ret, .returned true⟩ := by
  show W (if Stage.returned true = .returned true then Function.update s.linked ret.toNat true
    else s.linked) .nothing client.api
  rwa [← hlinked, Function.update_eq_self, ite_self]

/-- A call returns that has connected its node. -/
theorem stands_connected {ipPort : String} {ret : UInt64} {client : RDMAClient σ}
    (hW : W (Function.update s.linked ret.toNat true) .nothing client.api) :
    (s.goneTo ⟨ipPort, ret, .returned true⟩ client).Stands W ⟨ipPort, ret, .returned true⟩ := by
  show W (if Stage.returned true = .returned true then Function.update s.linked ret.toNat true
    else s.linked) .nothing client.api
  rwa [if_pos rfl]

theorem made_goneTo {client : RDMAClient σ} {h : ℕ} (hmade : s.made h = true) :
    (s.goneTo call client).made h = true := by
  show (s.made h || decide _) = true
  rw [hmade, Bool.true_or]

/-- A piece that does nothing. -/
theorem Stands.stay (h : s.Stands W call) (hrunning : call.running = true) :
    (s.goneTo call s.server.toRDMAClient).Stands W call := by
  obtain ⟨ipPort, ret, stage⟩ := call
  cases stage with
  | requesting qp qpPt localConn =>
      refine ⟨h.1, ?_⟩
      intro hcleans
      exact ⟨(h.2 hcleans).1, fun i hi => made_goneTo ((h.2 hcleans).2 i hi)⟩
  | destroyingQP qp =>
      intro hcleans
      exact ⟨(h hcleans).1, fun i hi => made_goneTo ((h hcleans).2 i hi)⟩
  | returned | threw => simp [Call.running] at hrunning
  | _ => exact h

/-- A piece of a call, by its two exits. -/
theorem goOn_of_wp {x : Act (RDMAClient σ) Call}
    (h : wp x (fun call' client' => (s.goneTo call' client').Stands W call' ∧ s.Spares client')
      (fun _ client' => s.Spares client') s.server.toRDMAClient) :
    (s.goOn call x).Inv W ∧ s.Spares (s.goOn call x).server.toRDMAClient := by
  have hrun : (s.goOn call x).Stands W _ ∧ s.Spares _ := Call.run_of_wp
    (P := fun call' client' => (s.goneTo call' client').Stands W call' ∧ s.Spares client')
    (wp_mono h (fun _ _ hdone => hdone) fun _ _ hspares => ⟨trivial, hspares⟩)
  refine ⟨⟨fun hbad => ?_, fun call' hcall' => ?_⟩, hrun.2⟩
  · simp [goOn, goneTo] at hbad
  · obtain rfl := Option.some.inj hcall'
    exact hrun.1

/-- A call of the transport that destroys no queue pair, and the stage after
it. -/
theorem wp_transport {P : σ → Prop} {x : Act σ Unit} {call' : Call}
    (hx : wp x (fun _ o => P o ∧ (RdmaApi.base s.server.api).device.Keeps (RdmaApi.base o).device)
      (fun _ o => (RdmaApi.base s.server.api).device.Keeps (RdmaApi.base o).device) s.server.api)
    (hP : ∀ o, P o → (s.goneTo call' { s.server.toRDMAClient with api := o }).Stands W call') :
    wp (do RDMAClient.onApi x; return call')
      (fun call' client' => (s.goneTo call' client').Stands W call' ∧ s.Spares client')
      (fun _ client' => s.Spares client') s.server.toRDMAClient := by
  simp only [wp_bind, wp_pure, RDMAClient.wp_onApi]
  refine wp_mono hx ?_ ?_
  · rintro - o ⟨hdone, hkeeps⟩
    exact ⟨hP o hdone, spares_of_keeps hkeeps⟩
  · intro _ o hkeeps
    exact spares_of_keeps hkeeps

/-- **A stage of a call** keeps the invariant and spares the queue pairs of
others. -/
theorem Inv.advance (hlaw : Lawful W) (hinv : s.Inv W) (hcall : s.call = some call)
    (hrunning : call.running = true) {fault : Option Exn} (hsound : s.Sound (.advance fault)) :
    (s.goOn call (call.advance fault)).Inv W ∧
      s.Spares (s.goOn call (call.advance fault)).server.toRDMAClient := by
  have hstands := hinv.stands call hcall
  have hsound := hsound call hcall
  obtain ⟨ipPort, ret, stage⟩ := call
  refine goOn_of_wp ?_
  cases stage with
  | entered =>
      unfold Call.advance
      simp only [wp_bind, wp_get, wp_ite, wp_pure]
      refine ⟨fun _ => ⟨?_, spares_of_api rfl⟩, fun hclosed => ?_⟩
      · exact hstands
      · refine wp_rethrow (RDMAClient.wp_connectProto ?_ ?_ ?_)
        · intro _
          exact ⟨hstands, spares_of_api rfl⟩
        · intro _ _
          exact ⟨hstands, spares_of_api rfl⟩
        · intro _ _ _
          exact spares_of_api rfl
  | identified =>
      unfold Call.advance
      simp only [wp_bind, wp_get, wp_ite, wp_pure, wp_modify]
      refine ⟨fun hin => ⟨?_, spares_of_api rfl⟩, fun _ => ?_⟩
      · -- the socket stands for a linked node
        have hlinked := hsound hin
        rw [← subscript_fst] at hlinked
        exact stands_returned hlinked hstands
      · refine RDMAClient.wp_connectProto ?_ ?_ ?_
        · intro _
          exact ⟨hstands, spares_of_api rfl⟩
        · intro _ _
          exact ⟨hstands, spares_of_api rfl⟩
        · intro _ _
          exact spares_of_api rfl
  | lookedUp =>
      unfold Call.advance
      simp only [wp_bind, wp_get]
      split
      · exact spares_of_api rfl
      · exact ⟨hstands, spares_of_api rfl⟩
  | marking =>
      unfold Call.advance
      simp only [wp_bind, wp_ite, wp_pure]
      refine RDMAClient.wp_markNodeID ?_ fun _ _ _ => spares_of_api rfl
      intro flags _
      refine ⟨fun hmarked => ⟨?_, spares_of_api rfl⟩, fun _ => ⟨hstands, spares_of_api rfl⟩⟩
      exact stands_returned (hsound hmarked) hstands
  | initializing =>
      unfold Call.advance
      simp only [wp_bind, wp_get, wp_pure, RDMAClient.wp_onApi]
      refine wp_mono (hlaw.init_pair hstands) ?_ ?_
      · rintro ⟨qp, qpPt, localConn⟩ o ⟨hW, hkeeps, hclean⟩
        refine ⟨⟨hW, ?_⟩, spares_of_keeps hkeeps⟩
        intro hcleans
        obtain ⟨heq, hmade⟩ := hclean hcleans
        refine ⟨heq, ?_⟩
        intro h hh
        change (s.made h || decide _) = true
        rw [Bool.or_eq_true, decide_eq_true_eq]
        exact Or.inr (hmade h hh)
      · intro _ o hkeeps
        exact spares_of_keeps hkeeps
  | settingQP qpPt localConn remoteConn =>
      exact wp_transport (hlaw.set_qp hstands) fun _ hW => hW
  | settingLocalConnData localConn remoteConn =>
      exact wp_transport (hlaw.set_local hstands) fun _ hW => hW
  | settingRemoteConnData remoteConn =>
      exact wp_transport (hlaw.set_remote hstands) fun _ hW => hW
  | connecting =>
      exact wp_transport (hlaw.connect_qp hstands hsound.1 hsound.2) fun _ hW => stands_connected hW
  | destroyingQP qp =>
      obtain ⟨hW, hmade⟩ := hstands hsound
      unfold Call.advance
      simp only [wp_bind, wp_ite, wp_pure, wp_throw, RDMAClient.wp_onApi]
      have hspares : ∀ {o}, (∀ h, qp.qp ≠ some h → (RdmaApi.base s.server.api).device.qps h ≠ none →
          (RdmaApi.base o).device.qps h ≠ none) → s.Spares { s.server.toRDMAClient with api := o } := by
        intro o hothers h hlive hdead
        by_cases hh : qp.qp = some h
        · exact hmade h hh
        · exact absurd hdead (hothers h hh hlive)
      refine wp_mono (hlaw.destroy_qp hsound hW) ?_ ?_
      · rintro err o ⟨hdone, hothers⟩
        refine ⟨fun _ => hspares hothers, fun hzero => ⟨?_, hspares hothers⟩⟩
        exact hdone (not_not.mp hzero)
      · intro _ o hothers
        exact hspares hothers
  | destroyingCQ qp =>
      exact wp_transport (hlaw.destroy_cq hstands) fun _ hW => stands_returned hsound hW
  | _ => exact ⟨hstands.stay hrunning, spares_of_api rfl⟩

/-- **An answer** keeps the invariant, whatever it is. -/
theorem Inv.receive (hinv : s.Inv W) (hcall : s.call = some call) (hrunning : call.running = true)
    {retries : ℕ} {reply : Except Exn Response} :
    (s.goOn call (call.receive retries reply)).Inv W ∧
      s.Spares (s.goOn call (call.receive retries reply)).server.toRDMAClient := by
  have hstands := hinv.stands call hcall
  obtain ⟨ipPort, ret, stage⟩ := call
  refine goOn_of_wp ?_
  cases stage with
  | requestingNodeID =>
      unfold Call.receive
      simp only [wp_bind]
      refine wp_rethrow (RDMAClient.wp_exchangeProtoMsg ?_ fun _ _ => spares_of_api rfl)
      intro response _ _
      split
      · exact ⟨hstands, spares_of_api rfl⟩
      · exact spares_of_api rfl
  | lookingUp retry =>
      have hloop : ∀ i connResp,
          wp (Act.ofExcept (Call.lookUp retries i connResp ⟨ipPort, ret, .lookingUp retry⟩))
            (fun call' client' => (s.goneTo call' client').Stands W call' ∧ s.Spares client')
            (fun _ client' => s.Spares client') s.server.toRDMAClient := by
        intro i connResp
        unfold Call.lookUp Act.ofExcept
        split_ifs
        · exact ⟨hstands, spares_of_api rfl⟩
        · exact ⟨trivial, spares_of_api rfl⟩
        · exact spares_of_api rfl
        · exact ⟨hstands, spares_of_api rfl⟩
      unfold Call.receive
      simp only [wp_bind]
      refine RDMAClient.wp_exchangeProtoMsg ?_ fun _ => spares_of_api rfl
      intro response _ _
      split
      · exact hloop _ _
      · exact spares_of_api rfl
      · exact hloop _ _
      · exact hloop _ _
  | requesting qp qpPt localConn =>
      obtain ⟨hW, hclean⟩ := hstands
      unfold Call.receive
      simp only [wp_bind]
      refine RDMAClient.wp_exchangeProtoMsg ?_ fun _ => spares_of_api rfl
      intro response _ _
      split
      · exact ⟨hW, spares_of_api rfl⟩
      · -- the node refuses
        refine ⟨?_, spares_of_api rfl⟩
        intro hcleans
        obtain ⟨heq, hmade⟩ := hclean hcleans
        rw [heq] at hmade ⊢
        exact ⟨hW, fun h hh => made_goneTo (hmade h hh)⟩
  | _ => exact ⟨hstands.stay hrunning, spares_of_api rfl⟩

/-- **A message** that the handler handles keeps the invariant. -/
theorem Inv.handle (hlaw : Lawful W) (hinv : s.Inv W) {request : Request}
    (hsound : s.Sound (.handle request)) {retries : ℕ} : (s.exec retries (.handle request)).Inv W := by
  have hkept : ∀ hold, (∀ i, hold = .entry i → ∃ call, s.call = some call ∧ call.entry = some i) →
      W s.linked hold s.server.api →
      W (relink request (RDMAServer.handle request s.server).1 s.linked) hold
        (RDMAServer.handle request s.server).2.api := by
    intro hold hentry hW
    refine hlaw.handle hW ?_
    cases request with
    | rdmaConnRequest req => exact hsound
    | rdmaConnDisconnect nodeid =>
        intro hconnected i hi hid
        obtain ⟨call, hcall, hcallEntry⟩ := hentry i hi
        exact hsound hconnected call hcall (by rw [hcallEntry, hid])
    | _ => trivial
  refine ⟨fun hidle => hkept _ (by simp) (hinv.idle hidle), ?_⟩
  intro call hcall
  have hstands := hinv.stands call hcall
  obtain ⟨ipPort, ret, stage⟩ := call
  cases stage with
  | requesting qp qpPt localConn => exact ⟨hkept _ (by simp) hstands.1, hstands.2⟩
  | settingQP qpPt localConn remoteConn => exact hkept _ (by simp) hstands
  | settingLocalConnData localConn remoteConn =>
      refine hkept _ ?_ hstands
      intro i hi
      exact ⟨_, hcall, congrArg some (Hold.entry.inj hi)⟩
  | settingRemoteConnData remoteConn =>
      refine hkept _ ?_ hstands
      intro i hi
      exact ⟨_, hcall, congrArg some (Hold.entry.inj hi)⟩
  | connecting =>
      refine hkept _ ?_ hstands
      intro i hi
      exact ⟨_, hcall, congrArg some (Hold.entry.inj hi)⟩
  | destroyingQP qp =>
      intro hcleans
      exact ⟨hkept _ (by simp) (hstands hcleans).1, (hstands hcleans).2⟩
  | returned success =>
      cases success with
      | false => trivial
      | true => exact hkept _ (by simp) hstands
  | threw => trivial
  | _ => exact hkept _ (by simp) hstands

/-! ## Every history -/

/-- **A sound event keeps the invariant and is honest.** -/
theorem Inv.exec (hlaw : Lawful W) (hinv : s.Inv W) {event : HostEvent} (henabled : s.Enabled event)
    (hsound : s.Sound event) {retries : ℕ} :
    (s.exec retries event).Inv W ∧ s.Honest event (s.exec retries event) := by
  have hstay : s.Honest event s := by
    refine ⟨?_, fun _ h hlive hdead => absurd hdead hlive⟩
    intro call call' hcall hrunning hcall' hreturned
    rw [hcall] at hcall'
    obtain rfl := Option.some.inj hcall'
    simp [Call.running, hreturned] at hrunning
  -- a call that returns true has linked its node
  have hdone : ∀ {call : Call} {x : Act (RDMAClient σ) Call}, (s.goOn call x).Inv W →
      s.Spares (s.goOn call x).server.toRDMAClient → s.Honest event (s.goOn call x) := by
    intro call x hinv' hspares
    refine ⟨?_, fun _ => hspares⟩
    intro _ call' _ _ hcall' hreturned
    have hstands := hinv'.stands call' hcall'
    unfold Stands at hstands
    rw [hreturned] at hstands
    refine hlaw.installed hstands ?_
    obtain rfl := Option.some.inj hcall'
    unfold goOn goneTo
    rw [if_pos hreturned]
    exact Function.update_self _ _ _
  cases event with
  | connect ipPort ret =>
      have hW : W s.linked .nothing s.server.api := by
        cases hcall : s.call with
        | none => exact hinv.idle hcall
        | some call =>
            have hstands := hinv.stands call hcall
            unfold Stands at hstands
            rw [henabled call hcall] at hstands
            exact hstands
      refine ⟨⟨fun hbad => by simp [Host.exec] at hbad, ?_⟩, ?_,
        fun _ h hlive hdead => absurd hdead hlive⟩
      · intro call hcall
        obtain rfl := Option.some.inj hcall
        exact hW
      · intro _ call' _ _ hcall' hreturned
        obtain rfl := Option.some.inj hcall'
        simp [Call.enter] at hreturned
  | advance fault =>
      simp only [Host.exec]
      split
      · rename_i call hcall
        split_ifs with hrunning
        · obtain ⟨hinv', hspares⟩ := hinv.advance hlaw hcall hrunning hsound
          exact ⟨hinv', hdone hinv' hspares⟩
        · exact ⟨hinv, hstay⟩
      · exact ⟨hinv, hstay⟩
  | answer reply =>
      simp only [Host.exec]
      split
      · rename_i call hcall
        split_ifs with hrunning
        · obtain ⟨hinv', hspares⟩ := hinv.receive hcall hrunning
          exact ⟨hinv', hdone hinv' hspares⟩
        · exact ⟨hinv, hstay⟩
      · exact ⟨hinv, hstay⟩
  | handle request =>
      refine ⟨hinv.handle hlaw hsound, ?_, fun hother => absurd rfl (hother request)⟩
      intro call call' hcall hrunning hcall' hreturned
      change s.call = some call' at hcall'
      rw [hcall] at hcall'
      obtain rfl := Option.some.inj hcall'
      simp [Call.running, hreturned] at hrunning

theorem Fresh.inv (hlaw : Lawful W) (hinit : s.Fresh) : s.Inv W := by
  obtain ⟨hfresh, -, -, -, hcall, hlinked⟩ := hinit
  refine ⟨fun _ => ?_, ?_⟩
  · rw [hlinked]
    exact hlaw.fresh hfresh
  · intro call hsome
    rw [hcall] at hsome
    simp at hsome

/-- **Every event of every sound history is honest**, on a lawful transport. -/
theorem honest {retries : ℕ} {s' : Host σ} {event : HostEvent} (hlaw : Lawful W)
    (hreach : (soundRuns retries).Reachable s) (hstep : (soundRuns retries).Step s event s') :
    s.Honest event s' := by
  have hinvariant : (soundRuns retries).Invariant (Inv W) := by
    refine ⟨fun _ => Fresh.inv hlaw, ?_⟩
    rintro s event s' - hinv ⟨hsound, henabled, rfl⟩
    exact (hinv.exec hlaw henabled hsound).1
  obtain ⟨hsound, henabled, rfl⟩ := hstep
  exact ((hinvariant.reachable hreach).exec hlaw henabled hsound).2

end Host

end RdmaManager
