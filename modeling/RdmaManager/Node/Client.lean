import RdmaManager.Node.Sequencer
import RdmaManager.Rdma.SharedReceiveQueue
import RdmaManager.Rdma.Unreliable
/-!
# `RDMAClient`

A client is an RDMA object, and `RdmaApi` lists what it uses of the
transport it is a template over.

A call of `connect` sends messages and waits for their answers, and what
else happens to the client meanwhile is not up to it. So it is given in
pieces: a `Call` stands at a `Stage`, `Call.advance` runs on the client
to the next stage, `Call.request` is the message it waits for an answer
to, and `Call.receive` goes on with the answer. `m_NodeIDsQPs` is the one
piece of state that `connect` shares with the handler of a server; each
of them tests and sets its entry under `m_connLock`.
-/

namespace RdmaManager

/-- The part of `RDMA_API_T` that clients and servers use. -/
class RdmaApi (σ : Type) where
  base : σ → BaseRDMA
  setBase : σ → BaseRDMA → σ
  initQPWithSuppliedID : ℕ → Act σ Unit
  /-- The overload for a queue pair that is not in the tables: the
  caller's two variables, then what the two pointers point to. -/
  initQPDetached : IbQp → IbConn → Act σ (IbQp × IbQp × IbConn)
  connectQP : ℕ → Act BaseRDMA Unit
  disconnectQP : ℕ → Act BaseRDMA Unit
  /-- Called on a `ReliableRDMA` only. -/
  initQPForSRQWithSuppliedID : ℕ → ℕ → Act σ Unit

namespace RdmaApi

variable {σ : Type} [RdmaApi σ]

/-- Call a function of `BaseRDMA`. -/
def onBase {α : Type} (x : Act BaseRDMA α) : Act σ α := Act.zoom base setBase x

end RdmaApi

instance : RdmaApi ReliableRDMA where
  base := ReliableRDMA.toBaseRDMA
  setBase o s := { o with toBaseRDMA := s }
  initQPWithSuppliedID id := ReliableRDMA.onBase (ReliableRDMA.initQPWithSuppliedID id)
  initQPDetached qp localConn := do
    let (qp, localConn) ← ReliableRDMA.onBase (ReliableRDMA.initQPDetached qp localConn)
    return (qp, qp, localConn)
  connectQP := ReliableRDMA.connectQP
  disconnectQP := ReliableRDMA.disconnectQP
  initQPForSRQWithSuppliedID := ReliableRDMA.initQPForSRQWithSuppliedID

instance : RdmaApi UnreliableRDMA where
  base := UnreliableRDMA.toBaseRDMA
  setBase u s := { u with toBaseRDMA := s }
  initQPWithSuppliedID := UnreliableRDMA.initQPWithSuppliedID
  initQPDetached qp _ := do
    let (udqp, udqpConn) ← UnreliableRDMA.initQPDetached
    return (qp, udqp, udqpConn)
  connectQP := UnreliableRDMA.connectQP
  disconnectQP := UnreliableRDMA.disconnectQP
  initQPForSRQWithSuppliedID _ _ := return ()

/-- The fields of `RDMAClient`, with the connections of its `ProtoClient`. -/
structure RDMAClient (σ : Type) where
  api : σ
  ownNodeID : UInt64
  nodeIDsConnection : List String
  nodeIDsQPs : List Bool
  connections : Finmap fun _ : String => UInt64
  name : String
  ownIpPort : String
  nodeType : NodeType
  sequencerIpPort : String
  /-- The keys of `ProtoClient::m_connections`. -/
  sockets : Finset String

namespace RDMAClient

variable {σ : Type} [RdmaApi σ]

/-- The tables of the RDMA object. -/
def base (s : RDMAClient σ) : BaseRDMA := RdmaApi.base s.api

/-- Call a function of the transport. -/
def onApi {α : Type} (x : Act σ α) : Act (RDMAClient σ) α :=
  Act.zoom RDMAClient.api (fun s api => { s with api }) x

/-- The entry of `m_NodeIDsQPs` for a node. -/
def marked (s : RDMAClient σ) (nodeID : ℕ) : Bool := s.nodeIDsQPs.getD nodeID false

/-- Test and set the entry of `m_NodeIDsQPs`: whether it was set. -/
def markNodeID (nodeID : ℕ) : Act (RDMAClient σ) Bool := do
  let s ← Act.get
  if s.nodeIDsQPs.length ≤ nodeID then
    Act.modify fun s => { s with nodeIDsQPs := resize false (wrap64 (nodeID + 1)) s.nodeIDsQPs }
  let s ← Act.get
  let flag ← Act.elementAt s.nodeIDsQPs nodeID
  if flag = false then
    Act.modify fun s => { s with nodeIDsQPs := s.nodeIDsQPs.set nodeID true }
  return flag


/-- `ProtoClient::connectProto`. The fault is what constructing and
connecting a socket throws, if it does. -/
def connectProto (fault : Option Exn) (connection : String) : Act (RDMAClient σ) Unit := do
  let s ← Act.get
  if connection ∈ s.sockets then return ()
  match fault with
  | some e => throw e
  | none => Act.modify fun s => { s with sockets := insert connection s.sockets }

/-- The end of `ProtoClient::exchangeProtoMsg`: what the socket received,
or what it threw. -/
def exchangeProtoMsg (reply : Except Exn Response) : Act (RDMAClient σ) Response :=
  match reply with
  | .error e => throw e
  | .ok (.errorMessage return_) =>
      if return_ ≠ MessageErrors.noError.code then
        throw (.runtimeError ("Error " ++ toString return_.toNat ++ " returned from server"))
      else return .errorMessage return_
  | .ok response => return response

/-- The request that carries local connection data. -/
def requestOf (ownNodeID : UInt64) (localConn : IbConn) : RDMAConnRequest where
  buffer := localConn.buffer
  rkey := localConn.rkey
  qpNum := localConn.qpNum.toUInt32
  lid := localConn.lid.toUInt32
  gid := localConn.gid.map UInt8.toUInt32
  psn := localConn.psn
  nodeid := ownNodeID

/-- The remote connection data a response carries. The address handle of
an uninitialised variable is kept. -/
def remoteConnOf (stack : IbConn) (connResponse : RDMAConnResponse) : IbConn :=
  { stack with
    buffer := connResponse.buffer
    rkey := connResponse.rkey
    qpNum := connResponse.qpNum.toUInt64
    lid := connResponse.lid.toUInt16
    gid := connResponse.gid.map UInt32.toUInt8
    psn := connResponse.psn }

end RDMAClient

/-- **The stages of `connect`**, with the local variables that are still
to be read. -/
inductive Stage
  | entered
  /-- In `requestNodeID`, before the answer to the `NodeIDRequest`. -/
  | requestingNodeID
  | identified
  /-- Before the answer to a `GetNodeIDForIpPortRequest`, the first one or
  that of a retry. -/
  | lookingUp (retry : Option (ℕ × GetNodeIDForIpPortResponse))
  | lookedUp
  | marking
  | initializing
  /-- Before the answer to the `RDMAConnRequest`. -/
  | requesting (qp qpPt : IbQp) (localConn : IbConn)
  | settingQP (qpPt : IbQp) (localConn remoteConn : IbConn)
  | settingLocalConnData (localConn remoteConn : IbConn)
  | settingRemoteConnData (remoteConn : IbConn)
  | connecting
  | destroyingQP (qp : IbQp)
  | destroyingCQ (qp : IbQp)
  | returned (success : Bool)
  | threw (e : Exn)
  deriving DecidableEq, Repr

/-- **A call of `connect`**: its arguments, the second by reference, and
where it stands. -/
structure Call where
  ipPort : String
  retServerNodeID : UInt64
  stage : Stage
  deriving DecidableEq, Repr

namespace Call

open RDMAClient BaseRDMA

variable {σ : Type} [RdmaApi σ]

/-- The call as it is made. -/
def enter (ipPort : String) (retServerNodeID : UInt64) : Call := ⟨ipPort, retServerNodeID, .entered⟩

/-- The call is under way. -/
def running (call : Call) : Bool :=
  match call.stage with
  | .returned _ => false
  | .threw _ => false
  | _ => true

/-- `RDMAClient::connect` from one stage to the next. -/
def advance (fault : Option Exn) (call : Call) : Act (RDMAClient σ) Call :=
  match call.stage with
  | .entered => do
      let s ← Act.get
      if s.sequencerIpPort ∈ s.sockets then return { call with stage := .identified }
      Act.rethrow "RDMAClient: Failed to connect to sequencer: " (connectProto fault s.sequencerIpPort)
      return { call with stage := .requestingNodeID }
  | .identified => do
      let s ← Act.get
      if call.ipPort ∈ s.sockets then
        let (retServerNodeID, connections) := subscript 0 call.ipPort s.connections
        Act.modify fun s => { s with connections }
        return { call with retServerNodeID, stage := .returned true }
      connectProto fault call.ipPort
      return { call with stage := .lookingUp none }
  | .lookedUp => do
      let s ← Act.get
      match growSet "" call.ipPort call.retServerNodeID.toNat s.nodeIDsConnection with
      | none => throw (.undefined "m_nodeIDsConnection past its end")
      | some nodeIDsConnection =>
          Act.modify fun s => { s with
            nodeIDsConnection
            connections := s.connections.insert call.ipPort call.retServerNodeID }
          return { call with stage := .marking }
  | .marking => do
      let flag ← markNodeID call.retServerNodeID.toNat
      -- the other server already called connect
      if flag = true then return { call with stage := .returned true }
      return { call with stage := .initializing }
  | .initializing => do
      let s ← Act.get
      let (qp, qpPt, localConn) ← onApi (RdmaApi.initQPDetached IbQp.null s.base.stack)
      return { call with stage := .requesting qp qpPt localConn }
  | .settingQP qpPt localConn remoteConn => do
      onApi (RdmaApi.onBase (setQP call.retServerNodeID.toNat qpPt))
      return { call with stage := .settingLocalConnData localConn remoteConn }
  | .settingLocalConnData localConn remoteConn => do
      onApi (RdmaApi.onBase (setLocalConnData call.retServerNodeID.toNat localConn))
      return { call with stage := .settingRemoteConnData remoteConn }
  | .settingRemoteConnData remoteConn => do
      onApi (RdmaApi.onBase (setRemoteConnData call.retServerNodeID.toNat remoteConn))
      return { call with stage := .connecting }
  | .connecting => do
      onApi (RdmaApi.onBase (RdmaApi.connectQP σ call.retServerNodeID.toNat))
      return { call with stage := .returned true }
  | .destroyingQP qp => do
      let err ← onApi (RdmaApi.onBase (onDevice (ibvDestroyQp qp.qp)))
      if err ≠ 0 then
        throw (.runtimeError
          "Error, ibv_destroy_qp() failed after invalid connection build up")
      return { call with stage := .destroyingCQ qp }
  | .destroyingCQ qp => do
      onApi (RdmaApi.onBase (onDevice (destroyCQ qp.sendCq qp.recvCq)))
      return { call with stage := .returned true }
  | _ => return call

/-- The message that a call waits for the answer to, and its receiver. -/
def request (s : RDMAClient σ) (call : Call) : Option (String × Request) :=
  match call.stage with
  | .requestingNodeID =>
      some (s.sequencerIpPort, .nodeIDRequest ⟨s.ownIpPort, s.name, s.nodeType.code⟩)
  | .lookingUp _ => some (s.sequencerIpPort, .getNodeIDForIpPortRequest call.ipPort)
  | .requesting _ _ localConn =>
      some (call.ipPort, .rdmaConnRequest (requestOf s.ownNodeID localConn))
  | _ => none

/-- The loop over the retries of the look-up, before the retry `i`, and
what follows it. -/
def lookUp (retries i : ℕ) (connResponse : GetNodeIDForIpPortResponse) (call : Call) :
    Except Exn Call :=
  if i < retries ∧ connResponse.return_ ≠ MessageErrors.noError.code then
    .ok { call with stage := .lookingUp (some (i, connResponse)) }
  else if connResponse.return_ ≠ MessageErrors.noError.code then
    .ok { call with stage := .returned false }
  else if connResponse.ip ≠ call.ipPort then
    .error (.runtimeError ("Fetched IP (" ++ connResponse.ip ++
      ") from Sequencer did not match requested IP (" ++ call.ipPort ++ ")"))
  else .ok { call with retServerNodeID := connResponse.nodeId, stage := .lookedUp }

/-- `RDMAClient::connect` from the answer to a message on. -/
def receive (retries : ℕ) (reply : Except Exn Response) (call : Call) : Act (RDMAClient σ) Call :=
  match call.stage with
  | .requestingNodeID => do
      let rcvAny ← Act.rethrow "RDMAClient: Failed to exchange proto message: "
        (exchangeProtoMsg reply)
      match rcvAny with
      | .nodeIDResponse connResponse =>
          Act.modify fun s => { s with ownNodeID := connResponse.nodeid }
          return { call with stage := .identified }
      | _ =>
          throw (.runtimeError ("RDMAClient: Failed to unpack proto message: " ++
            "RDMAClient could not request NodeID from NodeIDSequencer: received wrong response type"))
  | .lookingUp retry => do
      let rcvAny ← exchangeProtoMsg reply
      match retry, rcvAny with
      | none, .getNodeIDForIpPortResponse connResponse =>
          Act.ofExcept (call.lookUp retries 0 connResponse)
      | none, _ =>
          throw (.runtimeError ("An Error occurred while fetching NodeID for ip: " ++ call.ipPort))
      | some (i, _), .getNodeIDForIpPortResponse connResponse =>
          Act.ofExcept (call.lookUp retries (i + 1) connResponse)
      -- `UnpackTo` leaves the message alone where the type is another
      | some (i, connResponse), _ => Act.ofExcept (call.lookUp retries (i + 1) connResponse)
  | .requesting qp qpPt localConn => do
      let rcvAny ← exchangeProtoMsg reply
      match rcvAny with
      | .rdmaConnResponse connResponse => do
          let s ← Act.get
          return { call with
            stage := .settingQP qpPt localConn (remoteConnOf s.base.stack connResponse) }
      | _ => return { call with stage := .destroyingQP qp }
  | _ => return call

/-- The call and the client after a piece of the call, which may have
thrown. -/
def run (call : Call) (x : Act (RDMAClient σ) Call) (s : RDMAClient σ) : Call × RDMAClient σ :=
  match x s with
  | (.ok call', s') => (call', s')
  | (.error e, s') => ({ call with stage := .threw e }, s')

end Call

/-! ## What the functions return -/

open Act BaseRDMA Device

/-- What holds at both exits of a piece of a call, holds of the call and
the client after it. -/
theorem Call.run_of_wp {σ : Type} {call : Call} {x : Act (RDMAClient σ) Call} {s : RDMAClient σ}
    {P : Call → RDMAClient σ → Prop}
    (h : wp x P (fun e s' => P { call with stage := .threw e } s') s) :
    P (call.run x s).1 (call.run x s).2 := by
  unfold wp at h
  unfold Call.run
  rcases hx : x s with ⟨e | call', s'⟩ <;> rw [hx] at h <;> exact h

namespace RDMAClient

variable {σ : Type}

/-- Whatever a function of the transport does, it does nothing else. -/
theorem wp_onApi_frame {α : Type} {x : Act σ α} {s : RDMAClient σ}
    {Q : α → RDMAClient σ → Prop} {E : Exn → RDMAClient σ → Prop}
    (hQ : ∀ a api, Q a { s with api }) (hE : ∀ e api, E e { s with api }) :
    wp (RDMAClient.onApi x) Q E s := by
  unfold wp RDMAClient.onApi zoom
  rcases x s.api with ⟨e | a, api⟩
  · exact hE e api
  · exact hQ a api

theorem wp_onApi {α : Type} {x : Act σ α} {s : RDMAClient σ}
    {Q : α → RDMAClient σ → Prop} {E : Exn → RDMAClient σ → Prop} :
    wp (onApi x) Q E s ↔
      wp x (fun a api => Q a { s with api }) (fun e api => E e { s with api }) s.api :=
  wp_zoom

/-- The entry that `markNodeID` sets. For the largest `size_t` the vector
is emptied. -/
theorem wp_markNodeID {s : RDMAClient σ} {nodeID : ℕ} {Q : Bool → RDMAClient σ → Prop}
    {E : Exn → RDMAClient σ → Prop}
    (hQ : ∀ flags, (∀ i, flags.getD i false = if i = nodeID then true else s.marked i) →
      Q (s.marked nodeID) { s with nodeIDsQPs := flags })
    (hmax : 2 ^ 64 ≤ nodeID + 1 → ∀ flags e, E e { s with nodeIDsQPs := flags }) :
    wp (markNodeID nodeID) Q E s := by
  have hset : ∀ v : List Bool, nodeID < v.length → (∀ i, v.getD i false = s.marked i) →
      (v.getD nodeID false = false →
        Q (v.getD nodeID false) { s with nodeIDsQPs := v.set nodeID true }) ∧
      (v.getD nodeID false ≠ false → Q (v.getD nodeID false) { s with nodeIDsQPs := v }) := by
    intro v hlt hv
    rw [hv nodeID]
    refine ⟨fun hflag => hQ _ fun i => ?_, fun hflag => hQ v fun i => ?_⟩
    · rw [getD_set hlt, hv i]
    · rw [hv i]
      split_ifs with hi
      · rw [hi]
        exact eq_true_of_ne_false hflag
      · rfl
  unfold markNodeID
  simp only [wp_bind, wp_get, wp_ite, wp_modify, wp_pure, wp_elementAt false]
  refine ⟨fun hlen => ?_, fun hlen => ?_⟩
  · rcases lt_or_ge (nodeID + 1) (2 ^ 64) with hbound | hbound
    · rw [wrap64_of_lt hbound, resize_eq_growTo (by omega)]
      have hlt : nodeID < (growTo false (nodeID + 1) s.nodeIDsQPs).length := by
        rw [length_growTo]
        omega
      refine ⟨fun _ => ?_, fun hge => absurd hlt (by omega)⟩
      exact hset _ hlt fun i => getD_growTo false (nodeID + 1) i s.nodeIDsQPs
    · have hshort : (resize false (wrap64 (nodeID + 1)) s.nodeIDsQPs).length ≤ nodeID := by
        rw [length_resize]
        have : wrap64 (nodeID + 1) < 2 ^ 64 := Nat.mod_lt _ (by decide)
        omega
      exact ⟨fun hlt => absurd hshort (by omega), fun _ => hmax hbound _ _⟩
  · exact ⟨fun hlt => hset _ hlt fun i => rfl, fun hge => absurd hge hlen⟩

theorem wp_connectProto {fault : Option Exn} {connection : String} {s : RDMAClient σ}
    {Q : Unit → RDMAClient σ → Prop} {E : Exn → RDMAClient σ → Prop}
    (hold : connection ∈ s.sockets → Q () s)
    (hnew : connection ∉ s.sockets → fault = none →
      Q () { s with sockets := insert connection s.sockets })
    (hE : ∀ e, fault = some e → E e s) : wp (connectProto fault connection) Q E s := by
  unfold connectProto
  simp only [wp_bind, wp_get, wp_ite, wp_pure]
  refine ⟨hold, fun hout => ?_⟩
  cases fault with
  | none => exact hnew hout rfl
  | some e => exact hE e rfl

theorem wp_exchangeProtoMsg {reply : Except Exn Response} {s : RDMAClient σ}
    {Q : Response → RDMAClient σ → Prop} {E : Exn → RDMAClient σ → Prop}
    (hQ : ∀ response, reply = .ok response →
      (∀ return_, response = .errorMessage return_ → return_ = MessageErrors.noError.code) →
      Q response s)
    (hE : ∀ e, E e s) : wp (exchangeProtoMsg reply) Q E s := by
  unfold exchangeProtoMsg
  split
  · exact hE _
  · rw [wp_ite]
    refine ⟨fun _ => hE _, fun hzero => ?_⟩
    refine hQ _ rfl ?_
    intro return_ heq
    rw [← Response.errorMessage.inj heq]
    exact not_not.mp hzero
  · rename_i response hother
    refine hQ _ rfl ?_
    rintro return_ rfl
    exact absurd rfl (hother return_)

/-- What is received is returned, unless it is an error. -/
theorem wp_exchangeProtoMsg_of_ok {response : Response} {s : RDMAClient σ}
    {Q : Response → RDMAClient σ → Prop} {E : Exn → RDMAClient σ → Prop}
    (h : ∀ return_, response = .errorMessage return_ → return_ = MessageErrors.noError.code)
    (hQ : Q response s) : wp (exchangeProtoMsg (.ok response)) Q E s := by
  unfold exchangeProtoMsg
  split
  · rename_i heq
    exact absurd heq (by simp)
  · rename_i return_ heq
    obtain rfl := Except.ok.inj heq
    rw [wp_ite]
    exact ⟨fun hbad => absurd (h return_ rfl) hbad, fun _ => hQ⟩
  · rename_i _ _ heq
    rw [← Except.ok.inj heq]
    exact hQ

end RDMAClient

theorem RdmaApi.wp_onBase {σ α : Type} [RdmaApi σ] {x : Act BaseRDMA α} {o : σ} {Q : α → σ → Prop}
    {E : Exn → σ → Prop} :
    wp (RdmaApi.onBase x) Q E o ↔ wp x (fun a b => Q a (RdmaApi.setBase o b))
      (fun e b => E e (RdmaApi.setBase o b)) (RdmaApi.base o) :=
  wp_zoom

end RdmaManager
