import RdmaManager.Memory.Service
import RdmaManager.Node.Client
/-!
# `RDMAServer`

A server is a client too, of other servers. Its handler runs one message
at a time, and what it does with an `RDMAConnRequest` it does under
`m_connLock`, so a run of it is one step.
-/

namespace RdmaManager

/-- The fields of `RDMAServer`. -/
structure RDMAServer (σ : Type) extends RDMAClient σ where
  buffer : BaseMemory
  /-- `SIZE_MAX` when there is none. -/
  currentSRQ : ℕ

/-- `SIZE_MAX`. -/
def sizeMax : ℕ := 2 ^ 64 - 1

namespace RDMAServer

variable {σ : Type} [RdmaApi σ]

/-- Call a function of `RDMAClient`. -/
def onClient {α : Type} (x : Act (RDMAClient σ) α) : Act (RDMAServer σ) α :=
  Act.zoom RDMAServer.toRDMAClient (fun s c => { s with toRDMAClient := c }) x

/-- Call a function of the transport. -/
def onApi {α : Type} (x : Act σ α) : Act (RDMAServer σ) α := onClient (RDMAClient.onApi x)

/-- The remote connection data a request carries. The address handle of
an uninitialised variable is kept. -/
def remoteConnOf (stack : IbConn) (connRequest : RDMAConnRequest) : IbConn :=
  { stack with
    buffer := connRequest.buffer
    rkey := connRequest.rkey
    qpNum := connRequest.qpNum.toUInt64
    lid := connRequest.lid.toUInt16
    gid := connRequest.gid.map UInt32.toUInt8
    psn := connRequest.psn }

/-- The response that carries local connection data. -/
def responseOf (localConn : IbConn) : RDMAConnResponse where
  buffer := localConn.buffer
  rkey := localConn.rkey
  qpNum := localConn.qpNum.toUInt32
  lid := localConn.lid.toUInt32
  psn := localConn.psn
  gid := localConn.gid.map UInt8.toUInt32

/-- The queue pair `connectQueue` sets up for a node. -/
def initQP (nodeID : ℕ) : Act (RDMAServer σ) Unit := do
  let s ← Act.get
  if s.currentSRQ = sizeMax then onApi (RdmaApi.initQPWithSuppliedID nodeID)
  else onApi (RdmaApi.initQPForSRQWithSuppliedID s.currentSRQ nodeID)

/-- What `connectQueue` does where it has not backed off: the response if
it returns `true`. -/
def setUpQueue (nodeID : ℕ) (connRequest : RDMAConnRequest) :
    Act (RDMAServer σ) (Option RDMAConnResponse) := do
  let initialised ← Act.attempt (initQP nodeID)
  if initialised = false then return none
  let s ← Act.get
  onApi (RdmaApi.onBase
    (BaseRDMA.setRemoteConnData nodeID (remoteConnOf s.base.stack connRequest)))
  let connected ← Act.attempt (onApi (RdmaApi.onBase (RdmaApi.connectQP σ nodeID)))
  if connected = false then return none
  let s ← Act.get
  let localConn ← Act.element "m_lconns past its end" s.base.lconns nodeID
  return some (responseOf localConn)

/-- `RDMAServer::connectQueue`: the response if it returns `true`. -/
def connectQueue (connRequest : RDMAConnRequest) : Act (RDMAServer σ) (Option RDMAConnResponse) := do
  let nodeID := connRequest.nodeid.toNat
  let flag ← onClient (RDMAClient.markNodeID nodeID)
  let s ← Act.get
  -- back off if the own node id is bigger
  if flag = true ∧ nodeID < s.ownNodeID.toNat then return none
  setUpQueue nodeID connRequest

/-- `RDMAServer::handle`. -/
def handle : Request → Act (RDMAServer σ) Response
  | .rdmaConnRequest connReq => do
      let connResp ← connectQueue connReq
      match connResp with
      | some connResp => return .rdmaConnResponse connResp
      | none => return .errorMessage MessageErrors.noError.code
  | .memoryResourceRequest reqMsg => do
      let respMsg ← Act.zoom RDMAServer.buffer (fun s buffer => { s with buffer })
        (BaseMemory.handleMemoryResource reqMsg)
      return .memoryResourceResponse respMsg
  | .rdmaConnDisconnect nodeid => do
      onApi (RdmaApi.onBase (RdmaApi.disconnectQP σ nodeid.toNat))
      return .empty
  | _ => return .errorMessage MessageErrors.invalidMessage.code

end RDMAServer

/-! ## What the functions return -/

open Act BaseRDMA Device

section wp

variable {σ : Type}

theorem RDMAServer.wp_onClient {α : Type} {x : Act (RDMAClient σ) α} {s : RDMAServer σ}
    {Q : α → RDMAServer σ → Prop} {E : Exn → RDMAServer σ → Prop} :
    wp (RDMAServer.onClient x) Q E s ↔ wp x (fun a c => Q a { s with toRDMAClient := c })
      (fun e c => E e { s with toRDMAClient := c }) s.toRDMAClient :=
  wp_zoom

theorem RDMAServer.wp_onApi {α : Type} {x : Act σ α} {s : RDMAServer σ}
    {Q : α → RDMAServer σ → Prop} {E : Exn → RDMAServer σ → Prop} :
    wp (RDMAServer.onApi x) Q E s ↔
      wp x (fun a api => Q a { s with api }) (fun e api => E e { s with api }) s.api := by
  unfold RDMAServer.onApi
  rw [wp_onClient, RDMAClient.wp_onApi]

variable [RdmaApi σ]

/-- The server with the tables replaced. -/
def RDMAServer.withBase (s : RDMAServer σ) (b : BaseRDMA) : RDMAServer σ :=
  { s with api := RdmaApi.setBase s.api b }

theorem RDMAServer.wp_onBase {α : Type} {x : Act BaseRDMA α} {s : RDMAServer σ}
    {Q : α → RDMAServer σ → Prop} {E : Exn → RDMAServer σ → Prop} :
    wp (RDMAServer.onApi (RdmaApi.onBase x)) Q E s ↔
      wp x (fun a b => Q a (s.withBase b)) (fun e b => E e (s.withBase b)) s.base := by
  rw [wp_onApi, RdmaApi.wp_onBase]
  rfl

/-- **`connectQueue`** marks the node and backs off, or sets up a queue. -/
theorem RDMAServer.wp_connectQueue {s : RDMAServer σ} {req : RDMAConnRequest} {nodeID : ℕ}
    {Q : Option RDMAConnResponse → RDMAServer σ → Prop} {E : Exn → RDMAServer σ → Prop}
    (hnode : nodeID = req.nodeid.toNat)
    (hrefuse : ∀ flags, (∀ i, flags.getD i false = if i = nodeID then true else s.marked i) →
      s.marked nodeID = true → nodeID < s.ownNodeID.toNat → Q none { s with nodeIDsQPs := flags })
    (hsetUp : ∀ flags, (∀ i, flags.getD i false = if i = nodeID then true else s.marked i) →
      ¬ (s.marked nodeID = true ∧ nodeID < s.ownNodeID.toNat) →
      wp (setUpQueue nodeID req) Q E { s with nodeIDsQPs := flags })
    (hmax : 2 ^ 64 ≤ nodeID + 1 → ∀ flags e, E e { s with nodeIDsQPs := flags }) :
    wp (connectQueue req) Q E s := by
  unfold connectQueue
  simp only [wp_bind, wp_get, wp_ite, wp_pure, wp_onClient]
  rw [← hnode]
  refine RDMAClient.wp_markNodeID (fun flags hflags => ⟨fun hback => ?_, fun hgo => ?_⟩) hmax
  · exact hrefuse flags hflags hback.1 hback.2
  · exact hsetUp flags hflags hgo

end wp

namespace RDMAServer

variable {s : RDMAServer ReliableRDMA} {req : RDMAConnRequest} {nodeID : ℕ}

/-- The remote data of a node is replaced. -/
structure Rerouted (b : BaseRDMA) (nodeID : ℕ) (conn : IbConn) (b' : BaseRDMA) : Prop where
  eq : b' = { b with rconns := b'.rconns }
  rconnAt : ∀ i, b'.rconnAt i = if i = nodeID then conn else b.rconnAt i
  lt : nodeID < b'.rconns.length

/-- **`setUpQueue` on reliable connections** fails to set up a queue pair,
or sets one up (`b₁`), stores the remote data (`b₂`) and connects it,
unless the node has an entry in `m_connected`. -/
theorem wp_setUpQueue {Q : Option RDMAConnResponse → RDMAServer ReliableRDMA → Prop}
    {E : Exn → RDMAServer ReliableRDMA → Prop} (hsrq : s.currentSRQ = sizeMax)
    (hfail : ∀ e d, ¬ s.base.device.Succeeds ∨ 2 ^ 64 ≤ nodeID + 1 → s.base.device.Grown d →
      Q none (s.withBase { s.base with device := d }) ∧ E e (s.withBase { s.base with device := d }))
    (hskip : ∀ b₁ b₂, ReliableRDMA.Initialized s.base nodeID b₁ →
      Rerouted b₁ nodeID (remoteConnOf s.base.stack req) b₂ → nodeID ∈ s.base.connected →
      Q (some (responseOf (ReliableRDMA.madeConn s.base s.base.stack))) (s.withBase b₂))
    (hdone : ∀ b₁ b₂ h old, ReliableRDMA.Initialized s.base nodeID b₁ →
      Rerouted b₁ nodeID (remoteConnOf s.base.stack req) b₂ → nodeID ∉ s.base.connected →
      ReliableRDMA.Connectable b₂ nodeID h old →
      Q (some (responseOf (ReliableRDMA.madeConn s.base s.base.stack)))
        (s.withBase (ReliableRDMA.connectedTo b₂ nodeID h old)))
    (hstuck : ∀ b₁ b₂ e d, ReliableRDMA.Initialized s.base nodeID b₁ →
      Rerouted b₁ nodeID (remoteConnOf s.base.stack req) b₂ → nodeID ∉ s.base.connected →
      ¬ s.base.device.Succeeds → b₂.device.Moved d →
      Q none (s.withBase { b₂ with device := d }) ∧ E e (s.withBase { b₂ with device := d })) :
    wp (setUpQueue nodeID req) Q E s := by
  unfold setUpQueue initQP
  simp only [wp_bind, wp_get, wp_ite, wp_pure]
  refine wp_attempt ?_
  simp only [wp_bind, wp_get, wp_ite]
  refine ⟨fun _ => ?_, fun hbad => absurd hsrq hbad⟩
  change wp (onApi (RdmaApi.onBase (ReliableRDMA.initQPWithSuppliedID nodeID))) _ _ s
  rw [wp_onBase]
  refine ReliableRDMA.wp_initQPWithSuppliedID (fun b₁ hinit => ?_) fun e d hbad hgrown => ?_
  · -- the remote data
    refine ⟨fun hbad => absurd hbad (by simp), fun _ => ?_⟩
    rw [wp_onBase]
    refine wp_setRemoteConnData (fun rconns hconns hlt _ => ?_) fun e hbad =>
      absurd hinit.bound (by omega)
    obtain ⟨b₂, hb₂⟩ : ∃ b₂, b₂ = { b₁ with rconns } := ⟨_, rfl⟩
    have hrerouted : Rerouted b₁ nodeID (remoteConnOf s.base.stack req) b₂ := by
      rw [← hinit.stack, hb₂]
      exact ⟨rfl, hconns, hlt⟩
    have hconnected : b₂.connected = s.base.connected := by
      rw [hb₂]
      exact hinit.connected
    have hlconns : nodeID < b₂.lconns.length := by
      rw [hb₂]
      exact hinit.lconns
    have hresponse : b₂.lconns.getD nodeID IbConn.zero =
        ReliableRDMA.madeConn s.base s.base.stack := by
      have hconn := hinit.lconnAt nodeID
      rw [hb₂]
      rwa [if_pos rfl] at hconn
    -- the connection
    change wp _ _ _ (s.withBase { b₁ with rconns })
    rw [← hb₂]
    refine wp_attempt ?_
    rw [wp_onBase]
    refine ReliableRDMA.wp_connectQP (fun hin => ?_) (fun h old hout hable => ?_)
      (fun e d hout hbad hmoved => ?_) fun e hout hunable => ?_
    · refine ⟨fun hbad => absurd hbad (by simp), fun _ => ?_⟩
      rw [wp_element IbConn.zero]
      refine ⟨fun _ => ?_, fun hge => absurd hlconns (Nat.not_lt.mpr hge)⟩
      rw [← hresponse] at hskip
      exact hskip b₁ b₂ hinit hrerouted (hconnected ▸ hin)
    · refine ⟨fun hbad => absurd hbad (by simp), fun _ => ?_⟩
      rw [wp_element IbConn.zero]
      refine ⟨fun _ => ?_, fun hge => absurd hlconns (Nat.not_lt.mpr hge)⟩
      rw [← hresponse] at hdone
      exact hdone b₁ b₂ h old hinit hrerouted (hconnected ▸ hout) hable
    · have hstop := hstuck b₁ b₂ e d hinit hrerouted (hconnected ▸ hout)
        (fun hsucc => hbad ?_) hmoved
      · refine ⟨fun what _ => ⟨fun _ => hstop.1, fun hbad => absurd rfl hbad⟩, fun _ => hstop.2⟩
      · rw [hb₂]
        change b₁.device.Succeeds
        rw [hinit.device]
        exact (grown_queuePair _ _).succeeds hsucc
    · -- the queue pair was made right before
      obtain ⟨h, old, hable⟩ : ∃ h old, ReliableRDMA.Connectable b₂ nodeID h old := by
        rw [hb₂]
        exact ⟨_, _, hinit.connectable hlt⟩
      exact absurd hable (hunable h old)
  · have hstop := hfail e d hbad hgrown
    refine ⟨fun what _ => ?_, fun _ => hstop.2⟩
    exact ⟨fun _ => hstop.1, fun hbad => absurd trivial hbad⟩

end RDMAServer

end RdmaManager
