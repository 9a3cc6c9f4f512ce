import RdmaManager.Node.Usage
/-!
# Set-ups that fail

`connectQueue` marks the node before it sets a queue pair up for it, and
the mark stays where the set-up fails. Nor is anything undone where only
`connectQP` fails, after a queue pair was entered in the tables. So a
request that fails leaves no trace only if its node was marked before and
no queue pair could be made (`failed_setUp_traceless_iff`).
-/

namespace RdmaManager

open Act BaseRDMA Device

/-- The tables are the same. -/
structure BaseRDMA.SameTables (b b' : BaseRDMA) : Prop where
  qps : b'.qps = b.qps
  lconns : b'.lconns = b.lconns
  rconns : b'.rconns = b.rconns
  connected : b'.connected = b.connected
  qpNum2connID : b'.qpNum2connID = b.qpNum2connID

namespace RDMAServer

section

variable {σ : Type} [RdmaApi σ]

/-- **The set-up for a request throws** a `runtime_error`: the node is not
refused, and either no queue pair is set up for it or `connectQP` fails. -/
def SetUpThrows (req : RDMAConnRequest) (s : RDMAServer σ) : Prop :=
  ∃ flag s₁, onClient (RDMAClient.markNodeID req.nodeid.toNat) s = (.ok flag, s₁) ∧
    ¬ (flag = true ∧ req.nodeid.toNat < s₁.ownNodeID.toNat) ∧
    ((∃ what s₂, initQP req.nodeid.toNat s₁ = (.error (.runtimeError what), s₂)) ∨
      ∃ s₂ s₃ what s₄, initQP req.nodeid.toNat s₁ = (.ok (), s₂) ∧
        onApi (RdmaApi.onBase (setRemoteConnData req.nodeid.toNat
          (remoteConnOf s₂.base.stack req))) s₂ = (.ok (), s₃) ∧
        onApi (RdmaApi.onBase (RdmaApi.connectQP σ req.nodeid.toNat)) s₃ =
          (.error (.runtimeError what), s₄))

/-- The same nodes are marked, and the tables are the same. -/
structure SameTables (s s' : RDMAServer σ) : Prop where
  marked : ∀ i, s'.marked i = s.marked i
  tables : s.base.SameTables s'.base

variable {s s₁ s₂ s₃ s₄ : RDMAServer σ} {req : RDMAConnRequest} {nodeID : ℕ} {flag : Bool}
  {what : String}

omit [RdmaApi σ] in
/-- Marking a node that is marked changes nothing. -/
theorem of_markNodeID (hmark : onClient (RDMAClient.markNodeID nodeID) s = (.ok flag, s₁)) :
    flag = s.marked nodeID ∧ (∃ flags, s₁ = { s with nodeIDsQPs := flags }) ∧
      (∀ i, s₁.marked i = if i = nodeID then true else s.marked i) ∧
      (s.marked nodeID = true → s₁ = s) := by
  have hwp : wp (onClient (RDMAClient.markNodeID nodeID))
      (fun flag s₁ => flag = s.marked nodeID ∧ (∃ flags, s₁ = { s with nodeIDsQPs := flags }) ∧
        ∀ i, s₁.marked i = if i = nodeID then true else s.marked i) (fun _ _ => True) s := by
    rw [wp_onClient]
    exact RDMAClient.wp_markNodeID (fun flags hflags => ⟨rfl, ⟨flags, rfl⟩, hflags⟩)
      fun _ _ _ => trivial
  obtain ⟨hflag, hflags, hmarked⟩ := wp_ok hwp hmark
  refine ⟨hflag, hflags, hmarked, fun hset => ?_⟩
  have hlt : nodeID < s.nodeIDsQPs.length := by
    by_contra hge
    rw [RDMAClient.marked, List.getD_eq_default _ _ (not_lt.mp hge)] at hset
    simp at hset
  have hkeep : wp (onClient (RDMAClient.markNodeID nodeID)) (fun _ s₁ => s₁ = s) (fun _ _ => True) s := by
    rw [wp_onClient]
    unfold RDMAClient.markNodeID
    simp only [wp_bind, wp_get, wp_ite, wp_modify, wp_pure, wp_elementAt false]
    refine ⟨fun hge => absurd hlt (not_lt.mpr hge), fun _ => ⟨fun _ => ?_, fun _ => trivial⟩⟩
    exact ⟨fun hunset => absurd (hset.symm.trans hunset) (by simp), fun _ => trivial⟩
  have hkept := wp_ok hkeep hmark
  exact hkept

/-- A request whose node is not refused goes on from where it is marked. -/
theorem connectQueue_eq (hmark : onClient (RDMAClient.markNodeID req.nodeid.toNat) s = (.ok flag, s₁))
    (hgo : ¬ (flag = true ∧ req.nodeid.toNat < s₁.ownNodeID.toNat)) :
    connectQueue req s = setUpQueue req.nodeid.toNat req s₁ := by
  unfold connectQueue
  rw [bind_of_ok hmark, bind_of_ok (get_apply (s := s₁)), if_neg hgo]

/-- No queue pair is set up. -/
theorem setUpQueue_of_initQP (hinit : initQP nodeID s₁ = (.error (.runtimeError what), s₂)) :
    setUpQueue nodeID req s₁ = (.ok none, s₂) := by
  unfold setUpQueue
  rw [bind_of_ok (attempt_of_error hinit), if_pos rfl, pure_apply]

/-- A queue pair is set up, and is not connected. -/
theorem setUpQueue_of_connectQP (hinit : initQP nodeID s₁ = (.ok (), s₂))
    (hset : onApi (RdmaApi.onBase (setRemoteConnData nodeID (remoteConnOf s₂.base.stack req))) s₂ =
      (.ok (), s₃))
    (hconnect : onApi (RdmaApi.onBase (RdmaApi.connectQP σ nodeID)) s₃ =
      (.error (.runtimeError what), s₄)) :
    setUpQueue nodeID req s₁ = (.ok none, s₄) := by
  unfold setUpQueue
  rw [bind_of_ok (attempt_of_ok hinit), if_neg (by simp), bind_of_ok (get_apply (s := s₂)),
    bind_of_ok hset, bind_of_ok (attempt_of_error hconnect), if_pos rfl, pure_apply]

/-- A node that is marked was marked before, if nothing changed. -/
theorem marked_of_sameTables (hmarked : s₁.marked nodeID = true)
    (hsame : s₂.marked nodeID = s₁.marked nodeID) (h : SameTables s s₂) : s.marked nodeID = true := by
  rw [← h.marked, hsame, hmarked]

end

/-! ## Reliable connections -/

section

variable {s : RDMAServer ReliableRDMA} {req : RDMAConnRequest} {nodeID : ℕ}

/-- One of the calls that set a queue pair up fails. -/
def InitFails (s : RDMAServer ReliableRDMA) : Prop :=
  ∃ k < if s.currentSRQ = sizeMax then 5 else 4,
    s.base.device.errno (s.base.device.calls + k) ≠ 0

/-- **What a request leaves as it was** if it leaves no trace. -/
structure NoTrace (s s' : RDMAServer ReliableRDMA) : Prop extends SameTables s s' where
  connectedQPs : s'.api.connectedQPs = s.api.connectedQPs

/-- A queue pair is entered, or one of the calls fails and only the device
has changed, or the behaviour is undefined. -/
theorem wp_initQP_cases : wp (initQP nodeID)
    (fun _ s' => ¬ InitFails s ∧ s.base.Entered nodeID s'.base)
    (fun e s' => (∃ what, e = .undefined what) ∨
      InitFails s ∧ ∃ d, s' = s.withBase { s.base with device := d }) s := by
  unfold initQP InitFails
  simp only [wp_bind, wp_get, wp_ite]
  refine ⟨fun hnone => ?_, fun hsrq => ?_⟩
  · rw [if_pos hnone]
    change wp (onApi (RdmaApi.onBase (ReliableRDMA.initQPWithSuppliedID nodeID))) _ _ s
    rw [wp_onBase]
    refine ReliableRDMA.wp_initQPWithSuppliedID_cases (fun b hinit => ⟨?_, hinit.entered⟩)
      (fun e d hfail _ => Or.inr ⟨hfail, d, rfl⟩) fun what _ _ _ => Or.inl ⟨what, rfl⟩
    rintro ⟨k, hk, herr⟩
    exact herr (hinit.errno k hk)
  · rw [if_neg hsrq, wp_onApi]
    refine ReliableRDMA.wp_initQPForSRQWithSuppliedID_entered (fun o hnone hentered => ⟨?_, hentered⟩)
      (fun e d hfail _ => Or.inr ⟨hfail, d, rfl⟩) fun what _ _ _ _ => Or.inl ⟨what, rfl⟩
    rintro ⟨k, hk, herr⟩
    exact herr (hnone k hk)

/-- **On reliable connections.** -/
theorem traceless_iff_reliable (hs : s.base.Placed) (hthrows : SetUpThrows req s) :
    (connectQueue req s).1 = .ok none ∧
      (NoTrace s (connectQueue req s).2 ↔ s.marked req.nodeid.toNat = true ∧ InitFails s) ∧
      (s.marked req.nodeid.toNat = true → InitFails s →
        ∃ d, (connectQueue req s).2 = s.withBase { s.base with device := d }) := by
  obtain ⟨flag, s₁, hmark, hgo, hthrows⟩ := hthrows
  obtain ⟨hflag, ⟨flags, hs₁⟩, hmarked, hkeep⟩ := of_markNodeID hmark
  have hself : s₁.marked req.nodeid.toNat = true := by rw [hmarked, if_pos rfl]
  rw [connectQueue_eq hmark hgo]
  rcases hthrows with ⟨what, s₂, hinit⟩ | ⟨s₂, s₃, what, s₄, hinit, hset, hconnect⟩
  · -- nothing but the mark is left
    rw [setUpQueue_of_initQP hinit]
    obtain ⟨hfails, d, hs₂⟩ : InitFails s₁ ∧ ∃ d, s₂ = s₁.withBase { s₁.base with device := d } := by
      rcases wp_error wp_initQP_cases hinit with ⟨_, hbad⟩ | hdone
      · simp at hbad
      · exact hdone
    have hfails' : InitFails s := by
      rw [hs₁] at hfails
      exact hfails
    have hdone : s.marked req.nodeid.toNat = true →
        s₂ = s.withBase { s.base with device := d } := by
      intro hset
      rw [hs₂, hkeep hset]
    refine ⟨rfl, ⟨fun htrace => ⟨?_, hfails'⟩, fun hcond => ?_⟩, fun hset _ => ⟨d, hdone hset⟩⟩
    · refine marked_of_sameTables hself ?_ htrace.toSameTables
      rw [hs₂]
      rfl
    · change NoTrace s s₂
      rw [hdone hcond.1]
      exact ⟨⟨fun _ => rfl, rfl, rfl, rfl, rfl, rfl⟩, rfl⟩
  · -- a new queue pair stands in the table
    rw [setUpQueue_of_connectQP hinit hset hconnect]
    obtain ⟨hnone, hentered⟩ := wp_ok wp_initQP_cases hinit
    have hnone' : ¬ InitFails s := by
      rw [hs₁] at hnone
      exact hnone
    have hqps₃ : s₃.base.qps = s₂.base.qps := by
      have hwp : wp (onApi (RdmaApi.onBase (setRemoteConnData req.nodeid.toNat
          (remoteConnOf s₂.base.stack req)))) (fun _ s' => s'.base.qps = s₂.base.qps)
          (fun _ _ => True) s₂ := by
        rw [wp_onBase]
        exact wp_setRemoteConnData (fun _ _ _ _ => rfl) fun _ _ => trivial
      have hkept := wp_ok hwp hset
      exact hkept
    have hqps₄ : s₄.base.qps = s₃.base.qps := by
      have hwp : wp (onApi (RdmaApi.onBase (ReliableRDMA.connectQP req.nodeid.toNat)))
          (fun _ _ => True) (fun _ s' => s'.base.qps = s₃.base.qps) s₃ := by
        rw [wp_onBase]
        exact ReliableRDMA.wp_connectQP (fun _ => trivial) (fun _ _ _ _ => trivial)
          (fun _ _ _ _ _ => rfl) fun _ _ _ => ⟨rfl, rfl⟩
      exact wp_error hwp hconnect
    have hnot : ¬ NoTrace s s₄ := by
      intro htrace
      obtain ⟨qp, h, hqp, hnew, -, hqpAt⟩ := hentered.qpAt
      have hentry : (s.base.qpAt req.nodeid.toNat).qp = some h := by
        have hsame : s.base.qpAt req.nodeid.toNat = s₂.base.qpAt req.nodeid.toNat := by
          unfold qpAt
          rw [← htrace.tables.qps, hqps₄, hqps₃]
        rw [hsame, hqpAt, if_pos rfl, hqp]
      have hlt := hs _ h hentry
      rw [hs₁] at hnew
      exact absurd hlt (Nat.not_lt.mpr hnew)
    exact ⟨rfl, ⟨fun htrace => absurd htrace hnot, fun hcond => absurd hcond.2 hnone'⟩,
      fun _ hfails => absurd hfails hnone'⟩

end

/-! ## Datagrams -/

section

variable {u : UnreliableRDMA} {b : BaseRDMA} {id : ℕ}

/-- Making the one queue pair enters nothing. -/
theorem sameTables_makeUdqp :
    Preserves (fun u => b.SameTables u.toBaseRDMA) UnreliableRDMA.makeUdqp := by
  have hdevice : ∀ {x : Act Device Unit},
      Preserves (fun u : UnreliableRDMA => b.SameTables u.toBaseRDMA)
        (UnreliableRDMA.onBase (onDevice x)) := by
    intro x u hu
    rw [UnreliableRDMA.wp_onBase, wp_onDevice]
    have hkept : ∀ d, b.SameTables { u.toBaseRDMA with device := d } :=
      fun d => ⟨hu.qps, hu.lconns, hu.rconns, hu.connected, hu.qpNum2connID⟩
    exact wp_mono (preserves_true _ _ trivial) (fun _ d _ => hkept d) fun _ d _ => hkept d
  unfold UnreliableRDMA.makeUdqp
  refine preserves_get.bind fun u => (preserves_pure ()).ite ?_
  refine Preserves.bind ?_ fun _ => Preserves.bind ?_ fun _ => preserves_get.bind fun u => ?_
  · exact (preserves_true _).zoom (fun _ _ => trivial) fun u p hu _ =>
      ⟨hu.qps, hu.lconns, hu.rconns, hu.connected, hu.qpNum2connID⟩
  · intro u hu
    unfold wp UnreliableRDMA.fillConn
    cases u.udqp.qp <;> exact hu
  · exact hdevice.bind fun _ => hdevice.bind fun _ => hdevice

/-- What fails is the making of the one queue pair. -/
theorem wp_initQPWithSuppliedID_tables :
    wp (UnreliableRDMA.initQPWithSuppliedID id) (fun _ _ => True)
      (fun e u' => (∃ what, e = .undefined what) ∨ u.SameTables u'.toBaseRDMA) u := by
  unfold UnreliableRDMA.initQPWithSuppliedID
  rw [wp_bind]
  refine wp_mono (sameTables_makeUdqp u ⟨rfl, rfl, rfl, rfl, rfl⟩) (fun _ u' _ => ?_)
    fun _ _ hsame => Or.inr hsame
  simp only [wp_bind, wp_get, UnreliableRDMA.wp_onBase]
  refine wp_setQP_any (fun s hset => ?_) fun what _ => Or.inl ⟨what, rfl⟩
  exact wp_setLocalConnData (fun _ _ _ => trivial) fun what _ => Or.inl ⟨what, rfl⟩

variable {s s₁ s₂ s₃ s₄ : RDMAServer UnreliableRDMA} {req : RDMAConnRequest} {nodeID : ℕ}
  {what : String}

theorem sameTables_of_initQP (hinit : initQP nodeID s₁ = (.error (.runtimeError what), s₂)) :
    s₁.base.SameTables s₂.base ∧ ∃ api, s₂ = { s₁ with api } := by
  have hwp : wp (initQP nodeID) (fun _ _ => True)
      (fun e s₂ => (∃ what, e = .undefined what) ∨
        s₁.base.SameTables s₂.base ∧ ∃ api, s₂ = { s₁ with api }) s₁ := by
    unfold initQP
    simp only [wp_bind, wp_get, wp_ite, wp_onApi]
    refine ⟨fun _ => ?_, fun _ => trivial⟩
    refine wp_mono wp_initQPWithSuppliedID_tables (fun _ _ _ => trivial) fun e api hfail => ?_
    exact hfail.imp_right fun hsame => ⟨hsame, api, rfl⟩
  rcases wp_error hwp hinit with ⟨_, hbad⟩ | hdone
  · simp at hbad
  · exact hdone

/-- `connectQP` throws nothing once there is remote connection data. -/
theorem connectQP_ne_error {conn : IbConn}
    (hset : onApi (RdmaApi.onBase (setRemoteConnData nodeID conn)) s₂ = (.ok (), s₃)) :
    onApi (RdmaApi.onBase (RdmaApi.connectQP UnreliableRDMA nodeID)) s₃ ≠
      (.error (.runtimeError what), s₄) := by
  intro hconnect
  have hlt : wp (onApi (RdmaApi.onBase (setRemoteConnData nodeID conn)))
      (fun _ s' => nodeID < s'.base.rconns.length) (fun _ _ => True) s₂ := by
    rw [wp_onBase]
    exact wp_setRemoteConnData (fun _ _ hlt _ => hlt) fun _ _ => trivial
  have hlt := wp_ok hlt hset
  have hwp : wp (onApi (RdmaApi.onBase (UnreliableRDMA.connectQP nodeID)))
      (fun _ _ => True) (fun _ _ => False) s₃ := by
    rw [wp_onBase]
    exact UnreliableRDMA.wp_connectQP (fun _ => trivial) (fun _ _ _ => trivial)
      (fun _ _ _ => trivial) fun _ _ hge => absurd hlt (not_lt.mpr hge)
  exact wp_error hwp hconnect

/-- **On datagrams** no queue pair is entered before all calls that can fail. -/
theorem traceless_iff_unreliable (hthrows : SetUpThrows req s) :
    (connectQueue req s).1 = .ok none ∧
      (SameTables s (connectQueue req s).2 ↔ s.marked req.nodeid.toNat = true) ∧
      (s.marked req.nodeid.toNat = true → ∃ api, (connectQueue req s).2 = { s with api }) := by
  obtain ⟨flag, s₁, hmark, hgo, hthrows⟩ := hthrows
  obtain ⟨-, ⟨flags, hs₁⟩, hmarked, hkeep⟩ := of_markNodeID hmark
  have hself : s₁.marked req.nodeid.toNat = true := by rw [hmarked, if_pos rfl]
  rw [connectQueue_eq hmark hgo]
  rcases hthrows with ⟨what, s₂, hinit⟩ | ⟨s₂, s₃, what, s₄, -, hset, hconnect⟩
  · rw [setUpQueue_of_initQP hinit]
    obtain ⟨hsame, api, hs₂⟩ := sameTables_of_initQP hinit
    refine ⟨rfl, ⟨fun htrace => ?_, fun hset => ?_⟩, fun hset => ⟨api, ?_⟩⟩
    · refine marked_of_sameTables hself ?_ htrace
      rw [hs₂]
      rfl
    · rw [hkeep hset] at hsame hs₂
      refine ⟨fun i => ?_, hsame⟩
      rw [hs₂]
      rfl
    · rw [hs₂, hkeep hset]
  · exact absurd hconnect (connectQP_ne_error hset)

end

/-! ## Both -/

/-- **A set-up that fails** is answered with `false`, and leaves no trace
exactly if the node was marked before and what failed is the making of a
queue pair; then the server is the one before it, but for its device. -/
theorem failed_setUp_traceless_iff {p : InUse} {u : RDMAServer UnreliableRDMA} {req : RDMAConnRequest}
    {retries : ℕ} (hreach : (InUse.usage retries).Reachable p) :
    (SetUpThrows req p.server →
      (connectQueue req p.server).1 = .ok none ∧
        (NoTrace p.server (connectQueue req p.server).2 ↔
          p.server.marked req.nodeid.toNat = true ∧ InitFails p.server) ∧
        (p.server.marked req.nodeid.toNat = true → InitFails p.server →
          ∃ d, (connectQueue req p.server).2 =
            p.server.withBase { p.server.base with device := d })) ∧
      (SetUpThrows req u →
        (connectQueue req u).1 = .ok none ∧
          (SameTables u (connectQueue req u).2 ↔ u.marked req.nodeid.toNat = true) ∧
          (u.marked req.nodeid.toNat = true → ∃ api, (connectQueue req u).2 = { u with api })) :=
  ⟨traceless_iff_reliable (InUse.placed_of_reachable hreach), traceless_iff_unreliable⟩

/-- A newly constructed server. -/
def newServer {σ : Type} (ownNodeID : UInt64) (api : σ) : RDMAServer σ where
  api := api
  ownNodeID := ownNodeID
  nodeIDsConnection := []
  nodeIDsQPs := []
  connections := ∅
  name := "RDMAServer"
  ownIpPort := "10.0.0.1:5200"
  nodeType := .server
  sequencerIpPort := "10.0.0.1:5600"
  sockets := ∅
  buffer := BaseMemory.new 4096 64
  currentSRQ := sizeMax

/-- Its object over reliable connections, if the calls of the device return
`errno`. -/
def newReliable (errno : ℕ → ℕ) : ReliableRDMA :=
  ReliableRDMA.fresh
    (ReliableRDMA.blank (Device.opened errno fun h => h.toUInt32) 4096 7 1 IbConn.zero)

theorem newServer_fresh (ownNodeID : UInt64) (errno : ℕ → ℕ) :
    (newServer ownNodeID (newReliable errno)).Fresh :=
  ⟨⟨_, _, _, _, _, _, rfl⟩, rfl, rfl⟩

/-- The server with node id `1` on a device that never makes anything,
after a request of node `2`. -/
def requested : RDMAServer ReliableRDMA :=
  (handle (.rdmaConnRequest connReq) (newServer 1 (newReliable fun _ => 12))).2

/-- The next request of the node leaves no trace. -/
theorem failed_setUp_traceless_requested : NoTrace requested (connectQueue connReq requested).2 := by
  have hreach : (InUse.usage 0).Reachable ⟨requested, []⟩ :=
    (System.Reachable.init (M := InUse.usage 0) (s := ⟨newServer 1 (newReliable fun _ => 12), []⟩)
      ⟨newServer_fresh _ _, rfl⟩).step (l := .handle (.rdmaConnRequest connReq)) rfl
  have hthrows : SetUpThrows connReq requested :=
    ⟨true, _, rfl, by decide +kernel, Or.inl ⟨"Cannot create send CQ!", _, rfl⟩⟩
  have hfails : InitFails requested := ⟨0, by decide +kernel, by decide +kernel⟩
  exact ((failed_setUp_traceless_iff hreach (u := newServer 1 (UnreliableRDMA.blank
    (Device.opened (fun _ => 0) fun _ => 0) 4096 7 1 IbConn.zero fun _ => 0))).1 hthrows).2.1.mpr
    ⟨by decide +kernel, hfails⟩

/-- The server's own `connect` to node `2`, where it looks at the mark. -/
def ownConnect : Call := ⟨"10.0.0.2:5200", 2, .marking⟩

/-- The first call of the device fails, and no other: node `2` stays
marked, its next request is refused, and the server's own `connect` to it
returns `true` without connecting. -/
theorem failed_setUp_leaves_mark :
    let s := newServer 5 (newReliable fun n => if n = 0 then 12 else 0)
    let s' := (connectQueue connReq s).2
    (InUse.usage 0).Reachable ⟨s, []⟩ ∧ SetUpThrows connReq s ∧ (connectQueue connReq s).1 = .ok none ∧
      ¬ NoTrace s s' ∧ (connectQueue connReq s').1 = .ok none ∧
      ((connectQueue connReq { s with api := s'.api }).1.toOption.join.isSome = true) ∧
      (ownConnect.run (ownConnect.advance none) s'.toRDMAClient).1.stage = .returned true ∧
      (ownConnect.run (ownConnect.advance none) s.toRDMAClient).1.stage = .initializing := by
  refine ⟨.init ⟨newServer_fresh _ _, rfl⟩, ⟨false, _, rfl, by decide +kernel,
    Or.inl ⟨"Cannot create send CQ!", _, rfl⟩⟩, rfl, fun htrace => ?_, rfl, rfl, rfl, rfl⟩
  exact absurd (htrace.marked 2) (by decide +kernel)

end RDMAServer

end RdmaManager
