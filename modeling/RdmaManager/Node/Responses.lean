import RdmaManager.Common.System
import RdmaManager.Node.Server
/-!
# Answers to connection requests

A server that answers an `RDMAConnRequest` with an `RDMAConnResponse`
says that the queue pair of the response is connected to that of the
request. It is so (`response_truthful`) in every run in which a request
that is not refused finds no entry of its node in `m_connected` and no
live queue pair in `m_qps`: nothing resets the entry when the node
disconnects, and `connectQP` then returns without connecting.
-/

namespace RdmaManager

open Act Device

namespace BaseRDMA

variable {s s' : BaseRDMA} {id h : ℕ}

/-- The handles in the table are ones the device has given out. -/
def Placed (s : BaseRDMA) : Prop := ∀ i h, (s.qpAt i).qp = some h → h < s.device.next

/-- The queue pair is no longer alive, or the table refers to it. -/
def Settled (s : BaseRDMA) (h : ℕ) : Prop :=
  h < s.device.next ∧ s.device.qps h = none ∨ ∃ i, (s.qpAt i).qp = some h

/-- What was settled in `s` is settled in `s'`. -/
def Onward (s s' : BaseRDMA) : Prop := s'.Placed ∧ ∀ h, s.Settled h → s'.Settled h

/-- Dead queue pairs stay dead, and an entry changes only where its queue
pair is dead afterwards. -/
theorem onward_of (hs : s.Placed) (hnext : s.device.next ≤ s'.device.next)
    (hdead : ∀ h < s.device.next, s.device.qps h = none → s'.device.qps h = none)
    (hnew : ∀ i h, (s'.qpAt i).qp = some h → (s.qpAt i).qp = some h ∨ h < s'.device.next)
    (hkept : ∀ i h, (s.qpAt i).qp = some h → (s'.qpAt i).qp = some h ∨ s'.device.qps h = none) :
    s.Onward s' := by
  refine ⟨fun i h hqp => ?_, fun h hsettled => ?_⟩
  · rcases hnew i h hqp with hold | hlt
    · exact lt_of_lt_of_le (hs i h hold) hnext
    · exact hlt
  · rcases hsettled with ⟨hlt, hqp⟩ | ⟨i, hqp⟩
    · exact Or.inl ⟨lt_of_lt_of_le hlt hnext, hdead h hlt hqp⟩
    · rcases hkept i h hqp with hqp' | hqp'
      · exact Or.inr ⟨i, hqp'⟩
      · exact Or.inl ⟨lt_of_lt_of_le (hs i h hqp) hnext, hqp'⟩

theorem Onward.trans {s'' : BaseRDMA} (h : s.Onward s') (h' : s'.Onward s'') : s.Onward s'' :=
  ⟨h'.1, fun i hi => h'.2 i (h.2 i hi)⟩

/-- The table is left alone, and the device kills no queue pair for good
that was dead. -/
theorem onward_of_device (hs : s.Placed) (htable : s'.qpAt = s.qpAt)
    (hnext : s.device.next ≤ s'.device.next)
    (hdead : ∀ h < s.device.next, s.device.qps h = none → s'.device.qps h = none) : s.Onward s' := by
  refine onward_of hs hnext hdead (fun i h hqp => Or.inl ?_) fun i h hqp => Or.inl ?_
  · rwa [htable] at hqp
  · rwa [htable]

theorem onward_grown (hs : s.Placed) {d : Device} (hd : s.device.Grown d) :
    s.Onward { s with device := d } := by
  refine onward_of_device hs rfl hd.next fun h hlt hqp => ?_
  change d.qps h = none
  rw [hd.qps h hlt, hqp]

theorem onward_moved (hs : s.Placed) {d : Device} (hd : s.device.Moved d) :
    s.Onward { s with device := d } :=
  onward_of_device hs rfl hd.next.ge fun h _ hqp => (hd.qps h).mpr hqp

/-- An id is set up that has no live queue pair. -/
theorem onward_initialized (hs : s.Placed) (hinit : ReliableRDMA.Initialized s id s')
    (hfree : ∀ h, (s.qpAt id).qp = some h → s.device.qps h = none) : s.Onward s' := by
  have hgrown := grown_queuePair s.device s.qpType
  rw [← hinit.device] at hgrown
  refine onward_of hs hgrown.next (fun h hlt hqp => ?_) (fun i h hqp => ?_) fun i h hqp => ?_
  · rw [hgrown.qps h hlt, hqp]
  · rw [hinit.qpAt] at hqp
    split_ifs at hqp with hi
    · obtain rfl := Option.some.inj hqp
      right
      rw [hinit.device, queuePair_next]
      omega
    · exact Or.inl hqp
  · rw [hinit.qpAt]
    split_ifs with hi
    · right
      rw [hi] at hqp
      rw [hgrown.qps h (hs id h hqp), hfree h hqp]
    · exact Or.inl hqp

/-- A queue pair is moved on. -/
theorem onward_connectedTo (hs : s.Placed) (old : Qp) :
    s.Onward (ReliableRDMA.connectedTo s id h old) := by
  refine onward_of_device hs rfl le_rfl fun i _ hqp => ?_
  change (s.device.readied h old _).qps i = none
  rw [readied_qps]
  rcases eq_or_ne i h with rfl | hne
  · rw [Function.update_self, hqp]
    rfl
  · rw [Function.update_of_ne hne, hqp]

/-- A queue pair is destroyed, and its entry is empty. -/
theorem onward_disconnected (hs : s.Placed) (hlt : id < s.qps.length)
    (hqp : (s.qpAt id).qp = some h) {d : Device} (hd : (s.device.tick.dropQp h).Reaped d) :
    s.Onward (ReliableRDMA.disconnected s id d) := by
  have hqps : d.qps = Function.update s.device.qps h none := hd.qps
  have hnext : d.next = s.device.next := hd.next
  refine onward_of hs hnext.ge (fun i _ hi => ?_) (fun i h' hqp' => ?_) fun i h' hqp' => ?_
  · change d.qps i = none
    rw [hqps, Function.update_apply, hi, ite_self]
  · rw [ReliableRDMA.qpAt_disconnected hlt] at hqp'
    split_ifs at hqp'
    exact Or.inl hqp'
  · rw [ReliableRDMA.qpAt_disconnected hlt]
    split_ifs with hi
    · right
      rw [hi, hqp, Option.some.injEq] at hqp'
      change d.qps h' = none
      rw [hqps, ← hqp', Function.update_self]
    · exact Or.inl hqp'

/-- Any `disconnectQP`. -/
theorem wp_disconnectQP_onward (hs : s.Placed) :
    wp (ReliableRDMA.disconnectQP id) (fun _ => s.Onward) (fun _ => s.Onward) s := by
  have hrefl : ∀ {s' : BaseRDMA}, s'.qpAt = s.qpAt → s'.device.next = s.device.next →
      (∀ h, s.device.qps h = none → s'.device.qps h = none) → s.Onward s' :=
    fun htable hnext hdead => onward_of_device hs htable hnext.ge fun h _ => hdead h
  refine ReliableRDMA.wp_disconnectQP (fun _ => ?_) (fun _ _ => ?_) (fun h d _ hlt hqp hd => ?_)
    (fun e _ => ?_) fun h e _ _ hdead => ?_
  · exact hrefl rfl rfl fun _ hqp => hqp
  · exact hrefl rfl rfl fun _ hqp => hqp
  · have honward := onward_disconnected hs hlt hqp hd
    exact ⟨honward, fun _ => honward⟩
  · exact ⟨hrefl rfl rfl fun _ hqp => hqp, hrefl rfl rfl fun _ hqp => hqp⟩
  · refine hrefl rfl rfl fun i hi => ?_
    change Function.update s.device.qps h none i = none
    rw [Function.update_apply, hi, ite_self]

end BaseRDMA

namespace RDMAServer

open BaseRDMA

variable {s s₀ : RDMAServer ReliableRDMA} {req : RDMAConnRequest} {resp : RDMAConnResponse}

/-- A newly constructed server without a shared receive queue. -/
def Fresh (s : RDMAServer ReliableRDMA) : Prop :=
  (∃ errno qpNum pointer rkey lid stack, s.api =
    ReliableRDMA.fresh (ReliableRDMA.blank (Device.opened errno qpNum) pointer rkey lid stack)) ∧
    s.nodeIDsQPs = [] ∧ s.currentSRQ = sizeMax

/-- The runs of a server that handles one request after another. -/
def runs : System (RDMAServer ReliableRDMA) Request where
  Init := Fresh
  Step s request s' := s' = (handle request s).2

/-- A request to connect is refused, or its set-up fails, or its node has
neither an entry in `m_connected` nor a live queue pair, and its `lid` is
one of sixteen bits. -/
def Sound (s : RDMAServer ReliableRDMA) : Request → Prop
  | .rdmaConnRequest req =>
      s.marked req.nodeid.toNat = true ∧ req.nodeid.toNat < s.ownNodeID.toNat ∨
      (∃ k < 5, s.base.device.errno (s.base.device.calls + k) ≠ 0) ∨
      req.lid.toNat < 2 ^ 16 ∧ req.nodeid.toNat ∉ s.base.connected ∧
        ∀ h, (s.base.qpAt req.nodeid.toNat).qp = some h → s.base.device.qps h = none
  | _ => True

/-- The runs of sound requests. -/
def soundRuns : System (RDMAServer ReliableRDMA) Request := runs.restrict Sound

/-- **What a response says**: its queue pair is the one of the node, and is
connected to that of the request. -/
structure Truthful (s : RDMAServer ReliableRDMA) (req : RDMAConnRequest)
    (resp : RDMAConnResponse) : Prop where
  qp : ∃ h qp qpn dlid, (s.base.qpAt req.nodeid.toNat).qp = some h ∧
    s.base.device.qpNum h = resp.qpNum ∧ s.base.device.qps h = some qp ∧ qp.state = .rts ∧
    qp.dest = some (qpn, dlid) ∧ qpn = req.qpNum ∧ dlid.toNat = req.lid.toNat
  connected : s.base.connected.lookup req.nodeid.toNat = some true

/-! ## One request -/

/-- What a run of requests keeps. -/
structure Inv (s : RDMAServer ReliableRDMA) : Prop where
  placed : s.base.Placed
  srq : s.currentSRQ = sizeMax

/-- What a step establishes. -/
structure Steps (s s' : RDMAServer ReliableRDMA) : Prop where
  onward : s.base.Onward s'.base
  srq : s'.currentSRQ = s.currentSRQ

theorem Steps.inv {s' : RDMAServer ReliableRDMA} (hsteps : Steps s s') (hinv : Inv s) : Inv s' :=
  ⟨hsteps.onward.1, hsteps.srq.trans hinv.srq⟩

/-- The response of a queue pair that was set up and connected. -/
theorem truthful_connectedTo {b b₁ b₂ : BaseRDMA} {t : RDMAServer ReliableRDMA} {h : ℕ} {old : Qp}
    {stack localConn : IbConn} (hinit : ReliableRDMA.Initialized b req.nodeid.toNat b₁)
    (hrerouted : Rerouted b₁ req.nodeid.toNat (remoteConnOf stack req) b₂)
    (hable : ReliableRDMA.Connectable b₂ req.nodeid.toNat h old) (hlid : req.lid.toNat < 2 ^ 16) :
    Truthful (t.withBase (ReliableRDMA.connectedTo b₂ req.nodeid.toNat h old)) req
      (responseOf (ReliableRDMA.madeConn b localConn)) := by
  obtain ⟨hqp, hold, -, -, -⟩ := hable
  have hself := ReliableRDMA.connectedTo_qps_self req.nodeid.toNat hold
  have hpeer : ReliableRDMA.peerOf b₂ req.nodeid.toNat = (req.qpNum, req.lid.toUInt16) := by
    rw [ReliableRDMA.peerOf, hrerouted.rconnAt, if_pos rfl]
    simp [remoteConnOf]
  have hh : h = b.device.next + 2 := by
    have htable : b₂.qpAt req.nodeid.toNat = b₁.qpAt req.nodeid.toNat := by
      rw [hrerouted.eq]
      rfl
    rw [htable, hinit.qpAt, if_pos rfl] at hqp
    exact (Option.some.inj hqp).symm
  have hnum : b₂.device.qpNum = b.device.qpNum := by
    rw [hrerouted.eq]
    change b₁.device.qpNum = _
    rw [hinit.device]
    rfl
  rw [hpeer] at hself
  refine ⟨⟨h, _, _, _, hqp, ?_, hself, rfl, rfl, rfl, ?_⟩, Finmap.lookup_insert _⟩
  · change b₂.device.qpNum h = ((b.device.qpNum (b.device.next + 2)).toUInt64).toUInt32
    rw [hnum, hh]
    simp
  · rw [UInt32.toNat_toUInt16, Nat.mod_eq_of_lt hlid]

/-- **A sound request to connect** is answered truthfully, or refused. -/
theorem wp_connectQueue_sound (hinv : Inv s) (hsound : Sound s (.rdmaConnRequest req)) :
    wp (connectQueue req)
      (fun connResp s' => Steps s s' ∧ ∀ resp, connResp = some resp → Truthful s' req resp)
      (fun _ s' => Steps s s') s := by
  have hs := hinv.placed
  have hstay : ∀ flags, Steps s { s with nodeIDsQPs := flags } :=
    fun flags => ⟨⟨hs, fun _ hsettled => hsettled⟩, rfl⟩
  refine wp_connectQueue rfl (fun flags _ _ _ => ⟨hstay flags, by simp⟩) (fun flags _ hgo => ?_)
    fun _ flags _ => hstay flags
  -- the queue pair of the node is not set up over a live one
  have hfree : ∀ b₁, ReliableRDMA.Initialized s.base req.nodeid.toNat b₁ →
      req.lid.toNat < 2 ^ 16 ∧ req.nodeid.toNat ∉ s.base.connected ∧
        ∀ h, (s.base.qpAt req.nodeid.toNat).qp = some h → s.base.device.qps h = none := by
    intro b₁ hinit
    rcases hsound with hback | ⟨k, hk, herr⟩ | hfree
    · exact absurd hback hgo
    · exact absurd (hinit.errno k hk) herr
    · exact hfree
  have honward : ∀ b₁ b₂ conn, ReliableRDMA.Initialized s.base req.nodeid.toNat b₁ →
      Rerouted b₁ req.nodeid.toNat conn b₂ → s.base.Onward b₂ := by
    intro b₁ b₂ conn hinit hrerouted
    have hfirst := onward_initialized hs hinit (hfree b₁ hinit).2.2
    rw [hrerouted.eq]
    exact hfirst
  refine wp_setUpQueue hinv.srq (fun e d _ hgrown => ?_) (fun b₁ b₂ hinit _ hin => ?_)
    (fun b₁ b₂ h old hinit hrerouted hout hable => ⟨⟨?_, rfl⟩, fun resp hresp => ?_⟩)
    fun b₁ b₂ e d hinit hrerouted _ _ hmoved => ?_
  · have hkept : Steps s (RDMAServer.withBase { s with nodeIDsQPs := flags }
        { s.base with device := d }) := ⟨onward_grown hs hgrown, rfl⟩
    exact ⟨⟨hkept, by simp⟩, hkept⟩
  · exact absurd hin (hfree b₁ hinit).2.1
  · exact (honward b₁ b₂ _ hinit hrerouted).trans
      (onward_connectedTo (honward b₁ b₂ _ hinit hrerouted).1 old)
  · obtain rfl := Option.some.inj hresp
    exact truthful_connectedTo hinit hrerouted hable (hfree b₁ hinit).1
  · have hon := honward b₁ b₂ _ hinit hrerouted
    have hkept : Steps s (RDMAServer.withBase { s with nodeIDsQPs := flags }
        { b₂ with device := d }) := ⟨hon.trans (onward_moved hon.1 hmoved), rfl⟩
    exact ⟨⟨hkept, by simp⟩, hkept⟩

/-! ## Every run -/

theorem Fresh.inv (hinit : Fresh s) : Inv s := by
  obtain ⟨⟨errno, qpNum, pointer, rkey, lid, stack, hapi⟩, -, hsrq⟩ := hinit
  refine ⟨fun i h hqp => ?_, hsrq⟩
  change ((RdmaApi.base s.api).qpAt i).qp = some h at hqp
  rw [hapi] at hqp
  simp [RdmaApi.base, ReliableRDMA.fresh, ReliableRDMA.blank, qpAt, IbQp.null] at hqp

/-- **A sound request keeps what was settled settled.** -/
theorem Inv.steps (hinv : Inv s) {request : Request} (hsound : Sound s request) :
    Steps s (handle request s).2 := by
  cases request with
  | rdmaConnRequest req =>
      refine wp_snd.mp ?_
      unfold handle
      simp only [wp_bind]
      refine wp_mono (wp_connectQueue_sound hinv hsound) (fun connResp s' hdone => ?_) fun _ _ h => h
      cases connResp <;> exact hdone.1
  | memoryResourceRequest reqMsg =>
      refine wp_snd.mp ?_
      unfold handle
      simp only [wp_bind, wp_zoom, wp_pure]
      refine wp_mono ((wp_snd (I := fun _ => True)).mpr trivial) (fun _ _ _ => ?_) fun _ _ _ => ?_
      · exact ⟨⟨hinv.placed, fun _ hsettled => hsettled⟩, rfl⟩
      · exact ⟨⟨hinv.placed, fun _ hsettled => hsettled⟩, rfl⟩
  | rdmaConnDisconnect nodeid =>
      refine wp_snd.mp ?_
      unfold handle
      simp only [wp_bind, wp_pure]
      rw [wp_onBase]
      exact wp_mono (wp_disconnectQP_onward hinv.placed) (fun _ _ h => ⟨h, rfl⟩) fun _ _ h => ⟨h, rfl⟩
  | nodeIDRequest | getNodeIDForIpPortRequest | getAllNodeIDsRequest | unknown =>
      exact ⟨⟨hinv.placed, fun _ hsettled => hsettled⟩, rfl⟩

theorem invariant_soundRuns : soundRuns.Invariant Inv where
  init _ := Fresh.inv
  step s request s' _ hinv hstep := by
    obtain ⟨hsound, rfl⟩ := hstep
    exact (hinv.steps hsound).inv hinv

/-- What a visited state settled stays settled. -/
theorem settled_of_leads {h : ℕ} (hreach : soundRuns.Reachable s₀) (hleads : soundRuns.Leads s₀ s)
    (hsettled : s₀.base.Settled h) : s.base.Settled h := by
  refine System.Leads.keeps (I := fun s => s.base.Settled h) hreach
    (fun a request b ha hkept hstep => ?_) hleads hsettled
  obtain ⟨hsound, rfl⟩ := hstep
  exact ((invariant_soundRuns.reachable ha).steps hsound).onward.2 h hkept

/-- **A connection response is never a lie**: its queue pair stands in the
table, connected to that of the request, and every queue pair that stood
there for the node before is dead or still referred to. -/
theorem response_truthful (hreach : soundRuns.Reachable s₀) (hleads : soundRuns.Leads s₀ s)
    (hsound : Sound s (.rdmaConnRequest req))
    (hresp : (handle (.rdmaConnRequest req) s).1 = .ok (.rdmaConnResponse resp)) :
    Truthful (handle (.rdmaConnRequest req) s).2 req resp ∧
      ∀ h, (s₀.base.qpAt req.nodeid.toNat).qp = some h →
        (handle (.rdmaConnRequest req) s).2.base.Settled h := by
  have hinv := invariant_soundRuns.reachable (hreach.leads hleads)
  refine ⟨?_, fun h hqp => ?_⟩
  · have hdone : wp (handle (.rdmaConnRequest req))
        (fun response s' => ∀ resp, response = .rdmaConnResponse resp → Truthful s' req resp)
        (fun _ _ => True) s := by
      unfold handle
      simp only [wp_bind]
      refine wp_mono (wp_connectQueue_sound hinv hsound) (fun connResp s' hdone => ?_)
        fun _ _ _ => trivial
      cases connResp with
      | none => exact fun resp hbad => by simp at hbad
      | some connResp =>
          intro resp heq
          exact hdone.2 resp (by rw [Response.rdmaConnResponse.inj heq])
    rcases hx : handle (.rdmaConnRequest req) s with ⟨e | response, s'⟩
    · rw [hx] at hresp
      simp at hresp
    · rw [hx] at hresp
      exact wp_ok hdone hx resp (Except.ok.inj hresp)
  · have hsettled := settled_of_leads (h := h) hreach hleads (Or.inr ⟨_, hqp⟩)
    exact (hinv.steps hsound).onward.2 h hsettled

/-! ## Two runs -/

/-- A newly constructed server with node id `1`, on a device that never
fails. -/
def steadyServer : RDMAServer ReliableRDMA where
  api := ReliableRDMA.fresh
    (ReliableRDMA.blank (Device.opened (fun _ => 0) fun h => h.toUInt32) 4096 7 1 IbConn.zero)
  ownNodeID := 1
  nodeIDsConnection := []
  nodeIDsQPs := []
  connections := ∅
  name := "RDMAServer"
  ownIpPort := "10.0.0.1:5200"
  nodeType := .server
  sequencerIpPort := "10.0.0.1:5600"
  sockets := ∅
  buffer := BaseMemory.new 4096 64
  currentSRQ := sizeMax

theorem steadyServer_fresh : Fresh steadyServer := ⟨⟨_, _, _, _, _, _, rfl⟩, rfl, rfl⟩

/-- A request of node `2`. -/
def connReq : RDMAConnRequest := ⟨8192, 3, 5, 9, Vector.replicate 16 0, 0, 2⟩

/-- The server after requests. -/
def after (requests : List Request) : RDMAServer ReliableRDMA :=
  requests.foldl (fun s request => (handle request s).2) steadyServer

/-- The response in an answer. -/
def responded : Except Exn Response → Option RDMAConnResponse
  | .ok (.rdmaConnResponse resp) => some resp
  | _ => none

theorem eq_of_responded {answer : Except Exn Response} (h : responded answer = some resp) :
    answer = .ok (.rdmaConnResponse resp) := by
  unfold responded at h
  split at h
  · rw [Option.some.inj h]
  · simp at h

/-- What the server answers to the first request of a node. -/
def connResp : RDMAConnResponse := ⟨4096, 7, 2, 1, 0, Vector.replicate 16 0⟩

/-- The first request of a node is answered truthfully. -/
theorem response_truthful_first :
    Truthful (handle (.rdmaConnRequest connReq) steadyServer).2 connReq connResp :=
  (response_truthful (System.Reachable.init steadyServer_fresh) (System.Leads.refl _)
    (Or.inr (Or.inr (by decide +kernel))) (eq_of_responded (by decide +kernel))).1

/-- What the server answers when node `2` connects again: the
number of the second queue pair it made. -/
def reconnResp : RDMAConnResponse := ⟨4096, 7, 5, 1, 0, Vector.replicate 16 0⟩

/-- A node connects, disconnects and connects again: the response names a
queue pair that is not connected. -/
theorem response_not_truthful :
    runs.Reachable (after [.rdmaConnRequest connReq, .rdmaConnDisconnect 2]) ∧
      (handle (.rdmaConnRequest connReq)
        (after [.rdmaConnRequest connReq, .rdmaConnDisconnect 2])).1 =
          .ok (.rdmaConnResponse reconnResp) ∧
      ¬ Truthful (handle (.rdmaConnRequest connReq)
        (after [.rdmaConnRequest connReq, .rdmaConnDisconnect 2])).2 connReq reconnResp := by
  refine ⟨?_, eq_of_responded (by decide +kernel), fun htruth => ?_⟩
  · exact ((System.Reachable.init steadyServer_fresh).step (l := .rdmaConnRequest connReq) rfl).step
      (l := .rdmaConnDisconnect 2) rfl
  · exact absurd htruth.connected (by decide +kernel)

end RDMAServer

end RdmaManager
