import RdmaManager.Node.ReliableLinks
import RdmaManager.Node.Responses
import RdmaManager.Rdma.ReliableReconnect
/-!
# A server in use

While its handler answers one message after the other, the owner of a
server over reliable connections calls `connect` from any number of
threads, turns shared receive queues on and off and calls the functions
of its RDMA object. In every state that is reached so, the handles in
`m_qps` are ones that the device has given out (`placed_of_reachable`):
a queue pair that is made stands under no id yet.
-/

namespace RdmaManager

open Act BaseRDMA Device

/-- What the owner of a server calls besides `connect`. -/
inductive OwnerCall
  | createSharedReceiveQueue
  | activateSRQ (srqID : ℕ)
  | deactiveSRQ
  | initQPForSRQWithSuppliedID (srqId id : ℕ)
  | destroyQPs
  | onTables (call : ConnCall)

namespace RDMAServer

/-- `RDMAServer::activateSRQ`. -/
def activateSRQ (srqID : ℕ) (s : RDMAServer ReliableRDMA) : RDMAServer ReliableRDMA :=
  { s with currentSRQ := srqID }

/-- `RDMAServer::deactiveSRQ`. -/
def deactiveSRQ (s : RDMAServer ReliableRDMA) : RDMAServer ReliableRDMA :=
  { s with currentSRQ := sizeMax }

/-- The server after a call of its owner's. -/
def call (s : RDMAServer ReliableRDMA) : OwnerCall → RDMAServer ReliableRDMA
  | .createSharedReceiveQueue => (onApi ReliableRDMA.createSharedReceiveQueue s).2
  | .activateSRQ srqID => s.activateSRQ srqID
  | .deactiveSRQ => s.deactiveSRQ
  | .initQPForSRQWithSuppliedID srqId id =>
      (onApi (ReliableRDMA.initQPForSRQWithSuppliedID srqId id) s).2
  | .destroyQPs => (onApi ReliableRDMA.destroyQPs s).2
  | .onTables call => s.withBase (ReliableRDMA.exec s.base call)

end RDMAServer

/-- **A server in use**, with the calls of `connect` that were made. -/
structure InUse where
  server : RDMAServer ReliableRDMA
  calls : List Call

/-- What happens to it. -/
inductive UseEvent
  | connect (ipPort : String) (retServerNodeID : UInt64)
  /-- A call of `connect` goes on to its next stage. -/
  | advance (i : ℕ) (fault : Option Exn)
  /-- The message of a call is answered. -/
  | answer (i : ℕ) (reply : Except Exn Response)
  | handle (request : Request)
  | owner (call : OwnerCall)

namespace InUse

/-- A call goes on by a piece. -/
def goOn (s : InUse) (i : ℕ) (piece : Call → Act (RDMAClient ReliableRDMA) Call) : InUse :=
  match s.calls[i]? with
  | none => s
  | some call =>
      let next := call.run (piece call) s.server.toRDMAClient
      ⟨{ s.server with toRDMAClient := next.2 }, s.calls.set i next.1⟩

/-- The state after an event. -/
def exec (retries : ℕ) (s : InUse) : UseEvent → InUse
  | .connect ipPort ret => { s with calls := s.calls ++ [Call.enter ipPort ret] }
  | .advance i fault => s.goOn i fun call => call.advance fault
  | .answer i reply => s.goOn i fun call => call.receive retries reply
  | .handle request => { s with server := (RDMAServer.handle request s.server).2 }
  | .owner call => { s with server := s.server.call call }

/-- The histories of a server in use. -/
def usage (retries : ℕ) : System InUse UseEvent where
  Init s := s.server.Fresh ∧ s.calls = []
  Step s event s' := s' = s.exec retries event

end InUse

/-! ## What keeps the handles -/

namespace BaseRDMA

variable {n id : ℕ} {b b' : BaseRDMA}

/-- The device has given out `n` handles and those in the table. -/
def Within (n : ℕ) (b : BaseRDMA) : Prop := b.Placed ∧ n ≤ b.device.next

theorem Within.stays (hb : b.Within n) (hstays : b.Stays b') : b'.Within n := by
  refine ⟨fun i h hqp => ?_, hb.2.trans hstays.next⟩
  rw [hstays.qpAt] at hqp
  exact lt_of_lt_of_le (hb.1 i h hqp) hstays.next

theorem Within.parted (hb : b.Within n) (hparted : b.Parted id b') : b'.Within n :=
  ⟨fun i h hqp => lt_of_lt_of_le (hb.1 i h (hparted.qpAt i h hqp)) hparted.next,
    hb.2.trans hparted.next⟩

theorem Within.entered (hb : b.Within n) (hentered : b.Entered id b') : b'.Within n := by
  obtain ⟨qp, new, hqp, -, hlive, hqpAt⟩ := hentered.qpAt
  refine ⟨fun i h hi => ?_, hb.2.trans hentered.grown.next⟩
  rw [hqpAt] at hi
  split_ifs at hi
  · obtain rfl := Option.some.inj (hqp.symm.trans hi)
    by_contra hge
    exact hlive (b'.device.fresh new (by omega)).1
  · exact lt_of_lt_of_le (hb.1 i h hi) hentered.grown.next

/-- A queue pair of a handle that was given out is entered. -/
theorem Within.set {h : ℕ} {qp : IbQp} (hb : b.Within n) (hqp : qp.qp = some h) (hlt : h < n)
    (hset : QpSet b id qp b') : b'.Within n := by
  unfold Within
  rw [hset.device]
  refine ⟨fun i h' hi => ?_, hb.2⟩
  rw [hset.device]
  rw [hset.qpAt] at hi
  split_ifs at hi
  · obtain rfl := Option.some.inj (hqp.symm.trans hi)
    exact lt_of_lt_of_le hlt hb.2
  · exact hb.1 i h' hi

/-- A call of the device that takes no handle back. -/
theorem within_onDevice {α : Type} {x : Act Device α} (hx : ∀ m, Preserves (fun d => m ≤ d.next) x) :
    Preserves (Within n) (onDevice x) := by
  intro b hb
  have hstays : ∀ d, b.device.next ≤ d.next → Within n { b with device := d } :=
    fun d hd => ⟨fun i h hqp => lt_of_lt_of_le (hb.1 i h hqp) hd, hb.2.trans hd⟩
  rw [wp_onDevice]
  exact wp_mono (hx _ b.device le_rfl) (fun _ d hd => hstays d hd) fun _ d hd => hstays d hd

theorem within_setLocalConnData (conn : IbConn) : Preserves (Within n) (setLocalConnData id conn) :=
  fun _ hb => wp_setLocalConnData (fun _ _ _ => hb) fun _ _ => hb

theorem within_setRemoteConnData (conn : IbConn) : Preserves (Within n) (setRemoteConnData id conn) :=
  fun _ hb => wp_setRemoteConnData (fun _ _ _ _ => hb) fun _ _ => hb

end BaseRDMA

namespace Device

variable {m : ℕ}

theorem preserves_ibvCreateCq : Preserves (fun d => m ≤ d.next) ibvCreateCq := by
  intro d hd
  rw [wp_ibvCreateCq]
  exact ⟨fun _ => Nat.le_succ_of_le hd, fun _ => hd⟩

theorem preserves_ibvCreateSrq : Preserves (fun d => m ≤ d.next) ibvCreateSrq := by
  intro d hd
  rw [wp_ibvCreateSrq]
  exact ⟨fun _ => Nat.le_succ_of_le hd, fun _ => hd⟩

/-- Destroying an object takes no handle back. -/
theorem preserves_destroyWith {live busy : Device → ℕ → Bool} {drop : Device → ℕ → Device}
    (hdrop : ∀ d h, (drop d h).next = d.next) (handle : Option ℕ) :
    Preserves (fun d => m ≤ d.next) (destroyWith live busy drop handle) := by
  intro d hd
  unfold wp destroyWith
  cases handle with
  | none => exact hd
  | some h =>
      have hdropped : m ≤ (drop d.tick h).next := by
        rw [hdrop]
        exact hd
      simp only
      split_ifs
      · exact hd
      · exact hdropped
      · exact hd
      · exact hdropped

theorem preserves_ibvDestroyQp (handle : Option ℕ) :
    Preserves (fun d => m ≤ d.next) (ibvDestroyQp handle) :=
  preserves_destroyWith (dropQp_next · ·) handle

theorem preserves_ibvDestroySrq (handle : Option ℕ) :
    Preserves (fun d => m ≤ d.next) (ibvDestroySrq handle) :=
  preserves_destroyWith (dropSrq_next · ·) handle

theorem preserves_destroyCQ (c c' : Option ℕ) : Preserves (fun d => m ≤ d.next) (destroyCQ c c') := by
  intro d hd
  have hreaped : ∀ d', d.Reaped d' → m ≤ d'.next := by
    intro d' hd'
    rw [hd'.next]
    exact hd
  exact wp_destroyCQ_frame hreaped fun _ => hreaped

end Device

namespace ReliableRDMA

variable {n id : ℕ}

theorem within_initQPWithSuppliedID : Preserves (Within n) (initQPWithSuppliedID id) := by
  intro b hb
  refine wp_initQPWithSuppliedID (fun b' hinit => hb.entered hinit.entered) fun e d _ hgrown => ?_
  exact hb.stays (Stays.of_device hgrown.keeps hgrown.next)

theorem within_initQP : Preserves (Within n) initQP := by
  intro b hb
  unfold initQP
  simp only [wp_bind, wp_get, wp_pure]
  exact wp_mono (within_initQPWithSuppliedID b hb) (fun _ _ h => h) fun _ _ h => h

theorem within_initQPForSRQWithSuppliedID (k : ℕ) :
    Preserves (fun o : ReliableRDMA => Within n o.toBaseRDMA) (initQPForSRQWithSuppliedID k id) := by
  intro o ho
  refine wp_initQPForSRQWithSuppliedID_frame (fun o' hentered => ho.entered hentered) ?_
  intro e o' d hgrown heq
  rw [heq]
  exact ho.stays (Stays.of_device hgrown.keeps hgrown.next)

theorem within_connectQP : Preserves (Within n) (connectQP id) := by
  intro b hb
  refine wp_connectQP (fun _ => hb) (fun h old _ _ => ⟨hb.1, hb.2⟩) (fun e d _ _ hmoved => ?_)
    fun e _ _ => ⟨hb, hb.1, hb.2⟩
  exact hb.stays (Stays.of_device hmoved.keeps hmoved.next.ge)

theorem within_disconnectQP : Preserves (Within n) (disconnectQP id) := by
  intro b hb
  exact wp_disconnectQP_parted (fun _ => hb) (fun b' _ hparted => hb.parted hparted)
    fun e b' _ hparted => hb.parted hparted

/-- A function of the base class. -/
theorem within_onBase {α : Type} {x : Act BaseRDMA α} (hx : Preserves (Within n) x) :
    Preserves (fun o : ReliableRDMA => Within n o.toBaseRDMA) (onBase x) :=
  hx.zoom (fun _ ho => ho) fun _ _ _ hs => hs

theorem within_createSharedReceiveQueue :
    Preserves (fun o : ReliableRDMA => Within n o.toBaseRDMA) createSharedReceiveQueue := by
  unfold createSharedReceiveQueue
  refine (within_onBase (within_onDevice fun _ => preserves_ibvCreateSrq)).bind fun sharedRq => ?_
  refine preserves_guard ?_
  refine (within_onBase (within_onDevice fun _ => preserves_ibvCreateCq)).bind fun recvCq => ?_
  refine preserves_guard (preserves_get.bind fun o => ?_)
  refine Preserves.bind ?_ fun _ => preserves_pure _
  exact preserves_modify fun _ ho => ho

/-- The loop over the queue pairs. -/
theorem within_destroyQPsFrom (k i : ℕ) : Preserves (Within n) (destroyQPsFrom i k) := by
  induction k generalizing i with
  | zero => exact preserves_pure ()
  | succ k ih =>
      unfold destroyQPsFrom
      refine preserves_get.bind fun s => ?_
      refine Preserves.ite ?_ (ih (i + 1))
      refine (within_onDevice fun _ => preserves_ibvDestroyQp _).bind fun err => preserves_guard ?_
      refine (preserves_modify fun b hb => ?_).bind fun _ =>
        (within_onDevice fun _ => preserves_destroyCQ _ _).bind fun _ => ih (i + 1)
      -- the entry is emptied
      refine ⟨fun j h hqp => ?_, hb.2⟩
      change ((b.qps.set i { s.qpAt i with qp := none }).getD j IbQp.null).qp = some h at hqp
      rcases lt_or_ge i b.qps.length with hlt | hge
      · rw [getD_set hlt] at hqp
        split_ifs at hqp
        exact hb.1 j h hqp
      · rw [List.set_eq_of_length_le hge] at hqp
        exact hb.1 j h hqp

/-- The loop over the shared receive queues. -/
theorem within_destroySrqs (srqs : Finmap fun _ : ℕ => SharedRq) (keys : List ℕ) :
    Preserves (Within n) (destroySrqs srqs keys) := by
  induction keys with
  | nil => exact preserves_pure ()
  | cons k keys ih =>
      unfold destroySrqs
      refine (within_onDevice fun _ => preserves_ibvDestroySrq _).bind fun err => ?_
      exact preserves_guard ih

theorem within_destroyQPs :
    Preserves (fun o : ReliableRDMA => Within n o.toBaseRDMA) destroyQPs := by
  unfold destroyQPs
  refine preserves_get.bind fun o => ?_
  refine (within_onBase (within_destroyQPsFrom _ 0)).bind fun _ => ?_
  refine Preserves.bind ?_ fun _ => ?_
  · refine preserves_modify fun o' ho' => ⟨fun i h hqp => ?_, ho'.2⟩
    simp [qpAt, IbQp.null] at hqp
  · refine preserves_get.bind fun o' => ?_
    exact (within_onBase (within_destroySrqs _ _)).bind fun _ => preserves_modify fun _ ho' => ho'

theorem within_exec {b : BaseRDMA} (hb : b.Within n) (call : ConnCall) : (exec b call).Within n := by
  cases call with
  | initQP => exact within_initQP.snd hb
  | initQPWithSuppliedID id => exact within_initQPWithSuppliedID.snd hb
  | setRemoteConnData id conn => exact (within_setRemoteConnData conn).snd hb
  | connectQP id => exact within_connectQP.snd hb
  | disconnectQP id => exact within_disconnectQP.snd hb

end ReliableRDMA

/-! ## The handler -/

namespace RDMAServer

variable {n : ℕ}

/-- The tables of a server. -/
theorem within_onTables {α : Type} {x : Act BaseRDMA α} (hx : Preserves (Within n) x) :
    Preserves (fun s : RDMAServer ReliableRDMA => Within n s.base) (onApi (RdmaApi.onBase x)) := by
  intro s hs
  rw [wp_onBase]
  exact wp_mono (hx s.base hs) (fun _ _ h => h) fun _ _ h => h

theorem within_onApi {α : Type} {x : Act ReliableRDMA α}
    (hx : Preserves (fun o : ReliableRDMA => Within n o.toBaseRDMA) x) :
    Preserves (fun s : RDMAServer ReliableRDMA => Within n s.base) (onApi x) := by
  intro s hs
  rw [wp_onApi]
  exact wp_mono (hx s.api hs) (fun _ _ h => h) fun _ _ h => h

theorem within_initQP (nodeID : ℕ) :
    Preserves (fun s : RDMAServer ReliableRDMA => Within n s.base) (initQP nodeID) := by
  unfold initQP
  refine preserves_get.bind fun s => Preserves.ite ?_ ?_
  · exact within_onApi (ReliableRDMA.within_onBase ReliableRDMA.within_initQPWithSuppliedID)
  · exact within_onApi (ReliableRDMA.within_initQPForSRQWithSuppliedID _)

theorem within_connectQueue (req : RDMAConnRequest) :
    Preserves (fun s : RDMAServer ReliableRDMA => Within n s.base) (connectQueue req) := by
  unfold connectQueue
  refine Preserves.bind ?_ fun flag => preserves_get.bind fun s => (preserves_pure none).ite ?_
  · intro s hs
    rw [wp_onClient]
    exact RDMAClient.wp_markNodeID (fun _ _ => hs) fun _ _ _ => hs
  · unfold setUpQueue
    refine (within_initQP _).attempt.bind fun initialised => (preserves_pure none).ite ?_
    refine preserves_get.bind fun s => ?_
    refine (within_onTables (within_setRemoteConnData _)).bind fun _ => ?_
    refine (within_onTables ReliableRDMA.within_connectQP).attempt.bind fun connected => ?_
    refine (preserves_pure none).ite (preserves_get.bind fun s => ?_)
    exact (preserves_element _ _ _).bind fun _ => preserves_pure _

/-- **Any message.** -/
theorem within_handle (request : Request) :
    Preserves (fun s : RDMAServer ReliableRDMA => Within n s.base) (handle request) := by
  cases request with
  | rdmaConnRequest req =>
      unfold handle
      refine (within_connectQueue req).bind fun connResp => ?_
      cases connResp <;> exact preserves_pure _
  | memoryResourceRequest reqMsg =>
      unfold handle
      refine Preserves.bind ?_ fun respMsg => preserves_pure _
      intro s hs
      rw [wp_zoom]
      exact wp_mono (preserves_true _ _ trivial) (fun _ _ _ => hs) fun _ _ _ => hs
  | rdmaConnDisconnect nodeid =>
      unfold handle
      exact (within_onTables ReliableRDMA.within_disconnectQP).bind fun _ => preserves_pure _
  | nodeIDRequest | getNodeIDForIpPortRequest | getAllNodeIDsRequest | unknown =>
      exact preserves_pure _

theorem within_call {s : RDMAServer ReliableRDMA} (hs : Within n s.base) (call : OwnerCall) :
    Within n (s.call call).base := by
  cases call with
  | createSharedReceiveQueue => exact (within_onApi ReliableRDMA.within_createSharedReceiveQueue).snd hs
  | activateSRQ srqID => exact hs
  | deactiveSRQ => exact hs
  | initQPForSRQWithSuppliedID srqId id =>
      exact (within_onApi (ReliableRDMA.within_initQPForSRQWithSuppliedID srqId)).snd hs
  | destroyQPs => exact (within_onApi ReliableRDMA.within_destroyQPs).snd hs
  | onTables call => exact ReliableRDMA.within_exec hs call

end RDMAServer

/-! ## The calls of `connect` -/

/-- The queue pair that a call has made and not entered yet. -/
def Call.pair (call : Call) : Option IbQp :=
  match call.stage with
  | .requesting _ qpPt _ => some qpPt
  | .settingQP qpPt _ _ => some qpPt
  | _ => none

/-- Its handle is one of the first `n`. -/
def Call.Holds (n : ℕ) (call : Call) : Prop := ∀ qp ∈ call.pair, ∃ h, qp.qp = some h ∧ h < n

namespace RDMAClient

variable {n : ℕ} {s : RDMAClient ReliableRDMA} {call : Call}

theorem within_onTables {α : Type} {x : Act BaseRDMA α} (hx : Preserves (Within n) x) :
    Preserves (fun s : RDMAClient ReliableRDMA => Within n s.base) (onApi (RdmaApi.onBase x)) := by
  intro s hs
  rw [wp_onApi, RdmaApi.wp_onBase]
  exact wp_mono (hx s.base hs) (fun _ _ h => h) fun _ _ h => h

/-- The exits of a piece of a call. -/
def Goes (n : ℕ) (x : Act (RDMAClient ReliableRDMA) Call) (s : RDMAClient ReliableRDMA) : Prop :=
  wp x (fun call' s' => Within n s'.base ∧ call'.Holds s'.base.device.next)
    (fun _ s' => Within n s'.base) s

theorem holds_of_pair_none {call : Call} {m : ℕ} (h : call.pair = none) : call.Holds m := by
  intro qp hqp
  rw [h] at hqp
  simp at hqp

/-- A call that holds no queue pair afterwards. -/
theorem goes_bind {α : Type} {x : Act (RDMAClient ReliableRDMA) α} {next : α → Call}
    (hx : Preserves (fun s : RDMAClient ReliableRDMA => Within n s.base) x)
    (hs : Within n s.base) (hnext : ∀ a, (next a).pair = none) :
    Goes n (do let a ← x; return next a) s := by
  unfold Goes
  rw [wp_bind]
  exact wp_mono (hx s hs) (fun a s' hs' => ⟨hs', holds_of_pair_none (hnext a)⟩) fun _ _ hs' => hs'

theorem within_connectProto (fault : Option Exn) (connection : String) :
    Preserves (fun s : RDMAClient ReliableRDMA => Within n s.base) (connectProto fault connection) :=
  fun _ hs => wp_connectProto (fun _ => hs) (fun _ _ => hs) fun _ _ => hs

/-- **A stage of a call.** -/
theorem goes_advance (hs : Within n s.base) (hcall : call.Holds n) (fault : Option Exn) :
    Goes n (call.advance fault) s := by
  have hdone : ∀ {next : Call}, next.pair = none →
      Within n s.base ∧ next.Holds s.base.device.next := fun h => ⟨hs, holds_of_pair_none h⟩
  obtain ⟨ipPort, ret, stage⟩ := call
  cases stage with
  | entered =>
      unfold Goes Call.advance
      simp only [wp_bind, wp_get, wp_ite, wp_pure]
      refine ⟨fun _ => hdone rfl, fun _ => ?_⟩
      exact wp_mono ((within_connectProto fault _).rethrow s hs)
        (fun _ _ hs' => ⟨hs', holds_of_pair_none rfl⟩) fun _ _ hs' => hs'
  | identified =>
      unfold Goes Call.advance
      simp only [wp_bind, wp_get, wp_ite, wp_pure, wp_modify]
      refine ⟨fun _ => hdone rfl, fun _ => ?_⟩
      exact wp_mono (within_connectProto fault _ s hs)
        (fun _ _ hs' => ⟨hs', holds_of_pair_none rfl⟩) fun _ _ hs' => hs'
  | lookedUp =>
      unfold Goes Call.advance
      simp only [wp_bind, wp_get]
      split
      · exact hs
      · exact hdone rfl
  | marking =>
      unfold Goes Call.advance
      simp only [wp_bind, wp_ite, wp_pure]
      refine wp_markNodeID (fun _ _ => ⟨fun _ => hdone rfl, fun _ => hdone rfl⟩) fun _ _ _ => hs
  | initializing =>
      -- the queue pair that is made is the newest object but none
      unfold Goes Call.advance
      simp only [wp_bind, wp_get, wp_pure, wp_onApi]
      change wp (do
        let made ← ReliableRDMA.onBase (ReliableRDMA.initQPDetached IbQp.null s.base.stack)
        return (made.1, made.1, made.2)) _ _ s.api
      simp only [wp_bind, wp_pure, ReliableRDMA.wp_onBase]
      have hgrown := grown_queuePair s.base.device s.base.qpType
      refine ReliableRDMA.wp_initQPDetached (fun _ => ⟨?_, ?_⟩) fun e d _ hd => ?_
      · exact hs.stays (Stays.of_device hgrown.keeps hgrown.next)
      · intro qp hqp
        obtain rfl := Option.some.inj hqp
        exact ⟨_, rfl, Nat.lt_succ_self _⟩
      · exact hs.stays (Stays.of_device hd.keeps hd.next)
  | settingQP qpPt localConn remoteConn =>
      obtain ⟨h, hqp, hlt⟩ := hcall qpPt rfl
      unfold Goes Call.advance
      simp only [wp_bind, wp_pure, wp_onApi, RdmaApi.wp_onBase]
      exact wp_setQP hqp (fun b' hset => ⟨hs.set hqp hlt hset, holds_of_pair_none rfl⟩) fun _ _ => hs
  | settingLocalConnData localConn remoteConn =>
      exact goes_bind (within_onTables (within_setLocalConnData _)) hs fun _ => rfl
  | settingRemoteConnData remoteConn =>
      exact goes_bind (within_onTables (within_setRemoteConnData _)) hs fun _ => rfl
  | connecting => exact goes_bind (within_onTables ReliableRDMA.within_connectQP) hs fun _ => rfl
  | destroyingQP qp =>
      unfold Goes Call.advance
      simp only [wp_bind, wp_ite, wp_pure, wp_throw]
      refine wp_mono (within_onTables (within_onDevice fun _ => preserves_ibvDestroyQp _) s hs) ?_
        fun _ _ hs' => hs'
      exact fun _ _ hs' => ⟨fun _ => hs', fun _ => ⟨hs', holds_of_pair_none rfl⟩⟩
  | destroyingCQ qp =>
      exact goes_bind (within_onTables (within_onDevice fun _ => preserves_destroyCQ _ _)) hs
        fun _ => rfl
  | _ =>
      refine ⟨hs, fun qp hqp => ?_⟩
      obtain ⟨h, heq, hlt⟩ := hcall qp hqp
      exact ⟨h, heq, lt_of_lt_of_le hlt hs.2⟩

/-- **An answer.** -/
theorem goes_receive (hs : Within n s.base) (hcall : call.Holds n) (retries : ℕ)
    (reply : Except Exn Response) : Goes n (call.receive retries reply) s := by
  have hdone : ∀ {next : Call}, next.pair = none →
      Within n s.base ∧ next.Holds s.base.device.next := fun h => ⟨hs, holds_of_pair_none h⟩
  have hheld : ∀ {next : Call}, (∀ qp ∈ next.pair, qp ∈ call.pair) →
      Within n s.base ∧ next.Holds s.base.device.next := by
    refine fun hpair => ⟨hs, fun qp hqp => ?_⟩
    obtain ⟨h, heq, hlt⟩ := hcall qp (hpair qp hqp)
    exact ⟨h, heq, lt_of_lt_of_le hlt hs.2⟩
  obtain ⟨ipPort, ret, stage⟩ := call
  cases stage with
  | requestingNodeID =>
      unfold Goes Call.receive
      simp only [wp_bind]
      refine wp_rethrow (wp_exchangeProtoMsg (fun response _ _ => ?_) fun _ _ => hs)
      split
      · exact hdone rfl
      · exact hs
  | lookingUp retry =>
      have hloop : ∀ i connResp, Goes n
          (Act.ofExcept (Call.lookUp retries i connResp ⟨ipPort, ret, .lookingUp retry⟩)) s := by
        intro i connResp
        unfold Goes Call.lookUp Act.ofExcept
        split_ifs
        · exact hdone rfl
        · exact hdone rfl
        · exact hs
        · exact hdone rfl
      unfold Goes Call.receive
      simp only [wp_bind]
      refine wp_exchangeProtoMsg (fun response _ _ => ?_) fun _ => hs
      split
      · exact hloop _ _
      · exact hs
      · exact hloop _ _
      · exact hloop _ _
  | requesting qp qpPt localConn =>
      unfold Goes Call.receive
      simp only [wp_bind]
      refine wp_exchangeProtoMsg (fun response _ _ => ?_) fun _ => hs
      split
      · exact hheld fun _ hqp => hqp
      · exact hdone rfl
  | _ => exact hheld fun _ hqp => hqp

end RDMAClient

/-! ## Every state -/

namespace InUse

variable {s : InUse} {retries : ℕ}

/-- The handles in the table and those of the calls have been given out. -/
def Given (s : InUse) : Prop :=
  s.server.base.Placed ∧ ∀ call ∈ s.calls, call.Holds s.server.base.device.next

theorem holds_mono {call : Call} {m n : ℕ} (h : call.Holds m) (hle : m ≤ n) : call.Holds n := by
  intro qp hqp
  obtain ⟨i, heq, hlt⟩ := h qp hqp
  exact ⟨i, heq, lt_of_lt_of_le hlt hle⟩

/-- The server changes, and takes no handle back. -/
theorem Given.of_within {server : RDMAServer ReliableRDMA} (hs : s.Given)
    (hserver : Within s.server.base.device.next server.base) : Given { s with server } :=
  ⟨hserver.1, fun call hcall => holds_mono (hs.2 call hcall) hserver.2⟩

theorem Given.goOn (hs : s.Given) (i : ℕ) {piece : Call → Act (RDMAClient ReliableRDMA) Call}
    (hpiece : ∀ call, call.Holds s.server.base.device.next →
      RDMAClient.Goes s.server.base.device.next (piece call) s.server.toRDMAClient) :
    (s.goOn i piece).Given := by
  unfold InUse.goOn
  split
  · exact hs
  · rename_i call hcall
    have hgoes := hpiece call (hs.2 call (List.mem_of_getElem? hcall))
    have hrun : _ ∧ Call.Holds _ (call.run (piece call) s.server.toRDMAClient).1 := Call.run_of_wp
      (P := fun call' c => Within s.server.base.device.next c.base ∧
        call'.Holds c.base.device.next)
      (wp_mono hgoes (fun _ _ h => h) fun _ _ h => ⟨h, RDMAClient.holds_of_pair_none rfl⟩)
    refine ⟨hrun.1.1, fun call' hcall' => ?_⟩
    rcases List.mem_or_eq_of_mem_set hcall' with hold | rfl
    · exact holds_mono (hs.2 call' hold) hrun.1.2
    · exact hrun.2

/-- **Any event.** -/
theorem Given.exec (hs : s.Given) (event : UseEvent) : (s.exec retries event).Given := by
  have hwithin : Within s.server.base.device.next s.server.base := ⟨hs.1, le_rfl⟩
  cases event with
  | connect ipPort ret =>
      refine ⟨hs.1, fun call hcall => ?_⟩
      rcases List.mem_append.mp hcall with hold | hnew
      · exact hs.2 call hold
      · rw [List.mem_singleton.mp hnew]
        exact RDMAClient.holds_of_pair_none rfl
  | advance i fault =>
      exact hs.goOn i fun call hcall => RDMAClient.goes_advance hwithin hcall fault
  | answer i reply =>
      exact hs.goOn i fun call hcall => RDMAClient.goes_receive hwithin hcall retries reply
  | handle request => exact hs.of_within ((RDMAServer.within_handle request).snd hwithin)
  | owner call => exact hs.of_within (RDMAServer.within_call hwithin call)

/-- **The handles in `m_qps` have been given out**, in every state. -/
theorem placed_of_reachable (hreach : (usage retries).Reachable s) : s.server.base.Placed := by
  have hinv : (usage retries).Invariant Given := by
    refine ⟨fun s hinit => ⟨hinit.1.inv.placed, ?_⟩, ?_⟩
    · rw [hinit.2]
      simp
    · rintro s event s' - hs rfl
      exact hs.exec event
  exact (hinv.reachable hreach).1

end InUse

end RdmaManager
