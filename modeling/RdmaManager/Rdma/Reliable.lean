import RdmaManager.Rdma.Base
/-!
# `ReliableRDMA`: reliable connections

Every connection id has a queue pair of its own, which is made in
`IBV_QPS_INIT`, moved to `IBV_QPS_RTS` by `connectQP` and destroyed by
`disconnectQP`. What follows the definitions says of each of them what it
can return and throw.
-/

namespace RdmaManager

namespace ReliableRDMA

open BaseRDMA

/-- `ReliableRDMA::createQP`. -/
def createQP (qpType : QpType) : Act (Device × IbQp) Unit := do
  let err ← Act.onFst ibvQueryDevice
  if err ≠ 0 then throw (.runtimeError "Error, ibv_query_device() failed")
  let (_, qp) ← Act.get
  let qp ← Act.onFst (ibvCreateQp qpType qp.sendCq qp.recvCq none)
  Act.modify fun p => (p.1, { p.2 with qp })
  if qp = none then throw (.runtimeError "Cannot create queue pair!")

/-- `ReliableRDMA::modifyQPToInit`. -/
def modifyQPToInit (qp : Option ℕ) : Act Device Unit := do
  let errno ← ibvModifyQp qp .toInit
  if errno > 0 then throw (.runtimeError "Failed modifyQPToInit!")

/-- `ReliableRDMA::modifyQPToRTR`. The `dgid` is not read: `m_gidIdx` is
`-1` throughout. -/
def modifyQPToRTR (qp : Option ℕ) (remoteQpn : UInt32) (dlid : UInt16) : Act Device Unit := do
  let status ← ibvModifyQp qp (.toRTR (some (remoteQpn, dlid)))
  if status ≠ 0 then throw (.runtimeError "Failed modifyQPToRTR!")

/-- `ReliableRDMA::modifyQPToRTS`. -/
def modifyQPToRTS (qp : Option ℕ) : Act Device Unit := do
  let errno ← ibvModifyQp qp .toRTS
  if errno > 0 then throw (.runtimeError "Failed modifyQPToRTS!")

/-- The local connection data of a queue pair. `psn` and `ah` stay what
they were. -/
def fillConn (qp : Option ℕ) (localConn : IbConn) : Act BaseRDMA IbConn := fun s =>
  match qp with
  | none => (.error (.undefined "qp_num of a null queue pair"), s)
  | some h =>
      (.ok { localConn with
        buffer := s.pointer
        rkey := s.rkey
        qpNum := (s.device.qpNum h).toUInt64
        lid := s.lid
        gid := Vector.replicate 16 0 }, s)

/-- `ReliableRDMA::initQPWithSuppliedID(ib_qp_t **, ib_conn_t **)`: what
it makes of the caller's two variables. -/
def initQPDetached (qp : IbQp) (localConn : IbConn) : Act BaseRDMA (IbQp × IbConn) := do
  let s ← Act.get
  let (_, qp) ← onDevice (Act.withLocal qp (do createCQ; createQP s.qpType))
  let localConn ← fillConn qp.qp localConn
  onDevice (modifyQPToInit qp.qp)
  return (qp, localConn)

/-- `ReliableRDMA::initQPWithSuppliedID(rdmaConnID)`. -/
def initQPWithSuppliedID (id : ℕ) : Act BaseRDMA Unit := do
  let s ← Act.get
  let (qp, localConn) ← initQPDetached IbQp.null s.stack
  setQP id qp
  setLocalConnData id localConn

/-- `ReliableRDMA::initQP`. -/
def initQP : Act BaseRDMA ℕ := do
  let s ← Act.get
  initQPWithSuppliedID s.nextConnKey
  return s.nextConnKey

/-- `ReliableRDMA::connectQP`. -/
def connectQP (id : ℕ) : Act BaseRDMA Unit := do
  let s ← Act.get
  if id ∈ s.connected then return ()
  let qp ← Act.element "m_qps past its end" s.qps id
  let remoteConn ← Act.element "m_rconns past its end" s.rconns id
  onDevice (modifyQPToRTR qp.qp remoteConn.qpNum.toUInt32 remoteConn.lid)
  onDevice (modifyQPToRTS qp.qp)
  Act.modify fun s => { s with connected := s.connected.insert id true }

/-- `ReliableRDMA::disconnectQP`. -/
def disconnectQP (id : ℕ) : Act BaseRDMA Unit := do
  let s ← Act.get
  if s.connected.lookup id ≠ some true then return ()
  let qp ← Act.element "m_qps past its end" s.qps id
  if qp.qp ≠ none then
    let err ← onDevice (ibvDestroyQp qp.qp)
    if err ≠ 0 then
      throw (.runtimeError "Error, ibv_destroy_qp() failed while disconnecting QP")
    Act.modify fun s => { s with qps := s.qps.set id { qp with qp := none } }
    onDevice (destroyCQ qp.sendCq qp.recvCq)
  Act.modify fun s => { s with connected := s.connected.insert id false }

/-- A newly constructed object. -/
def blank (device : Device) (pointer : UInt64) (rkey : UInt32) (lid : UInt16) (stack : IbConn) :
    BaseRDMA where
  device := device
  pointer := pointer
  rkey := rkey
  lid := lid
  stack := stack
  qpType := .rc
  qps := []
  rconns := []
  lconns := []
  countWR := []
  connected := ∅
  qpNum2connID := ∅

/-! ## What the functions return -/

open Act Device

variable {s : BaseRDMA} {d : Device} {id h : ℕ} {qp : IbQp} {localConn : IbConn} {old new : Qp}
variable {E : Exn → BaseRDMA → Prop}

theorem wp_createQP {type : QpType} {c₁ c₂ : ℕ} {Q : Unit → Device × IbQp → Prop}
    {E : Exn → Device × IbQp → Prop} (hsend : qp.sendCq = some c₁) (hrecv : qp.recvCq = some c₂)
    (h₁ : d.cqs c₁ = true) (h₂ : d.cqs c₂ = true)
    (hQ : d.errno d.calls = 0 → d.errno (d.calls + 1) = 0 →
      Q () (d.tick.tick.addQp ⟨type, .reset, none, c₁, c₂, none⟩, ⟨some d.next, some c₁, some c₂⟩))
    (hE : ∀ e d' qp', d.errno d.calls ≠ 0 ∨ d.errno (d.calls + 1) ≠ 0 → d.Grown d' → E e (d', qp')) :
    wp (createQP type) Q E (d, qp) := by
  have hcreate : ∀ {Q : Option ℕ → Device → Prop} {E : Exn → Device → Prop},
      wp (ibvCreateQp type (some c₁) (some c₂) none) Q E d.tick ↔
        (d.errno (d.calls + 1) = 0 →
          Q (some d.next) (d.tick.tick.addQp ⟨type, .reset, none, c₁, c₂, none⟩)) ∧
        (d.errno (d.calls + 1) ≠ 0 → Q none d.tick.tick) :=
    wp_ibvCreateQp h₁ h₂ (by simp)
  unfold createQP
  simp only [wp_bind, wp_ite, wp_pure, wp_throw, wp_get, wp_modify, wp_onFst, wp_ibvQueryDevice,
    hsend, hrecv, hcreate, reduceCtorEq, not_false_eq_true, not_true_eq_false, true_implies,
    false_implies, and_true, true_and]
  refine ⟨fun herr => ?_, fun h₁ => ⟨fun h₂ => hQ (not_not.mp h₁) h₂, fun herr => ?_⟩⟩
  · exact hE _ _ _ (Or.inl herr) (grown_tick d)
  · exact hE _ _ _ (Or.inr herr) ((grown_tick d).trans (grown_tick d.tick))

/-- The first transition of a queue pair. -/
theorem wp_modifyQPToInit {Q : Unit → Device → Prop} {E : Exn → Device → Prop}
    (hold : d.qps h = some old) (hnew : old.modify .toInit = some new)
    (hQ : d.errno d.calls = 0 → Q () (d.tick.setQp h new))
    (hE : d.errno d.calls ≠ 0 → ∀ e, E e d.tick) :
    wp (modifyQPToInit (some h)) Q E d := by
  unfold modifyQPToInit
  simp only [wp_bind, wp_ite, wp_pure, wp_throw, wp_ibvModifyQp hold hnew]
  refine ⟨fun h₁ => ⟨fun h => absurd h (by omega), fun _ => hQ h₁⟩, fun herr => ⟨fun _ => ?_, ?_⟩⟩
  · exact hE herr _
  · intro hle
    exact absurd (Nat.pos_of_ne_zero herr) hle

/-- What `initQPDetached` makes of the caller's queue pair. -/
def madeQp (d : Device) : IbQp := ⟨some (d.next + 2), some d.next, some (d.next + 1)⟩

/-- And of the caller's connection data. -/
def madeConn (s : BaseRDMA) (localConn : IbConn) : IbConn :=
  { localConn with
    buffer := s.pointer
    rkey := s.rkey
    qpNum := (s.device.qpNum (s.device.next + 2)).toUInt64
    lid := s.lid
    gid := Vector.replicate 16 0 }

/-- **A queue pair is made and initialised**, unless one of the five calls
fails. If it is not the first one, its completion queues stay behind. -/
theorem wp_initQPDetached_cases {Q : IbQp × IbConn → BaseRDMA → Prop}
    (hQ : (∀ k < 5, s.device.errno (s.device.calls + k) = 0) →
      Q (madeQp s.device, madeConn s localConn) { s with device := s.device.queuePair s.qpType })
    (hfirst : s.device.errno s.device.calls ≠ 0 → ∀ e, E e { s with device := s.device.tick })
    (hlater : ∀ k < 5, s.device.errno s.device.calls = 0 → s.device.errno (s.device.calls + k) ≠ 0 →
      ∀ e d', s.device.tick.addCq.Grown d' → E e { s with device := d' }) :
    wp (initQPDetached qp localConn) Q E s := by
  unfold initQPDetached
  simp only [wp_bind, wp_get, wp_onDevice, wp_withLocal]
  -- the two completion queues
  refine wp_createCQ (fun h₀ h₁ => ?_) hfirst fun h₀ h₁ e => ?_
  swap
  · exact hlater 1 (by omega) h₀ h₁ e _ (grown_tick _)
  have hcqs : s.device.tick.addCq.Grown s.device.tick.addCq.tick.addCq :=
    (grown_tick _).trans (grown_addCq _)
  -- the queue pair
  refine wp_createQP rfl rfl (by simp) (by simp) (fun h₂ h₃ => ?_) fun e d' _ hfail hgrown => ?_
  swap
  · rcases hfail with herr | herr
    · exact hlater 2 (by omega) h₀ herr e d' (hcqs.trans hgrown)
    · exact hlater 3 (by omega) h₀ herr e d' (hcqs.trans hgrown)
  have hqp := hcqs.trans (((grown_tick _).trans (grown_tick _)).trans
    (grown_addQp s.device.tick.addCq.tick.addCq.tick.tick
      ⟨s.qpType, .reset, none, s.device.next, s.device.next + 1, none⟩))
  -- its connection data, and its first transition
  change wp (modifyQPToInit (some (s.device.next + 2))) _ _ _
  refine wp_modifyQPToInit (Function.update_self _ _ _) rfl (fun h₄ => ?_) fun h₄ e => ?_
  · have hnone : ∀ k < 5, s.device.errno (s.device.calls + k) = 0 := by
      intro k hk
      have hcases : k = 0 ∨ k = 1 ∨ k = 2 ∨ k = 3 ∨ k = 4 := by omega
      rcases hcases with rfl | rfl | rfl | rfl | rfl
      exacts [h₀, h₁, h₂, h₃, h₄]
    have hdevice := queuePair_eq s.device s.qpType
    simp only at hdevice ⊢
    rw [hdevice]
    exact hQ hnone
  · exact hlater 4 (by omega) h₀ h₄ e _ (hqp.trans (grown_tick _))

/-- It is made and initialised, or the device only grew. -/
theorem wp_initQPDetached {Q : IbQp × IbConn → BaseRDMA → Prop}
    (hQ : (∀ k < 5, s.device.errno (s.device.calls + k) = 0) →
      Q (madeQp s.device, madeConn s localConn) { s with device := s.device.queuePair s.qpType })
    (hE : ∀ e d', ¬ s.device.Succeeds → s.device.Grown d' → E e { s with device := d' }) :
    wp (initQPDetached qp localConn) Q E s := by
  refine wp_initQPDetached_cases hQ (fun herr e => ?_) fun k _ _ herr e d' hgrown => ?_
  · exact hE e _ (fun hsucc => herr (hsucc _)) (grown_tick _)
  · exact hE e d' (fun hsucc => herr (hsucc _)) (((grown_tick _).trans (grown_addCq _)).trans hgrown)

/-- What a successful `initQPWithSuppliedID` leaves. -/
structure Initialized (s : BaseRDMA) (id : ℕ) (s' : BaseRDMA) : Prop where
  /-- None of the five calls failed. -/
  errno : ∀ k < 5, s.device.errno (s.device.calls + k) = 0
  bound : id + 1 < 2 ^ 64
  device : s'.device = s.device.queuePair s.qpType
  pointer : s'.pointer = s.pointer
  rkey : s'.rkey = s.rkey
  lid : s'.lid = s.lid
  stack : s'.stack = s.stack
  qpType : s'.qpType = s.qpType
  qpAt : ∀ i, s'.qpAt i = if i = id then madeQp s.device else s.qpAt i
  lt : id < s'.qps.length
  le : s.qps.length ≤ s'.qps.length
  rconns : s'.rconns = s.rconns
  lconnAt : ∀ i, s'.lconnAt i = if i = id then madeConn s s.stack else s.lconnAt i
  lconns : id < s'.lconns.length
  connected : s'.connected = s.connected

/-- **The id is set up**, unless one of the five calls fails or the id cannot
index a vector. -/
theorem wp_initQPWithSuppliedID_cases {Q : Unit → BaseRDMA → Prop}
    (hQ : ∀ s', Initialized s id s' → Q () s')
    (hfail : ∀ e d', (∃ k < 5, s.device.errno (s.device.calls + k) ≠ 0) → s.device.Grown d' →
      E e { s with device := d' })
    (hundef : ∀ what d', 2 ^ 64 ≤ id + 1 → s.device.Grown d' →
      E (.undefined what) { s with device := d' }) :
    wp (initQPWithSuppliedID id) Q E s := by
  unfold initQPWithSuppliedID
  simp only [wp_bind, wp_get]
  refine wp_initQPDetached_cases (fun hnone => ?_) (fun herr e => ?_) fun k hk _ herr e d' hgrown => ?_
  · refine wp_setQP rfl (fun s₁ hset => ?_) fun what hid => ?_
    · refine wp_setLocalConnData (fun lconns hconn hlt => ?_) fun what hid => ?_
      · refine hQ _ ⟨hnone, hset.bound, hset.device, hset.pointer, hset.rkey, hset.lid, hset.stack,
          hset.qpType, hset.qpAt, hset.lt, hset.le, hset.rconns, fun i => ?_, hlt, hset.connected⟩
        have hold : s₁.lconnAt i = s.lconnAt i := by
          unfold lconnAt
          rw [hset.lconns]
        rw [← hold]
        exact hconn i
      · exact absurd hset.bound (by omega)
    · exact hundef what _ hid (grown_queuePair _ _)
  · exact hfail e _ ⟨0, by omega, herr⟩ (grown_tick _)
  · exact hfail e d' ⟨k, hk, herr⟩ (((grown_tick _).trans (grown_addCq _)).trans hgrown)

theorem wp_initQPWithSuppliedID {Q : Unit → BaseRDMA → Prop}
    (hQ : ∀ s', Initialized s id s' → Q () s')
    (hE : ∀ e d', ¬ s.device.Succeeds ∨ 2 ^ 64 ≤ id + 1 → s.device.Grown d' →
      E e { s with device := d' }) :
    wp (initQPWithSuppliedID id) Q E s := by
  refine wp_initQPWithSuppliedID_cases hQ (fun e d' hbad hgrown => ?_) fun what d' hid hgrown => ?_
  · obtain ⟨k, -, herr⟩ := hbad
    exact hE e d' (Or.inl fun hsucc => herr (hsucc _)) hgrown
  · exact hE _ d' (Or.inr hid) hgrown

/-- The queue pair of an id that was just set up. -/
theorem Initialized.qps {s' : BaseRDMA} (hinit : Initialized s id s') :
    s'.device.qps (s.device.next + 2) =
      some ⟨s.qpType, .init, none, s.device.next, s.device.next + 1, none⟩ := by
  rw [hinit.device, queuePair_qps, Function.update_self]

/-- The peer that `connectQP` moves the queue pair of `id` towards. -/
def peerOf (s : BaseRDMA) (id : ℕ) : UInt32 × UInt16 :=
  ((s.rconnAt id).qpNum.toUInt32, (s.rconnAt id).lid)

/-- The object after `connectQP` moved the queue pair `h` of `id`. -/
def connectedTo (s : BaseRDMA) (id h : ℕ) (old : Qp) : BaseRDMA :=
  { s with
    device := s.device.readied h old (some (peerOf s id))
    connected := s.connected.insert id true }

theorem connectedTo_qps_self (id : ℕ) (hold : s.device.qps h = some old) :
    (connectedTo s id h old).device.qps h =
      some { old with state := .rts, dest := some (peerOf s id) } := by
  change (s.device.readied h old (some (peerOf s id))).qps h = _
  rw [readied_qps, Function.update_self, hold]
  rfl

/-- `id` has a queue pair in `IBV_QPS_INIT` and remote connection data. -/
def Connectable (s : BaseRDMA) (id h : ℕ) (old : Qp) : Prop :=
  (s.qpAt id).qp = some h ∧ s.device.qps h = some old ∧ old.state = .init ∧
    id < s.qps.length ∧ id < s.rconns.length

/-- An id that was just set up can be connected. -/
theorem Initialized.connectable {s' : BaseRDMA} (hinit : Initialized s id s')
    {rconns : List IbConn} (hlt : id < rconns.length) :
    Connectable { s' with rconns } id (s.device.next + 2)
      ⟨s.qpType, .init, none, s.device.next, s.device.next + 1, none⟩ := by
  refine ⟨?_, hinit.qps, rfl, hinit.lt, hlt⟩
  change (s'.qpAt id).qp = _
  rw [hinit.qpAt, if_pos rfl]
  rfl

theorem wp_modify_of_dead {attr : QpAttr} {handle : Option ℕ} {Q : ℕ → Device → Prop}
    {E : Exn → Device → Prop} (hdead : ∀ h old, handle = some h → d.qps h ≠ some old)
    (hE : ∀ e, E e d.tick) : wp (ibvModifyQp handle attr) Q E d := by
  unfold wp ibvModifyQp
  cases handle with
  | none => exact hE _
  | some h =>
      cases hqp : d.qps h with
      | none =>
          simp only [hqp]
          exact hE _
      | some old => exact absurd hqp (hdead h old rfl)

/-- A queue pair that is not in `IBV_QPS_INIT` is not moved. -/
theorem wp_modifyQPToRTR_of_not_init {handle : Option ℕ} {qpn : UInt32} {dlid : UInt16}
    {Q : Unit → Device → Prop} {E : Exn → Device → Prop}
    (hnot : ∀ h old, handle = some h → d.qps h = some old → old.state ≠ .init)
    (hE : ∀ e, E e d.tick) : wp (modifyQPToRTR handle qpn dlid) Q E d := by
  unfold modifyQPToRTR
  simp only [wp_bind, wp_ite, wp_pure, wp_throw]
  cases handle with
  | none => exact wp_modify_of_dead (by simp) hE
  | some h =>
      cases hqp : d.qps h with
      | none =>
          refine wp_modify_of_dead (fun i old hi hold => ?_) hE
          obtain rfl := Option.some.inj hi
          rw [hqp] at hold
          simp at hold
      | some old =>
          have hillegal : old.modify (.toRTR (some (qpn, dlid))) = none := if_neg (hnot h old rfl hqp)
          unfold wp ibvModifyQp
          simp only [hqp, hillegal]
          split_ifs with herr
          · exact ⟨fun _ => hE _, fun hzero => absurd (show EINVAL ≠ 0 by decide) hzero⟩
          · exact ⟨fun _ => hE _, fun hzero => absurd herr hzero⟩

/-- **`connectQP`** does nothing for an id that is in the map, connects
one that is `Connectable`, and throws on any other or where the device
does. -/
theorem wp_connectQP {Q : Unit → BaseRDMA → Prop} (hstay : id ∈ s.connected → Q () s)
    (hQ : ∀ h old, id ∉ s.connected → Connectable s id h old → Q () (connectedTo s id h old))
    (hfail : ∀ e d', id ∉ s.connected → ¬ s.device.Succeeds → s.device.Moved d' →
      E e { s with device := d' })
    (hunable : ∀ e, id ∉ s.connected → (∀ h old, ¬ Connectable s id h old) →
      E e s ∧ E e { s with device := s.device.tick }) :
    wp (connectQP id) Q E s := by
  unfold connectQP
  simp only [wp_bind, wp_get, wp_ite, wp_pure, wp_modify, wp_onDevice, wp_element IbQp.null,
    wp_element IbConn.zero]
  refine ⟨hstay, fun hnew => ⟨fun hqps => ⟨fun hrconns => ?_, fun hrconns => ?_⟩, fun hqps => ?_⟩⟩
  · change wp (modifyQPToRTR (s.qpAt id).qp (peerOf s id).1 (peerOf s id).2) _ _ _
    by_cases hable : ∃ h old, Connectable s id h old
    · obtain ⟨h, old, hcon⟩ := hable
      have ⟨hqp, hold, hinit, _, _⟩ := hcon
      have hrtr : old.modify (.toRTR (some (peerOf s id))) =
          some { old with state := .rtr, dest := some (peerOf s id) } := if_pos hinit
      have hlive : (s.device.tick.setQp h { old with state := .rtr, dest := some (peerOf s id) }).qps h =
          some { old with state := .rtr, dest := some (peerOf s id) } := by
        rw [setQp_qps, Function.update_self, tick_qps, hold]
        rfl
      rw [hqp]
      unfold modifyQPToRTR modifyQPToRTS
      simp only [wp_bind, wp_ite, wp_pure, wp_throw]
      rw [wp_ibvModifyQp hold hrtr]
      refine ⟨fun _ => ⟨fun hbad => absurd rfl hbad, fun _ => ?_⟩, fun herr => ⟨fun _ => ?_, ?_⟩⟩
      · change wp (ibvModifyQp (s.qpAt id).qp .toRTS) _ _ _
        rw [hqp, wp_ibvModifyQp hlive rfl]
        refine ⟨fun _ => ⟨fun hbad => absurd hbad (by omega), fun _ => ?_⟩,
          fun herr => ⟨fun _ => ?_, ?_⟩⟩
        · have hdone := hQ h old hnew hcon
          rw [connectedTo, ← readied_eq] at hdone
          exact hdone
        · exact hfail _ _ hnew (fun hsucc => herr (hsucc _)) (((moved_tick _).setQp _ _).tick)
        · intro hle
          exact absurd (Nat.pos_of_ne_zero herr) hle
      · exact hfail _ _ hnew (fun hsucc => herr (hsucc _)) (moved_tick _)
      · intro hzero
        exact absurd herr hzero
    · refine wp_modifyQPToRTR_of_not_init (fun h old hqp hold hinit => hable ?_) fun e => ?_
      · exact ⟨h, old, hqp, hold, hinit, hqps, hrconns⟩
      · exact (hunable e hnew fun h old hcon => hable ⟨h, old, hcon⟩).2
  · exact (hunable _ hnew fun h old hcon => absurd hcon.2.2.2.2 (by omega)).1
  · exact (hunable _ hnew fun h old hcon => absurd hcon.2.2.2.1 (by omega)).1

/-- The object after `disconnectQP` destroyed the queue pair of `id`. -/
def disconnected (s : BaseRDMA) (id : ℕ) (d : Device) : BaseRDMA :=
  { s with
    device := d
    qps := s.qps.set id { s.qpAt id with qp := none } }

theorem qpAt_disconnected {d : Device} (hlt : id < s.qps.length) (i : ℕ) :
    (disconnected s id d).qpAt i = if i = id then { s.qpAt id with qp := none } else s.qpAt i :=
  getD_set hlt i

/-- **`disconnectQP`** destroys the queue pair of a connected id, whatever
becomes of its completion queues. On a throw the id is still connected. -/
theorem wp_disconnectQP {Q : Unit → BaseRDMA → Prop}
    (hstay : s.connected.lookup id ≠ some true → Q () s)
    (hnull : s.connected.lookup id = some true → (s.qpAt id).qp = none →
      Q () { s with connected := s.connected.insert id false })
    (hgone : ∀ h d', s.connected.lookup id = some true → id < s.qps.length →
      (s.qpAt id).qp = some h → (s.device.tick.dropQp h).Reaped d' →
      Q () { disconnected s id d' with connected := s.connected.insert id false } ∧
        ∀ e, E e (disconnected s id d'))
    (hE : ∀ e, s.connected.lookup id = some true → E e s ∧ E e { s with device := s.device.tick })
    (hdead : ∀ h e, s.connected.lookup id = some true → (s.qpAt id).qp = some h →
      s.device.qps h = none → E e { s with device := s.device.tick.dropQp h }) :
    wp (disconnectQP id) Q E s := by
  unfold disconnectQP
  simp only [wp_bind, wp_get, wp_ite, wp_pure, wp_throw, wp_modify, wp_onDevice,
    wp_element IbQp.null]
  refine ⟨hstay, fun hconn => ?_⟩
  rw [not_not] at hconn
  refine ⟨fun hlt => ⟨fun hqp => ?_, fun hqp => ?_⟩, fun _ => (hE _ hconn).1⟩
  · change (s.qpAt id).qp ≠ none at hqp
    change wp (ibvDestroyQp (s.qpAt id).qp) _ _ _
    obtain ⟨h, hh⟩ := Option.ne_none_iff_exists'.mp hqp
    rw [hh]
    cases hold : s.device.qps h with
    | none =>
        unfold wp ibvDestroyQp destroyWith
        simp only [hold, Option.isSome_none, Bool.false_eq_true, if_false]
        exact hdead h _ hconn hh hold
    | some old =>
        rw [wp_ibvDestroyQp hold]
        refine ⟨fun _ => ⟨fun hbad => absurd rfl hbad, fun _ => ?_⟩, fun herr => ⟨fun _ => ?_, ?_⟩⟩
        · refine wp_destroyCQ_frame (fun d' hd' => ?_) fun e d' hd' => ?_
          · exact (hgone h d' hconn hlt hh hd').1
          · exact (hgone h d' hconn hlt hh hd').2 e
        · exact (hE _ hconn).2
        · intro hzero
          exact absurd herr hzero
  · exact hnull hconn (not_not.mp hqp)

/-- A connected id with a queue pair whose queues are live is
disconnected, where no call fails. -/
theorem wp_disconnectQP_of_live {c₁ c₂ : ℕ} {Q : Unit → BaseRDMA → Prop}
    (hsucc : s.device.Succeeds) (hconn : s.connected.lookup id = some true)
    (hlt : id < s.qps.length) (hqp : s.qpAt id = ⟨some h, some c₁, some c₂⟩)
    (hold : s.device.qps h = some old) (h₁ : s.device.cqs c₁ = true) (h₂ : s.device.cqs c₂ = true)
    (hne : c₁ ≠ c₂)
    (hQ : Q () { disconnected s id (((s.device.tick.dropQp h).reap c₁).reap c₂) with
      connected := s.connected.insert id false }) : wp (disconnectQP id) Q E s := by
  unfold disconnectQP
  simp only [wp_bind, wp_get, wp_ite, wp_pure, wp_throw, wp_modify, wp_onDevice,
    wp_element IbQp.null]
  refine ⟨fun hbad => absurd hconn hbad, fun _ => ⟨fun _ => ?_, fun hge => absurd hlt (by omega)⟩⟩
  change (¬ (s.qpAt id).qp = none → wp (ibvDestroyQp (s.qpAt id).qp) _ _ _) ∧ _
  refine ⟨fun _ => ?_, fun hbad => ?_⟩
  · rw [hqp, wp_ibvDestroyQp hold]
    refine ⟨fun _ => ⟨fun hbad => absurd rfl hbad, fun _ => ?_⟩, fun herr => absurd (hsucc _) herr⟩
    change wp (destroyCQ (s.qpAt id).sendCq (s.qpAt id).recvCq) _ _ _
    rw [hqp]
    exact wp_destroyCQ hsucc h₁ h₂ hne hQ
  · change ¬ (s.qpAt id).qp ≠ none at hbad
    rw [hqp] at hbad
    exact absurd (by simp) hbad

end ReliableRDMA

end RdmaManager
