import RdmaManager.Rdma.Base
/-!
# `UnreliableRDMA`: datagrams

One queue pair serves every connection id. It is made by the constructor
and moved to `IBV_QPS_RTS` at once, and `initQPWithSuppliedID` only
enters it in the tables. What connects an id is an address handle, which
`connectQP` makes for the `lid` of the remote connection data and stores
in them.
-/

namespace RdmaManager

/-- The fields of `UnreliableRDMA` that connection management reads and
writes. -/
structure UnreliableRDMA extends BaseRDMA where
  /-- What `lrand48` returns, by the number of device calls before it. -/
  lrand48 : ℕ → UInt32
  udqp : IbQp
  udqpConn : IbConn

namespace UnreliableRDMA

open BaseRDMA

/-- Call a function of the base class. -/
def onBase {α : Type} (x : Act BaseRDMA α) : Act UnreliableRDMA α :=
  Act.zoom UnreliableRDMA.toBaseRDMA (fun u s => { u with toBaseRDMA := s }) x

/-- `UnreliableRDMA::createQP`. -/
def createQP (qpType : QpType) : Act (Device × IbQp) Unit := do
  let (_, qp) ← Act.get
  let qp ← Act.onFst (ibvCreateQp qpType qp.sendCq qp.recvCq none)
  Act.modify fun p => (p.1, { p.2 with qp })
  if qp = none then throw (.runtimeError "Cannot create queue pair!")

/-- `UnreliableRDMA::modifyQPToInit`, `modifyQPToRTR` and `modifyQPToRTS`:
one transition and the text of the error. -/
def modifyQP (attr : QpAttr) (what : String) (qp : Option ℕ) : Act Device Unit := do
  let errno ← ibvModifyQp qp attr
  if errno > 0 then throw (.runtimeError what)

def modifyQPToInit : Option ℕ → Act Device Unit := modifyQP .toInit "Failed modifyQPToInit!"

def modifyQPToRTR : Option ℕ → Act Device Unit := modifyQP (.toRTR none) "Failed modifyQPToRTR!"

def modifyQPToRTS : Option ℕ → Act Device Unit := modifyQP .toRTS "Failed modifyQPToRTS!"

/-- The connection data of the one queue pair. -/
def fillConn : Act UnreliableRDMA Unit := fun u =>
  match u.udqp.qp with
  | none => (.error (.undefined "qp_num of a null queue pair"), u)
  | some h =>
      (.ok (), { u with
        udqpConn := { u.udqpConn with
          buffer := u.pointer
          qpNum := (u.device.qpNum h).toUInt64
          lid := u.lid
          gid := Vector.replicate 16 0
          psn := u.lrand48 u.device.calls &&& 0xffffff
          ah := none } })

/-- What both overloads of `initQPWithSuppliedID` do where there is no
queue pair yet. -/
def makeUdqp : Act UnreliableRDMA Unit := do
  let u ← Act.get
  if u.udqp.qp ≠ none then return ()
  Act.zoom (fun u : UnreliableRDMA => (u.device, u.udqp))
    (fun u p => { u with device := p.1, udqp := p.2 }) (do createCQ; createQP u.qpType)
  fillConn
  let u ← Act.get
  onBase (onDevice (modifyQPToInit u.udqp.qp))
  onBase (onDevice (modifyQPToRTR u.udqp.qp))
  onBase (onDevice (modifyQPToRTS u.udqp.qp))

/-- `UnreliableRDMA::initQPWithSuppliedID(rdmaConnID)`. -/
def initQPWithSuppliedID (id : ℕ) : Act UnreliableRDMA Unit := do
  makeUdqp
  let u ← Act.get
  onBase (setQP id u.udqp)
  onBase (setLocalConnData id u.udqpConn)

/-- `UnreliableRDMA::initQPWithSuppliedID(ib_qp_t **, ib_conn_t **)`: what
the caller's two pointers point to, which is no variable of the caller's. -/
def initQPDetached : Act UnreliableRDMA (IbQp × IbConn) := do
  makeUdqp
  let u ← Act.get
  return (u.udqp, u.udqpConn)

/-- `UnreliableRDMA::initQP`. -/
def initQP : Act UnreliableRDMA ℕ := do
  let u ← Act.get
  initQPWithSuppliedID u.nextConnKey
  return u.nextConnKey

/-- `UnreliableRDMA::connectQP`. The address handle is stored without a
look at whether there is one. -/
def connectQP (id : ℕ) : Act BaseRDMA Unit := do
  let s ← Act.get
  if s.connected.lookup id = some false then return ()
  let remoteConn ← Act.element "m_rconns past its end" s.rconns id
  let ah ← onDevice (ibvCreateAh remoteConn.lid)
  Act.modify fun s => { s with
    rconns := s.rconns.set id { remoteConn with ah }
    connected := s.connected.insert id true }

/-- `UnreliableRDMA::disconnectQP`. What `ibv_destroy_ah` returns is not
looked at. -/
def disconnectQP (id : ℕ) : Act BaseRDMA Unit := do
  let s ← Act.get
  if s.connected.lookup id ≠ some true then return ()
  let remoteConn ← Act.element "m_rconns past its end" s.rconns id
  let _ ← onDevice (ibvDestroyAh remoteConn.ah)
  Act.modify fun s => { s with connected := s.connected.insert id false }

/-- The object before the constructor's body, on a device. -/
def blank (device : Device) (pointer : UInt64) (rkey : UInt32) (lid : UInt16) (stack : IbConn)
    (lrand48 : ℕ → UInt32) : UnreliableRDMA where
  device := device
  pointer := pointer
  rkey := rkey
  lid := lid
  stack := stack
  qpType := .ud
  qps := []
  rconns := []
  lconns := []
  countWR := []
  connected := ∅
  qpNum2connID := ∅
  lrand48 := lrand48
  udqp := IbQp.null
  udqpConn := stack

/-- The constructor. -/
def construct : Act UnreliableRDMA Unit := initQPWithSuppliedID 0

/-! ## What the functions return -/

open Act Device

variable {u : UnreliableRDMA} {s : BaseRDMA} {d : Device} {id h : ℕ} {E : Exn → BaseRDMA → Prop}

theorem wp_onBase {α : Type} {x : Act BaseRDMA α} {Q : α → UnreliableRDMA → Prop}
    {E : Exn → UnreliableRDMA → Prop} :
    wp (onBase x) Q E u ↔ wp x (fun a s => Q a { u with toBaseRDMA := s })
      (fun e s => E e { u with toBaseRDMA := s }) u.toBaseRDMA :=
  wp_zoom

/-- Where there is a queue pair, none is made. -/
theorem wp_makeUdqp {Q : Unit → UnreliableRDMA → Prop} {E : Exn → UnreliableRDMA → Prop}
    (hqp : u.udqp.qp = some h) (hQ : Q () u) : wp makeUdqp Q E u := by
  unfold makeUdqp
  simp only [wp_bind, wp_get, wp_ite, wp_pure]
  refine ⟨fun _ => hQ, fun hbad => ?_⟩
  rw [hqp] at hbad
  exact absurd (by simp) hbad

theorem wp_createQP {type : QpType} {qp : IbQp} {c₁ c₂ : ℕ} {Q : Unit → Device × IbQp → Prop}
    {E : Exn → Device × IbQp → Prop} (hsend : qp.sendCq = some c₁) (hrecv : qp.recvCq = some c₂)
    (h₁ : d.cqs c₁ = true) (h₂ : d.cqs c₂ = true)
    (hQ : d.errno d.calls = 0 →
      Q () (d.tick.addQp ⟨type, .reset, none, c₁, c₂, none⟩, ⟨some d.next, some c₁, some c₂⟩))
    (hE : d.errno d.calls ≠ 0 → ∀ e qp', E e (d.tick, qp')) :
    wp (createQP type) Q E (d, qp) := by
  unfold createQP
  simp only [wp_bind, wp_ite, wp_pure, wp_throw, wp_get, wp_modify, wp_onFst, hsend, hrecv]
  refine (wp_ibvCreateQp h₁ h₂ (by simp)).mpr ⟨fun herr => ⟨fun hbad => ?_, fun _ => hQ herr⟩, ?_⟩
  · exact absurd hbad (by simp)
  · exact fun herr => ⟨fun _ => hE herr _ _, fun hbad => absurd rfl hbad⟩

theorem wp_fillConn {Q : Unit → UnreliableRDMA → Prop} {E : Exn → UnreliableRDMA → Prop}
    (hqp : u.udqp.qp = some h) (hQ : ∀ udqpConn, Q () { u with udqpConn }) : wp fillConn Q E u := by
  unfold wp fillConn
  simp only [hqp]
  exact hQ _

theorem wp_modifyQP {attr : QpAttr} {what : String} {old new : Qp} {Q : Unit → Device → Prop}
    {E : Exn → Device → Prop} (hold : d.qps h = some old) (hnew : old.modify attr = some new)
    (hQ : d.errno d.calls = 0 → Q () (d.tick.setQp h new))
    (hE : d.errno d.calls ≠ 0 → ∀ e, E e d.tick) :
    wp (modifyQP attr what (some h)) Q E d := by
  unfold modifyQP
  simp only [wp_bind, wp_ite, wp_pure, wp_throw]
  refine (wp_ibvModifyQp hold hnew).mpr ⟨fun herr => ⟨fun hbad => absurd hbad (by omega), ?_⟩, ?_⟩
  · exact fun _ => hQ herr
  · exact fun herr => ⟨fun _ => hE herr _, fun hle => absurd (Nat.pos_of_ne_zero herr) hle⟩

/-- The device with the one queue pair made on it. -/
def onePair (d : Device) (type : QpType) : Device :=
  (((d.tick.addCq.tick.addCq.tick.addQp ⟨type, .reset, none, d.next, d.next + 1, none⟩).tick.setQp
    (d.next + 2) ⟨type, .init, none, d.next, d.next + 1, none⟩).tick.setQp
    (d.next + 2) ⟨type, .rtr, none, d.next, d.next + 1, none⟩).tick.setQp
    (d.next + 2) ⟨type, .rts, none, d.next, d.next + 1, none⟩

/-- **Making the one queue pair**, unless one of the six calls fails. If it
is not the first one, its completion queues stay behind. -/
theorem wp_makeUdqp_cases {Q : Unit → UnreliableRDMA → Prop} {E : Exn → UnreliableRDMA → Prop}
    (hqp : u.udqp.qp = none)
    (hQ : (∀ k < 6, u.device.errno (u.device.calls + k) = 0) → ∀ udqpConn,
      Q () { u with
        device := onePair u.device u.qpType
        udqp := ⟨some (u.device.next + 2), some u.device.next, some (u.device.next + 1)⟩
        udqpConn })
    (hfirst : u.device.errno u.device.calls ≠ 0 → ∀ e,
      E e { u with device := u.device.tick, udqp := { u.udqp with sendCq := none } })
    (hlater : ∀ k < 6, u.device.errno u.device.calls = 0 → u.device.errno (u.device.calls + k) ≠ 0 →
      ∀ e u', u.device.tick.addCq.Grown u'.device → E e u') :
    wp makeUdqp Q E u := by
  unfold makeUdqp
  simp only [wp_bind, wp_get, wp_ite, wp_pure, wp_zoom]
  refine ⟨fun hbad => absurd hqp hbad, fun _ => wp_createCQ (fun h₀ h₁ => ?_) hfirst fun h₀ h₁ e => ?_⟩
  swap
  · exact hlater 1 (by omega) h₀ h₁ e _ (grown_tick _)
  have hcqs : u.device.tick.addCq.Grown u.device.tick.addCq.tick.addCq :=
    (grown_tick _).trans (grown_addCq _)
  refine wp_createQP rfl rfl (by simp) (by simp) (fun h₂ => ?_) fun h₂ e qp' => ?_
  swap
  · exact hlater 2 (by omega) h₀ h₂ e _ (hcqs.trans (grown_tick _))
  have hgrown := hcqs.trans ((grown_tick _).trans (grown_addQp u.device.tick.addCq.tick.addCq.tick
    ⟨u.qpType, .reset, none, u.device.next, u.device.next + 1, none⟩))
  refine wp_fillConn rfl fun udqpConn => ?_
  -- its three transitions
  have hset : ∀ {d : Device} {old new : Qp}, d.qps (u.device.next + 2) = some old →
      (d.tick.setQp (u.device.next + 2) new).qps (u.device.next + 2) = some new := by
    intro d old new hold
    rw [setQp_qps, Function.update_self, tick_qps, hold]
    rfl
  have hle : u.device.tick.addCq.next ≤ u.device.next + 2 := by
    show u.device.next + 1 ≤ u.device.next + 2
    omega
  have hlive : (u.device.tick.addCq.tick.addCq.tick.addQp
      ⟨u.qpType, .reset, none, u.device.next, u.device.next + 1, none⟩).qps (u.device.next + 2) = _ :=
    Function.update_self _ _ _
  have hinit := (hgrown.trans (grown_tick _)).setQp hle
    ⟨u.qpType, .init, none, u.device.next, u.device.next + 1, none⟩
  have hrtr := (hinit.trans (grown_tick _)).setQp hle
    ⟨u.qpType, .rtr, none, u.device.next, u.device.next + 1, none⟩
  simp only [wp_onBase, wp_onDevice]
  refine wp_modifyQP hlive rfl (fun h₃ => ?_) fun h₃ e => hlater 3 (by omega) h₀ h₃ e _
    (hgrown.trans (grown_tick _))
  refine wp_modifyQP (hset hlive) rfl (fun h₄ => ?_) fun h₄ e => hlater 4 (by omega) h₀ h₄ e _
    (hinit.trans (grown_tick _))
  refine wp_modifyQP (hset (hset hlive)) rfl (fun h₅ => ?_) fun h₅ e => hlater 5 (by omega) h₀ h₅ e _
    (hrtr.trans (grown_tick _))
  refine hQ (fun k hk => ?_) udqpConn
  have hcases : k = 0 ∨ k = 1 ∨ k = 2 ∨ k = 3 ∨ k = 4 ∨ k = 5 := by omega
  rcases hcases with rfl | rfl | rfl | rfl | rfl | rfl
  exacts [h₀, h₁, h₂, h₃, h₄, h₅]

theorem grown_onePair (d : Device) (type : QpType) : d.Grown (onePair d type) := by
  have hle : d.next ≤ d.next + 2 := Nat.le_add_right _ _
  have hpair := (grown_createCQ d).trans ((grown_tick _).trans
    (grown_addQp d.tick.addCq.tick.addCq.tick ⟨type, .reset, none, d.next, d.next + 1, none⟩))
  exact (((hpair.trans (grown_tick _)).setQp hle _).trans (grown_tick _) |>.setQp hle _ |>.trans
    (grown_tick _)).setQp hle _

/-- Making the one queue pair: it stands under a fresh handle. -/
theorem wp_makeUdqp_of_new {Q : Unit → UnreliableRDMA → Prop} (hqp : u.udqp.qp = none)
    (hQ : ∀ d qp h udqpConn, u.device.Grown d → qp.qp = some h →
      Q () { u with device := d, udqp := qp, udqpConn := udqpConn }) :
    wp makeUdqp Q (fun _ _ => True) u :=
  wp_makeUdqp_cases hqp (fun _ udqpConn => hQ _ _ _ udqpConn (grown_onePair _ _) rfl)
    (fun _ _ => trivial) fun _ _ _ _ _ _ _ => trivial

/-- The object after `connectQP` stored the address handle `ah` for `id`. -/
def connectedTo (s : BaseRDMA) (id : ℕ) (device : Device) (ah : Option ℕ) : BaseRDMA :=
  { s with
    device := device
    rconns := s.rconns.set id { s.rconnAt id with ah }
    connected := s.connected.insert id true }

theorem rconnAt_connectedTo {ah : Option ℕ} (hlt : id < s.rconns.length) (i : ℕ) :
    (connectedTo s id d ah).rconnAt i = if i = id then { s.rconnAt id with ah } else s.rconnAt i :=
  getD_set hlt i

/-- **`connectQP`** does nothing for an id that was disconnected; otherwise
it makes an address handle. -/
theorem wp_connectQP {Q : Unit → BaseRDMA → Prop}
    (hstay : s.connected.lookup id = some false → Q () s)
    (hQ : s.connected.lookup id ≠ some false → id < s.rconns.length →
      s.device.errno s.device.calls = 0 →
      Q () (connectedTo s id (s.device.tick.addAh (s.rconnAt id).lid) (some s.device.next)))
    (hfail : s.connected.lookup id ≠ some false → id < s.rconns.length →
      s.device.errno s.device.calls ≠ 0 → Q () (connectedTo s id s.device.tick none))
    (hE : ∀ e, s.connected.lookup id ≠ some false → s.rconns.length ≤ id → E e s) :
    wp (connectQP id) Q E s := by
  unfold connectQP
  simp only [wp_bind, wp_get, wp_ite, wp_pure, wp_modify, wp_onDevice, wp_element IbConn.zero,
    wp_ibvCreateAh]
  exact ⟨hstay, fun hconn => ⟨fun hlt => ⟨hQ hconn hlt, hfail hconn hlt⟩, hE _ hconn⟩⟩

/-- **`disconnectQP`** destroys the address handle of a connected id. -/
theorem wp_disconnectQP_of_live {dlid : UInt16} {Q : Unit → BaseRDMA → Prop}
    (hsucc : s.device.Succeeds) (hconn : s.connected.lookup id = some true)
    (hlt : id < s.rconns.length) (hah : (s.rconnAt id).ah = some h)
    (hlive : s.device.ahs h = some dlid)
    (hQ : Q () { s with
      device := s.device.tick.dropAh h
      connected := s.connected.insert id false }) : wp (disconnectQP id) Q E s := by
  unfold disconnectQP
  simp only [wp_bind, wp_get, wp_ite, wp_pure, wp_modify, wp_onDevice, wp_element IbConn.zero]
  refine ⟨fun hbad => absurd hconn hbad, fun _ => ⟨fun _ => ?_, fun hge => absurd hlt (by omega)⟩⟩
  change wp (ibvDestroyAh (s.rconnAt id).ah) _ _ _
  rw [hah, wp_ibvDestroyAh hlive]
  exact ⟨fun _ => hQ, fun herr => absurd (hsucc _) herr⟩

theorem wp_disconnectQP_of_not_connected {Q : Unit → BaseRDMA → Prop}
    (hconn : s.connected.lookup id ≠ some true) (hQ : Q () s) : wp (disconnectQP id) Q E s := by
  unfold disconnectQP
  simp only [wp_bind, wp_get, wp_ite, wp_pure]
  exact ⟨fun _ => hQ, fun hbad => absurd hconn hbad⟩

/-- Once constructed, an object enters its queue pair in the tables. -/
theorem wp_initQPWithSuppliedID {Q : Unit → UnreliableRDMA → Prop}
    {E : Exn → UnreliableRDMA → Prop} (hqp : u.udqp.qp = some h)
    (hQ : ∀ s lconns, u.toBaseRDMA.QpSet id u.udqp s →
      (∀ i, lconns.getD i IbConn.zero = if i = id then u.udqpConn else u.lconnAt i) →
      Q () { u with toBaseRDMA := { s with lconns } })
    (hE : ∀ e, 2 ^ 64 ≤ id + 1 → E e u) : wp (initQPWithSuppliedID id) Q E u := by
  unfold initQPWithSuppliedID
  simp only [wp_bind, wp_get, wp_onBase]
  refine wp_makeUdqp hqp ?_
  refine wp_setQP hqp (fun s hset => ?_) fun _ hid => hE _ hid
  refine wp_setLocalConnData (fun lconns hconn _ => ?_) fun e hid => absurd hset.bound (by omega)
  refine hQ s lconns hset fun i => ?_
  rw [hconn i]
  unfold lconnAt
  rw [hset.lconns]

end UnreliableRDMA

end RdmaManager
