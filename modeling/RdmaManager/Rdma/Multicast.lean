import RdmaManager.Rdma.Posting
import RdmaManager.Verbs.Cm
/-!
# Multicast groups

`joinMCastGroup` makes an event channel, a connection manager id, a
protection domain, a memory region, two completion queues, a queue pair
and an address handle, and enters them in `m_udpMcastConns` when all of
them stand. It destroys none of them when a call in between fails.
-/

namespace RdmaManager

/-- `rdma_mcast_conn_t`, with the handles it holds. -/
structure MCastEntry extends MCastConn where
  mcastAddr : String
  id : Option ℕ
  channel : Option ℕ
  scq : Option ℕ
  rcq : Option ℕ
  pd : Option ℕ
  mr : Option ℕ
  /-- `id->qp`. -/
  qp : Option ℕ
  active : Bool
  deriving DecidableEq, Repr

/-- An entry that a resize made. -/
def MCastEntry.zero : MCastEntry :=
  { qpNum := 0, lkey := 0, ah := none, remoteQpn := 0, remoteQkey := 0, mcastAddr := ""
    id := none, channel := none, scq := none, rcq := none, pd := none, mr := none, qp := none
    active := false }

/-- The groups of an `UnreliableRDMA`, with the connection manager. -/
structure MCastGroups where
  cm : CmDevice
  lastMCastConnKey : ℕ
  udpMcastConns : List MCastEntry
  sendMCastCount : List ℕ

namespace MCastGroups

open CmDevice

/-- Call the connection manager. -/
def onCm {α : Type} (x : Act CmDevice α) : Act MCastGroups α :=
  Act.zoom MCastGroups.cm (fun g cm => { g with cm }) x

/-- `UnreliableRDMA::nextMCastConnKey`. -/
def nextMCastConnKey : Act MCastGroups ℕ := do
  let g ← Act.get
  Act.modify fun g => { g with lastMCastConnKey := wrap64 (g.lastMCastConnKey + 1) }
  return g.lastMCastConnKey

/-- `UnreliableRDMA::getCmEvent`. -/
def getCmEvent (type : ℕ) : Act CmDevice CmEvent := do
  let (err, event) ← rdmaGetCmEvent
  if err ≠ 0 then throw (.runtimeError "rdma_get_cm_event failed!")
  if event.event ≠ type then
    throw (.runtimeError ("rdma_get_cm_event returned event did not match type! received: " ++
      toString event.event ++ " expected: " ++ toString type))
  return event

/-- `UnreliableRDMA::setMCastConn`. -/
def setMCastConn (key : ℕ) (conn : MCastEntry) : Act MCastGroups Unit := fun g =>
  match BaseRDMA.growSet MCastEntry.zero conn key g.udpMcastConns with
  | none => (.error (.undefined "m_udpMcastConns past its end"), g)
  | some udpMcastConns =>
      (.ok (), { g with
        udpMcastConns
        sendMCastCount := if g.udpMcastConns.length < key + 1 then resize 0 (key + 1) g.sendMCastCount
          else g.sendMCastCount })

/-- `UnreliableRDMA::joinMCastGroup`. Both completion queues are asked for
before either is looked at. -/
def joinMCastGroup (mCastAddress : String) : Act MCastGroups ℕ := do
  let retRdmaConnID ← nextMCastConnKey
  let channel ← onCm (made "Could not create event channel for multicast!" rdmaCreateEventChannel)
  let id ← onCm (made "Could not create connection for multicast!" rdmaCreateId)
  onCm (done "Could not resolve info for multicast address (1)!" rdmaGetaddrinfo)
  onCm (done "Could not resolve info for multicast address (2)!" rdmaResolveAddr)
  let _ ← onCm (getCmEvent RDMA_CM_EVENT_ADDR_RESOLVED)
  let pd ← onCm (made "Could not create multicast protection domain!" ibvAllocPd)
  let mr ← onCm (made "Could not assign memory region to multicast protection domain!" ibvRegMr)
  let scq ← onCm CmDevice.ibvCreateCq
  let rcq ← onCm CmDevice.ibvCreateCq
  if scq = none ∨ rcq = none then
    throw (.runtimeError "Could not create multicast completion queues!")
  let qp ← onCm (made "Could not create multicast queue pairs!" rdmaCreateQp)
  onCm (done "Could not join multicast group (1)!" rdmaJoinMulticast)
  let event ← onCm (getCmEvent RDMA_CM_EVENT_MULTICAST_JOIN)
  let ah ← onCm (made "Could not join multicast address handle!" CmDevice.ibvCreateAh)
  let g ← Act.get
  setMCastConn retRdmaConnID
    { qpNum := g.cm.qpNum qp
      lkey := g.cm.lkey mr
      ah := some ah
      remoteQpn := event.qpNum
      remoteQkey := event.qkey
      mcastAddr := mCastAddress
      id := some id
      channel := some channel
      scq, rcq
      pd := some pd
      mr := some mr
      qp := some qp
      active := true }
  return retRdmaConnID

/-! ## What the functions return -/

open Act

variable {g : MCastGroups} {E : Exn → MCastGroups → Prop}

theorem wp_onCm {α : Type} {x : Act CmDevice α} {Q : α → MCastGroups → Prop} :
    wp (onCm x) Q E g ↔ wp x (fun a cm => Q a { g with cm }) (fun e cm => E e { g with cm }) g.cm :=
  wp_zoom

theorem wp_getCmEvent {type n : ℕ} {d₀ d : CmDevice} {new : List (ObjectKind × ℕ)}
    {Q : CmEvent → CmDevice → Prop} {E : Exn → CmDevice → Prop} (h : After d₀ new n d)
    (hQ : d₀.errno (d₀.calls + n) = 0 → (d₀.event (d₀.calls + n)).event = type →
      ∀ event d', After d₀ new (n + 1) d' → Q event d')
    (hE : d₀.errno (d₀.calls + n) ≠ 0 ∨ (d₀.event (d₀.calls + n)).event ≠ type →
      ∀ e d', After d₀ new (n + 1) d' → E e d') : wp (getCmEvent type) Q E d := by
  unfold getCmEvent
  rw [wp_bind]
  show wp _ Q E d.tick
  simp only [wp_bind, wp_ite, wp_throw, wp_pure]
  rw [h.errno_eq, h.event_eq]
  refine ⟨fun herr => hE (Or.inl herr) _ _ h.tick, fun herr => ⟨fun htype => ?_, fun htype => ?_⟩⟩
  · exact hE (Or.inr htype) _ _ h.tick
  · exact hQ (not_not.mp herr) (not_not.mp htype) _ _ h.tick

theorem wp_setMCastConn {key : ℕ} {conn : MCastEntry} {Q : Unit → MCastGroups → Prop}
    (hQ : ∀ g', g'.cm = g.cm → conn ∈ g'.udpMcastConns → Q () g')
    (hE : ∀ what, E (.undefined what) g) : wp (setMCastConn key conn) Q E g := by
  unfold wp setMCastConn
  cases hgrow : BaseRDMA.growSet MCastEntry.zero conn key g.udpMcastConns with
  | none => exact hE _
  | some udpMcastConns => exact hQ _ rfl (BaseRDMA.mem_of_growSet hgrow)

end MCastGroups

end RdmaManager
