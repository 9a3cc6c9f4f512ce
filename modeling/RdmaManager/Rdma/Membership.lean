import RdmaManager.Rdma.Multicast
/-!
# Multicast membership

`leaveMCastGroup` leaves a group and destroys what `joinMCastGroup` made,
where the entry is active; the destructor calls it for every entry. Joins
that throw take an id as well, and leave a gap among the entries that a
later join fills with entries that are not active.

The ledger ties the entries to the joins: an entry is active until its
group was left, and what a join made was destroyed once or not at all,
depending on that.
-/

namespace RdmaManager

/-- Remove an object. -/
def CmDevice.remove (d : CmDevice) (o : ObjectKind × ℕ) : CmDevice :=
  { d with
    live := d.live.erase o
    fresh := fun x hx => d.fresh x (List.mem_of_mem_erase hx) }

/-- A handle of an entry, where there is one. -/
def ObjectKind.handle (kind : ObjectKind) (h : Option ℕ) : List (ObjectKind × ℕ) :=
  (h.map fun h => (kind, h)).toList

/-- What an entry names, in the order in which it was made, the last first. -/
def MCastEntry.handles (conn : MCastEntry) : List (ObjectKind × ℕ) :=
  ObjectKind.ah.handle conn.ah ++ (ObjectKind.qp.handle conn.qp ++ (ObjectKind.cq.handle conn.rcq ++
    (ObjectKind.cq.handle conn.scq ++ (ObjectKind.mr.handle conn.mr ++
      (ObjectKind.pd.handle conn.pd ++ (ObjectKind.cmId.handle conn.id ++
        ObjectKind.channel.handle conn.channel))))))

/-- **The groups, with what was left and destroyed.** -/
structure MCastMember where
  groups : MCastGroups
  /-- What the `n`th `rdma_leave_multicast` returns. -/
  leaveErrno : ℕ → ℕ
  leaves : ℕ
  /-- The connection ids that left their groups. -/
  left : List ℕ
  /-- The calls that destroyed an object. -/
  destroyed : List (ObjectKind × ℕ)

namespace MCastMember

/-- `rdma_leave_multicast`. -/
def rdmaLeaveMulticast (id : ℕ) : Act MCastMember ℕ := fun m =>
  (.ok (m.leaveErrno m.leaves),
    { m with
      leaves := m.leaves + 1
      left := if m.leaveErrno m.leaves = 0 then id :: m.left else m.left })

/-- Without the object of a handle. -/
def without (kind : ObjectKind) (h : Option ℕ) (m : MCastMember) : MCastMember :=
  match h with
  | some h =>
      { m with
        groups := { m.groups with cm := m.groups.cm.remove (kind, h) }
        destroyed := (kind, h) :: m.destroyed }
  | none => m

/-- `if (h) destroy(h);` -/
def destroy (kind : ObjectKind) (h : Option ℕ) : Act MCastMember Unit :=
  Act.modify (without kind h)

/-- `mCastConn.active = false;` -/
def deactivate (rdmaConnID : ℕ) (mCastConn : MCastEntry) (m : MCastMember) : MCastMember :=
  { m with
    groups := { m.groups with
      udpMcastConns := m.groups.udpMcastConns.set rdmaConnID { mCastConn with active := false } } }

/-- `UnreliableRDMA::leaveMCastGroup`, of an active entry. -/
def leaveActive (rdmaConnID : ℕ) (mCastConn : MCastEntry) : Act MCastMember Unit := do
  match mCastConn.id with
  | none => throw (.undefined "rdma_leave_multicast of a null id")
  | some id => do
      let err ← rdmaLeaveMulticast id
      if err ≠ 0 then
        throw (.runtimeError ("Did not leave rdma multicast successfully. rdmaConnID: " ++
          toString rdmaConnID))
      destroy .ah mCastConn.ah
      destroy .qp mCastConn.qp
      destroy .cq mCastConn.scq
      destroy .cq mCastConn.rcq
      destroy .mr mCastConn.mr
      destroy .pd mCastConn.pd
      destroy .cmId mCastConn.id
      destroy .channel mCastConn.channel
      Act.modify (deactivate rdmaConnID mCastConn)

/-- **`UnreliableRDMA::leaveMCastGroup`.** -/
def leaveMCastGroup (rdmaConnID : ℕ) : Act MCastMember Unit := do
  let m ← Act.get
  if m.groups.udpMcastConns = [] then pure ()
  else do
    let mCastConn ← Act.element "m_udpMcastConns past its end" m.groups.udpMcastConns rdmaConnID
    if mCastConn.active = false then pure ()
    else leaveActive rdmaConnID mCastConn

/-- The loop of the destructor, over the ids from `mcastID` on. -/
def leaveAll (mcastID : ℕ) : ℕ → Act MCastMember Unit
  | 0 => pure ()
  | n + 1 => do
      leaveMCastGroup mcastID
      leaveAll (mcastID + 1) n

/-- **`UnreliableRDMA::~UnreliableRDMA`**, as far as its groups go. -/
def destructor : Act MCastMember Unit := do
  let m ← Act.get
  leaveAll 0 m.groups.udpMcastConns.length

/-! ## Runs -/

/-- What happened: a join that returned an id or threw, with the connection
manager before and after it, or a leave, with the entries. -/
inductive Happened
  | joined (id : ℕ) (before after : CmDevice)
  | threw (before after : CmDevice)
  | left (id : ℕ) (before after : List MCastEntry)

namespace Happened

/-- The objects that were made: those with the handles given out since. -/
def made : Happened → List (ObjectKind × ℕ)
  | joined _ before after | threw before after =>
      after.live.filter fun o => before.next ≤ o.2
  | left _ _ _ => []

def isJoin : Happened → Bool
  | joined _ _ _ | threw _ _ => true
  | left _ _ _ => false

/-- The id that a join returned. -/
def returned : Happened → Option ℕ
  | joined id _ _ => some id
  | threw _ _ | left _ _ _ => none

end Happened

/-- **A run** from `m₀`: joins that return or throw, and leaves of ids that
joins have returned. What happened last stands first. -/
inductive Run (m₀ : MCastMember) : List Happened → MCastMember → Prop
  | start : Run m₀ [] m₀
  | joined {es : List Happened} {m : MCastMember} {addr : String} {id : ℕ} {g : MCastGroups} :
      Run m₀ es m → MCastGroups.joinMCastGroup addr m.groups = (.ok id, g) →
      Run m₀ (.joined id m.groups.cm g.cm :: es) { m with groups := g }
  | threw {es : List Happened} {m : MCastMember} {addr : String} {e : Exn} {g : MCastGroups} :
      Run m₀ es m → MCastGroups.joinMCastGroup addr m.groups = (.error e, g) →
      Run m₀ (.threw m.groups.cm g.cm :: es) { m with groups := g }
  | left {es : List Happened} {m m' : MCastMember} {id : ℕ} {r : Except Exn Unit} :
      Run m₀ es m → id ∈ es.filterMap Happened.returned → leaveMCastGroup id m = (r, m') →
      Run m₀ (.left id m.groups.udpMcastConns m'.groups.udpMcastConns :: es) m'

theorem Run.joined_of_ok {m₀ m : MCastMember} {es : List Happened} {addr : String} {id : ℕ}
    (hrun : Run m₀ es m) (hok : (MCastGroups.joinMCastGroup addr m.groups).1 = .ok id) :
    Run m₀ (.joined id m.groups.cm (MCastGroups.joinMCastGroup addr m.groups).2.cm :: es)
      { m with groups := (MCastGroups.joinMCastGroup addr m.groups).2 } :=
  hrun.joined (Prod.ext hok rfl)

/-- How often a group was joined, or tried to be. -/
def joins (es : List Happened) : ℕ := es.countP Happened.isJoin

@[simp] theorem joins_joined (id : ℕ) (d d' : CmDevice) (es : List Happened) :
    joins (.joined id d d' :: es) = joins es + 1 := List.countP_cons_of_pos rfl

@[simp] theorem joins_threw (d d' : CmDevice) (es : List Happened) :
    joins (.threw d d' :: es) = joins es + 1 := List.countP_cons_of_pos rfl

@[simp] theorem joins_left (id : ℕ) (c c' : List MCastEntry) (es : List Happened) :
    joins (.left id c c' :: es) = joins es := List.countP_cons_of_neg Bool.false_ne_true

/-- An object without groups. -/
structure Unused (m : MCastMember) : Prop where
  key : m.groups.lastMCastConnKey = 0
  conns : m.groups.udpMcastConns = []
  left : m.left = []
  destroyed : m.destroyed = []

end MCastMember

/-! ## What a join leaves -/

namespace CmDevice

open Act

variable {d₀ d : CmDevice}

/-- **Nothing was destroyed, and what was made has new handles**, a different
one each. -/
structure Grown (d₀ d : CmDevice) : Prop where
  live : ∃ new, d.live = new ++ d₀.live ∧ (new.Pairwise fun o o' => o'.2 < o.2) ∧
    ∀ o ∈ new, d₀.next ≤ o.2
  next : d₀.next ≤ d.next

theorem Grown.refl (d : CmDevice) : Grown d d :=
  ⟨⟨[], rfl, List.Pairwise.nil, fun _ ho => absurd ho List.not_mem_nil⟩, le_rfl⟩

theorem Grown.tick (h : Grown d₀ d) : Grown d₀ d.tick := ⟨h.live, h.next⟩

theorem Grown.add (h : Grown d₀ d) (kind : ObjectKind) : Grown d₀ (d.add kind) where
  live := by
    obtain ⟨new, hlive, hpairwise, habove⟩ := h.live
    refine ⟨(kind, d.next) :: new, congrArg _ hlive, List.pairwise_cons.mpr ⟨?_, hpairwise⟩, ?_⟩
    · intro o ho
      exact d.fresh o (hlive ▸ List.mem_append_left _ ho)
    · exact List.forall_mem_cons.mpr ⟨h.next, habove⟩
  next := h.next.trans (Nat.le_succ _)

theorem preserves_create (kind : ObjectKind) : Preserves (Grown d₀) (create kind) := by
  intro d h
  rw [wp_create]
  exact ⟨fun _ => h.tick.add kind, fun _ => h.tick⟩

theorem preserves_request : Preserves (Grown d₀) request := fun _ h => h.tick

theorem preserves_made (what : String) (kind : ObjectKind) :
    Preserves (Grown d₀) (made what (create kind)) := by
  refine (preserves_create kind).bind fun h => ?_
  cases h with
  | none => exact preserves_throw _
  | some h => exact preserves_pure h

theorem preserves_done (what : String) : Preserves (Grown d₀) (done what request) :=
  preserves_request.bind fun _ => (preserves_throw _).ite (preserves_pure _)

/-- The new objects of a device that has grown. -/
theorem filter_of_grown {new : List (ObjectKind × ℕ)} (h : Grown d₀ d)
    (hlive : d.live = new ++ d₀.live) :
    (d.live.filter fun o => d₀.next ≤ o.2) = new ∧ new.Nodup ∧
      ∀ o ∈ new, d₀.next ≤ o.2 ∧ o.2 < d.next := by
  obtain ⟨new', hlive', hpairwise, habove⟩ := h.live
  obtain rfl : new = new' := List.append_cancel_right (hlive.symm.trans hlive')
  refine ⟨?_, ?_, fun o ho => ⟨habove o ho, ?_⟩⟩
  · have hnew : (new.filter fun o => d₀.next ≤ o.2) = new :=
      List.filter_eq_self.mpr fun o ho => decide_eq_true (habove o ho)
    have hold : (d₀.live.filter fun o => d₀.next ≤ o.2) = [] := by
      rw [List.filter_eq_nil_iff]
      intro o ho hge
      have hlt := d₀.fresh o ho
      have hle := of_decide_eq_true hge
      omega
    rw [hlive, List.filter_append, hnew, hold, List.append_nil]
  · refine hpairwise.imp fun hlt => ?_
    rintro rfl
    exact absurd hlt (lt_irrefl _)
  · exact d.fresh o (hlive ▸ List.mem_append_left _ ho)

end CmDevice

namespace MCastGroups

open CmDevice Act

variable {g g' : MCastGroups} {d₀ : CmDevice}

theorem preserves_onCm {α : Type} {x : Act CmDevice α} (hx : Preserves (Grown d₀) x) :
    Preserves (fun g => Grown d₀ g.cm) (onCm x) :=
  hx.zoom (fun _ h => h) fun _ _ _ h => h

theorem preserves_getCmEvent (type : ℕ) : Preserves (Grown d₀) (getCmEvent type) := by
  have hget : Preserves (Grown d₀) rdmaGetCmEvent := fun _ h => h.tick
  refine hget.bind fun p => ?_
  exact preserves_guard (preserves_guard (preserves_pure _))

theorem preserves_nextMCastConnKey : Preserves (fun g => Grown d₀ g.cm) nextMCastConnKey :=
  fun _ h => h

theorem preserves_setMCastConn (key : ℕ) (conn : MCastEntry) :
    Preserves (fun g => Grown d₀ g.cm) (setMCastConn key conn) := by
  intro g h
  exact wp_setMCastConn (fun g' hcm _ => by rw [hcm]; exact h) fun _ => h

/-- **A join destroys nothing.** -/
theorem preserves_joinMCastGroup (addr : String) :
    Preserves (fun g => Grown d₀ g.cm) (joinMCastGroup addr) := by
  unfold joinMCastGroup
  refine preserves_nextMCastConnKey.bind fun _ => ?_
  refine (preserves_onCm (preserves_made _ _)).bind fun _ => ?_
  refine (preserves_onCm (preserves_made _ _)).bind fun _ => ?_
  refine (preserves_onCm (preserves_done _)).bind fun _ => ?_
  refine (preserves_onCm (preserves_done _)).bind fun _ => ?_
  refine (preserves_onCm (preserves_getCmEvent _)).bind fun _ => ?_
  refine (preserves_onCm (preserves_made _ _)).bind fun _ => ?_
  refine (preserves_onCm (preserves_made _ _)).bind fun _ => ?_
  refine (preserves_onCm (preserves_create _)).bind fun _ => ?_
  refine (preserves_onCm (preserves_create _)).bind fun _ => ?_
  refine preserves_guard ?_
  refine (preserves_onCm (preserves_made _ _)).bind fun _ => ?_
  refine (preserves_onCm (preserves_done _)).bind fun _ => ?_
  refine (preserves_onCm (preserves_getCmEvent _)).bind fun _ => ?_
  refine (preserves_onCm (preserves_made _ _)).bind fun _ => ?_
  refine preserves_get.bind fun _ => ?_
  exact (preserves_setMCastConn _ _).bind fun _ => preserves_pure _

/-- The kinds of the objects of a group, the last made first. -/
def groupKinds : List ObjectKind := [.ah, .qp, .cq, .cq, .mr, .pd, .cmId, .channel]

/-- What a join that returns has done: an active entry under its id names what
it made. -/
def Entered (g : MCastGroups) (id : ℕ) (g' : MCastGroups) : Prop :=
  id = g.lastMCastConnKey ∧ g'.lastMCastConnKey = wrap64 (g.lastMCastConnKey + 1) ∧
    ∃ conn n, conn.active = true ∧ conn.id.isSome ∧ conn.handles.map Prod.fst = groupKinds ∧
      BaseRDMA.growSet MCastEntry.zero conn id g.udpMcastConns = some g'.udpMcastConns ∧
      After g.cm conn.handles n g'.cm

/-- What a join that throws has done: it used up an id. -/
def Wasted (g g' : MCastGroups) : Prop :=
  g'.lastMCastConnKey = wrap64 (g.lastMCastConnKey + 1) ∧ g'.udpMcastConns = g.udpMcastConns

theorem wp_setMCastConn_grown {key : ℕ} {conn : MCastEntry} {Q : Unit → MCastGroups → Prop}
    {E : Exn → MCastGroups → Prop}
    (hQ : ∀ conns count, BaseRDMA.growSet MCastEntry.zero conn key g.udpMcastConns = some conns →
      Q () { g with udpMcastConns := conns, sendMCastCount := count })
    (hE : ∀ what, E (.undefined what) g) : wp (setMCastConn key conn) Q E g := by
  unfold wp setMCastConn
  cases hgrow : BaseRDMA.growSet MCastEntry.zero conn key g.udpMcastConns with
  | none => exact hE _
  | some conns => exact hQ conns _ hgrow

/-- **What a join does**, whether it returns or throws. -/
theorem wp_joinMCastGroup (addr : String) (g : MCastGroups) :
    wp (joinMCastGroup addr) (Entered g) (fun _ => Wasted g) g := by
  unfold joinMCastGroup nextMCastConnKey
  simp only [wp_bind, wp_get, wp_modify, wp_pure, wp_onCm, wp_ite, wp_throw]
  refine (After.start g.cm).wp_made (fun _ c d a => ?_) fun _ e d a => ⟨rfl, rfl⟩
  refine a.wp_made (fun _ i d a => ?_) fun _ e d a => ⟨rfl, rfl⟩
  refine a.wp_done (fun _ d a => ?_) fun _ e d a => ⟨rfl, rfl⟩
  refine a.wp_done (fun _ d a => ?_) fun _ e d a => ⟨rfl, rfl⟩
  refine wp_getCmEvent a (fun _ _ event d a => ?_) fun _ e d a => ⟨rfl, rfl⟩
  refine a.wp_made (fun _ pd d a => ?_) fun _ e d a => ⟨rfl, rfl⟩
  refine a.wp_made (fun _ mr d a => ?_) fun _ e d a => ⟨rfl, rfl⟩
  -- without one of the completion queues it throws
  refine a.wp_create (fun _ scq d a => ?_) fun _ d a => ?_
  swap
  · refine a.wp_create (fun _ rcq d a => ⟨fun _ => ⟨rfl, rfl⟩, fun hbad => ?_⟩) fun _ d a =>
      ⟨fun _ => ⟨rfl, rfl⟩, fun hbad => ?_⟩
    · exact absurd (Or.inl rfl) hbad
    · exact absurd (Or.inl rfl) hbad
  refine a.wp_create (fun _ rcq d a => ⟨fun _ => ⟨rfl, rfl⟩, fun _ => ?_⟩) fun _ d a =>
    ⟨fun _ => ⟨rfl, rfl⟩, fun hbad => absurd (Or.inr rfl) hbad⟩
  refine a.wp_made (fun _ qp d a => ?_) fun _ e d a => ⟨rfl, rfl⟩
  refine a.wp_done (fun _ d a => ?_) fun _ e d a => ⟨rfl, rfl⟩
  refine wp_getCmEvent a (fun _ _ event d a => ?_) fun _ e d a => ⟨rfl, rfl⟩
  refine a.wp_made (fun _ ah d a => ?_) fun _ e d a => ⟨rfl, rfl⟩
  refine wp_setMCastConn_grown (fun conns count hgrow => ?_) fun what => ⟨rfl, rfl⟩
  exact ⟨rfl, rfl, _, _, rfl, rfl, rfl, hgrow, a⟩

end MCastGroups

namespace MCastMember

open Act CmDevice

variable {m m' : MCastMember} {es : List Happened} {id i : ℕ} {kind : ObjectKind} {h : Option ℕ}
variable {conn : MCastEntry} {o : ObjectKind × ℕ} {d d' : CmDevice}

/-! ## What a leave does -/

@[simp] theorem without_conns :
    (m.without kind h).groups.udpMcastConns = m.groups.udpMcastConns := by
  cases h <;> rfl

@[simp] theorem without_key :
    (m.without kind h).groups.lastMCastConnKey = m.groups.lastMCastConnKey := by
  cases h <;> rfl

@[simp] theorem without_next : (m.without kind h).groups.cm.next = m.groups.cm.next := by
  cases h <;> rfl

@[simp] theorem without_left : (m.without kind h).left = m.left := by
  cases h <;> rfl

@[simp] theorem without_leaveErrno : (m.without kind h).leaveErrno = m.leaveErrno := by
  cases h <;> rfl

@[simp] theorem without_destroyed : (m.without kind h).destroyed = kind.handle h ++ m.destroyed := by
  cases h <;> rfl

/-- An entry, or the one that a resize makes. -/
def entry (m : MCastMember) (id : ℕ) : MCastEntry :=
  m.groups.udpMcastConns.getD id MCastEntry.zero

/-- **What a leave of an active entry does.** -/
structure Leaves (m : MCastMember) (id cmId : ℕ) (m' : MCastMember) : Prop where
  left : m'.left = cmId :: m.left
  destroyed : ∀ o, m'.destroyed.count o = (m.entry id).handles.count o + m.destroyed.count o
  conns : m'.groups.udpMcastConns =
    m.groups.udpMcastConns.set id { m.entry id with active := false }
  key : m'.groups.lastMCastConnKey = m.groups.lastMCastConnKey
  next : m'.groups.cm.next = m.groups.cm.next
  leaveErrno : m'.leaveErrno = m.leaveErrno

theorem leaveMCastGroup_of_lt (hlt : id < m.groups.udpMcastConns.length) :
    leaveMCastGroup id m =
      if (m.entry id).active = false then (.ok (), m) else leaveActive id (m.entry id) m := by
  have hne : m.groups.udpMcastConns ≠ [] := List.ne_nil_of_length_pos (Nat.zero_lt_of_lt hlt)
  have helement : m.groups.udpMcastConns[id]? = some (m.entry id) := by
    unfold entry
    rw [List.getD_eq_getElem _ _ hlt, List.getElem?_eq_getElem hlt]
  show (if m.groups.udpMcastConns = [] then pure () else _ : Act MCastMember Unit) m = _
  rw [if_neg hne]
  unfold element
  rw [helement]
  show (if (m.entry id).active = false then pure () else leaveActive id (m.entry id) :
    Act MCastMember Unit) m = _
  split_ifs <;> rfl

theorem leaveMCastGroup_inactive (hlt : id < m.groups.udpMcastConns.length)
    (hinactive : (m.entry id).active = false) : leaveMCastGroup id m = (.ok (), m) := by
  rw [leaveMCastGroup_of_lt hlt, if_pos hinactive]

theorem leaveMCastGroup_active (hlt : id < m.groups.udpMcastConns.length) {cmId : ℕ}
    (hactive : (m.entry id).active = true) (hid : (m.entry id).id = some cmId)
    (hleave : ∀ n, m.leaveErrno n = 0) :
    ∃ m', leaveMCastGroup id m = (.ok (), m') ∧ Leaves m id cmId m' := by
  have hwp : wp (leaveActive id (m.entry id)) (fun _ m' => Leaves m id cmId m') (fun _ _ => False) m := by
    unfold leaveActive
    rw [hid]
    simp only [wp_bind]
    show wp _ _ _ _
    simp only [wp_ite]
    refine ⟨fun herr => herr (hleave _), fun _ => ⟨?_, fun o => ?_, ?_, ?_, ?_, ?_⟩⟩
    · simp only [deactivate, without_left]
      exact if_pos (hleave _)
    · simp only [deactivate, without_destroyed, MCastEntry.handles, List.count_append]
      rw [hid]
      omega
    · simp only [deactivate, without_conns]
    · simp only [deactivate, without_key]
    · simp only [deactivate, without_next]
    · simp only [deactivate, without_leaveErrno]
  obtain ⟨_, hok, hleaves⟩ := ok_of_wp hwp
  refine ⟨_, ?_, hleaves⟩
  rw [leaveMCastGroup_of_lt hlt, if_neg (by rw [hactive]; decide)]
  exact Prod.ext hok rfl

/-! ## The ledger -/

/-- **The ledger**: entries, joins and what was destroyed agree. -/
structure Ledger (es : List Happened) (m : MCastMember) : Prop where
  leaveErrno : ∀ n, m.leaveErrno n = 0
  key : m.groups.lastMCastConnKey = joins es
  ids_lt : ∀ id ∈ es.filterMap Happened.returned, id < joins es
  nodup : (es.filterMap Happened.returned).Nodup
  entered : ∀ id d d', .joined id d d' ∈ es → id < m.groups.udpMcastConns.length ∧
    (m.entry id).handles = (Happened.joined id d d').made ∧ (m.entry id).id.isSome
  made : ∀ id d d', .joined id d d' ∈ es → (Happened.joined id d d').made.Nodup ∧
    (Happened.joined id d d').made.map Prod.fst = MCastGroups.groupKinds
  gap : ∀ id, id ∉ es.filterMap Happened.returned → (m.entry id).active = false
  below : ∀ e ∈ es, ∀ o ∈ e.made, o.2 < m.groups.cm.next
  apart : ∀ e ∈ es, ∀ e' ∈ es, ∀ o ∈ e.made, o ∈ e'.made → e = e'
  once : ∀ id d d', .joined id d d' ∈ es → (m.entry id).active = false →
    ∀ o ∈ (Happened.joined id d d').made, m.destroyed.count o = 1
  kept : ∀ o, (∀ id d d', .joined id d d' ∈ es → o ∈ (Happened.joined id d d').made →
    (m.entry id).active = true) → m.destroyed.count o = 0
  left : ∀ cmId, m.left.count cmId = m.destroyed.count (.cmId, cmId)

theorem ledger_start (hunused : Unused m) (hleave : ∀ n, m.leaveErrno n = 0) : Ledger [] m where
  leaveErrno := hleave
  key := hunused.key
  ids_lt _ hid := absurd hid List.not_mem_nil
  nodup := List.nodup_nil
  entered _ _ _ hin := absurd hin List.not_mem_nil
  made _ _ _ hin := absurd hin List.not_mem_nil
  gap id _ := by
    unfold entry
    rw [hunused.conns]
    rfl
  below _ hin := absurd hin List.not_mem_nil
  apart _ hin := absurd hin List.not_mem_nil
  once _ _ _ hin := absurd hin List.not_mem_nil
  kept o _ := by
    rw [hunused.destroyed]
    rfl
  left cmId := by
    rw [hunused.destroyed, hunused.left]
    rfl

theorem mem_returned (h : .joined id d d' ∈ es) : id ∈ es.filterMap Happened.returned :=
  List.mem_filterMap.mpr ⟨_, h, rfl⟩

theorem exists_joined (h : id ∈ es.filterMap Happened.returned) :
    ∃ d d', .joined id d d' ∈ es := by
  obtain ⟨e, he, hreturned⟩ := List.mem_filterMap.mp h
  cases e with
  | joined id' d d' =>
      obtain rfl : id' = id := Option.some.inj hreturned
      exact ⟨d, d', he⟩
  | threw d d' => exact absurd hreturned (by simp [Happened.returned])
  | left id' c c' => exact absurd hreturned (by simp [Happened.returned])

/-- What is new is apart from what was made before. -/
theorem apart_cons {e : Happened} {next : ℕ} (habove : ∀ o ∈ e.made, next ≤ o.2)
    (hbelow : ∀ e ∈ es, ∀ o ∈ e.made, o.2 < next)
    (hapart : ∀ e ∈ es, ∀ e' ∈ es, ∀ o ∈ e.made, o ∈ e'.made → e = e') :
    ∀ a ∈ e :: es, ∀ b ∈ e :: es, ∀ o ∈ a.made, o ∈ b.made → a = b := by
  intro a ha b hb o hoa hob
  rcases List.mem_cons.mp ha with rfl | haes
  · rcases List.mem_cons.mp hb with rfl | hbes
    · rfl
    · exact absurd (habove o hoa) (Nat.not_le.mpr (hbelow b hbes o hob))
  · rcases List.mem_cons.mp hb with rfl | hbes
    · exact absurd (habove o hob) (Nat.not_le.mpr (hbelow a haes o hoa))
    · exact hapart a haes b hbes o hoa hob

/-- **A join that throws** uses up an id and leaves the rest alone. -/
theorem Ledger.threw (hledger : Ledger es m) {g : MCastGroups}
    (hwasted : MCastGroups.Wasted m.groups g) (hgrown : Grown m.groups.cm g.cm)
    (hjoins : joins es + 1 < 2 ^ 64) :
    Ledger (.threw m.groups.cm g.cm :: es) { m with groups := g } := by
  have hentry : ∀ id, ({ m with groups := g } : MCastMember).entry id = m.entry id := by
    intro id
    show g.udpMcastConns.getD id _ = m.groups.udpMcastConns.getD id _
    rw [hwasted.2]
  have hjoined : ∀ {id : ℕ} {d d' : CmDevice}, .joined id d d' ∈ .threw m.groups.cm g.cm :: es →
      .joined id d d' ∈ es :=
    fun hin => (List.mem_cons.mp hin).resolve_left (by simp)
  obtain ⟨new, hlive, -, -⟩ := hgrown.live
  obtain ⟨hfilter, hnodup, hbounds⟩ := filter_of_grown hgrown hlive
  have hmade : (Happened.threw m.groups.cm g.cm).made = new := hfilter
  refine
    { leaveErrno := hledger.leaveErrno
      key := ?_, ids_lt := ?_, nodup := hledger.nodup, entered := ?_, made := ?_, gap := ?_
      below := ?_, apart := ?_, once := ?_, kept := ?_, left := hledger.left }
  · show g.lastMCastConnKey = _
    rw [hwasted.1, hledger.key, joins_threw]
    exact wrap64_of_lt hjoins
  · intro id hid
    rw [joins_threw]
    exact (hledger.ids_lt id hid).trans (Nat.lt_succ_self _)
  · intro id d d' hin
    rw [hentry]
    show id < g.udpMcastConns.length ∧ _
    rw [hwasted.2]
    exact hledger.entered id d d' (hjoined hin)
  · exact fun id d d' hin => hledger.made id d d' (hjoined hin)
  · intro id hid
    rw [hentry]
    exact hledger.gap id hid
  · refine List.forall_mem_cons.mpr ⟨fun o ho => ?_, fun e he o ho => ?_⟩
    · rw [hmade] at ho
      exact (hbounds o ho).2
    · exact (hledger.below e he o ho).trans_le hgrown.next
  · refine apart_cons (fun o ho => ?_) hledger.below hledger.apart
    rw [hmade] at ho
    exact (hbounds o ho).1
  · intro id d d' hin hinactive
    rw [hentry] at hinactive
    exact hledger.once id d d' (hjoined hin) hinactive
  · intro o hactive
    refine hledger.kept o fun id d d' hin ho => ?_
    rw [← hentry]
    exact hactive id d d' (List.mem_cons_of_mem _ hin) ho

/-- **A join that returns** enters what it made under a new id. -/
theorem Ledger.joined (hledger : Ledger es m) {g : MCastGroups}
    (hentered : MCastGroups.Entered m.groups id g) (hgrown : Grown m.groups.cm g.cm)
    (hjoins : joins es + 1 < 2 ^ 64) :
    Ledger (.joined id m.groups.cm g.cm :: es) { m with groups := g } := by
  obtain ⟨hid, hkey, conn, n, hactive, hsome, hkinds, hgrow, hafter⟩ := hentered
  rw [hledger.key] at hid hkey
  have hentry : ∀ i, ({ m with groups := g } : MCastMember).entry i =
      if i = id then conn else m.entry i := BaseRDMA.getD_growSet hgrow
  have hold : ∀ {i : ℕ}, i ∈ es.filterMap Happened.returned →
      ({ m with groups := g } : MCastMember).entry i = m.entry i := by
    intro i hi
    rw [hentry, if_neg]
    have hlt := hledger.ids_lt i hi
    omega
  obtain ⟨hlength, hlonger⟩ := BaseRDMA.lt_of_growSet hgrow
  obtain ⟨hfilter, hnodup, hbounds⟩ := filter_of_grown hgrown hafter.live
  have hmade : (Happened.joined id m.groups.cm g.cm).made = conn.handles := hfilter
  refine
    { leaveErrno := hledger.leaveErrno
      key := ?_, ids_lt := ?_, nodup := ?_, entered := ?_, made := ?_, gap := ?_
      below := ?_, apart := ?_, once := ?_, kept := ?_, left := hledger.left }
  · show g.lastMCastConnKey = _
    rw [hkey, joins_joined]
    exact wrap64_of_lt hjoins
  · -- the id is the number of joins so far, so no join has returned it
    rw [joins_joined]
    refine List.forall_mem_cons.mpr ⟨by omega, fun i hi => ?_⟩
    exact (hledger.ids_lt i hi).trans (Nat.lt_succ_self _)
  · refine List.nodup_cons.mpr ⟨fun hin => ?_, hledger.nodup⟩
    have hlt := hledger.ids_lt id hin
    omega
  · intro i d d' hin
    show i < g.udpMcastConns.length ∧ _
    rcases List.mem_cons.mp hin with heq | hin
    · obtain ⟨rfl, rfl, rfl⟩ := Happened.joined.inj heq
      rw [hentry, if_pos rfl, hmade]
      exact ⟨hlength, rfl, hsome⟩
    · rw [hold (mem_returned hin)]
      obtain ⟨hlt, hrest⟩ := hledger.entered i d d' hin
      exact ⟨hlt.trans_le hlonger, hrest⟩
  · intro i d d' hin
    rcases List.mem_cons.mp hin with heq | hin
    · obtain ⟨rfl, rfl, rfl⟩ := Happened.joined.inj heq
      rw [hmade]
      exact ⟨hnodup, hkinds⟩
    · exact hledger.made i d d' hin
  · intro i hi
    change i ∉ id :: es.filterMap Happened.returned at hi
    rw [List.mem_cons, not_or] at hi
    rw [hentry, if_neg hi.1]
    exact hledger.gap i hi.2
  · refine List.forall_mem_cons.mpr ⟨fun o ho => ?_, fun e he o ho => ?_⟩
    · rw [hmade] at ho
      exact (hbounds o ho).2
    · exact (hledger.below e he o ho).trans_le hgrown.next
  · refine apart_cons (fun o ho => ?_) hledger.below hledger.apart
    rw [hmade] at ho
    exact (hbounds o ho).1
  · intro i d d' hin hinactive
    rcases List.mem_cons.mp hin with heq | hin
    · obtain ⟨rfl, rfl, rfl⟩ := Happened.joined.inj heq
      rw [hentry, if_pos rfl, hactive] at hinactive
      exact absurd hinactive (by decide)
    · rw [hold (mem_returned hin)] at hinactive
      exact hledger.once i d d' hin hinactive
  · intro o hall
    refine hledger.kept o fun i d d' hin ho => ?_
    rw [← hold (mem_returned hin)]
    exact hall i d d' (List.mem_cons_of_mem _ hin) ho

theorem active_or (m : MCastMember) (id : ℕ) :
    (m.entry id).active = true ∨ (m.entry id).active = false := by
  cases (m.entry id).active
  · exact Or.inr rfl
  · exact Or.inl rfl

theorem entry_of_leaves {cmId : ℕ} (hleaves : Leaves m id cmId m')
    (hlt : id < m.groups.udpMcastConns.length) (i : ℕ) :
    m'.entry i = if i = id then { m.entry id with active := false } else m.entry i := by
  unfold entry
  rw [hleaves.conns, getD_set hlt]
  rfl

/-- Among the objects of a group is one connection id. -/
theorem count_cmId {cmId other : ℕ} (hid : conn.id = some cmId) :
    conn.handles.count (.cmId, other) = if other = cmId then 1 else 0 := by
  have hnone : ∀ (kind : ObjectKind) (h : Option ℕ), kind ≠ .cmId →
      (kind.handle h).count (.cmId, other) = 0 := by
    intro kind h hkind
    rw [List.count_eq_zero]
    cases h with
    | none => exact List.not_mem_nil
    | some h =>
        intro hmem
        exact hkind (Prod.mk.inj (List.mem_singleton.mp hmem)).1.symm
  unfold MCastEntry.handles
  simp only [List.count_append]
  rw [hnone .ah _ (by decide), hnone .qp _ (by decide), hnone .cq _ (by decide),
    hnone .cq _ (by decide), hnone .mr _ (by decide), hnone .pd _ (by decide),
    hnone .channel _ (by decide), hid]
  simp only [ObjectKind.handle, Option.map_some, Option.toList_some, List.count_singleton]
  split_ifs with h₁ h₂ h₂ <;> simp_all

/-- An entry has every object of its join once, -/
theorem Ledger.count_handles (hledger : Ledger es m) (hin : .joined id d d' ∈ es)
    (ho : o ∈ (Happened.joined id d d').made) : (m.entry id).handles.count o = 1 := by
  rw [(hledger.entered id d d' hin).2.1]
  exact List.count_eq_one_of_mem (hledger.made id d d' hin).1 ho

/-- and none of another join. -/
theorem Ledger.count_handles_of_ne (hledger : Ledger es m) {e e' : CmDevice}
    (hin : .joined id d d' ∈ es) (hother : .joined i e e' ∈ es) (hne : i ≠ id)
    (ho : o ∈ (Happened.joined i e e').made) : (m.entry id).handles.count o = 0 := by
  rw [(hledger.entered id d d' hin).2.1, List.count_eq_zero]
  intro hmem
  exact hne (Happened.joined.inj (hledger.apart _ hother _ hin o ho hmem)).1

/-- The objects of an active entry were not destroyed. -/
theorem Ledger.not_destroyed (hledger : Ledger es m) (hin : .joined id d d' ∈ es)
    (hactive : (m.entry id).active = true) (ho : o ∈ (Happened.joined id d d').made) :
    m.destroyed.count o = 0 := by
  refine hledger.kept o fun j f f' hj hoj => ?_
  have hsame := hledger.apart _ hin _ hj o ho hoj
  rw [← (Happened.joined.inj hsame).1]
  exact hactive

/-- **A leave** destroys what the join made, if the group was not left
before, and changes no other entry. -/
theorem Ledger.leave (hledger : Ledger es m) (hlt : id < m.groups.udpMcastConns.length) :
    ∃ m', leaveMCastGroup id m = (.ok (), m') ∧ Ledger es m' ∧
      m'.groups.udpMcastConns.length = m.groups.udpMcastConns.length ∧
      (m'.entry id).active = false ∧
      ∀ i, i ≠ id → m'.groups.udpMcastConns[i]? = m.groups.udpMcastConns[i]? := by
  rcases active_or m id with hactive | hinactive
  swap
  · exact ⟨m, leaveMCastGroup_inactive hlt hinactive, hledger, rfl, hinactive, fun _ _ => rfl⟩
  -- an active entry is one of a join that returned
  have hreturned : id ∈ es.filterMap Happened.returned := by
    by_contra hnot
    rw [hledger.gap id hnot] at hactive
    exact absurd hactive (by decide)
  obtain ⟨d, d', hin⟩ := exists_joined hreturned
  obtain ⟨-, hhandles, hsome⟩ := hledger.entered id d d' hin
  obtain ⟨cmId, hid⟩ := Option.isSome_iff_exists.mp hsome
  obtain ⟨m', hrun, hleaves⟩ := leaveMCastGroup_active hlt hactive hid hledger.leaveErrno
  have hentry := entry_of_leaves hleaves hlt
  have hlength : m'.groups.udpMcastConns.length = m.groups.udpMcastConns.length := by
    rw [hleaves.conns, List.length_set]
  have hsame : ∀ i, (m'.entry i).handles = (m.entry i).handles ∧ (m'.entry i).id = (m.entry i).id := by
    intro i
    rw [hentry]
    split_ifs with heq
    · rw [heq]
      exact ⟨rfl, rfl⟩
    · exact ⟨rfl, rfl⟩
  refine ⟨m', hrun, ?_, hlength, ?_, fun i hi => ?_⟩
  · refine
      { leaveErrno := fun n => ?_
        key := hleaves.key.trans hledger.key, ids_lt := hledger.ids_lt, nodup := hledger.nodup
        entered := ?_, made := hledger.made, gap := ?_, below := ?_, apart := hledger.apart
        once := ?_, kept := ?_, left := ?_ }
    · rw [hleaves.leaveErrno]
      exact hledger.leaveErrno n
    · intro i e e' hi
      rw [hlength, (hsame i).1, (hsame i).2]
      exact hledger.entered i e e' hi
    · intro i hi
      rw [hentry]
      split_ifs
      · rfl
      · exact hledger.gap i hi
    · intro e he o ho
      rw [hleaves.next]
      exact hledger.below e he o ho
    · intro i e e' hi hinactive o ho
      rw [hleaves.destroyed]
      by_cases heq : i = id
      · -- the objects of this entry, none of which was destroyed before
        rw [heq] at hi ho
        rw [hledger.count_handles hi ho, hledger.not_destroyed hi hactive ho]
      · rw [hentry, if_neg heq] at hinactive
        rw [hledger.count_handles_of_ne hin hi heq ho, hledger.once i e e' hi hinactive o ho]
    · intro o hall
      rw [hleaves.destroyed]
      have hzero : (m.entry id).handles.count o = 0 := by
        rw [hhandles, List.count_eq_zero]
        intro hmem
        have hstill := hall id d d' hin hmem
        rw [hentry, if_pos rfl] at hstill
        exact absurd hstill Bool.false_ne_true
      have hkept : m.destroyed.count o = 0 := by
        refine hledger.kept o fun i e e' hi ho => ?_
        have hstill := hall i e e' hi ho
        rw [hentry] at hstill
        split_ifs at hstill with heq
        exact hstill
      rw [hzero, hkept]
    · intro other
      rw [hleaves.left, hleaves.destroyed, count_cmId hid, List.count_cons, hledger.left]
      by_cases heq : other = cmId
      · rw [if_pos heq, if_pos (by rw [heq]; exact beq_self_eq_true cmId)]
        omega
      · rw [if_neg heq, if_neg (by rw [beq_iff_eq]; exact Ne.symm heq)]
        omega
  · rw [hentry, if_pos rfl]
  · rw [hleaves.conns, List.getElem?_set_ne (Ne.symm hi)]

/-! ## Whole runs -/

theorem Ledger.left_cons (hledger : Ledger es m) (id : ℕ) (c c' : List MCastEntry) :
    Ledger (.left id c c' :: es) m := by
  have hjoined : ∀ {i : ℕ} {d d' : CmDevice}, .joined i d d' ∈ .left id c c' :: es →
      .joined i d d' ∈ es :=
    fun hin => (List.mem_cons.mp hin).resolve_left (by simp)
  refine
    { leaveErrno := hledger.leaveErrno, key := (joins_left id c c' es).symm ▸ hledger.key
      ids_lt := fun i hi => (joins_left id c c' es).symm ▸ hledger.ids_lt i hi, nodup := hledger.nodup
      entered := fun i d d' hin => hledger.entered i d d' (hjoined hin)
      made := fun i d d' hin => hledger.made i d d' (hjoined hin), gap := hledger.gap
      below := List.forall_mem_cons.mpr ⟨fun o ho => absurd ho List.not_mem_nil, hledger.below⟩
      apart := fun a ha b hb o hoa hob => ?_
      once := fun i d d' hin => hledger.once i d d' (hjoined hin)
      kept := fun o hall => hledger.kept o fun i d d' hin ho =>
        hall i d d' (List.mem_cons_of_mem _ hin) ho
      left := hledger.left }
  -- a leave makes nothing
  rcases List.mem_cons.mp ha with rfl | haes
  · exact absurd hoa List.not_mem_nil
  · rcases List.mem_cons.mp hb with rfl | hbes
    · exact absurd hob List.not_mem_nil
    · exact hledger.apart a haes b hbes o hoa hob

/-- **The ledger holds in every run** of fewer than `2 ^ 64` joins. -/
theorem ledger_run {m₀ : MCastMember} (hunused : Unused m₀) (hleave : ∀ n, m₀.leaveErrno n = 0)
    (hrun : Run m₀ es m) (hjoins : joins es < 2 ^ 64) : Ledger es m := by
  induction hrun with
  | start => exact ledger_start hunused hleave
  | @joined es m addr id g hrun hjoin ih =>
      rw [joins_joined] at hjoins
      have hledger := ih (by omega)
      have hgrown := (MCastGroups.preserves_joinMCastGroup addr).snd (Grown.refl m.groups.cm)
      rw [hjoin] at hgrown
      exact hledger.joined (wp_ok (MCastGroups.wp_joinMCastGroup addr m.groups) hjoin) hgrown hjoins
  | @threw es m addr e g hrun hjoin ih =>
      rw [joins_threw] at hjoins
      have hledger := ih (by omega)
      have hgrown := (MCastGroups.preserves_joinMCastGroup addr).snd (Grown.refl m.groups.cm)
      rw [hjoin] at hgrown
      exact hledger.threw (wp_error (MCastGroups.wp_joinMCastGroup addr m.groups) hjoin) hgrown hjoins
  | @left es m m' id r hrun hid hleft ih =>
      rw [joins_left] at hjoins
      have hledger := ih hjoins
      obtain ⟨d, d', hin⟩ := exists_joined hid
      obtain ⟨m'', hrun', hledger', -⟩ := hledger.leave (hledger.entered id d d' hin).1
      rw [hleft] at hrun'
      rw [(Prod.mk.inj hrun').2]
      exact hledger'.left_cons _ _ _

/-- **The destructor's loop** leaves the groups from one id on. -/
theorem leaveAll_ledger (hledger : Ledger es m) {start n : ℕ}
    (hend : start + n = m.groups.udpMcastConns.length)
    (hbefore : ∀ i < start, (m.entry i).active = false) :
    ∃ m', leaveAll start n m = (.ok (), m') ∧ Ledger es m' ∧
      ∀ i < start + n, (m'.entry i).active = false := by
  induction n generalizing start m with
  | zero => exact ⟨m, rfl, hledger, hbefore⟩
  | succ n ih =>
      obtain ⟨m', hleave, hledger', hlength, hinactive, hothers⟩ :=
        hledger.leave (show start < m.groups.udpMcastConns.length by omega)
      have hend' : start + 1 + n = m'.groups.udpMcastConns.length := by omega
      obtain ⟨m'', hall, hledger'', hdone⟩ := ih hledger' hend' fun i hi => by
          rcases Nat.lt_succ_iff_lt_or_eq.mp hi with hlt | heq
          · unfold entry
            rw [List.getD_eq_getElem?_getD, hothers i (by omega), ← List.getD_eq_getElem?_getD]
            exact hbefore i hlt
          · rw [heq]
            exact hinactive
      refine ⟨m'', ?_, hledger'', fun i hi => hdone i (by omega)⟩
      unfold leaveAll
      rw [bind_of_ok hleave]
      exact hall

theorem destructor_ledger (hledger : Ledger es m) :
    ∃ m', destructor m = (.ok (), m') ∧ Ledger es m' ∧ ∀ i, (m'.entry i).active = false := by
  obtain ⟨m', hall, hledger', hdone⟩ := leaveAll_ledger hledger (Nat.zero_add _)
    fun i hi => absurd hi (Nat.not_lt_zero i)
  refine ⟨m', hall, hledger', fun i => ?_⟩
  by_cases hreturned : i ∈ es.filterMap Happened.returned
  · obtain ⟨d, d', hin⟩ := exists_joined hreturned
    have hlt := (hledger.entered i d d' hin).1
    exact hdone i (by omega)
  · exact hledger'.gap i hreturned

/-- **A leave changes no other entry**, in any run. -/
theorem left_frame {m₀ : MCastMember} (hunused : Unused m₀) (hleave : ∀ n, m₀.leaveErrno n = 0)
    (hrun : Run m₀ es m) (hjoins : joins es < 2 ^ 64) {conns conns' : List MCastEntry}
    (hin : .left id conns conns' ∈ es) : ∀ i, i ≠ id → conns'[i]? = conns[i]? := by
  induction hrun with
  | start => exact absurd hin List.not_mem_nil
  | @joined es m addr j g hrun hjoin ih =>
      rw [joins_joined] at hjoins
      exact ih (by omega) ((List.mem_cons.mp hin).resolve_left (by simp))
  | @threw es m addr e g hrun hjoin ih =>
      rw [joins_threw] at hjoins
      exact ih (by omega) ((List.mem_cons.mp hin).resolve_left (by simp))
  | @left es m m' j r hrun hj hleft ih =>
      rw [joins_left] at hjoins
      rcases List.mem_cons.mp hin with heq | hin
      · have hledger := ledger_run hunused hleave hrun hjoins
        obtain ⟨d, d', hjoined⟩ := exists_joined hj
        obtain ⟨m'', hrun', -, -, -, hothers⟩ := hledger.leave (hledger.entered j d d' hjoined).1
        rw [hleft] at hrun'
        obtain ⟨rfl, rfl, rfl⟩ := Happened.left.inj heq
        rw [(Prod.mk.inj hrun').2]
        exact hothers
      · exact ih hjoins hin

/-- **Multicast membership**, in every run of fewer than `2 ^ 64` joins and the
destruction after it: the ids are distinct, every group that was joined is left
once and its objects are destroyed once, what a join that throws has made is
not touched, and a leave changes no other entry. -/
theorem membership {m₀ : MCastMember} (hunused : Unused m₀) (hleave : ∀ n, m₀.leaveErrno n = 0)
    (hrun : Run m₀ es m) (hjoins : joins es < 2 ^ 64) :
    (es.filterMap Happened.returned).Nodup ∧
      (∃ m', destructor m = (.ok (), m') ∧
        (∀ id d d', .joined id d d' ∈ es →
          (Happened.joined id d d').made.map Prod.fst = MCastGroups.groupKinds ∧
            ∀ o ∈ (Happened.joined id d d').made, m'.destroyed.count o = 1 ∧
              (o.1 = .cmId → m'.left.count o.2 = 1)) ∧
        ∀ d d', .threw d d' ∈ es → ∀ o ∈ (Happened.threw d d').made,
          o ∉ m'.destroyed ∧ (o.1 = .cmId → o.2 ∉ m'.left)) ∧
      ∀ id conns conns', .left id conns conns' ∈ es → ∀ i, i ≠ id → conns'[i]? = conns[i]? := by
  have hledger := ledger_run hunused hleave hrun hjoins
  obtain ⟨m', hdestructor, hfinal, hinactive⟩ := destructor_ledger hledger
  have hleft : ∀ o : ObjectKind × ℕ, o.1 = .cmId → m'.left.count o.2 = m'.destroyed.count o := by
    rintro ⟨kind, cmId⟩ rfl
    exact hfinal.left cmId
  refine ⟨hledger.nodup, ⟨m', hdestructor, fun id d d' hin => ⟨(hledger.made id d d' hin).2, ?_⟩, ?_⟩,
    fun id c c' hin => left_frame hunused hleave hrun hjoins hin⟩
  · intro o ho
    have hone := hfinal.once id d d' hin (hinactive id) o ho
    exact ⟨hone, fun hcm => (hleft o hcm).trans hone⟩
  · intro d d' hin o ho
    have hzero : m'.destroyed.count o = 0 := by
      refine hfinal.kept o fun id e e' hjoined hmade => ?_
      exact absurd (hfinal.apart _ hin _ hjoined o ho hmade) (by simp)
    refine ⟨List.count_eq_zero.mp hzero, fun hcm => ?_⟩
    rw [← List.count_eq_zero, hleft o hcm, hzero]

/-- An object on a device whose calls from the fourteenth on fail, `n` of
them, and where the joins before and after succeed. -/
def failing (n : ℕ) : MCastMember where
  groups :=
    { cm :=
        { errno := fun k => if 13 ≤ k ∧ k < 13 + n then 12 else 0
          event := fun k =>
            { event := if k % 2 = 0 then RDMA_CM_EVENT_ADDR_RESOLVED
                else RDMA_CM_EVENT_MULTICAST_JOIN
              qpNum := 0xffffff, qkey := 0 }
          qpNum := fun _ => 0, lkey := fun _ => 0, calls := 0, next := 0, live := []
          fresh := fun _ ho => absurd ho List.not_mem_nil }
      lastMCastConnKey := 0, udpMcastConns := [], sendMCastCount := [] }
  leaveErrno _ := 0
  leaves := 0
  left := []
  destroyed := []

theorem unused_failing (n : ℕ) : Unused (failing n) := ⟨rfl, rfl, rfl, rfl⟩

/-- The same, with a group joined. -/
def failingJoined (n : ℕ) : MCastMember :=
  { failing n with groups := (MCastGroups.joinMCastGroup "239.0.0.1" (failing n).groups).2 }

/-- What the first join of it returns. -/
def firstJoin (n : ℕ) : Happened :=
  .joined 0 (failing n).groups.cm
    (MCastGroups.joinMCastGroup "239.0.0.1" (failing n).groups).2.cm

theorem run_failingJoined {n : ℕ}
    (hok : (MCastGroups.joinMCastGroup "239.0.0.1" (failing n).groups).1 = .ok 0) :
    Run (failing n) [firstJoin n] (failingJoined n) := by
  unfold firstJoin failingJoined
  exact Run.start.joined_of_ok hok

/-- An object on a device whose thirty-second call fails. -/
def failingOnce : MCastMember :=
  { failing 0 with
    groups := { (failing 0).groups with
      cm := { (failing 0).groups.cm with
        errno := fun k => if k = 31 then 12 else 0
        event := fun k => (failing 0).groups.cm.event (k % 13) } } }

/-- Two groups are joined. -/
def joinedOne : MCastMember :=
  { failingOnce with groups := (MCastGroups.joinMCastGroup "239.0.0.1" failingOnce.groups).2 }

def joinedTwo : MCastMember :=
  { joinedOne with groups := (MCastGroups.joinMCastGroup "239.0.0.2" joinedOne.groups).2 }

/-- The first of them is left. -/
def leftOne : MCastMember := (leaveMCastGroup 0 joinedTwo).2

/-- A third join throws, after it has made two objects. -/
def threwThird : MCastMember :=
  { leftOne with groups := (MCastGroups.joinMCastGroup "239.0.0.3" leftOne.groups).2 }

def threeJoins : List Happened :=
  [.threw leftOne.groups.cm threwThird.groups.cm,
    .left 0 joinedTwo.groups.udpMcastConns leftOne.groups.udpMcastConns,
    .joined 1 joinedOne.groups.cm joinedTwo.groups.cm, .joined 0 failingOnce.groups.cm joinedOne.groups.cm]

theorem run_threeJoins : Run failingOnce threeJoins threwThird := by
  have hok : (MCastGroups.joinMCastGroup "239.0.0.1" failingOnce.groups).1 = .ok 0 := by decide +kernel
  have hone : Run failingOnce [.joined 0 failingOnce.groups.cm joinedOne.groups.cm] joinedOne :=
    Run.start.joined_of_ok hok
  have hok' : (MCastGroups.joinMCastGroup "239.0.0.2" joinedOne.groups).1 = .ok 1 := by decide +kernel
  have htwo : Run failingOnce [.joined 1 joinedOne.groups.cm joinedTwo.groups.cm,
      .joined 0 failingOnce.groups.cm joinedOne.groups.cm] joinedTwo := hone.joined_of_ok hok'
  have hleave : leaveMCastGroup 0 joinedTwo = (.ok (), leftOne) := Prod.ext (by decide +kernel) rfl
  have hfails : MCastGroups.joinMCastGroup "239.0.0.3" leftOne.groups =
      (.error (.runtimeError "Could not create multicast protection domain!"), threwThird.groups) :=
    Prod.ext (by decide +kernel) rfl
  exact (htwo.left (by decide +kernel) hleave).threw hfails

/-- The eight objects of each group that was joined are destroyed once each,
and those of the join that threw are not. -/
theorem membership_three :
    ∃ m', destructor threwThird = (.ok (), m') ∧
      (∀ o ∈ (Happened.joined 0 failingOnce.groups.cm joinedOne.groups.cm).made,
        m'.destroyed.count o = 1) ∧
      (∀ o ∈ (Happened.joined 1 joinedOne.groups.cm joinedTwo.groups.cm).made,
        m'.destroyed.count o = 1) ∧
      (Happened.threw leftOne.groups.cm threwThird.groups.cm).made = [(.cmId, 17), (.channel, 16)] ∧
      (.cmId, 17) ∉ m'.destroyed := by
  obtain ⟨-, ⟨m', hdestructor, hjoined, hthrew⟩, -⟩ :=
    membership ⟨rfl, rfl, rfl, rfl⟩ (fun _ => rfl) run_threeJoins (by decide)
  have hmade : (Happened.threw leftOne.groups.cm threwThird.groups.cm).made =
      [(.cmId, 17), (.channel, 16)] := by decide +kernel
  refine ⟨m', hdestructor, fun o ho => ?_, fun o ho => ?_, hmade, ?_⟩
  · exact ((hjoined 0 _ _ (by simp [threeJoins])).2 o ho).1
  · exact ((hjoined 1 _ _ (by simp [threeJoins])).2 o ho).1
  · exact (hthrew _ _ List.mem_cons_self (.cmId, 17) (by rw [hmade]; exact List.mem_cons_self)).1

/-! ## Ids that come again -/

/-- The groups after `n` joins whose first call failed. -/
def wasted (n : ℕ) (m : MCastMember) : MCastMember :=
  { m with
    groups := { m.groups with
      cm := { m.groups.cm with calls := m.groups.cm.calls + n }
      lastMCastConnKey := (m.groups.lastMCastConnKey + n) % 2 ^ 64 } }

theorem joinMCastGroup_fails (addr : String) {g : MCastGroups} (herr : g.cm.errno g.cm.calls ≠ 0) :
    MCastGroups.joinMCastGroup addr g =
      (.error (.runtimeError "Could not create event channel for multicast!"),
        { g with cm := g.cm.tick, lastMCastConnKey := wrap64 (g.lastMCastConnKey + 1) }) := by
  have hcreate : CmDevice.create .channel g.cm = (.ok none, g.cm.tick) := if_neg herr
  have hmade : made "Could not create event channel for multicast!" rdmaCreateEventChannel g.cm =
      (.error (.runtimeError "Could not create event channel for multicast!"), g.cm.tick) :=
    bind_of_ok hcreate
  have honCm : MCastGroups.onCm
      (made "Could not create event channel for multicast!" rdmaCreateEventChannel)
      { g with lastMCastConnKey := wrap64 (g.lastMCastConnKey + 1) } =
      (.error (.runtimeError "Could not create event channel for multicast!"),
        { g with cm := g.cm.tick, lastMCastConnKey := wrap64 (g.lastMCastConnKey + 1) }) := by
    unfold MCastGroups.onCm zoom
    simp only
    rw [hmade]
  have hkey : MCastGroups.nextMCastConnKey g =
      (.ok g.lastMCastConnKey, { g with lastMCastConnKey := wrap64 (g.lastMCastConnKey + 1) }) := rfl
  exact (bind_of_ok hkey).trans (bind_of_error honCm)

/-- **Joins that fail use up ids**, and the counter comes round. -/
theorem exists_run_wasted {m₀ : MCastMember} (hrun : Run m₀ es m)
    (hkey : m.groups.lastMCastConnKey < 2 ^ 64) (n : ℕ)
    (herr : ∀ k < n, m.groups.cm.errno (m.groups.cm.calls + k) ≠ 0) :
    ∃ es', Run m₀ es' (wasted n m) ∧
      es'.filterMap Happened.returned = es.filterMap Happened.returned := by
  induction n with
  | zero =>
      refine ⟨es, ?_, rfl⟩
      have hsame : wasted 0 m = m := by
        unfold wasted
        rw [Nat.add_zero, Nat.add_zero, Nat.mod_eq_of_lt hkey]
      rw [hsame]
      exact hrun
  | succ n ih =>
      obtain ⟨es', hrun', hids⟩ := ih fun k hk => herr k (Nat.lt_succ_of_lt hk)
      have hcall : (wasted n m).groups.cm.errno (wasted n m).groups.cm.calls ≠ 0 :=
        herr n (Nat.lt_succ_self n)
      have hfails := joinMCastGroup_fails "239.0.0.1" hcall
      have hnext := Run.threw hrun' hfails
      have hsame : wasted (n + 1) m =
          { wasted n m with
            groups := { (wasted n m).groups with
              cm := (wasted n m).groups.cm.tick
              lastMCastConnKey := wrap64 ((wasted n m).groups.lastMCastConnKey + 1) } } := by
        unfold wasted wrap64
        simp only [CmDevice.tick]
        rw [Nat.mod_add_mod]
        rfl
      rw [hsame]
      exact ⟨_, hnext, hids⟩

/-- After `2 ^ 64` joins, all but the first without success, the first id comes
again. -/
theorem membership_id_again :
    Unused (failing (2 ^ 64 - 1)) ∧ (failing (2 ^ 64 - 1)).leaveErrno = (fun _ => 0) ∧
      ∃ es m, Run (failing (2 ^ 64 - 1)) es m ∧ es.filterMap Happened.returned = [0, 0] ∧
        ¬ (es.filterMap Happened.returned).Nodup := by
  have hfirst : Run (failing (2 ^ 64 - 1)) [firstJoin (2 ^ 64 - 1)] (failingJoined (2 ^ 64 - 1)) :=
    run_failingJoined (by decide +kernel)
  obtain ⟨es, hrun, hids⟩ := exists_run_wasted hfirst (by decide +kernel) (2 ^ 64 - 1) fun k hk => by
    show (if 13 ≤ 13 + k ∧ 13 + k < 13 + (2 ^ 64 - 1) then 12 else 0) ≠ 0
    rw [if_pos ⟨by omega, by omega⟩]
    decide
  have hok : (MCastGroups.joinMCastGroup "239.0.0.1"
      (wasted (2 ^ 64 - 1) (failingJoined (2 ^ 64 - 1))).groups).1 = .ok 0 := by decide +kernel
  refine ⟨unused_failing _, rfl, _, _, hrun.joined_of_ok hok, congrArg (List.cons 0) hids, ?_⟩
  change ¬ (0 :: es.filterMap Happened.returned).Nodup
  rw [hids]
  decide

end MCastMember

end RdmaManager
