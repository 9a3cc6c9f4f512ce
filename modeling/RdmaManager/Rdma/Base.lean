import RdmaManager.Verbs.Device
/-!
# `BaseRDMA`: the tables of an RDMA object

A connection id indexes three vectors, of local queue pairs (`m_qps`), of
remote and of local connection data (`m_rconns`, `m_lconns`), and a map
of the connected ids. The object stands next to the device its verbs
calls go to. Reading a vector past its end is undefined behaviour;
otherwise an entry that a resize made is the default one, so `qpAt` and
`rconnAt`, which read the default past the end, see every write and
nothing else.
-/

namespace RdmaManager

/-- `ib_qp_t`: handles, `none` for `nullptr`. -/
structure IbQp where
  qp : Option ℕ
  sendCq : Option ℕ
  recvCq : Option ℕ
  deriving DecidableEq, Repr

/-- `ib_qp_t()`. -/
def IbQp.null : IbQp := ⟨none, none, none⟩

/-- `ib_conn_t`. -/
structure IbConn where
  buffer : UInt64
  qpNum : UInt64
  lid : UInt16
  gid : Vector UInt8 16
  rkey : UInt32
  psn : UInt32
  ah : Option ℕ
  deriving DecidableEq, Repr

/-- A value-initialised `ib_conn_t`, as `resize` makes it. -/
def IbConn.zero : IbConn := ⟨0, 0, 0, Vector.replicate 16 0, 0, 0, none⟩

/-- The fields of `BaseRDMA` that connection management reads and writes,
with the device. -/
structure BaseRDMA where
  device : Device
  /-- `m_buffer->pointer()`. -/
  pointer : UInt64
  /-- `m_buffer->ib_mr()->rkey`. -/
  rkey : UInt32
  /-- `m_buffer->ib_port_attributes().lid`. -/
  lid : UInt16
  /-- What an uninitialised local `ib_conn_t` reads as. -/
  stack : IbConn
  qpType : QpType
  qps : List IbQp
  rconns : List IbConn
  lconns : List IbConn
  countWR : List ℕ
  connected : Finmap fun _ : ℕ => Bool
  qpNum2connID : Finmap fun _ : ℕ => ℕ

/-- What `getConnectedConnIDs` may return for `m_connected`: the connected ids,
in the order of an unordered map. -/
def ConnectedConnIDs (connected : Finmap fun _ : ℕ => Bool) (connIDs : List ℕ) : Prop :=
  (connIDs : Multiset ℕ) = (connected.entries.filter fun iter => iter.2 = true).map Sigma.fst

instance (connected : Finmap fun _ : ℕ => Bool) (connIDs : List ℕ) :
    Decidable (ConnectedConnIDs connected connIDs) :=
  inferInstanceAs (Decidable (_ = _))

theorem ConnectedConnIDs.mem_iff {connected : Finmap fun _ : ℕ => Bool} {connIDs : List ℕ}
    (h : ConnectedConnIDs connected connIDs) (id : ℕ) :
    id ∈ connIDs ↔ connected.lookup id = some true := by
  have hmem : id ∈ connIDs ↔ id ∈ (connIDs : Multiset ℕ) := Multiset.mem_coe.symm
  rw [hmem, h, Multiset.mem_map]
  refine Iff.trans ?_ Finmap.mem_lookup_iff.symm
  constructor
  · rintro ⟨⟨id, b⟩, hentry, rfl⟩
    obtain ⟨hin, rfl⟩ := Multiset.mem_filter.mp hentry
    exact hin
  · intro hin
    exact ⟨⟨id, true⟩, Multiset.mem_filter.mpr ⟨hin, rfl⟩, rfl⟩

theorem ConnectedConnIDs.nodup {connected : Finmap fun _ : ℕ => Bool} {connIDs : List ℕ}
    (h : ConnectedConnIDs connected connIDs) : connIDs.Nodup := by
  rw [← Multiset.coe_nodup, h]
  have hkeys : (connected.entries.map Sigma.fst).Nodup := connected.keys.nodup
  exact Multiset.nodup_of_le (Multiset.map_le_map (Multiset.filter_le _ _)) hkeys

namespace BaseRDMA

variable {s : BaseRDMA} {id i : ℕ}

/-- `m_qps[id]`. -/
def qpAt (s : BaseRDMA) (id : ℕ) : IbQp := s.qps.getD id IbQp.null

/-- `m_rconns[id]`. -/
def rconnAt (s : BaseRDMA) (id : ℕ) : IbConn := s.rconns.getD id IbConn.zero

/-- `m_lconns[id]`. -/
def lconnAt (s : BaseRDMA) (id : ℕ) : IbConn := s.lconns.getD id IbConn.zero

/-- Call the device. -/
def onDevice {α : Type} (x : Act Device α) : Act BaseRDMA α :=
  Act.zoom BaseRDMA.device (fun s d => { s with device := d }) x

/-- `nextConnKey`. -/
def nextConnKey (s : BaseRDMA) : ℕ := s.qps.length

/-- `if (v.size() < id + 1) v.resize(id + 1); v[id] = x;`. For the largest
`size_t` the sum is `0`, nothing is resized and the write lies past the
end, which is `none`. -/
def growSet {β : Type} (default x : β) (id : ℕ) (v : List β) : Option (List β) :=
  if id + 1 < 2 ^ 64 then some ((growTo default (id + 1) v).set id x) else none

/-- `BaseRDMA::setQP`. -/
def setQP (id : ℕ) (qp : IbQp) : Act BaseRDMA Unit := fun s =>
  match growSet IbQp.null qp id s.qps with
  | none => (.error (.undefined "m_qps past its end"), s)
  | some qps =>
      let countWR := if s.qps.length < id + 1 then growTo 0 (id + 1) s.countWR else s.countWR
      match qp.qp with
      | none => (.error (.undefined "qp_num of a null queue pair"), { s with qps, countWR })
      | some h =>
          (.ok (), { s with
            qps, countWR
            qpNum2connID := s.qpNum2connID.insert (s.device.qpNum h).toNat id })

/-- `BaseRDMA::setLocalConnData`. -/
def setLocalConnData (id : ℕ) (conn : IbConn) : Act BaseRDMA Unit := fun s =>
  match growSet IbConn.zero conn id s.lconns with
  | none => (.error (.undefined "m_lconns past its end"), s)
  | some lconns => (.ok (), { s with lconns })

/-- `BaseRDMA::setRemoteConnData`. -/
def setRemoteConnData (id : ℕ) (conn : IbConn) : Act BaseRDMA Unit := fun s =>
  match growSet IbConn.zero conn id s.rconns with
  | none => (.error (.undefined "m_rconns past its end"), s)
  | some rconns => (.ok (), { s with rconns })

/-- `BaseRDMA::createCQ`, of the two queues of an `ib_qp_t`. -/
def createCQ : Act (Device × IbQp) Unit := do
  let sendCq ← Act.onFst ibvCreateCq
  Act.modify fun p => (p.1, { p.2 with sendCq })
  if sendCq = none then throw (.runtimeError "Cannot create send CQ!")
  let recvCq ← Act.onFst ibvCreateCq
  Act.modify fun p => (p.1, { p.2 with recvCq })
  if recvCq = none then throw (.runtimeError "Cannot create receive CQ!")

/-- `BaseRDMA::destroyCQ`. A queue still in use is left alone. -/
def destroyCQ (sendCq recvCq : Option ℕ) : Act Device Unit := do
  let err ← ibvDestroyCq sendCq
  if err ≠ EBUSY ∧ err ≠ 0 then
    throw (.runtimeError ("Cannot delete send CQ. errno: " ++ toString err))
  let err ← ibvDestroyCq recvCq
  if err ≠ EBUSY ∧ err ≠ 0 then
    throw (.runtimeError ("Cannot delete receive CQ. errno: " ++ toString err))

/-! ## Writes to the tables -/

theorem le_of_growSet_none {β : Type} {default x : β} {v : List β}
    (h : growSet default x id v = none) : 2 ^ 64 ≤ id + 1 := by
  unfold growSet at h
  split_ifs at h with hlt
  exact Nat.not_lt.mp hlt

theorem bound_of_growSet {β : Type} {default x : β} {v v' : List β}
    (h : growSet default x id v = some v') : id + 1 < 2 ^ 64 := by
  unfold growSet at h
  split_ifs at h with hlt
  exact hlt

theorem lt_of_growSet {β : Type} {default x : β} {v v' : List β}
    (h : growSet default x id v = some v') : id < v'.length ∧ v.length ≤ v'.length := by
  unfold growSet at h
  split_ifs at h with hlt
  obtain rfl := Option.some.inj h
  rw [List.length_set, length_growTo]
  omega

theorem mem_of_growSet {β : Type} {default x : β} {v v' : List β}
    (h : growSet default x id v = some v') : x ∈ v' := by
  have hlt := (lt_of_growSet h).1
  unfold growSet at h
  split_ifs at h
  obtain rfl := Option.some.inj h
  rw [List.length_set] at hlt
  exact List.mem_set hlt x

/-- A write shows at its index and nowhere else. -/
theorem getD_growSet {β : Type} {default x : β} {v v' : List β}
    (h : growSet default x id v = some v') (i : ℕ) :
    v'.getD i default = if i = id then x else v.getD i default := by
  have hlt := (lt_of_growSet h).1
  unfold growSet at h
  split_ifs at h
  obtain rfl := Option.some.inj h
  rw [getD_set (by rwa [List.length_set] at hlt), getD_growTo]

/-! ## What the functions return -/

open Act Device

variable {d : Device} {qp : IbQp} {conn : IbConn} {E : Exn → BaseRDMA → Prop}

theorem wp_onDevice {α : Type} {x : Act Device α} {Q : α → BaseRDMA → Prop} :
    wp (onDevice x) Q E s ↔
      wp x (fun a d => Q a { s with device := d }) (fun e d => E e { s with device := d }) s.device :=
  wp_zoom

/-- Two live completion queues are made, or none, or the first. -/
theorem wp_createCQ {Q : Unit → Device × IbQp → Prop} {E : Exn → Device × IbQp → Prop}
    (hQ : d.errno d.calls = 0 → d.errno (d.calls + 1) = 0 → Q () (d.tick.addCq.tick.addCq,
      { qp with sendCq := some d.next, recvCq := some (d.next + 1) }))
    (hsend : d.errno d.calls ≠ 0 → ∀ e, E e (d.tick, { qp with sendCq := none }))
    (hrecv : d.errno d.calls = 0 → d.errno (d.calls + 1) ≠ 0 → ∀ e,
      E e (d.tick.addCq.tick, { qp with sendCq := some d.next, recvCq := none })) :
    wp createCQ Q E (d, qp) := by
  unfold createCQ
  simp only [wp_bind, wp_ite, wp_pure, wp_throw, wp_modify, wp_onFst, wp_ibvCreateCq, reduceCtorEq,
    not_false_eq_true, not_true_eq_false, true_implies, false_implies, and_true, true_and]
  exact ⟨fun h₁ => ⟨fun h₂ => hQ h₁ h₂, fun herr => hrecv h₁ herr _⟩, fun herr => hsend herr _⟩

/-- What grew while they were made. -/
theorem grown_createCQ (d : Device) : d.Grown d.tick.addCq.tick.addCq :=
  ((grown_tick d).trans (grown_addCq _)).trans ((grown_tick _).trans (grown_addCq d.tick.addCq.tick))

/-- Whatever becomes of the two queues, nothing else is touched. -/
theorem wp_destroyCQ_frame {c₁ c₂ : Option ℕ} {Q : Unit → Device → Prop} {E : Exn → Device → Prop}
    (hQ : ∀ d', d.Reaped d' → Q () d') (hE : ∀ e d', d.Reaped d' → E e d') :
    wp (destroyCQ c₁ c₂) Q E d := by
  unfold destroyCQ
  simp only [wp_bind, wp_ite, wp_pure, wp_throw]
  refine wp_ibvDestroyCq_frame (Reaped.refl d) (fun err d' hd' => ⟨fun _ => hE _ _ hd', fun _ => ?_⟩)
    hE
  refine wp_ibvDestroyCq_frame hd' (fun err d'' hd'' => ⟨fun _ => hE _ _ hd'', fun _ => ?_⟩) hE
  exact hQ _ hd''

/-- Two live queues are destroyed where they are not in use. -/
theorem wp_destroyCQ {c₁ c₂ : ℕ} {Q : Unit → Device → Prop} {E : Exn → Device → Prop}
    (hsucc : d.Succeeds) (h₁ : d.cqs c₁ = true) (h₂ : d.cqs c₂ = true) (hne : c₁ ≠ c₂)
    (hQ : Q () ((d.reap c₁).reap c₂)) : wp (destroyCQ (some c₁) (some c₂)) Q E d := by
  have hstep : ∀ {d : Device} {c : ℕ} {Q : ℕ → Device → Prop} {E : Exn → Device → Prop},
      d.Succeeds → d.cqs c = true → (∀ err, err = EBUSY ∨ err = 0 → Q err (d.reap c)) →
        wp (ibvDestroyCq (some c)) Q E d := by
    intro d c Q E hsucc hlive hQ
    rw [wp_ibvDestroyCq hlive]
    unfold reap at hQ
    refine ⟨fun hbusy => ?_, fun hfree => ⟨fun _ => ?_, fun herr => absurd (hsucc _) herr⟩⟩
    · rw [if_pos hbusy] at hQ
      exact hQ _ (Or.inl rfl)
    · rw [if_neg hfree] at hQ
      exact hQ _ (Or.inr rfl)
  unfold destroyCQ
  simp only [wp_bind, wp_ite, wp_pure, wp_throw]
  refine hstep hsucc h₁ fun err herr => ⟨fun hbad => by omega, fun _ => ?_⟩
  have hsucc' : (d.reap c₁).Succeeds := by
    intro n
    rw [(reaped_reap d c₁).errno]
    exact hsucc n
  refine hstep hsucc' (by rw [reap_cqs_of_ne hne.symm, h₂]) fun err herr =>
    ⟨fun hbad => by omega, fun _ => hQ⟩

/-- What a call of `setQP` with a queue pair that is not null leaves. -/
structure QpSet (s : BaseRDMA) (id : ℕ) (qp : IbQp) (s' : BaseRDMA) : Prop where
  bound : id + 1 < 2 ^ 64
  device : s'.device = s.device
  pointer : s'.pointer = s.pointer
  rkey : s'.rkey = s.rkey
  lid : s'.lid = s.lid
  stack : s'.stack = s.stack
  qpType : s'.qpType = s.qpType
  qpAt : ∀ i, s'.qpAt i = if i = id then qp else s.qpAt i
  lt : id < s'.qps.length
  le : s.qps.length ≤ s'.qps.length
  rconns : s'.rconns = s.rconns
  lconns : s'.lconns = s.lconns
  connected : s'.connected = s.connected

theorem wp_setQP {h : ℕ} {Q : Unit → BaseRDMA → Prop} (hqp : qp.qp = some h)
    (hQ : ∀ s', s.QpSet id qp s' → Q () s') (hE : ∀ what, 2 ^ 64 ≤ id + 1 → E (.undefined what) s) :
    wp (setQP id qp) Q E s := by
  unfold wp setQP
  rw [hqp]
  cases hgrow : growSet IbQp.null qp id s.qps with
  | none => exact hE _ (le_of_growSet_none hgrow)
  | some qps =>
      obtain ⟨hlt, hle⟩ := lt_of_growSet hgrow
      exact hQ _ ⟨bound_of_growSet hgrow, rfl, rfl, rfl, rfl, rfl, rfl, getD_growSet hgrow, hlt, hle,
        rfl, rfl, rfl⟩

/-- With a queue pair that may be null, whose number cannot be read then. -/
theorem wp_setQP_any {qp : IbQp} {Q : Unit → BaseRDMA → Prop}
    (hQ : ∀ s', s.QpSet id qp s' → Q () s') (hE : ∀ what s', E (.undefined what) s') :
    wp (setQP id qp) Q E s := by
  cases hqp : qp.qp with
  | none =>
      unfold wp setQP
      rw [hqp]
      cases growSet IbQp.null qp id s.qps <;> exact hE _ _
  | some h => exact wp_setQP hqp hQ fun what _ => hE what _

theorem wp_setLocalConnData {Q : Unit → BaseRDMA → Prop}
    (hQ : ∀ lconns, (∀ i, lconns.getD i IbConn.zero = if i = id then conn else s.lconnAt i) →
      id < lconns.length → Q () { s with lconns })
    (hE : ∀ what, 2 ^ 64 ≤ id + 1 → E (.undefined what) s) : wp (setLocalConnData id conn) Q E s := by
  unfold wp setLocalConnData
  cases hgrow : growSet IbConn.zero conn id s.lconns with
  | none => exact hE _ (le_of_growSet_none hgrow)
  | some lconns => exact hQ _ (getD_growSet hgrow) (lt_of_growSet hgrow).1

theorem wp_setRemoteConnData {Q : Unit → BaseRDMA → Prop}
    (hQ : ∀ rconns, (∀ i, rconns.getD i IbConn.zero = if i = id then conn else s.rconnAt i) →
      id < rconns.length → s.rconns.length ≤ rconns.length → Q () { s with rconns })
    (hE : ∀ what, 2 ^ 64 ≤ id + 1 → E (.undefined what) s) : wp (setRemoteConnData id conn) Q E s := by
  unfold wp setRemoteConnData
  cases hgrow : growSet IbConn.zero conn id s.rconns with
  | none => exact hE _ (le_of_growSet_none hgrow)
  | some rconns =>
      obtain ⟨hlt, hle⟩ := lt_of_growSet hgrow
      exact hQ _ (getD_growSet hgrow) hlt hle

end BaseRDMA

end RdmaManager
