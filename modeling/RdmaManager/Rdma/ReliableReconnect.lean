import RdmaManager.Rdma.ConnCalls
import RdmaManager.Rdma.Reliable
/-!
# `ReliableRDMA`: reconnecting

`connectQP` returns at once for every id that has an entry in
`m_connected`, also where the entry says `false`. It does what it should
for an id without an entry, and for a connected id about which nothing
changed; `WellDone` holds of every call of a run in which it is called
for no other id.
-/

namespace RdmaManager

namespace ReliableRDMA

open BaseRDMA Act Device

variable {s s' : BaseRDMA} {t : Trail} {id h : ℕ} {call : ConnCall}

/-- The object after a call. -/
def exec (s : BaseRDMA) : ConnCall → BaseRDMA
  | .initQP => (initQP s).2
  | .initQPWithSuppliedID id => (initQPWithSuppliedID id s).2
  | .setRemoteConnData id conn => (setRemoteConnData id conn s).2
  | .connectQP id => (connectQP id s).2
  | .disconnectQP id => (disconnectQP id s).2

/-- The queue pair of `id` went through `IBV_QPS_RTR` with the remote data
stored for `id`, and to `IBV_QPS_RTS`. -/
def Usable (s : BaseRDMA) (id : ℕ) : Prop :=
  ∃ h qp, (s.qpAt id).qp = some h ∧ s.device.qps h = some qp ∧ qp.state = .rts ∧
    qp.dest = some (peerOf s id)

/-- `connectQP` is called for an id that has no entry in `m_connected` and
has remote data, or for a connected one about which nothing changed. -/
def Sound (s : BaseRDMA) (t : Trail) : ConnCall → Prop
  | .connectQP id => (id ∉ s.connected ∧ id < s.rconns.length) ∨
      (s.connected.lookup id = some true ∧ t.changed id = false)
  | _ => True

def transport : Transport BaseRDMA where
  base s := s
  Init s := ∃ errno qpNum pointer rkey lid stack, (∀ n, errno n = 0) ∧
    s = blank (Device.opened errno qpNum) pointer rkey lid stack
  exec := exec
  Usable := Usable
  Sound := Sound

/-! ## The invariant -/

/-- The completion queues of a queue pair were made right before it. -/
structure Queues (d : Device) : Prop where
  succeeds : d.Succeeds
  queues : ∀ h qp, d.qps h = some qp → qp.sendCq + 2 = h ∧ qp.recvCq + 1 = h ∧
    d.cqs qp.sendCq = true ∧ d.cqs qp.recvCq = true
  dead : ∀ h ∈ d.qpsDestroyed, h < d.next ∧ d.qps h = none
  once : d.qpsDestroyed.Nodup
  ahs : d.ahsDestroyed = []

/-- **What a run of sound calls keeps.** -/
structure Inv (s : BaseRDMA) (t : Trail) : Prop where
  device : Queues s.device
  tables : ∀ id h, (s.qpAt id).qp = some h →
    (∃ qp, s.device.qps h = some qp ∧ s.qpAt id = ⟨some h, some qp.sendCq, some qp.recvCq⟩) ∧
      t.owner h = some id
  init : ∀ id h qp, id ∉ s.connected → (s.qpAt id).qp = some h → s.device.qps h = some qp →
    qp.state = .init
  made : ∀ id, t.inited id = true ∧ id ∉ s.connected ∨ s.connected.lookup id = some true →
    ∃ h, (s.qpAt id).qp = some h
  usable : ∀ id, s.connected.lookup id = some true → t.changed id = false → Usable s id

theorem lt_length_of_qpAt (hqp : (s.qpAt id).qp = some h) : id < s.qps.length := by
  by_contra hge
  rw [qpAt, List.getD_eq_default _ _ (by omega)] at hqp
  simp [IbQp.null] at hqp

theorem Inv.eq_of_qpAt (hinv : Inv s t) {id' : ℕ} (hqp : (s.qpAt id).qp = some h)
    (hqp' : (s.qpAt id').qp = some h) : id = id' := by
  have howner := (hinv.tables id h hqp).2
  rw [(hinv.tables id' h hqp').2] at howner
  exact (Option.some.inj howner).symm

/-- A usable id stays so where its queue pair and its remote data do. -/
theorem Usable.congr (husable : Usable s id) (hqp : s'.qpAt id = s.qpAt id)
    (hconn : s'.rconnAt id = s.rconnAt id)
    (hdevice : ∀ h, (s.qpAt id).qp = some h → s'.device.qps h = s.device.qps h) : Usable s' id := by
  obtain ⟨h, qp, hh, hlive, hstate, hdest⟩ := husable
  refine ⟨h, qp, by rw [hqp, hh], by rw [hdevice h hh, hlive], hstate, ?_⟩
  rw [hdest, peerOf, peerOf, hconn]

/-! ## The device -/

theorem Queues.tick {d : Device} (hd : Queues d) : Queues d.tick :=
  ⟨hd.succeeds, hd.queues, hd.dead, hd.once, hd.ahs⟩

theorem Queues.queuePair {d : Device} (hd : Queues d) (type : QpType) :
    Queues (d.queuePair type) where
  succeeds := hd.succeeds
  queues h qp hqp := by
    rw [queuePair_qps] at hqp
    rcases eq_or_ne h (d.next + 2) with rfl | hne
    · rw [Function.update_self, Option.some.injEq] at hqp
      subst hqp
      simp
    · rw [Function.update_of_ne hne] at hqp
      obtain ⟨hsend, hrecv, hsendLive, hrecvLive⟩ := hd.queues h qp hqp
      have := d.lt_of_cqs hsendLive
      have := d.lt_of_cqs hrecvLive
      refine ⟨hsend, hrecv, ?_, ?_⟩
      · rw [(grown_queuePair d type).cqs _ (by omega), hsendLive]
      · rw [(grown_queuePair d type).cqs _ (by omega), hrecvLive]
  dead h hh := by
    obtain ⟨hlt, hqp⟩ := hd.dead h hh
    refine ⟨?_, ?_⟩
    · rw [queuePair_next]
      omega
    · rw [(grown_queuePair d type).qps h hlt, hqp]
  once := hd.once
  ahs := hd.ahs

theorem Queues.readied {d : Device} (hd : Queues d) {old : Qp} (hold : d.qps h = some old)
    (dest : Option (UInt32 × UInt16)) : Queues (d.readied h old dest) where
  succeeds := hd.succeeds
  queues i qp hqp := by
    rw [readied_qps, hold] at hqp
    rcases eq_or_ne i h with rfl | hne
    · rw [Function.update_self, Option.map_some, Option.some.injEq] at hqp
      subst hqp
      exact hd.queues i old hold
    · rw [Function.update_of_ne hne] at hqp
      exact hd.queues i qp hqp
  dead i hi := by
    obtain ⟨hlt, hqp⟩ := hd.dead i hi
    refine ⟨hlt, ?_⟩
    have hne : i ≠ h := by
      rintro rfl
      rw [hold] at hqp
      simp at hqp
    rw [readied_qps, Function.update_of_ne hne, hqp]
  once := hd.once
  ahs := hd.ahs

/-- Tearing down one queue pair with its two queues leaves the others'. -/
theorem Queues.tearDown {d : Device} (hd : Queues d) {old : Qp} (hold : d.qps h = some old) :
    Queues (((d.tick.dropQp h).reap old.sendCq).reap old.recvCq) := by
  have hreaped := (reaped_reap (d.tick.dropQp h) old.sendCq).trans
    (reaped_reap ((d.tick.dropQp h).reap old.sendCq) old.recvCq)
  obtain ⟨hsend, hrecv, -, -⟩ := hd.queues h old hold
  have hqps : _ = Function.update d.qps h none := hreaped.qps
  have hdestroyed : _ = h :: d.qpsDestroyed := hreaped.qpsDestroyed
  have hnext : _ = d.next := hreaped.next
  refine ⟨fun n => ?_, fun i qp hqp => ?_, fun i hi => ?_, ?_, ?_⟩
  · rw [hreaped.errno]
    exact hd.succeeds n
  · rw [hqps] at hqp
    have hne : i ≠ h := by
      rintro rfl
      rw [Function.update_self] at hqp
      simp at hqp
    rw [Function.update_of_ne hne] at hqp
    obtain ⟨hisend, hirecv, hsendLive, hrecvLive⟩ := hd.queues i qp hqp
    -- a handle is not of a queue pair and of a completion queue at once
    have hcq : ∀ c, d.cqs c = true → c ≠ h := by
      rintro c hc rfl
      rw [d.apart c hc] at hold
      simp at hold
    have hqp' : ∀ c, d.cqs c = true → c ≠ i := by
      rintro c hc rfl
      rw [d.apart c hc] at hqp
      simp at hqp
    have hold' := hd.queues h old hold
    have h1 := hqp' _ hold'.2.2.1
    have h2 := hqp' _ hold'.2.2.2
    have h3 := hcq _ hsendLive
    have h4 := hcq _ hrecvLive
    refine ⟨hisend, hirecv, ?_, ?_⟩
    · rw [reap_cqs_of_ne (by omega), reap_cqs_of_ne (by omega)]
      exact hsendLive
    · rw [reap_cqs_of_ne (by omega), reap_cqs_of_ne (by omega)]
      exact hrecvLive
  · rw [hdestroyed] at hi
    rw [hnext, hqps]
    rcases List.mem_cons.mp hi with rfl | hi
    · exact ⟨d.lt_of_qps hold, Function.update_self _ _ _⟩
    · obtain ⟨hlt, hqp⟩ := hd.dead i hi
      refine ⟨hlt, ?_⟩
      rw [Function.update_apply, hqp, ite_self]
  · rw [hdestroyed, List.nodup_cons]
    refine ⟨fun hmem => ?_, hd.once⟩
    have := (hd.dead h hmem).2
    rw [hold] at this
    simp at this
  · rw [hreaped.ahsDestroyed]
    exact hd.ahs

/-! ## One call -/

/-- A call other than `connectQP` that destroys nothing. -/
theorem wellDone_of_undisturbed (hcall : ∀ id, call ≠ .connectQP id) (hd : Queues s'.device)
    (hqps : s'.device.qpsDestroyed = s.device.qpsDestroyed)
    (hahs : s'.device.ahsDestroyed = s.device.ahsDestroyed) :
    transport.WellDone s t call s' where
  usable id hid := absurd hid (hcall id)
  idle id hid := absurd hid (hcall id)
  once := ⟨hd.once, by rw [hd.ahs]; exact List.nodup_nil⟩
  owned h hh := by
    rw [hqps, hahs] at hh
    rcases hh with ⟨hin, hout⟩ | ⟨hin, hout⟩ <;> exact absurd hin hout

/-- Setting up an id. -/
theorem Inv.initialized (hinv : Inv s t) (hinit : Initialized s id s') :
    Inv s' { t with
      inited := Function.update t.inited id true
      changed := Function.update t.changed id true
      owner := fun h =>
        if s.device.next ≤ h ∧ h < s'.device.next then some id else t.owner h } := by
  have hnext : s'.device.next = s.device.next + 3 := by rw [hinit.device, queuePair_next]
  have hqps := (grown_queuePair s.device s.qpType).qps
  rw [← hinit.device] at hqps
  refine ⟨?_, fun i h hqp => ?_, fun i h qp hnew hqp hlive => ?_, fun i hi => ?_,
    fun i hconn hchanged => ?_⟩
  · rw [hinit.device]
    exact hinv.device.queuePair _
  · rw [hinit.qpAt] at hqp ⊢
    split_ifs at hqp ⊢ with hi
    · subst hi
      simp only [madeQp, Option.some.injEq] at hqp
      subst hqp
      refine ⟨⟨_, by rw [hinit.device, queuePair_qps, Function.update_self], rfl⟩, ?_⟩
      rw [hnext]
      exact if_pos ⟨by omega, by omega⟩
    · obtain ⟨⟨qp, hlive, hat⟩, howner⟩ := hinv.tables i h hqp
      have hlt := s.device.lt_of_qps hlive
      refine ⟨⟨qp, by rw [hqps h hlt, hlive], hat⟩, ?_⟩
      rw [← howner]
      exact if_neg (by omega)
  · rw [hinit.connected] at hnew
    rw [hinit.qpAt] at hqp
    split_ifs at hqp with hi
    · simp only [madeQp, Option.some.injEq] at hqp
      rw [hinit.device, queuePair_qps, ← hqp, Function.update_self, Option.some.injEq] at hlive
      rw [← hlive]
    · obtain ⟨⟨qp', hlive', -⟩, -⟩ := hinv.tables i h hqp
      rw [hqps h (s.device.lt_of_qps hlive')] at hlive
      exact hinv.init i h qp hnew hqp hlive
  · rw [hinit.connected] at hi
    rw [hinit.qpAt]
    split_ifs with hid
    · exact ⟨_, rfl⟩
    · change Function.update t.inited id true i = true ∧ _ ∨ _ at hi
      rw [Function.update_of_ne hid] at hi
      exact hinv.made i hi
  · rw [hinit.connected] at hconn
    change Function.update t.changed id true i = false at hchanged
    have hid : i ≠ id := by
      rintro rfl
      rw [Function.update_self] at hchanged
      simp at hchanged
    rw [Function.update_of_ne hid] at hchanged
    refine (hinv.usable i hconn hchanged).congr ?_ ?_ fun h hh => ?_
    · rw [hinit.qpAt, if_neg hid]
    · rw [rconnAt, hinit.rconns, rconnAt]
    · obtain ⟨⟨qp, hlive, -⟩, -⟩ := hinv.tables i h hh
      exact hqps h (s.device.lt_of_qps hlive)

/-- Both ways to set up an id. -/
theorem Inv.wp_init (call : ConnCall) (hinv : Inv s t) (hid : id + 1 < 2 ^ 64)
    (hcall : ∀ i, call ≠ .connectQP i)
    (htarget : call.target s = id)
    (hmark : t.mark id call = { t with
      inited := Function.update t.inited id true
      changed := Function.update t.changed id true }) :
    wp (initQPWithSuppliedID id)
      (fun _ s' => Inv s' (t.write s s' call) ∧ transport.WellDone s t call s')
      (fun _ s' => Inv s' (t.write s s' call) ∧ transport.WellDone s t call s') s := by
  refine wp_initQPWithSuppliedID (fun s' hinit => ?_) fun e d' hbad => ?_
  · have hkept := hinv.initialized hinit
    refine ⟨?_, wellDone_of_undisturbed hcall hkept.device ?_ ?_⟩
    · rw [Trail.write, htarget, hmark]
      exact hkept
    · rw [hinit.device, queuePair_qpsDestroyed]
    · rw [hinit.device, queuePair_ahsDestroyed]
  · rcases hbad with hbad | hbad
    · exact absurd hinv.device.succeeds hbad
    · exact absurd hid (by omega)

/-- New remote data for an id. -/
theorem Inv.wp_setRemoteConnData (hinv : Inv s t) (hid : id + 1 < 2 ^ 64) (conn : IbConn) :
    wp (setRemoteConnData id conn)
      (fun _ s' => Inv s' (t.write s s' (.setRemoteConnData id conn)) ∧
        transport.WellDone s t (.setRemoteConnData id conn) s')
      (fun _ s' => Inv s' (t.write s s' (.setRemoteConnData id conn)) ∧
        transport.WellDone s t (.setRemoteConnData id conn) s') s := by
  refine BaseRDMA.wp_setRemoteConnData (fun rconns hconns _ _ => ⟨?_, ?_⟩) fun e hbad => ?_
  · refine ⟨hinv.device, fun i h hqp => ?_, hinv.init, hinv.made, fun i hconn hchanged => ?_⟩
    · obtain ⟨htable, howner⟩ := hinv.tables i h hqp
      exact ⟨htable, Eq.trans (Trail.write_owner_of_still rfl h) howner⟩
    · change Function.update t.changed id true i = false at hchanged
      have hi : i ≠ id := by
        rintro rfl
        rw [Function.update_self] at hchanged
        simp at hchanged
      rw [Function.update_of_ne hi] at hchanged
      refine (hinv.usable i hconn hchanged).congr rfl ?_ fun _ _ => rfl
      have hold := hconns i
      rw [if_neg hi] at hold
      exact hold
  · exact wellDone_of_undisturbed (by simp) hinv.device rfl rfl
  · exact absurd hid (by omega)

/-- A `connectQP` that moved no queue pair. -/
theorem Inv.connectQP_still (hinv : Inv s t) {d : Device} (hd : Queues d)
    (hqps : d.qps = s.device.qps) (hnext : d.next = s.device.next)
    (husable : s.connected.lookup id = some true → Usable s id) :
    Inv { s with device := d } (t.write s { s with device := d } (.connectQP id)) := by
  refine ⟨hd, fun i h hqp => ?_, fun i h qp hnew hqp hlive => ?_, hinv.made,
    fun i hi hunchanged => ?_⟩
  · rw [Trail.write_owner_of_still hnext]
    change (∃ qp, d.qps h = some qp ∧ _) ∧ _
    rw [hqps]
    exact hinv.tables i h hqp
  · change d.qps h = some qp at hlive
    rw [hqps] at hlive
    exact hinv.init i h qp hnew hqp hlive
  · have hold : Usable s i := by
      change Function.update t.changed id false i = false at hunchanged
      rcases eq_or_ne i id with rfl | hne
      · exact husable hi
      · rw [Function.update_of_ne hne] at hunchanged
        exact hinv.usable i hi hunchanged
    refine hold.congr rfl rfl fun h _ => ?_
    change d.qps h = _
    rw [hqps]

/-- An id that was set up and has remote data can be connected. -/
theorem Inv.connectable (hinv : Inv s t) (hinited : t.inited id = true) (hout : id ∉ s.connected)
    (hlt : id < s.rconns.length) : ∃ h old, Connectable s id h old := by
  obtain ⟨h, hqp⟩ := hinv.made id (Or.inl ⟨hinited, hout⟩)
  obtain ⟨⟨old, hold, -⟩, -⟩ := hinv.tables id h hqp
  exact ⟨h, old, hqp, hold, hinv.init id h old hout hqp hold, lt_length_of_qpAt hqp, hlt⟩

/-- The queue pair of `id` was moved. -/
theorem Inv.connectedTo (hinv : Inv s t) {old : Qp} (hable : Connectable s id h old) :
    Inv (connectedTo s id h old) (t.write s (connectedTo s id h old) (.connectQP id)) ∧
      Usable (ReliableRDMA.connectedTo s id h old) id := by
  obtain ⟨hqp, hold, -, -, -⟩ := hable
  have hqps : ∀ i h', (s.qpAt i).qp = some h' → i ≠ id →
      (ReliableRDMA.connectedTo s id h old).device.qps h' = s.device.qps h' := by
    intro i h' hqp' hne
    refine Function.update_of_ne ?_ _ _
    rintro rfl
    exact hne (hinv.eq_of_qpAt hqp' hqp)
  have hself := connectedTo_qps_self id hold
  have husable : Usable (ReliableRDMA.connectedTo s id h old) id := ⟨h, _, hqp, hself, rfl, rfl⟩
  have hnew : ∀ i, i ∉ (ReliableRDMA.connectedTo s id h old).connected → i ≠ id ∧ i ∉ s.connected := by
    intro i hi
    change i ∉ s.connected.insert id true at hi
    rwa [Finmap.mem_insert, not_or] at hi
  have hother : ∀ i, i ≠ id →
      (ReliableRDMA.connectedTo s id h old).connected.lookup i = s.connected.lookup i :=
    fun i hne => Finmap.lookup_insert_of_ne _ hne
  refine ⟨⟨hinv.device.readied hold _, fun i h' hqp' => ?_, fun i h' qp hi hqp' hlive => ?_,
    fun i hi => ?_, fun i hconn hchanged => ?_⟩, husable⟩
  · obtain ⟨⟨qp, hlive, hat⟩, howner⟩ := hinv.tables i h' hqp'
    refine ⟨?_, ?_⟩
    · rcases eq_or_ne i id with rfl | hne
      · change (s.qpAt i).qp = some h' at hqp'
        rw [hqp] at hqp'
        obtain rfl := Option.some.inj hqp'
        rw [hold] at hlive
        obtain rfl := Option.some.inj hlive
        exact ⟨_, hself, hat⟩
      · exact ⟨qp, by rw [hqps i h' hqp' hne, hlive], hat⟩
    · exact Eq.trans (Trail.write_owner_of_still rfl h') howner
  · rw [hqps i h' hqp' (hnew i hi).1] at hlive
    exact hinv.init i h' qp (hnew i hi).2 hqp' hlive
  · rcases eq_or_ne i id with rfl | hne
    · exact ⟨h, hqp⟩
    · rcases hi with ⟨hi, hout⟩ | hi
      · exact hinv.made i (Or.inl ⟨hi, (hnew i hout).2⟩)
      · rw [hother i hne] at hi
        exact hinv.made i (Or.inr hi)
  · rcases eq_or_ne i id with rfl | hne
    · exact husable
    · change Function.update t.changed id false i = false at hchanged
      rw [hother i hne] at hconn
      rw [Function.update_of_ne hne] at hchanged
      exact (hinv.usable i hconn hchanged).congr rfl rfl fun h' hh' => hqps i h' hh' hne

/-- A sound `connectQP`. -/
theorem Inv.wp_connectQP (hinv : Inv s t) (hsound : Sound s t (.connectQP id)) :
    wp (connectQP id)
      (fun _ s' => Inv s' (t.write s s' (.connectQP id)) ∧
        transport.WellDone s t (.connectQP id) s')
      (fun _ s' => Inv s' (t.write s s' (.connectQP id)) ∧
        transport.WellDone s t (.connectQP id) s') s := by
  have hdone : ∀ s' : BaseRDMA, s'.device.qpsDestroyed = s.device.qpsDestroyed →
      s'.device.ahsDestroyed = s.device.ahsDestroyed →
      (t.inited id = true → s'.connected.lookup id = some true ∧ Usable s' id) →
      (s.connected.lookup id = some true → s'.device.calls = s.device.calls) →
        transport.WellDone s t (.connectQP id) s' := by
    intro s' hqps hahs husable hidle
    refine ⟨fun i hi hinited => ?_, fun i hi hconn _ => ?_, ?_, fun h hh => ?_⟩
    · obtain rfl := ConnCall.connectQP.inj hi
      exact husable hinited
    · obtain rfl := ConnCall.connectQP.inj hi
      exact hidle hconn
    · rw [hqps, hahs, hinv.device.ahs]
      exact ⟨hinv.device.once, List.nodup_nil⟩
    · rw [hqps, hahs] at hh
      rcases hh with ⟨hin, hout⟩ | ⟨hin, hout⟩ <;> exact absurd hin hout
  refine ReliableRDMA.wp_connectQP (fun hin => ?_) (fun h old hout hable => ?_)
    (fun e d' _ hbad => absurd hinv.device.succeeds hbad) fun e hout hunable => ?_
  · -- the id is connected and nothing about it changed
    rcases hsound with ⟨hout, -⟩ | ⟨hconn, hchanged⟩
    · exact absurd hin hout
    have husable := hinv.usable id hconn hchanged
    exact ⟨hinv.connectQP_still hinv.device rfl rfl fun _ => husable,
      hdone s rfl rfl (fun _ => ⟨hconn, husable⟩) fun _ => rfl⟩
  · -- it is connected now
    obtain ⟨hkept, husable⟩ := hinv.connectedTo hable
    refine ⟨hkept, hdone _ rfl rfl (fun _ => ⟨Finmap.lookup_insert _, husable⟩) fun hconn => ?_⟩
    exact absurd (Finmap.mem_of_lookup_eq_some hconn) hout
  · -- it was never set up
    have hnew : s.connected.lookup id ≠ some true :=
      fun hconn => hout (Finmap.mem_of_lookup_eq_some hconn)
    have hlt : id < s.rconns.length := by
      rcases hsound with ⟨-, hlt⟩ | ⟨hconn, -⟩
      · exact hlt
      · exact absurd hconn hnew
    have hinited : t.inited id ≠ true := by
      intro hinited
      obtain ⟨h, old, hable⟩ := hinv.connectable hinited hout hlt
      exact hunable h old hable
    refine ⟨⟨hinv.connectQP_still hinv.device rfl rfl fun hconn => absurd hconn hnew, ?_⟩,
      hinv.connectQP_still hinv.device.tick rfl rfl fun hconn => absurd hconn hnew, ?_⟩
    · exact hdone s rfl rfl (fun hin => absurd hin hinited) fun hconn => absurd hconn hnew
    · exact hdone _ rfl rfl (fun hin => absurd hin hinited) fun hconn => absurd hconn hnew

/-- The queue pair of `id` was torn down. -/
theorem Inv.disconnected {d : Device} (hinv : Inv s t) (hqp : (s.qpAt id).qp = some h)
    (hd : Queues d) (hreaped : (s.device.tick.dropQp h).Reaped d)
    (hs' : s' = { disconnected s id d with connected := s.connected.insert id false }) :
    Inv s' (t.write s s' (.disconnectQP id)) := by
  have hlt := lt_length_of_qpAt hqp
  have hqps : d.qps = Function.update s.device.qps h none := hreaped.qps
  have hdevice : s'.device = d := by rw [hs']; rfl
  have hconn : s'.connected = s.connected.insert id false := by rw [hs']
  have hrconn : ∀ i, s'.rconnAt i = s.rconnAt i := by rw [hs']; exact fun _ => rfl
  have hqpAt : ∀ i, s'.qpAt i = (ReliableRDMA.disconnected s id d).qpAt i := by
    rw [hs']
    exact fun _ => rfl
  have hlive : ∀ i h', (s.qpAt i).qp = some h' → i ≠ id → s'.device.qps h' = s.device.qps h' := by
    intro i h' hqp' hne
    rw [hdevice, hqps]
    refine Function.update_of_ne ?_ _ _
    rintro rfl
    exact hne (hinv.eq_of_qpAt hqp' hqp)
  have hother : ∀ i, i ≠ id → s'.qpAt i = s.qpAt i := by
    intro i hne
    rw [hqpAt, qpAt_disconnected hlt, if_neg hne]
  have hne_of_some : ∀ i h', (s'.qpAt i).qp = some h' → i ≠ id := by
    rintro i h' hqp' rfl
    rw [hqpAt, qpAt_disconnected hlt, if_pos rfl] at hqp'
    simp at hqp'
  have hstill : ∀ i, s'.connected.lookup i = some true →
      i ≠ id ∧ s.connected.lookup i = some true := by
    intro i hi
    rw [hconn] at hi
    have hne : i ≠ id := by
      rintro rfl
      rw [Finmap.lookup_insert] at hi
      simp at hi
    rw [Finmap.lookup_insert_of_ne _ hne] at hi
    exact ⟨hne, hi⟩
  have hout_of : ∀ i, i ∉ s'.connected → i ≠ id ∧ i ∉ s.connected := by
    intro i hout
    rwa [hconn, Finmap.mem_insert, not_or] at hout
  refine ⟨hdevice ▸ hd, fun i h' hqp' => ?_, fun i h' qp hi hqp' hl => ?_, fun i hi => ?_,
    fun i hi hchanged => ?_⟩
  · have hne := hne_of_some i h' hqp'
    rw [hother i hne] at hqp' ⊢
    obtain ⟨⟨qp, hl, hat⟩, howner⟩ := hinv.tables i h' hqp'
    rw [Trail.write_owner_of_still (by rw [hdevice]; exact hreaped.next)]
    exact ⟨⟨qp, (hlive i h' hqp' hne).trans hl, hat⟩, howner⟩
  · have hne := hne_of_some i h' hqp'
    rw [hother i hne] at hqp'
    exact hinv.init i h' qp (hout_of i hi).2 hqp' ((hlive i h' hqp' hne).symm.trans hl)
  · have hold : i ≠ id ∧ (t.inited i = true ∧ i ∉ s.connected ∨
        s.connected.lookup i = some true) := by
      rcases hi with ⟨hi, hout⟩ | hi
      · exact (hout_of i hout).imp_right fun hout => Or.inl ⟨hi, hout⟩
      · exact (hstill i hi).imp_right Or.inr
    rw [hother i hold.1]
    exact hinv.made i hold.2
  · obtain ⟨hne, hi⟩ := hstill i hi
    exact (hinv.usable i hi hchanged).congr (hother i hne) (hrconn i)
      fun h' hh' => hlive i h' hh' hne

/-- What is destroyed belongs to `id`. -/
theorem wellDone_disconnected {d : Device} (howner : t.owner h = some id) (hd : Queues d)
    (hreaped : (s.device.tick.dropQp h).Reaped d) (hdevice : s'.device = d) :
    transport.WellDone s t (.disconnectQP id) s' where
  usable i hi := by simp at hi
  idle i hi := by simp at hi
  once := by
    rw [hdevice]
    refine ⟨hd.once, ?_⟩
    rw [hd.ahs]
    exact List.nodup_nil
  owned h' hh' := by
    refine ⟨id, rfl, ?_⟩
    rw [hdevice, hreaped.qpsDestroyed, hreaped.ahsDestroyed] at hh'
    rcases hh' with ⟨hin, hout⟩ | ⟨hin, hout⟩
    · rcases List.mem_cons.mp hin with rfl | hin
      · exact howner
      · exact absurd hin hout
    · exact absurd hin hout

/-- A `disconnectQP`. -/
theorem Inv.wp_disconnectQP (hinv : Inv s t) :
    wp (disconnectQP id)
      (fun _ s' => Inv s' (t.write s s' (.disconnectQP id)) ∧
        transport.WellDone s t (.disconnectQP id) s')
      (fun _ s' => Inv s' (t.write s s' (.disconnectQP id)) ∧
        transport.WellDone s t (.disconnectQP id) s') s := by
  by_cases hconn : s.connected.lookup id = some true
  · obtain ⟨h, hqp⟩ := hinv.made id (Or.inr hconn)
    obtain ⟨⟨old, hold, hat⟩, howner⟩ := hinv.tables id h hqp
    obtain ⟨hsend, hrecv, hsendLive, hrecvLive⟩ := hinv.device.queues h old hold
    refine wp_disconnectQP_of_live hinv.device.succeeds hconn (lt_length_of_qpAt hqp) hat hold
      hsendLive hrecvLive (by omega) ?_
    have hreaped := (reaped_reap (s.device.tick.dropQp h) old.sendCq).trans
      (reaped_reap ((s.device.tick.dropQp h).reap old.sendCq) old.recvCq)
    have hd := hinv.device.tearDown hold
    exact ⟨hinv.disconnected hqp hd hreaped rfl, wellDone_disconnected howner hd hreaped rfl⟩
  · have hstay : disconnectQP id s = (.ok (), s) := by
      unfold disconnectQP
      rw [bind_of_ok get_apply, if_pos hconn]
      rfl
    unfold wp
    rw [hstay]
    refine ⟨⟨hinv.device, fun i h hqp => ?_, hinv.init, hinv.made, hinv.usable⟩,
      wellDone_of_undisturbed (by simp) hinv.device rfl rfl⟩
    obtain ⟨htable, howner⟩ := hinv.tables i h hqp
    exact ⟨htable, Eq.trans (Trail.write_owner_of_still rfl h) howner⟩

/-! ## Every run -/

theorem Inv.init_blank {s : BaseRDMA} (hinit : transport.Init s) : Inv s Trail.empty := by
  obtain ⟨errno, qpNum, pointer, rkey, lid, stack, hsucc, rfl⟩ := hinit
  refine ⟨⟨hsucc, ?_, ?_, List.nodup_nil, rfl⟩, ?_, ?_, ?_, ?_⟩ <;>
    simp [blank, opened, qpAt, IbQp.null, Trail.empty]

theorem initQP_snd : (initQP s).2 = (initQPWithSuppliedID s.nextConnKey s).2 := by
  unfold initQP
  rw [bind_of_ok get_apply]
  rcases hx : initQPWithSuppliedID s.nextConnKey s with ⟨e | u, s'⟩
  · rw [bind_of_error hx]
  · rw [bind_of_ok hx]
    rfl

/-- **A sound call is well done and keeps the invariant.** -/
theorem Inv.exec (hinv : Inv s t) (hid : call.target s + 1 < 2 ^ 64) (hsound : Sound s t call) :
    Inv (exec s call) (t.write s (exec s call) call) ∧
      transport.WellDone s t call (ReliableRDMA.exec s call) := by
  cases call with
  | initQP =>
      have hinit := wp_snd.mp (Inv.wp_init .initQP hinv hid (by simp) rfl rfl)
      change Inv (initQP s).2 (t.write s (initQP s).2 .initQP) ∧ transport.WellDone s t _ (initQP s).2
      rw [initQP_snd]
      exact hinit
  | initQPWithSuppliedID id =>
      exact wp_snd.mp (Inv.wp_init (.initQPWithSuppliedID id) hinv hid (by simp) rfl rfl)
  | setRemoteConnData id conn => exact wp_snd.mp (hinv.wp_setRemoteConnData hid conn)
  | connectQP id => exact wp_snd.mp (hinv.wp_connectQP hsound)
  | disconnectQP id => exact wp_snd.mp hinv.wp_disconnectQP

theorem invariant_soundRuns :
    transport.soundRuns.Invariant fun p => Inv p.1 p.2 where
  init p hinit := by
    obtain ⟨hinit, htrail⟩ := hinit
    rw [htrail]
    exact Inv.init_blank hinit
  step p call q _ hinv hstep := by
    obtain ⟨hsound, ⟨hid, hstep⟩, hwrite⟩ := hstep
    rw [hwrite, hstep]
    exact (hinv.exec hid hsound).1

/-- **Every call of a run of sound calls is well done.** -/
theorem wellDone {p q : BaseRDMA × Trail} (hp : transport.soundRuns.Reachable p)
    (hstep : transport.soundRuns.Step p call q) : transport.WellDone p.1 p.2 call q.1 := by
  obtain ⟨hsound, ⟨hid, hstep⟩, -⟩ := hstep
  rw [hstep]
  exact ((invariant_soundRuns.reachable hp).exec hid hsound).2

end ReliableRDMA

end RdmaManager
