import RdmaManager.Rdma.ConnCalls
import RdmaManager.Rdma.Unreliable
/-!
# `UnreliableRDMA`: reconnecting

`connectQP` returns at once for an id that was disconnected, and makes
another address handle for one that is connected. It does what it should
for an id without an entry in `m_connected`, and for a connected id about
which something changed. New remote data overwrites the address handle of
a connected id, so `disconnectQP` does what it should only where none was
stored since the id was connected.
-/

namespace RdmaManager

namespace UnreliableRDMA

open BaseRDMA Act Device

variable {u : UnreliableRDMA} {s : BaseRDMA} {t : Trail} {id h : ℕ} {call : ConnCall}

/-- The object after a call. -/
def exec (u : UnreliableRDMA) : ConnCall → UnreliableRDMA
  | .initQP => (initQP u).2
  | .initQPWithSuppliedID id => (initQPWithSuppliedID id u).2
  | .setRemoteConnData id conn => (onBase (setRemoteConnData id conn) u).2
  | .connectQP id => (onBase (connectQP id) u).2
  | .disconnectQP id => (onBase (disconnectQP id) u).2

/-- The remote data of `id` has a live address handle for its `lid`. -/
def Usable (s : BaseRDMA) (id : ℕ) : Prop :=
  ∃ h, (s.rconnAt id).ah = some h ∧ s.device.ahs h = some (s.rconnAt id).lid

/-- `connectQP` is called for an id with remote data that has no entry in
`m_connected`, or for a connected one about which something changed, and
`disconnectQP` for no connected id that was given remote data since. -/
def Sound (s : BaseRDMA) (t : Trail) : ConnCall → Prop
  | .connectQP id => id < s.rconns.length ∧
      (id ∉ s.connected ∨ s.connected.lookup id = some true ∧ t.changed id = true)
  | .disconnectQP id => s.connected.lookup id = some true → t.rerouted id = false
  | _ => True

def transport : Transport UnreliableRDMA where
  base := toBaseRDMA
  Init u := ∃ errno qpNum pointer rkey lid stack lrand48, (∀ n, errno n = 0) ∧
    construct (blank (Device.opened errno qpNum) pointer rkey lid stack lrand48) = (.ok (), u)
  exec := exec
  Usable := Usable
  Sound := Sound

/-! ## The invariant -/

/-- **What a run of sound calls keeps** of the base class. -/
structure Inv (s : BaseRDMA) (t : Trail) : Prop where
  succeeds : s.device.Succeeds
  /-- A connected id owns the address handle of its remote data. -/
  routes : ∀ id, s.connected.lookup id = some true → t.rerouted id = false →
    id < s.rconns.length ∧ ∃ h, (s.rconnAt id).ah = some h ∧
      s.device.ahs h = some (s.rconnAt id).lid ∧ t.owner h = some id
  dead : ∀ h ∈ s.device.ahsDestroyed, h < s.device.next ∧ s.device.ahs h = none
  once : s.device.ahsDestroyed.Nodup
  qps : s.device.qpsDestroyed = []

/-! ## One call -/

/-- A call other than `connectQP` that destroys nothing. -/
theorem wellDone_of_undisturbed {s' : BaseRDMA} (hcall : ∀ id, call ≠ .connectQP id)
    (hinv : Inv s t) (hqps : s'.device.qpsDestroyed = s.device.qpsDestroyed)
    (hahs : s'.device.ahsDestroyed = s.device.ahsDestroyed) : transport.WellDone s t call s' where
  usable id hid := absurd hid (hcall id)
  idle id hid := absurd hid (hcall id)
  once := by
    rw [hqps, hahs, hinv.qps]
    exact ⟨List.nodup_nil, hinv.once⟩
  owned h hh := by
    rw [hqps, hahs] at hh
    rcases hh with ⟨hin, hout⟩ | ⟨hin, hout⟩ <;> exact absurd hin hout

/-- A call that leaves the device, the remote data and the connected ids
alone, and does not mark its id as rerouted. -/
theorem Inv.kept {s' : BaseRDMA} (hinv : Inv s t) (hdevice : s'.device = s.device)
    (hrconns : s'.rconns = s.rconns) (hconnected : s'.connected = s.connected)
    (hmark : (t.mark (call.target s) call).rerouted = t.rerouted) : Inv s' (t.write s s' call) := by
  refine ⟨?_, fun i hi hr => ?_, ?_, ?_, ?_⟩
  · rw [hdevice]
    exact hinv.succeeds
  · rw [hconnected] at hi
    change (t.mark (call.target s) call).rerouted i = false at hr
    rw [hmark] at hr
    obtain ⟨hlt, h, hah, hlive, howner⟩ := hinv.routes i hi hr
    have hat : s'.rconnAt i = s.rconnAt i := by rw [rconnAt, hrconns, rconnAt]
    rw [hat, hrconns, hdevice]
    refine ⟨hlt, h, hah, hlive, ?_⟩
    exact Eq.trans (Trail.write_owner_of_still (by rw [hdevice]) h) howner
  · rw [hdevice]
    exact hinv.dead
  · rw [hdevice]
    exact hinv.once
  · rw [hdevice]
    exact hinv.qps

/-- Both ways to set up an id. -/
theorem Inv.wp_init (call : ConnCall) (id : ℕ) (hinv : Inv u.toBaseRDMA t) (hqp : u.udqp.qp = some h)
    (hcall : ∀ i, call ≠ .connectQP i)
    (hmark : (t.mark (call.target u.toBaseRDMA) call).rerouted = t.rerouted) :
    let P := fun u' : UnreliableRDMA => (u'.udqp.qp = some h ∧
      Inv u'.toBaseRDMA (t.write u.toBaseRDMA u'.toBaseRDMA call)) ∧
        transport.WellDone u.toBaseRDMA t call u'.toBaseRDMA
    wp (initQPWithSuppliedID id) (fun _ => P) (fun _ => P) u := by
  refine wp_initQPWithSuppliedID hqp (fun s lconns hset _ => ⟨⟨hqp, ?_⟩, ?_⟩) fun e _ => ⟨⟨hqp, ?_⟩, ?_⟩
  · exact hinv.kept hset.device hset.rconns hset.connected hmark
  · refine wellDone_of_undisturbed hcall hinv ?_ ?_
    · change s.device.qpsDestroyed = _
      rw [hset.device]
    · change s.device.ahsDestroyed = _
      rw [hset.device]
  · exact hinv.kept rfl rfl rfl hmark
  · exact wellDone_of_undisturbed hcall hinv rfl rfl

/-- New remote data for an id. -/
theorem Inv.wp_setRemoteConnData (hinv : Inv s t) (hid : id + 1 < 2 ^ 64) (conn : IbConn) :
    let P := fun s' => Inv s' (t.write s s' (.setRemoteConnData id conn)) ∧
      transport.WellDone s t (.setRemoteConnData id conn) s'
    wp (setRemoteConnData id conn) (fun _ => P) (fun _ => P) s := by
  refine BaseRDMA.wp_setRemoteConnData (fun rconns hconns _ hle => ⟨?_, ?_⟩) fun e hbad => ?_
  · refine ⟨hinv.succeeds, fun i hi hr => ?_, hinv.dead, hinv.once, hinv.qps⟩
    change Function.update t.rerouted id true i = false at hr
    have hne : i ≠ id := by
      rintro rfl
      rw [Function.update_self] at hr
      simp at hr
    rw [Function.update_of_ne hne] at hr
    obtain ⟨hlt, h, hah, hlive, howner⟩ := hinv.routes i hi hr
    have hat : rconns.getD i IbConn.zero = s.rconnAt i := by rw [hconns i, if_neg hne]
    change i < rconns.length ∧ ∃ h, (rconns.getD i IbConn.zero).ah = some h ∧
      s.device.ahs h = some (rconns.getD i IbConn.zero).lid ∧ _
    rw [hat]
    exact ⟨lt_of_lt_of_le hlt hle, h, hah, hlive,
      Eq.trans (Trail.write_owner_of_still rfl h) howner⟩
  · exact wellDone_of_undisturbed (by simp) hinv rfl rfl
  · exact absurd hid (by omega)

/-- A sound `connectQP`. -/
theorem Inv.wp_connectQP (hinv : Inv s t) (hsound : Sound s t (.connectQP id)) :
    let P := fun s' => Inv s' (t.write s s' (.connectQP id)) ∧
      transport.WellDone s t (.connectQP id) s'
    wp (connectQP id) (fun _ => P) (fun _ => P) s := by
  obtain ⟨hlt, hsound⟩ := hsound
  have hnot : s.connected.lookup id ≠ some false := by
    intro hfalse
    rcases hsound with hout | ⟨htrue, -⟩
    · exact hout (Finmap.mem_of_lookup_eq_some hfalse)
    · rw [htrue] at hfalse
      simp at hfalse
  refine UnreliableRDMA.wp_connectQP (fun hfalse => absurd hfalse hnot) (fun _ _ _ => ?_)
    (fun _ _ herr => absurd (hinv.succeeds _) herr) fun e _ hge => absurd hlt (by omega)
  have hself : (connectedTo s id (s.device.tick.addAh (s.rconnAt id).lid)
      (some s.device.next)).rconnAt id = { s.rconnAt id with ah := some s.device.next } := by
    rw [rconnAt_connectedTo hlt, if_pos rfl]
  have hlive : (s.device.tick.addAh (s.rconnAt id).lid).ahs s.device.next =
      some (s.rconnAt id).lid := Function.update_self _ _ _
  have hold : ∀ h, h < s.device.next →
      (s.device.tick.addAh (s.rconnAt id).lid).ahs h = s.device.ahs h :=
    fun h hh => Function.update_of_ne (by change h ≠ s.device.next; omega) _ _
  refine ⟨⟨hinv.succeeds, fun i hi hr => ?_, fun h hh => ?_, hinv.once, hinv.qps⟩, ?_⟩
  · change i < (s.rconns.set id _).length ∧ _
    rw [List.length_set]
    rcases eq_or_ne i id with rfl | hne
    · rw [hself]
      exact ⟨hlt, s.device.next, rfl, hlive, if_pos ⟨le_rfl, Nat.lt_succ_self _⟩⟩
    · change (s.connected.insert id true).lookup i = some true at hi
      change Function.update t.rerouted id false i = false at hr
      rw [Finmap.lookup_insert_of_ne _ hne] at hi
      rw [Function.update_of_ne hne] at hr
      obtain ⟨hilt, h, hah, hl, howner⟩ := hinv.routes i hi hr
      have hnext := s.device.lt_of_ahs hl
      rw [rconnAt_connectedTo hlt, if_neg hne]
      refine ⟨hilt, h, hah, (hold h hnext).trans hl, ?_⟩
      exact Eq.trans (if_neg fun hmade => absurd hnext (Nat.not_lt.mpr hmade.1)) howner
  · obtain ⟨hnext, hdead⟩ := hinv.dead h hh
    exact ⟨Nat.lt_succ_of_lt hnext, (hold h hnext).trans hdead⟩
  · refine ⟨fun i hi _ => ?_, fun i hi hconn hunchanged => ?_, ?_, fun h hh => ?_⟩
    · obtain rfl := ConnCall.connectQP.inj hi
      exact ⟨Finmap.lookup_insert _, s.device.next, by rw [hself], by rw [hself]; exact hlive⟩
    · obtain rfl := ConnCall.connectQP.inj hi
      rcases hsound with hout | ⟨-, hchanged⟩
      · exact absurd (Finmap.mem_of_lookup_eq_some hconn) hout
      · rw [hchanged] at hunchanged
        simp at hunchanged
    · refine ⟨?_, hinv.once⟩
      change s.device.qpsDestroyed.Nodup
      rw [hinv.qps]
      exact List.nodup_nil
    · rcases hh with ⟨hin, hout⟩ | ⟨hin, hout⟩ <;> exact absurd hin hout

/-- A sound `disconnectQP`. -/
theorem Inv.wp_disconnectQP (hinv : Inv s t) (hsound : Sound s t (.disconnectQP id)) :
    let P := fun s' => Inv s' (t.write s s' (.disconnectQP id)) ∧
      transport.WellDone s t (.disconnectQP id) s'
    wp (disconnectQP id) (fun _ => P) (fun _ => P) s := by
  by_cases hconn : s.connected.lookup id = some true
  · obtain ⟨hlt, h, hah, hlive, howner⟩ := hinv.routes id hconn (hsound hconn)
    refine wp_disconnectQP_of_live hinv.succeeds hconn hlt hah hlive ⟨⟨hinv.succeeds,
      fun i hi hr => ?_, fun h' hh' => ?_, ?_, hinv.qps⟩, fun i hi => by simp at hi,
      fun i hi => by simp at hi, ?_, fun h' hh' => ⟨id, rfl, ?_⟩⟩
    · change (s.connected.insert id false).lookup i = some true at hi
      have hne : i ≠ id := by
        rintro rfl
        rw [Finmap.lookup_insert] at hi
        simp at hi
      rw [Finmap.lookup_insert_of_ne _ hne] at hi
      obtain ⟨hilt, h', hah', hlive', howner'⟩ := hinv.routes i hi hr
      have hne' : h' ≠ h := by
        rintro rfl
        rw [howner] at howner'
        exact hne (Option.some.inj howner').symm
      exact ⟨hilt, h', hah', (Function.update_of_ne hne' _ _).trans hlive',
        Eq.trans (Trail.write_owner_of_still rfl h') howner'⟩
    · change h' ∈ h :: s.device.ahsDestroyed at hh'
      change h' < s.device.next ∧ Function.update s.device.ahs h none h' = none
      rcases List.mem_cons.mp hh' with rfl | hin
      · exact ⟨s.device.lt_of_ahs hlive, Function.update_self _ _ _⟩
      · obtain ⟨hnext, hdead⟩ := hinv.dead h' hin
        exact ⟨hnext, by rw [Function.update_apply, hdead, ite_self]⟩
    · refine List.nodup_cons.mpr ⟨fun hin => ?_, hinv.once⟩
      have hdead := (hinv.dead h hin).2
      rw [hlive] at hdead
      simp at hdead
    · change s.device.qpsDestroyed.Nodup ∧ (h :: s.device.ahsDestroyed).Nodup
      rw [hinv.qps, List.nodup_cons]
      refine ⟨List.nodup_nil, fun hin => ?_, hinv.once⟩
      have hdead := (hinv.dead h hin).2
      rw [hlive] at hdead
      simp at hdead
    · rcases hh' with ⟨hin, hout⟩ | ⟨hin, hout⟩
      · exact absurd hin hout
      · change h' ∈ h :: s.device.ahsDestroyed at hin
        rcases List.mem_cons.mp hin with rfl | hin
        · exact howner
        · exact absurd hin hout
  · refine wp_disconnectQP_of_not_connected hconn ⟨?_, ?_⟩
    · exact hinv.kept rfl rfl rfl rfl
    · exact wellDone_of_undisturbed (by simp) hinv rfl rfl

/-! ## Every run -/

theorem initQP_snd : (initQP u).2 = (initQPWithSuppliedID u.nextConnKey u).2 := by
  unfold initQP
  rw [bind_of_ok get_apply]
  rcases hx : initQPWithSuppliedID u.nextConnKey u with ⟨e | x, u'⟩
  · rw [bind_of_error hx]
  · rw [bind_of_ok hx]
    rfl

/-- What a constructor that returned leaves. -/
theorem Inv.constructed (hinit : transport.Init u) :
    (∃ h, u.udqp.qp = some h) ∧ Inv u.toBaseRDMA Trail.empty := by
  obtain ⟨errno, qpNum, pointer, rkey, lid, stack, lrand48, hsucc, hconstruct⟩ := hinit
  refine wp_ok (Q := fun _ u => (∃ h, u.udqp.qp = some h) ∧ Inv u.toBaseRDMA Trail.empty)
    (E := fun _ _ => True) ?_ hconstruct
  unfold construct initQPWithSuppliedID
  simp only [wp_bind, wp_get, wp_onBase]
  refine wp_makeUdqp_of_new rfl fun d qp h udqpConn hgrown hqp => ?_
  refine wp_setQP hqp (fun s hset => ?_) fun _ _ => trivial
  refine wp_setLocalConnData (fun lconns _ _ => ⟨⟨h, hqp⟩, ?_⟩) fun _ _ => trivial
  have hdestroyed := hgrown.destroyed
  refine ⟨?_, fun i hi => ?_, fun h hh => ?_, ?_, ?_⟩
  · rw [hset.device]
    exact hgrown.succeeds hsucc
  · rw [hset.connected] at hi
    simp [blank] at hi
  · rw [hset.device] at hh
    change h ∈ d.ahsDestroyed at hh
    rw [hdestroyed.2.2.2] at hh
    simp [blank] at hh
  · rw [hset.device]
    change d.ahsDestroyed.Nodup
    rw [hdestroyed.2.2.2]
    exact List.nodup_nil
  · rw [hset.device]
    exact hdestroyed.1

/-- **A sound call is well done and keeps the invariant.** -/
theorem Inv.exec (hinv : Inv u.toBaseRDMA t) (hqp : ∃ h, u.udqp.qp = some h)
    (hid : call.target u.toBaseRDMA + 1 < 2 ^ 64) (hsound : Sound u.toBaseRDMA t call) :
    ((∃ h, (exec u call).udqp.qp = some h) ∧
      Inv (exec u call).toBaseRDMA (t.write u.toBaseRDMA (exec u call).toBaseRDMA call)) ∧
      transport.WellDone u.toBaseRDMA t call (UnreliableRDMA.exec u call).toBaseRDMA := by
  obtain ⟨h, hqp⟩ := hqp
  cases call with
  | initQP =>
      have hinit := wp_snd.mp (Inv.wp_init .initQP u.nextConnKey hinv hqp (by simp) rfl)
      rw [← initQP_snd] at hinit
      exact ⟨⟨⟨h, hinit.1.1⟩, hinit.1.2⟩, hinit.2⟩
  | initQPWithSuppliedID id =>
      have hinit := wp_snd.mp (Inv.wp_init (.initQPWithSuppliedID id) id hinv hqp (by simp) rfl)
      exact ⟨⟨⟨h, hinit.1.1⟩, hinit.1.2⟩, hinit.2⟩
  | setRemoteConnData id conn =>
      have hset := wp_snd.mp (hinv.wp_setRemoteConnData hid conn)
      exact ⟨⟨⟨h, hqp⟩, hset.1⟩, hset.2⟩
  | connectQP id =>
      have hconnect := wp_snd.mp (hinv.wp_connectQP hsound)
      exact ⟨⟨⟨h, hqp⟩, hconnect.1⟩, hconnect.2⟩
  | disconnectQP id =>
      have hdisconnect := wp_snd.mp (hinv.wp_disconnectQP hsound)
      exact ⟨⟨⟨h, hqp⟩, hdisconnect.1⟩, hdisconnect.2⟩

theorem invariant_soundRuns :
    transport.soundRuns.Invariant fun p => (∃ h, p.1.udqp.qp = some h) ∧ Inv p.1.toBaseRDMA p.2 where
  init p hinit := by
    obtain ⟨hinit, htrail⟩ := hinit
    rw [htrail]
    exact Inv.constructed hinit
  step p call q _ hinv hstep := by
    obtain ⟨hsound, ⟨hid, hstep⟩, hwrite⟩ := hstep
    rw [hwrite, hstep]
    exact (hinv.2.exec hinv.1 hid hsound).1

/-- **Every call of a run of sound calls is well done.** -/
theorem wellDone {p q : UnreliableRDMA × Trail} (hp : transport.soundRuns.Reachable p)
    (hstep : transport.soundRuns.Step p call q) :
    transport.WellDone p.1.toBaseRDMA p.2 call q.1.toBaseRDMA := by
  obtain ⟨hsound, ⟨hid, hstep⟩, -⟩ := hstep
  rw [hstep]
  obtain ⟨hqp, hinv⟩ := invariant_soundRuns.reachable hp
  exact (hinv.exec hqp hid hsound).2

end UnreliableRDMA

end RdmaManager
