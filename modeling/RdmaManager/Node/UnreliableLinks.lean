import RdmaManager.Node.ReliableLinks
/-!
# Links of datagrams

What connects a node on an `UnreliableRDMA` is an address handle in the
remote data of the node. The entry a call has in hand has none until
`connectQP` makes it, and a node is not disconnected meanwhile, which
would destroy a null handle.
-/

namespace RdmaManager

open Act BaseRDMA Device

/-- There is a live address handle in the remote data of an id. -/
def BaseRDMA.Handled (b : BaseRDMA) (id : ℕ) : Prop :=
  ∃ h, (b.rconnAt id).ah = some h ∧ b.device.ahs h ≠ none

instance : Linker UnreliableRDMA where
  Fresh u := ∃ device pointer rkey lid stack lrand48,
    UnreliableRDMA.construct (UnreliableRDMA.blank device pointer rkey lid stack lrand48) = (.ok (), u)
  Installed u id := u.toBaseRDMA.Handled id ∧ u.connected.lookup id = some true
  Able u := decide (u.device.errno u.device.calls = 0)
  Cleans := false

namespace UnreliableRDMA

variable {l : ℕ → Bool} {hold hold' : Hold} {u u' : UnreliableRDMA} {b : BaseRDMA} {id : ℕ}

/-- A node that is connected, other than the one in hand. -/
def Settled (hold : Hold) (u : UnreliableRDMA) (i : ℕ) : Prop :=
  u.connected.lookup i = some true ∧ hold ≠ .entry i

/-- **What datagrams keep true of their tables.** -/
structure Links (l : ℕ → Bool) (hold : Hold) (u : UnreliableRDMA) : Prop where
  udqp : ∃ h, u.udqp.qp = some h
  linked : ∀ i, l i = true → hold ≠ .entry i → u.connected.lookup i = some true
  handled : ∀ i, u.Settled hold i → u.toBaseRDMA.Handled i
  /-- An address handle is of one node. -/
  apart : ∀ i j h, u.Settled hold i → u.Settled hold j →
    (u.rconnAt i).ah = some h → (u.rconnAt j).ah = some h → i = j
  held : ∀ qpPt, hold = .pair qpPt → ∃ h, qpPt.qp = some h

namespace Links

theorem mono {l' : ℕ → Bool} (hlinks : u.Links l hold) (hl : ∀ i, l' i = true → l i = true) :
    u.Links l' hold :=
  ⟨hlinks.udqp, fun i hi => hlinks.linked i (hl i hi), hlinks.handled, hlinks.apart, hlinks.held⟩

/-- What is changed is the entry in hand. -/
theorem frame (hlinks : u.Links l hold) (hudqp : u'.udqp = u.udqp) (hconn : u'.connected = u.connected)
    (hahs : u'.device.ahs = u.device.ahs)
    (hrconn : ∀ i, hold' ≠ .entry i → u'.rconnAt i = u.rconnAt i)
    (hhold : ∀ i, hold' ≠ .entry i → hold ≠ .entry i)
    (hpair : ∀ qpPt, hold' = .pair qpPt → ∃ h, qpPt.qp = some h) : u'.Links l hold' := by
  have hsettled : ∀ {i}, u'.Settled hold' i → u.Settled hold i := by
    rintro i ⟨hi, hother⟩
    rw [hconn] at hi
    exact ⟨hi, hhold i hother⟩
  refine ⟨?_, ?_, ?_, ?_, hpair⟩
  · rw [hudqp]
    exact hlinks.udqp
  · intro i hi hother
    rw [hconn]
    exact hlinks.linked i hi (hhold i hother)
  · intro i hi
    obtain ⟨h, hh, hlive⟩ := hlinks.handled i (hsettled hi)
    refine ⟨h, ?_, ?_⟩
    · rw [hrconn i hi.2, hh]
    · rw [hahs]
      exact hlive
  · intro i j h hi hj hhi hhj
    rw [hrconn i hi.2] at hhi
    rw [hrconn j hj.2] at hhj
    exact hlinks.apart i j h (hsettled hi) (hsettled hj) hhi hhj

/-- **A new address handle** is no other node's. -/
theorem connect {dlid : UInt16} (hlinks : u.Links l hold) (hudqp : u'.udqp = u.udqp)
    (hconn : u'.connected = u.connected.insert id true)
    (hahs : u'.device.ahs = Function.update u.device.ahs u.device.next (some dlid))
    (hrconn : ∀ i, i ≠ id → u'.rconnAt i = u.rconnAt i)
    (hid : (u'.rconnAt id).ah = some u.device.next)
    (hhold : ∀ i, i ≠ id → hold' ≠ .entry i → hold ≠ .entry i)
    (hpair : ∀ qpPt, hold' = .pair qpPt → hold = .pair qpPt) :
    u'.Links (Function.update l id true) hold' := by
  have hsettled : ∀ {i}, i ≠ id → u'.Settled hold' i → u.Settled hold i := by
    rintro i hne ⟨hi, hother⟩
    rw [hconn, Finmap.lookup_insert_of_ne _ hne] at hi
    exact ⟨hi, hhold i hne hother⟩
  -- the handles there were are older
  have hold : ∀ {i}, i ≠ id → u'.Settled hold' i →
      ∃ h, (u'.rconnAt i).ah = some h ∧ h < u.device.next ∧ u'.device.ahs h ≠ none := by
    intro i hne hi
    obtain ⟨h, hh, hlive⟩ := hlinks.handled i (hsettled hne hi)
    obtain ⟨dlid, hdlid⟩ := Option.ne_none_iff_exists'.mp hlive
    have hlt := lt_of_ahs hdlid
    refine ⟨h, by rw [hrconn i hne, hh], hlt, ?_⟩
    rw [hahs, Function.update_of_ne (Nat.ne_of_lt hlt)]
    exact hlive
  have hnew : ∀ {i}, i ≠ id → u'.Settled hold' i → (u'.rconnAt i).ah ≠ (u'.rconnAt id).ah := by
    intro i hne hi heq
    obtain ⟨h, hh, hlt, -⟩ := hold hne hi
    rw [hh, hid] at heq
    exact absurd (Option.some.inj heq) (Nat.ne_of_lt hlt)
  refine ⟨?_, ?_, ?_, ?_, fun qpPt hbad => hlinks.held qpPt (hpair qpPt hbad)⟩
  · rw [hudqp]
    exact hlinks.udqp
  · intro i hi hother
    rw [hconn]
    rcases eq_or_ne i id with rfl | hne
    · exact Finmap.lookup_insert _
    · rw [Function.update_of_ne hne] at hi
      rw [Finmap.lookup_insert_of_ne _ hne]
      exact hlinks.linked i hi (hhold i hne hother)
  · intro i hi
    rcases eq_or_ne i id with rfl | hne
    · refine ⟨_, hid, ?_⟩
      rw [hahs, Function.update_self]
      exact Option.some_ne_none _
    · obtain ⟨h, hh, -, hlive⟩ := hold hne hi
      exact ⟨h, hh, hlive⟩
  · intro i j h hi hj hhi hhj
    by_cases hine : i = id <;> by_cases hjne : j = id
    · rw [hine, hjne]
    · rw [hine] at hhi
      exact absurd (hhj.trans hhi.symm) (hnew hjne hj)
    · rw [hjne] at hhj
      exact absurd (hhi.trans hhj.symm) (hnew hine hi)
    · rw [hrconn i hine] at hhi
      rw [hrconn j hjne] at hhj
      exact hlinks.apart i j h (hsettled hine hi) (hsettled hjne hj) hhi hhj

/-- **A node that parts** takes no other node's address handle with it. -/
theorem part {h : ℕ} (hlinks : u.Links l hold) (hid : u.Settled hold id)
    (hah : (u.rconnAt id).ah = some h) (hudqp : u'.udqp = u.udqp)
    (hconn : u'.connected = u.connected.insert id false) (hrconns : u'.rconns = u.rconns)
    (hahs : ∀ i, i ≠ h → u'.device.ahs i = u.device.ahs i) :
    u'.Links (Function.update l id false) hold := by
  have hrconn : ∀ i, u'.rconnAt i = u.rconnAt i := by
    intro i
    unfold rconnAt
    rw [hrconns]
  have hsettled : ∀ {i}, u'.Settled hold i → i ≠ id ∧ u.Settled hold i := by
    rintro i ⟨hi, hother⟩
    rw [hconn] at hi
    rcases eq_or_ne i id with rfl | hne
    · rw [Finmap.lookup_insert] at hi
      exact absurd hi (by simp)
    · rw [Finmap.lookup_insert_of_ne _ hne] at hi
      exact ⟨hne, hi, hother⟩
  refine ⟨?_, ?_, ?_, ?_, hlinks.held⟩
  · rw [hudqp]
    exact hlinks.udqp
  · intro i hi hother
    rcases eq_or_ne i id with rfl | hne
    · rw [Function.update_self] at hi
      exact absurd hi (by simp)
    · rw [Function.update_of_ne hne] at hi
      rw [hconn, Finmap.lookup_insert_of_ne _ hne]
      exact hlinks.linked i hi hother
  · intro i hi
    obtain ⟨hne, hi⟩ := hsettled hi
    obtain ⟨k, hk, hlive⟩ := hlinks.handled i hi
    have hkh : k ≠ h := by
      rintro rfl
      exact hne (hlinks.apart i id k hi hid hk hah)
    refine ⟨k, by rw [hrconn, hk], ?_⟩
    rw [hahs k hkh]
    exact hlive
  · intro i j k hi hj hhi hhj
    rw [hrconn] at hhi hhj
    exact hlinks.apart i j k (hsettled hi).2 (hsettled hj).2 hhi hhj

end Links

/-- The constructor makes the queue pair and connects nothing. -/
theorem wp_construct {device : Device} {pointer : UInt64} {rkey : UInt32} {lid : UInt16}
    {stack : IbConn} {lrand48 : ℕ → UInt32} :
    wp construct (fun _ u => (∃ h, u.udqp.qp = some h) ∧ u.connected = ∅) (fun _ _ => True)
      (blank device pointer rkey lid stack lrand48) := by
  unfold construct initQPWithSuppliedID
  simp only [wp_bind, wp_get, wp_onBase]
  refine wp_makeUdqp_of_new rfl fun d qp h udqpConn _ hqp => ?_
  refine wp_setQP hqp (fun s hset => ?_) fun _ _ => trivial
  exact wp_setLocalConnData (fun _ _ _ => ⟨⟨h, hqp⟩, hset.connected⟩) fun _ _ => trivial

/-- `connectQP` where no call fails and the id was not disconnected. -/
theorem wp_connectQP_of_able {Q : Unit → BaseRDMA → Prop} {E : Exn → BaseRDMA → Prop}
    (hconn : b.connected.lookup id ≠ some false) (hable : b.device.errno b.device.calls = 0)
    (hQ : id < b.rconns.length →
      Q () (connectedTo b id (b.device.tick.addAh (b.rconnAt id).lid) (some b.device.next)))
    (hE : ∀ e, b.rconns.length ≤ id → E e b) : wp (connectQP id) Q E b :=
  wp_connectQP (fun hbad => absurd hbad hconn) (fun _ hlt _ => hQ hlt)
    (fun _ _ herr => absurd hable herr) fun e _ => hE e

/-- What is entered for an id: the queue pair there is. Nothing is, with a
shared receive queue. -/
theorem wp_enter {h : ℕ} {x : Act UnreliableRDMA Unit} {Q : Unit → UnreliableRDMA → Prop}
    {E : Exn → UnreliableRDMA → Prop} (hqp : u.udqp.qp = some h)
    (hx : x = RdmaApi.initQPWithSuppliedID id ∨ ∃ srq, x = RdmaApi.initQPForSRQWithSuppliedID srq id)
    (hQ : ∀ b, b.device = u.device → b.rconns = u.rconns → b.connected = u.connected →
      Q () { u with toBaseRDMA := b })
    (hE : ∀ e, E e u) : wp x Q E u := by
  rcases hx with rfl | ⟨srq, rfl⟩
  · change wp (initQPWithSuppliedID id) _ _ u
    refine wp_initQPWithSuppliedID hqp (fun s lconns hset _ => ?_) fun e _ => hE e
    exact hQ { s with lconns } hset.device hset.rconns hset.connected
  · exact hQ u.toBaseRDMA rfl rfl rfl

/-- `disconnectQP` parts the id, or does nothing to it. -/
theorem Links.wp_disconnectQP (hW : u.Links l hold)
    (hhold : u.connected.lookup id = some true → ∀ i, hold = .entry i → i ≠ id) :
    wp (disconnectQP id)
      (fun _ b' => Links (Function.update l id false) hold { u with toBaseRDMA := b' })
      (fun _ b' => Links (Function.update l id false) hold { u with toBaseRDMA := b' })
      u.toBaseRDMA := by
  by_cases hconn : u.connected.lookup id = some true
  · have hsettled : u.Settled hold id := ⟨hconn, fun hbad => hhold hconn id hbad rfl⟩
    obtain ⟨h, hah, hlive⟩ := hW.handled id hsettled
    obtain ⟨dlid, hdlid⟩ := Option.ne_none_iff_exists'.mp hlive
    unfold disconnectQP
    simp only [wp_bind, wp_get, wp_ite, wp_pure, wp_modify, wp_onDevice, wp_element IbConn.zero]
    refine ⟨fun hbad => absurd hconn hbad, fun _ => ⟨fun _ => ?_, fun hge => ?_⟩⟩
    · change wp (ibvDestroyAh (u.rconnAt id).ah) _ _ _
      rw [hah, wp_ibvDestroyAh hdlid]
      -- the handle may outlive a failed call, and is forgotten
      refine ⟨fun _ => ?_, fun _ => ?_⟩
      · refine hW.part hsettled hah rfl rfl rfl fun i hne => ?_
        exact Function.update_of_ne hne _ _
      · exact hW.part hsettled hah rfl rfl rfl fun _ _ => rfl
    · unfold rconnAt at hah
      rw [List.getD_eq_default _ _ hge] at hah
      exact absurd hah (by simp [IbConn.zero])
  · refine wp_disconnectQP_of_not_connected hconn (hW.mono fun i hi => ?_)
    rw [Function.update_apply] at hi
    split_ifs at hi
    exact hi

/-- **Datagrams are lawful.** -/
theorem lawful : Lawful Links where
  fresh := by
    rintro u ⟨device, pointer, rkey, lid, stack, lrand48, hu⟩
    obtain ⟨hudqp, hconn⟩ := wp_ok wp_construct hu
    have hnone : ∀ {i}, ¬ u.Settled .nothing i := by
      rintro i ⟨hi, -⟩
      rw [hconn, Finmap.lookup_empty] at hi
      exact absurd hi (by simp)
    exact ⟨hudqp, fun _ hbad => absurd hbad (by simp), fun _ hi => absurd hi hnone,
      fun _ _ _ hi => absurd hi hnone, fun _ hbad => absurd hbad (by simp)⟩
  mono hW hl := hW.mono hl
  installed := by
    intro l u id hW hl
    have hconn := hW.linked id hl (by simp)
    exact ⟨hW.handled id ⟨hconn, by simp⟩, hconn⟩
  init_pair := by
    intro l u stack hW
    obtain ⟨h, hqp⟩ := hW.udqp
    change wp (do
      let pointed ← initQPDetached
      return (IbQp.null, pointed.1, pointed.2)) _ _ _
    unfold initQPDetached
    simp only [wp_bind, wp_pure, wp_get]
    refine wp_makeUdqp hqp ⟨?_, Keeps.refl _, fun hbad => absurd hbad Bool.false_ne_true⟩
    refine hW.frame rfl rfl rfl (fun _ _ => rfl) (fun _ _ => by simp) ?_
    intro qpPt heq
    exact ⟨h, by rw [← Hold.pair.inj heq, hqp]⟩
  set_qp := by
    intro l u id qpPt hW
    obtain ⟨h, hqp⟩ := hW.held qpPt rfl
    rw [RdmaApi.wp_onBase]
    refine wp_setQP hqp (fun b hset => ⟨?_, ?_⟩) fun _ _ => Keeps.refl _
    · refine hW.frame rfl hset.connected ?_ (fun i _ => ?_) (fun _ _ => by simp) (by simp)
      · exact congrArg Device.ahs hset.device
      · change b.rconnAt i = _
        unfold rconnAt
        rw [hset.rconns]
        rfl
    · change u.device.Keeps b.device
      rw [hset.device]
      exact Keeps.refl _
  set_local := by
    intro l u id conn hW
    rw [RdmaApi.wp_onBase]
    refine wp_setLocalConnData (fun lconns _ _ => ⟨?_, Keeps.refl _⟩) fun _ _ => Keeps.refl _
    exact hW.frame rfl rfl rfl (fun _ _ => rfl) (fun _ hother => hother) (by simp)
  set_remote := by
    intro l u id conn hW
    rw [RdmaApi.wp_onBase]
    refine wp_setRemoteConnData (fun rconns hconns _ _ => ⟨?_, Keeps.refl _⟩) fun _ _ => Keeps.refl _
    refine hW.frame rfl rfl rfl (fun i hother => ?_) (fun _ hother => hother) (by simp)
    have hne : i ≠ id := fun hbad => hother (congrArg Hold.entry hbad.symm)
    refine (hconns i).trans ?_
    rw [if_neg hne]
    rfl
  connect_qp := by
    intro l u id hW hconn hable
    rw [RdmaApi.wp_onBase]
    change wp (connectQP id) _ _ u.toBaseRDMA
    refine wp_connectQP_of_able hconn (of_decide_eq_true hable) (fun hlt => ⟨?_, fun _ hlive => hlive⟩)
      fun _ _ => Keeps.refl _
    refine hW.connect rfl rfl rfl (fun i hne => ?_) ?_ ?_ (by simp)
    · exact (rconnAt_connectedTo hlt i).trans (if_neg hne)
    · exact congrArg IbConn.ah ((rconnAt_connectedTo hlt id).trans (if_pos rfl))
    · intro i hne _ hbad
      exact hne (Hold.entry.inj hbad).symm
  destroy_qp hbad := absurd hbad Bool.false_ne_true
  destroy_cq := by
    intro l u c c' hW
    rw [RdmaApi.wp_onBase]
    change wp (onDevice (destroyCQ c c')) _ _ u.toBaseRDMA
    rw [wp_onDevice]
    refine wp_destroyCQ_frame (fun d hreaped => ⟨?_, hreaped.keeps⟩) fun _ d hreaped => hreaped.keeps
    exact hW.frame rfl rfl hreaped.ahs (fun _ _ => rfl) (fun _ hother => hother) (by simp)
  set_up := by
    intro l hold u id hW hconn hable x hx
    obtain ⟨h, hqp⟩ := hW.udqp
    refine wp_enter hqp hx (fun b hdevice hrconns hconnected conn => ?_) fun _ => hW
    have hkept : ({ u with toBaseRDMA := b } : UnreliableRDMA).Links l hold := by
      refine hW.frame rfl hconnected (congrArg Device.ahs hdevice) (fun i _ => ?_)
        (fun _ hother => hother) hW.held
      unfold rconnAt
      rw [hrconns]
    rw [RdmaApi.wp_onBase]
    refine wp_setRemoteConnData (fun rconns hconns hlt _ => ?_) fun _ _ => hkept
    rw [RdmaApi.wp_onBase]
    change wp (connectQP id) _ _ { b with rconns }
    refine wp_connectQP_of_able ?_ ?_ (fun hlt => ?_) fun _ hge => absurd hlt (Nat.not_lt.mpr hge)
    · change b.connected.lookup id ≠ some false
      rw [hconnected]
      exact hconn
    · change b.device.errno b.device.calls = 0
      rw [hdevice]
      exact of_decide_eq_true hable
    · refine hkept.connect rfl rfl rfl (fun i hne => ?_) ?_ (fun _ _ hother => hother)
        fun _ hpair => hpair
      · refine (rconnAt_connectedTo hlt i).trans ((if_neg hne).trans ?_)
        exact (hconns i).trans (if_neg hne)
      · exact congrArg IbConn.ah ((rconnAt_connectedTo hlt id).trans (if_pos rfl))
  disconnect_qp := by
    intro l hold u id hW hhold
    rw [RdmaApi.wp_onBase]
    change wp (disconnectQP id) _ _ u.toBaseRDMA
    exact hW.wp_disconnectQP hhold

end UnreliableRDMA

end RdmaManager
