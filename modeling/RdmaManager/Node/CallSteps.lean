import RdmaManager.Node.Traffic
/-!
# The steps of a call

What a server does for its own call, stage by stage. It raises its flag
where it marks the other node, and finishes where it connects the queue
pair; what it makes in between is its own until one of the two.
-/

namespace RdmaManager

namespace Exchange

open Act BaseRDMA Device

variable {p₀ p : Exchange} {T T' : Traffic} {x : Side} {s : RDMAServer ReliableRDMA}
variable {call : Call} {mail : Mail}

/-! ## Two servers that were never connected -/

/-- The sequencer gives out no largest id. -/
theorem Fresh.peerID_lt (hfresh : p₀.Fresh) (x : Side) : p₀.peerID x + 1 < 2 ^ 64 := by
  obtain ⟨entry, hentry, -⟩ := hfresh.sequencer.mapped _ _ (hfresh.registered x.other)
  have hin := (List.getElem?_eq_some_iff.mp hentry).1
  have hlen := hfresh.sequencer.length
  have hmax : NodeIDSequencer.maxEntries < 2 ^ 63 := by decide
  unfold peerID
  omega

/-- The sequencer is none of the two servers. -/
theorem Fresh.peerIpPort_ne (hfresh : p₀.Fresh) (x : Side) :
    p₀.peerIpPort x ≠ (p₀.node x).sequencerIpPort := by
  intro hbad
  refine hfresh.closed x ?_
  rw [hbad]
  exact hfresh.opened x

/-! ## The traffic -/

namespace Traffic

theorem Agrees.refl (x : Side) (T : Traffic) : T.Agrees x T := ⟨rfl, rfl, rfl, rfl, Or.inr rfl⟩

/-- The call of a server goes on, without an answer. -/
theorem agrees_of_phase {a : Phase} (hengaged : a.engaged = (T.phase x).engaged) :
    T.Agrees x.other { T with phase := Function.update T.phase x a } := by
  refine ⟨Function.update_of_ne x.other_ne _ _, rfl, rfl, ?_, Or.inr rfl⟩
  rw [Side.other_other]
  show (Function.update T.phase x a x).engaged = _
  rw [Function.update_self, hengaged]

theorem Sane.step {l : Crossing.Label} (hsane : T.Sane p₀) (henabled : Crossing.Enabled T.phase l)
    (htaken : ∀ x, (T.got x).isSome = (Crossing.next p₀.winner T.phase l x.other).engaged) :
    Sane p₀ { T with phase := Crossing.next p₀.winner T.phase l } :=
  ⟨hsane.reachable.step ⟨henabled, rfl⟩, htaken⟩

/-- A server whose call is accepted has accepted none. -/
theorem Sane.got_eq_none (hsane : T.Sane p₀) (hengaged : (T.phase x).engaged = true) :
    T.got x = none := by
  have hone := (Crossing.invariant_sane.reachable hsane.reachable).one x hengaged
  rw [← hsane.taken x] at hone
  exact Option.not_isSome_iff_eq_none.mp (ne_true_of_eq_false hone)

/-- Nothing was made for a call that is not accepted. -/
theorem Sane.got_other_eq_none (hsane : T.Sane p₀) (hengaged : (T.phase x).engaged = false) :
    T.got x.other = none := by
  have htaken := hsane.taken x.other
  rw [Side.other_other, hengaged] at htaken
  exact Option.not_isSome_iff_eq_none.mp (ne_true_of_eq_false htaken)

end Traffic

/-! ## The tables -/

variable {phase : Phase} {own got theirs : Option ℕ} {b b' : BaseRDMA} {id h : ℕ} {num : UInt64}

/-- A change of the device that leaves the queue pair alive. -/
theorem Linked.on {d : Device} (hlinked : Linked b id h num) (hlive : d.qps h ≠ none) :
    Linked { b with device := d } id h num :=
  ⟨hlinked.qp, hlive, hlinked.connected, hlinked.route⟩

/-- A change of the tables, where nothing was accepted. -/
theorem Tables.of_device_eq (htables : Tables p₀ x phase own none theirs b)
    (hdevice : b'.device = b.device) (hconn : b'.connected = b.connected) :
    Tables p₀ x phase own none theirs b' := by
  refine ⟨?_, ?_, ?_, ?_, ?_, htables.apart, ?_, fun _ hbad => absurd hbad (by simp)⟩
  · rw [hdevice]
    exact htables.succeeds
  · rw [hdevice]
    exact htables.qpNum
  · rw [hdevice]
    exact htables.next
  · rw [hdevice]
    exact htables.new
  · rw [hdevice]
    exact htables.since
  · rw [hconn]
    exact htables.unlinked

theorem spare_made (d : Device) (type : QpType) :
    Spare (d.queuePair type) (ReliableRDMA.madeQp d) (d.next + 2) := by
  refine ⟨rfl, ⟨_, Function.update_self _ _ _, rfl⟩, d.next, d.next + 1, rfl, rfl, ?_, ?_, by omega⟩
  · rw [queuePair_cqs, Function.update_of_ne (by omega), Function.update_self]
  · exact Function.update_self _ _ _

/-- The call makes a queue pair. -/
theorem Tables.make {type : QpType} (htables : Tables p₀ x phase none got theirs b) :
    Tables p₀ x phase (some (b.device.next + 2)) got theirs
      { b with device := b.device.queuePair type } := by
  have hgrown := grown_queuePair b.device type
  refine ⟨hgrown.succeeds htables.succeeds, htables.qpNum, le_trans htables.next hgrown.next,
    ?_, ?_, ?_, htables.unlinked, ?_⟩
  · intro i hi hlive
    change (b.device.queuePair type).qps i ≠ none at hlive
    rw [queuePair_qps] at hlive
    rcases eq_or_ne i (b.device.next + 2) with rfl | hne
    · exact Or.inl rfl
    · rw [Function.update_of_ne hne] at hlive
      exact Or.inr ((htables.new i hi hlive).resolve_left (by simp))
  · have hnext := htables.next
    rintro i (hi | hi)
    · obtain rfl := Option.some.inj hi
      show _ ∧ _ < b.device.next + 3
      omega
    · have hsince := htables.since i (Or.inr hi)
      show _ ∧ _ < b.device.next + 3
      omega
  · intro i hi hgot
    have hsince := htables.since i (Or.inr hgot)
    obtain rfl := Option.some.inj hi
    omega
  · intro g hg
    obtain ⟨i, hi, hlinked⟩ := htables.linked g hg
    refine ⟨i, hi, hlinked.on ?_⟩
    obtain ⟨qp, hqp⟩ := Option.ne_none_iff_exists'.mp hlinked.live
    rw [hgrown.qps g (b.device.lt_of_qps hqp), hqp]
    exact Option.some_ne_none _

/-- The call destroys its queue pair. -/
theorem Tables.drop (htables : Tables p₀ x phase (some h) got theirs b) :
    Tables p₀ x phase none got theirs { b with device := b.device.tick.dropQp h } := by
  refine ⟨htables.succeeds, htables.qpNum, htables.next, ?_, ?_, fun _ hbad => absurd hbad (by simp),
    htables.unlinked, ?_⟩
  · intro i hi hlive
    change (b.device.tick.dropQp h).qps i ≠ none at hlive
    rw [dropQp_qps] at hlive
    rcases eq_or_ne i h with rfl | hne
    · rw [Function.update_self] at hlive
      exact absurd rfl hlive
    · rw [Function.update_of_ne hne] at hlive
      refine Or.inr ((htables.new i hi hlive).resolve_left fun hbad => ?_)
      exact hne (Option.some.inj hbad).symm
  · rintro i (hi | hi)
    · exact absurd hi (by simp)
    · exact htables.since i (Or.inr hi)
  · intro g hg
    obtain ⟨i, hi, hlinked⟩ := htables.linked g hg
    refine ⟨i, hi, hlinked.on ?_⟩
    rw [dropQp_qps, Function.update_of_ne]
    · exact hlinked.live
    · rintro rfl
      exact htables.apart g rfl hg

/-- Completion queues are destroyed. -/
theorem Tables.reap {d : Device} (htables : Tables p₀ x phase own got theirs b)
    (hreaped : b.device.Reaped d) : Tables p₀ x phase own got theirs { b with device := d } := by
  refine ⟨?_, hreaped.qpNum.trans htables.qpNum, hreaped.next ▸ htables.next, ?_, ?_,
    htables.apart, htables.unlinked, ?_⟩
  · intro n
    show d.errno n = 0
    rw [hreaped.errno]
    exact htables.succeeds n
  · show ∀ i, _ → d.qps i ≠ none → _
    rw [hreaped.qps]
    exact htables.new
  · show ∀ i, _ → _ ∧ _ < d.next
    rw [hreaped.next]
    exact htables.since
  · intro g hg
    obtain ⟨i, hi, hlinked⟩ := htables.linked g hg
    refine ⟨i, hi, hlinked.on ?_⟩
    rw [hreaped.qps]
    exact hlinked.live

/-- The call connects its queue pair. -/
theorem Tables.connect {old : Qp} (htables : Tables p₀ x phase own none theirs b)
    (hold : b.device.qps h = some old) :
    Tables p₀ x .through own none theirs
      (ReliableRDMA.connectedTo b (p₀.peerID x) h old) := by
  refine ⟨htables.succeeds, htables.qpNum, htables.next, ?_, htables.since, htables.apart,
    fun _ hbad => absurd rfl hbad, fun _ hbad => absurd hbad (by simp)⟩
  intro i hi hlive
  refine htables.new i hi ?_
  change (b.device.readied h old _).qps i ≠ none at hlive
  rw [readied_qps] at hlive
  rcases eq_or_ne i h with rfl | hne
  · rw [hold]
    exact Option.some_ne_none _
  · rwa [Function.update_of_ne hne] at hlive

/-! ## The stages -/

/-- Where a piece of a call leads. -/
def Leads (p₀ : Exchange) (T : Traffic) (x : Side) (s : RDMAServer ReliableRDMA) (mail : Mail)
    (call : Call) (client : RDMAClient ReliableRDMA) : Prop :=
  ∃ T', Traffic.Sane p₀ T' ∧ T.Agrees x.other T' ∧
    At p₀ T' x { s with toRDMAClient := client } (some call) mail

theorem Steady.client {s₀ : RDMAServer ReliableRDMA} {client : RDMAClient ReliableRDMA}
    (hsteady : Steady s₀ s) (hid : client.ownNodeID = s.ownNodeID)
    (hipPort : client.ownIpPort = s.ownIpPort)
    (hsequencer : client.sequencerIpPort = s.sequencerIpPort) (hsockets : s.sockets ⊆ client.sockets) :
    Steady s₀ { s with toRDMAClient := client } :=
  ⟨hid.trans hsteady.ownNodeID, hipPort.trans hsteady.ownIpPort,
    hsequencer.trans hsteady.sequencerIpPort, hsockets hsteady.opened, hsteady.currentSRQ⟩

/-- Whatever the transport does. -/
theorem Steady.api {s₀ : RDMAServer ReliableRDMA} {api : ReliableRDMA} (hsteady : Steady s₀ s) :
    Steady s₀ { s with api } := hsteady.client rfl rfl rfl (Finset.Subset.refl _)

/-- A piece that changes nothing but the call and what does not matter. -/
theorem At.leads {client : RDMAClient ReliableRDMA} (hsane : T.Sane p₀)
    (hsteady : Steady (p₀.node x) { s with toRDMAClient := client })
    (htables : Tables p₀ x (T.phase x) (T.own x) (T.got x) (T.own x.other) client.base)
    (hflag : client.marked (p₀.peerID x) = Crossing.flag T.phase x)
    (hipPort : call.ipPort = p₀.peerIpPort x)
    (hknows : knows call.stage = true → call.retServerNodeID = (p₀.node x.other).ownNodeID)
    (hstands : Stands p₀ x (T.phase x) (T.own x) (T.got x.other) { s with toRDMAClient := client }
      mail call) : Leads p₀ T x s mail call client :=
  ⟨T, hsane, Traffic.Agrees.refl _ _, hsteady, htables, hflag, hipPort, hknows, hstands⟩

/-- Before the node is marked. -/
theorem At.advance_before (hfresh : p₀.Fresh) (hsane : T.Sane p₀) (hat : At p₀ T x s (some call) mail)
    (hstage : call.stage = .entered ∨ call.stage = .identified ∨ call.stage = .lookedUp) :
    wp (call.advance none) (Leads p₀ T x s mail) (fun _ _ => False) s.toRDMAClient := by
  obtain ⟨hsteady, htables, hflag, hipPort, hknows, hstands⟩ := hat
  obtain ⟨ipPort, ret, stage⟩ := call
  unfold Stands at hstands
  rcases hstage with rfl | rfl | rfl <;> unfold Call.advance <;>
    simp only [wp_bind, wp_get, wp_ite, wp_pure]
  · refine ⟨fun _ => ?_, fun hclosed => absurd ?_ hclosed⟩
    · exact At.leads hsane hsteady htables hflag hipPort nofun hstands
    · show s.sequencerIpPort ∈ s.sockets
      rw [hsteady.sequencerIpPort]
      exact hsteady.opened
  · obtain ⟨hidle, hown, hmail, hclosed⟩ := hstands
    refine ⟨fun hopen => absurd hopen ?_, fun _ => RDMAClient.wp_connectProto (fun hopen => ?_) ?_ ?_⟩
    · show ipPort ∉ s.sockets
      rw [show ipPort = _ from hipPort]
      exact hclosed
    · refine absurd hopen ?_
      show ipPort ∉ s.sockets
      rw [show ipPort = _ from hipPort]
      exact hclosed
    · intro _ _
      refine At.leads hsane ?_ htables hflag hipPort nofun ⟨hidle, hown, ?_⟩
      · exact hsteady.client rfl rfl rfl (Finset.subset_insert _ _)
      · rw [hmail]
        trivial
    · intro e hbad
      exact absurd hbad (by simp)
  · have hret : ret = _ := hknows rfl
    split
    · rename_i hgrow
      have hmax := le_of_growSet_none hgrow
      have hlt := hfresh.peerID_lt x
      rw [show ret.toNat = p₀.peerID x from congrArg UInt64.toNat hret] at hmax
      omega
    · exact At.leads hsane (hsteady.client rfl rfl rfl (Finset.Subset.refl _)) htables hflag hipPort
        (fun _ => hret) hstands

/-- **The node is marked**: its flag is raised, or was up. -/
theorem At.advance_marking (hfresh : p₀.Fresh) (hsane : T.Sane p₀)
    (hat : At p₀ T x s (some call) mail) (hstage : call.stage = .marking) :
    wp (call.advance none) (Leads p₀ T x s mail) (fun _ _ => False) s.toRDMAClient := by
  obtain ⟨hsteady, htables, hflag, hipPort, hknows, hstands⟩ := hat
  obtain ⟨ipPort, ret, stage⟩ := call
  obtain rfl : stage = _ := hstage
  obtain ⟨hidle, hown, hmail⟩ := hstands
  have hret : ret = _ := hknows rfl
  have hid : ret.toNat = p₀.peerID x := congrArg UInt64.toNat hret
  unfold Call.advance
  simp only [wp_bind, wp_ite, wp_pure]
  rw [hid]
  refine RDMAClient.wp_markNodeID (fun flags hflags => ?_) fun hbad => ?_
  · have hraised : ∀ a, a = (if Crossing.flag T.phase x = true then Phase.yielded else Phase.raised) →
        ∀ call : Call, call.ipPort = p₀.peerIpPort x →
        call.retServerNodeID = (p₀.node x.other).ownNodeID →
        Stands p₀ x a (T.own x) (T.got x.other) { s with nodeIDsQPs := flags } mail call →
        Leads p₀ T x s mail call { s.toRDMAClient with nodeIDsQPs := flags } := by
      intro a ha call hipPort hret hstands
      have hphase : Crossing.next p₀.winner T.phase (.raise x) = Function.update T.phase x a := by
        rw [ha]
        rfl
      have hengaged : a.engaged = (T.phase x).engaged := by
        rw [ha, hidle]
        split_ifs <;> rfl
      have hself : Function.update T.phase x a x = a := Function.update_self _ _ _
      have hother : Function.update T.phase x a x.other = T.phase x.other :=
        Function.update_of_ne x.other_ne _ _
      refine ⟨{ T with phase := Function.update T.phase x a }, ?_, Traffic.agrees_of_phase hengaged,
        hsteady.client rfl rfl rfl (Finset.Subset.refl _), ?_, ?_, hipPort, fun _ => hret, ?_⟩
      · rw [← hphase]
        refine hsane.step hidle fun y => ?_
        rw [hphase, hsane.taken y]
        rcases eq_or_ne y.other x with rfl | hne
        · rw [Function.update_self, hengaged]
        · rw [Function.update_of_ne hne]
      · show Tables p₀ x (Function.update T.phase x a x) (T.own x) (T.got x) (T.own x.other) _
        rw [hself]
        refine ⟨htables.succeeds, htables.qpNum, htables.next, htables.new, htables.since,
          htables.apart, fun hgot _ => htables.unlinked hgot ?_, htables.linked⟩
        rw [hidle]
        decide
      · show flags.getD (p₀.peerID x) false =
          ((Function.update T.phase x a x).up || (Function.update T.phase x a x.other).engaged)
        rw [hflags, if_pos rfl, hself, hother, ha]
        split_ifs with hup
        · unfold Crossing.flag at hup
          rw [hidle] at hup
          exact hup.symm
        · rfl
      · show Stands p₀ x (Function.update T.phase x a x) _ _ _ _ _
        rw [hself]
        exact hstands
    rw [show s.toRDMAClient.marked (p₀.peerID x) = _ from hflag]
    refine ⟨fun hup => ?_, fun hdown => ?_⟩
    · refine hraised .yielded (by rw [if_pos hup]) _ hipPort hret ⟨hmail, Or.inl ⟨hown, Or.inr rfl⟩⟩
    · refine hraised .raised (by rw [if_neg hdown]) _ hipPort hret ⟨rfl, hown, hmail⟩
  · exact absurd (hfresh.peerID_lt x) (Nat.not_lt.mpr hbad)

/-- What an accepted call knows of the other server's. -/
theorem Traffic.Sane.accepted (hsane : T.Sane p₀) (haccepted : T.phase x = .accepted) :
    T.got x = none := by
  refine hsane.got_eq_none ?_
  rw [haccepted]
  rfl

/-- **The queue pair is made**, and is the call's own. -/
theorem At.advance_initializing (hsane : T.Sane p₀) (hat : At p₀ T x s (some call) mail)
    (hstage : call.stage = .initializing) :
    wp (call.advance none) (Leads p₀ T x s mail) (fun _ _ => False) s.toRDMAClient := by
  obtain ⟨hsteady, htables, hflag, hipPort, hknows, hstands⟩ := hat
  obtain ⟨ipPort, ret, stage⟩ := call
  obtain rfl : stage = _ := hstage
  obtain ⟨hraised, hown, hmail⟩ := hstands
  have hret : ret = _ := hknows rfl
  -- the other server has made nothing for a call that is on its way
  have hgot : T.got x.other = none := by
    refine hsane.got_other_eq_none ?_
    rw [hraised]
    rfl
  unfold Call.advance
  simp only [wp_bind, wp_get, wp_pure, RDMAClient.wp_onApi]
  change wp (do
    let made ← ReliableRDMA.onBase (ReliableRDMA.initQPDetached IbQp.null s.base.stack)
    return (made.1, made.1, made.2)) _ _ s.api
  simp only [wp_bind, wp_pure, ReliableRDMA.wp_onBase]
  refine ReliableRDMA.wp_initQPDetached (fun _ => ?_) fun e d hbad =>
    absurd htables.succeeds hbad
  refine ⟨{ T with own := Function.update T.own x (some (s.base.device.next + 2)) },
    ⟨hsane.reachable, hsane.taken⟩, ?_, hsteady.api, ?_, hflag, hipPort, fun _ => hret, rfl, ?_, ?_⟩
  · refine ⟨rfl, Function.update_of_ne x.other_ne _ _, rfl, rfl, Or.inl hgot⟩
  · show Tables p₀ x (T.phase x) (Function.update T.own x _ x) (T.got x)
      (Function.update T.own x _ x.other) _
    rw [Function.update_self, Function.update_of_ne x.other_ne]
    rw [hown] at htables
    exact htables.make
  · rw [hmail]
    exact hraised
  · refine ⟨s.base.device.next + 2, Function.update_self _ _ _, spare_made _ _, ?_⟩
    · show (s.base.device.qpNum (s.base.device.next + 2)).toUInt64 = _
      unfold number
      rw [htables.qpNum]

/-- **The queue pair is entered**, where the call was accepted. -/
theorem At.advance_setting (hfresh : p₀.Fresh) (hsane : T.Sane p₀)
    (hat : At p₀ T x s (some call) mail)
    (hstage : (∃ qpPt localConn remoteConn, call.stage = .settingQP qpPt localConn remoteConn) ∨
      (∃ localConn remoteConn, call.stage = .settingLocalConnData localConn remoteConn) ∨
      ∃ remoteConn, call.stage = .settingRemoteConnData remoteConn) :
    wp (call.advance none) (Leads p₀ T x s mail) (fun _ _ => False) s.toRDMAClient := by
  obtain ⟨hsteady, htables, hflag, hipPort, hknows, hstands⟩ := hat
  obtain ⟨ipPort, ret, stage⟩ := call
  have hlt := hfresh.peerID_lt x
  -- nothing was accepted from the other server
  have htables' : ∀ {b'}, T.phase x = .accepted → b'.device = s.base.device →
      b'.connected = s.base.connected →
      Tables p₀ x (T.phase x) (T.own x) (T.got x) (T.own x.other) b' := by
    intro b' haccepted hdevice hconn
    rw [hsane.accepted haccepted] at htables ⊢
    exact htables.of_device_eq hdevice hconn
  rcases hstage with ⟨qpPt, localConn, remoteConn, rfl⟩ | ⟨localConn, remoteConn, rfl⟩ |
      ⟨remoteConn, rfl⟩ <;> have hret : ret = _ := hknows rfl <;>
    have hid : ret.toNat = p₀.peerID x := congrArg UInt64.toNat hret <;> unfold Call.advance <;>
    simp only [wp_bind, wp_pure, RDMAClient.wp_onApi] <;> rw [hid, RdmaApi.wp_onBase]
  · obtain ⟨haccepted, hmail, hoffered, h, hown, hqp, hunused, -⟩ := hstands
    refine wp_setQP hqp (fun b hset => ?_) fun e hbad => absurd hlt (Nat.not_lt.mpr hbad)
    refine At.leads hsane hsteady.api (htables' haccepted hset.device hset.connected) hflag hipPort
      (fun _ => hret) ⟨haccepted, hmail, hoffered, h, hown, ?_, hset.lt, ?_⟩
    · show (b.qpAt (p₀.peerID x)).qp = some h
      rw [hset.qpAt, if_pos rfl, hqp]
    · show Unused b.device h
      rw [hset.device]
      exact hunused
  · obtain ⟨haccepted, hmail, hoffered, h, hown, hentered⟩ := hstands
    refine wp_setLocalConnData (fun lconns _ _ => ?_) fun e hbad => absurd hlt (Nat.not_lt.mpr hbad)
    exact At.leads hsane hsteady.api (htables' haccepted rfl rfl) hflag hipPort (fun _ => hret)
      ⟨haccepted, hmail, hoffered, h, hown, hentered⟩
  · obtain ⟨haccepted, hmail, hoffered, h, hown, hentered⟩ := hstands
    refine wp_setRemoteConnData (fun rconns hconns hin _ => ?_) fun e hbad =>
      absurd hlt (Nat.not_lt.mpr hbad)
    refine At.leads hsane hsteady.api (htables' haccepted rfl rfl) hflag hipPort (fun _ => hret)
      ⟨haccepted, hmail, ?_, hin, h, hown, hentered⟩
    show Offered p₀ x (T.got x.other) (rconns.getD (p₀.peerID x) IbConn.zero).qpNum
    rw [hconns, if_pos rfl]
    exact hoffered

/-- **The queue pair is connected**, and the call is through. -/
theorem At.advance_connecting (hsane : T.Sane p₀) (hat : At p₀ T x s (some call) mail)
    (hstage : call.stage = .connecting) :
    wp (call.advance none) (Leads p₀ T x s mail) (fun _ _ => False) s.toRDMAClient := by
  obtain ⟨hsteady, htables, hflag, hipPort, hknows, hstands⟩ := hat
  obtain ⟨ipPort, ret, stage⟩ := call
  obtain rfl : stage = _ := hstage
  obtain ⟨haccepted, hmail, ⟨g, hg, hnum⟩, hin, h, hown, hqp, hlt, hunused⟩ := hstands
  have hret : ret = _ := hknows rfl
  have hid : ret.toNat = p₀.peerID x := congrArg UInt64.toNat hret
  have hgot := hsane.accepted haccepted
  rw [hgot] at htables
  have hout : p₀.peerID x ∉ s.base.connected := by
    refine htables.unlinked rfl ?_
    rw [haccepted]
    decide
  unfold Call.advance
  simp only [wp_bind, wp_pure, RDMAClient.wp_onApi]
  rw [hid, RdmaApi.wp_onBase]
  refine ReliableRDMA.wp_connectQP (fun hbad => absurd hbad hout) (fun i old _ hable => ?_)
    (fun _ _ _ hbad => absurd htables.succeeds hbad) fun _ _ hunable => ?_
  · obtain ⟨hi, hold, -, -, -⟩ := hable
    obtain rfl : h = i := Option.some.inj (hqp.symm.trans hi)
    have hold : s.base.device.qps h = some old := hold
    have hself : Function.update T.phase x .through x = .through := Function.update_self _ _ _
    refine ⟨{ T with phase := Function.update T.phase x .through }, ?_, ?_, hsteady.api, ?_, ?_,
      hipPort, fun _ => hret, hmail, Or.inr ⟨hself, h, g, hown, hg, ?_⟩⟩
    · refine hsane.step (l := .finish x) haccepted fun y => ?_
      show _ = (Function.update T.phase x .through y.other).engaged
      rw [hsane.taken y]
      rcases eq_or_ne y.other x with rfl | hne
      · rw [Function.update_self, haccepted]
        rfl
      · rw [Function.update_of_ne hne]
    · refine Traffic.agrees_of_phase ?_
      rw [haccepted]
      rfl
    · show Tables p₀ x (Function.update T.phase x .through x) (T.own x) (T.got x) (T.own x.other) _
      rw [hself, hgot]
      exact htables.connect hold
    · show s.marked (p₀.peerID x) = ((Function.update T.phase x .through x).up ||
        (Function.update T.phase x .through x.other).engaged)
      rw [hflag, hself, Function.update_of_ne x.other_ne]
      unfold Crossing.flag
      rw [haccepted]
      rfl
    · refine ⟨hqp, ?_, Finmap.lookup_insert _, hnum⟩
      show (s.base.device.readied h old _).qps h ≠ none
      rw [readied_qps, Function.update_self, hold]
      exact Option.some_ne_none _
  · obtain ⟨old, hold, hinit⟩ := hunused
    exact absurd ⟨hqp, hold, hinit, hlt, hin⟩ (hunable h old)

/-- **A refused call cleans up**. -/
theorem At.advance_destroying (hsane : T.Sane p₀) (hat : At p₀ T x s (some call) mail)
    (hstage : ∃ qp, call.stage = .destroyingQP qp ∨ call.stage = .destroyingCQ qp) :
    wp (call.advance none) (Leads p₀ T x s mail) (fun _ _ => False) s.toRDMAClient := by
  obtain ⟨hsteady, htables, hflag, hipPort, hknows, hstands⟩ := hat
  obtain ⟨ipPort, ret, stage⟩ := call
  obtain ⟨qp, rfl | rfl⟩ := hstage <;> have hret : ret = _ := hknows rfl <;> unfold Call.advance <;>
    simp only [wp_bind, wp_ite, wp_pure, wp_throw, RDMAClient.wp_onApi] <;> rw [RdmaApi.wp_onBase] <;>
    rw [wp_onDevice]
  · obtain ⟨hrefused, hmail, h, hown, hqp, ⟨old, hold, -⟩, hqueued⟩ := hstands
    rw [hqp]
    refine (wp_ibvDestroyQp hold).mpr ⟨fun _ => ⟨fun hbad => absurd rfl hbad, fun _ => ?_⟩,
      fun hbad => absurd (htables.succeeds _) hbad⟩
    have hgot : T.got x.other = none := by
      refine hsane.got_other_eq_none ?_
      rw [hrefused]
      rfl
    have hself : Function.update T.own x none x = none := Function.update_self _ _ _
    refine ⟨{ T with own := Function.update T.own x none }, ⟨hsane.reachable, hsane.taken⟩, ?_,
      hsteady.api, ?_, hflag, hipPort, fun _ => hret, hrefused, hmail, hself, hqueued⟩
    · exact ⟨rfl, Function.update_of_ne x.other_ne _ _, rfl, rfl, Or.inl hgot⟩
    · show Tables p₀ x (T.phase x) (Function.update T.own x none x) (T.got x)
        (Function.update T.own x none x.other) _
      rw [hself, Function.update_of_ne x.other_ne]
      rw [hown] at htables
      exact htables.drop
  · obtain ⟨hrefused, hmail, hown, c₁, c₂, hsend, hrecv, h₁, h₂, hne⟩ := hstands
    rw [hsend, hrecv]
    refine wp_destroyCQ htables.succeeds h₁ h₂ hne ?_
    have hreaped := (reaped_reap s.base.device c₁).trans (reaped_reap (s.base.device.reap c₁) c₂)
    exact At.leads hsane hsteady.api (htables.reap hreaped) hflag hipPort (fun _ => hret)
      ⟨hmail, Or.inl ⟨hown, Or.inl hrefused⟩⟩

/-- **A stage of a call.** -/
theorem At.advance (hfresh : p₀.Fresh) (hsane : T.Sane p₀) (hat : At p₀ T x s (some call) mail)
    (hidle : call.request s.toRDMAClient = none) :
    wp (call.advance none) (Leads p₀ T x s mail) (fun _ _ => False) s.toRDMAClient := by
  have hstands := hat.standing.2.2
  unfold Stands at hstands
  cases hstage : call.stage with
  | entered => exact hat.advance_before hfresh hsane (Or.inl hstage)
  | identified => exact hat.advance_before hfresh hsane (Or.inr (Or.inl hstage))
  | lookedUp => exact hat.advance_before hfresh hsane (Or.inr (Or.inr hstage))
  | marking => exact hat.advance_marking hfresh hsane hstage
  | initializing => exact hat.advance_initializing hsane hstage
  | settingQP => exact hat.advance_setting hfresh hsane (Or.inl ⟨_, _, _, hstage⟩)
  | settingLocalConnData =>
      exact hat.advance_setting hfresh hsane (Or.inr (Or.inl ⟨_, _, hstage⟩))
  | settingRemoteConnData =>
      exact hat.advance_setting hfresh hsane (Or.inr (Or.inr ⟨_, hstage⟩))
  | connecting => exact hat.advance_connecting hsane hstage
  | destroyingQP => exact hat.advance_destroying hsane ⟨_, Or.inl hstage⟩
  | destroyingCQ => exact hat.advance_destroying hsane ⟨_, Or.inr hstage⟩
  | requestingNodeID | threw =>
      rw [hstage] at hstands
      exact hstands.elim
  | lookingUp | requesting =>
      unfold Call.request at hidle
      rw [hstage] at hidle
      exact absurd hidle (by simp)
  | returned success =>
      unfold Call.advance
      rw [hstage]
      exact ⟨T, hsane, Traffic.Agrees.refl _ _, hat⟩

/-! ## Messages -/

/-- **An answer.** -/
theorem At.receive {retries : ℕ} {answer : Except Exn Response} (hsane : T.Sane p₀)
    (hat : At p₀ T x s (some call) (.reply answer)) :
    wp (call.receive retries answer) (Leads p₀ T x s .none) (fun _ _ => False) s.toRDMAClient := by
  obtain ⟨hsteady, htables, hflag, hipPort, hknows, hstands⟩ := hat
  obtain ⟨ipPort, ret, stage⟩ := call
  rcases hstands.waits (by simp) with hstage | ⟨qp, qpPt, localConn, hstage⟩
  · obtain rfl : stage = .lookingUp none := hstage
    obtain ⟨hidle, hown, resp, rfl, hid, hip, hreturn⟩ := hstands
    unfold Call.receive
    simp only [wp_bind]
    refine RDMAClient.wp_exchangeProtoMsg_of_ok (by simp) ?_
    show wp (Act.ofExcept (Call.lookUp retries 0 resp ⟨ipPort, ret, .lookingUp none⟩)) _ _ _
    have hgood : ¬ resp.return_ ≠ MessageErrors.noError.code := not_not.mpr hreturn
    unfold Call.lookUp Act.ofExcept
    rw [if_neg fun hbad => hgood hbad.2, if_neg hgood,
      if_neg (not_not.mpr (hip.trans hipPort.symm))]
    exact At.leads hsane hsteady htables hflag hipPort (fun _ => hid) ⟨hidle, hown, rfl⟩
  · obtain rfl : stage = .requesting qp qpPt localConn := hstage
    obtain ⟨rfl, hcrossed, h, hown, hspare, -⟩ := hstands
    have hret : ret = _ := hknows rfl
    unfold Call.receive
    simp only [wp_bind]
    rcases hcrossed with ⟨haccepted, resp, rfl, hoffered⟩ | ⟨hrefused, rfl⟩
    · refine RDMAClient.wp_exchangeProtoMsg_of_ok (by simp) ?_
      exact At.leads hsane hsteady htables hflag hipPort (fun _ => hret)
        ⟨haccepted, rfl, hoffered, h, hown, hspare⟩
    · refine RDMAClient.wp_exchangeProtoMsg_of_ok (fun return_ heq => ?_) ?_
      · exact (Response.errorMessage.inj heq).symm
      · exact At.leads hsane hsteady htables hflag hipPort (fun _ => hret)
          ⟨hrefused, rfl, h, hown, hspare⟩

end Exchange

end RdmaManager
