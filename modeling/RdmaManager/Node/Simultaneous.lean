import RdmaManager.Node.CallSteps
import RdmaManager.Rdma.Reconnect
/-!
# Simultaneous calls of `connect`

What the handler of a server does for the call of the other one, and with
it what every event of an exchange keeps. However the two calls cross,
the two servers end up with one queue pair each, connected to each other
(`connect_joined`).
-/

namespace RdmaManager

namespace Exchange

open Act BaseRDMA Device

variable {p₀ p : Exchange} {T T' : Traffic} {x : Side} {s s' : RDMAServer ReliableRDMA}
variable {call : Option Call} {mail : Mail} {retries : ℕ}

/-! ## The handler -/

/-- The server with the smaller id backs off. -/
theorem Fresh.lt_iff (hfresh : p₀.Fresh) (x : Side) :
    (p₀.node x).ownNodeID.toNat < (p₀.node x.other).ownNodeID.toNat ↔ x ≠ p₀.winner := by
  have hne : (p₀.node .left).ownNodeID.toNat ≠ (p₀.node .right).ownNodeID.toNat := fun hbad =>
    hfresh.distinct (UInt64.toNat.inj hbad)
  have hwinner : p₀.winner = if (p₀.node .left).ownNodeID.toNat < (p₀.node .right).ownNodeID.toNat
      then .right else .left := rfl
  rw [hwinner]
  cases x with
  | left =>
      show (p₀.node .left).ownNodeID.toNat < (p₀.node .right).ownNodeID.toNat ↔ _
      split_ifs with hlt <;> simp [hlt]
  | right =>
      show (p₀.node .right).ownNodeID.toNat < (p₀.node .left).ownNodeID.toNat ↔ _
      split_ifs with hlt
      · exact ⟨fun hbad => absurd hlt (by omega), fun hbad => absurd rfl hbad⟩
      · exact ⟨fun _ => by simp, fun _ => by omega⟩

/-- What is known of a call that is not accepted does not hang on the tables. -/
theorem Standing.keep {phase : Phase} {own theirs : Option ℕ}
    (hstanding : Standing p₀ x phase own theirs s mail call) (hfree : phase.engaged = false)
    (hsockets : s'.sockets = s.sockets) (huntouched : s.base.device.Untouched s'.base.device) :
    Standing p₀ x phase own theirs s' mail call := by
  cases call with
  | none =>
      obtain ⟨hidle, hown, hmail, hclosed⟩ := hstanding
      exact ⟨hidle, hown, hmail, hsockets ▸ hclosed⟩
  | some call =>
      obtain ⟨hipPort, hknows, hstands⟩ := hstanding
      refine ⟨hipPort, hknows, ?_⟩
      obtain ⟨ipPort, ret, stage⟩ := call
      have hbusy : phase ≠ .accepted ∧ phase ≠ .through := by
        constructor <;> rintro rfl <;> exact absurd hfree (by decide)
      cases stage with
      | entered | identified =>
          obtain ⟨hidle, hown, hmail, hclosed⟩ := hstands
          exact ⟨hidle, hown, hmail, hsockets ▸ hclosed⟩
      | requesting qp qpPt localConn =>
          obtain ⟨heq, hcrossed, h, hown, hspare, hnum⟩ := hstands
          exact ⟨heq, hcrossed, h, hown, hspare.keep huntouched, hnum⟩
      | destroyingQP qp =>
          obtain ⟨hrefused, hmail, h, hown, hspare⟩ := hstands
          exact ⟨hrefused, hmail, h, hown, hspare.keep huntouched⟩
      | destroyingCQ qp =>
          obtain ⟨hrefused, hmail, hown, hqueued⟩ := hstands
          exact ⟨hrefused, hmail, hown, hqueued.keep huntouched⟩
      | returned success =>
          cases success with
          | false => exact hstands.elim
          | true => exact ⟨hstands.1, Or.inl (hstands.2.resolve_right fun hbad => hbusy.2 hbad.1)⟩
      | settingQP | settingLocalConnData | settingRemoteConnData | connecting =>
          exact absurd hstands.1 hbusy.1
      | lookingUp retry =>
          cases retry with
          | none => exact hstands
          | some retry => exact hstands.elim
      | lookedUp | marking | initializing | requestingNodeID | threw => exact hstands

theorem Standing.congr {phase : Phase} {own theirs : Option ℕ}
    (hstanding : Standing p₀ x phase own theirs s mail call) (hbase : s'.base = s.base)
    (hsockets : s'.sockets = s.sockets) : Standing p₀ x phase own theirs s' mail call := by
  cases call with
  | none =>
      obtain ⟨hidle, hown, hmail, hclosed⟩ := hstanding
      exact ⟨hidle, hown, hmail, hsockets ▸ hclosed⟩
  | some call =>
      obtain ⟨hipPort, hknows, hstands⟩ := hstanding
      refine ⟨hipPort, hknows, ?_⟩
      unfold Stands at hstands ⊢
      rw [hbase, hsockets]
      exact hstands

/-- A number goes over the wire. -/
theorem toUInt64_toUInt32_number (x : Side) (h : ℕ) :
    (p₀.number x h).toUInt32.toUInt64 = p₀.number x h := by
  unfold number
  rw [UInt32.toUInt32_toUInt64]

/-- **The handler has made a queue pair** and connected it. -/
theorem Tables.accept {phase : Phase} {own : Option ℕ} {b b₁ b₂ : BaseRDMA} {h i : ℕ} {old : Qp}
    {conn : IbConn} (htables : Tables p₀ x phase own none (some h) b)
    (hinit : ReliableRDMA.Initialized b (p₀.peerID x) b₁)
    (hrerouted : RDMAServer.Rerouted b₁ (p₀.peerID x) conn b₂)
    (hconn : conn.qpNum = p₀.number x.other h)
    (hable : ReliableRDMA.Connectable b₂ (p₀.peerID x) i old) :
    Tables p₀ x phase own (some (b.device.next + 2)) (some h)
        (ReliableRDMA.connectedTo b₂ (p₀.peerID x) i old) ∧
      b.device.Untouched (ReliableRDMA.connectedTo b₂ (p₀.peerID x) i old).device := by
  obtain ⟨hqp, hold, -, -, -⟩ := hable
  have hb₂ : b₂.device = b.device.queuePair b.qpType := by
    rw [hrerouted.eq]
    exact hinit.device
  have hqpAt : b₂.qpAt (p₀.peerID x) = ReliableRDMA.madeQp b.device := by
    rw [hrerouted.eq]
    show b₁.qpAt _ = _
    rw [hinit.qpAt, if_pos rfl]
  obtain rfl : b.device.next + 2 = i := by
    rw [hqpAt] at hqp
    exact Option.some.inj hqp
  have hgrown := grown_queuePair b.device b.qpType
  rw [← hb₂] at hgrown
  have hnext : b₂.device.next = b.device.next + 3 := by
    rw [hb₂]
    rfl
  have hqps : ∀ k, (b₂.device.readied (b.device.next + 2) old
      (some (ReliableRDMA.peerOf b₂ (p₀.peerID x)))).qps k ≠ none ↔ b₂.device.qps k ≠ none := by
    intro k
    rw [readied_qps]
    rcases eq_or_ne k (b.device.next + 2) with rfl | hne
    · rw [Function.update_self, ne_eq, Option.map_eq_none_iff]
    · rw [Function.update_of_ne hne]
  refine ⟨⟨hgrown.succeeds htables.succeeds, hgrown.qpNum.trans htables.qpNum,
    le_trans htables.next hgrown.next, ?_, ?_, ?_, fun hbad => absurd hbad (by simp), ?_⟩, ?_⟩
  · intro k hk hlive
    have hlive := (hqps k).mp hlive
    rw [hb₂, queuePair_qps] at hlive
    rcases eq_or_ne k (b.device.next + 2) with rfl | hne
    · exact Or.inr rfl
    · rw [Function.update_of_ne hne] at hlive
      exact Or.inl ((htables.new k hk hlive).resolve_right (by simp))
  · show ∀ k, _ → _ ∧ k < b₂.device.next
    have hfirst := htables.next
    rintro k (hk | hk)
    · have hsince := htables.since k (Or.inl hk)
      omega
    · obtain rfl := Option.some.inj hk
      omega
  · intro k hk hbad
    have hsince := htables.since k (Or.inl hk)
    have := Option.some.inj hbad
    omega
  · intro g hg
    obtain rfl := Option.some.inj hg
    refine ⟨h, rfl, hqp, ?_, Finmap.lookup_insert _, ?_⟩
    · refine (hqps _).mpr ?_
      rw [hold]
      exact Option.some_ne_none _
    · show (b₂.rconnAt (p₀.peerID x)).qpNum = _
      rw [hrerouted.rconnAt, if_pos rfl, hconn]
  · exact hgrown.untouched.readied (Nat.le_add_right _ _)

/-- The phase of a call changes, and nothing else. -/
theorem At.rephase {sx : RDMAServer ReliableRDMA} {call : Call} {mail' : Mail} {a : Phase}
    {got : Option ℕ} (hat : At p₀ T x sx (some call) mail) (hup : a.up = (T.phase x).up)
    (hthrough : T.phase x ≠ .through)
    (hstands : Stands p₀ x a (T.own x) got sx mail' call) :
    At p₀ ⟨Function.update T.phase x a, T.own, Function.update T.got x.other got⟩ x sx (some call)
      mail' := by
  obtain ⟨hsteady, htables, hflag, hipPort, hknows, -⟩ := hat
  have hself : Function.update T.phase x a x = a := Function.update_self _ _ _
  have hgot : Function.update T.got x.other got x = T.got x := Function.update_of_ne x.other_ne.symm _ _
  have hgot' : Function.update T.got x.other got x.other = got := Function.update_self _ _ _
  refine ⟨hsteady, ?_, ?_, hipPort, hknows, ?_⟩
  · show Tables p₀ x (Function.update T.phase x a x) (T.own x) (Function.update T.got x.other got x)
      (T.own x.other) _
    rw [hself, hgot]
    exact ⟨htables.succeeds, htables.qpNum, htables.next, htables.new, htables.since, htables.apart,
      fun hnone _ => htables.unlinked hnone hthrough, htables.linked⟩
  · show _ = ((Function.update T.phase x a x).up || (Function.update T.phase x a x.other).engaged)
    rw [hself, Function.update_of_ne x.other_ne, hup, hflag]
    rfl
  · show Stands p₀ x (Function.update T.phase x a x) (T.own x)
      (Function.update T.got x.other got x.other) _ _ _
    rw [hself, hgot']
    exact hstands

/-- The call of `x` is answered. -/
theorem Traffic.Sane.answer {a : Phase} {got : Option ℕ} (hsane : T.Sane p₀)
    (hraised : T.phase x = .raised)
    (ha : a = if Crossing.flag T.phase x.other = true ∧ x ≠ p₀.winner then .refused else .accepted)
    (hgot : got.isSome = a.engaged) :
    Sane p₀ ⟨Function.update T.phase x a, T.own, Function.update T.got x.other got⟩ := by
  refine ⟨hsane.reachable.step (l := .answer x) ⟨hraised, ?_⟩, fun y => ?_⟩
  · rw [ha]
    rfl
  · show (Function.update T.got x.other got y).isSome = (Function.update T.phase x a y.other).engaged
    by_cases hy : y = x.other
    · rw [hy, Side.other_other, Function.update_self, Function.update_self, hgot]
    · rw [Function.update_of_ne hy, hsane.taken y, Function.update_of_ne]
      rintro rfl
      exact hy y.other_other.symm

/-- What the answer means to the server that gives it. -/
theorem At.of_answered {a : Phase} {got : Option ℕ}
    (hsteady : Steady (p₀.node x.other) s')
    (htables : Tables p₀ x.other (T.phase x.other) (T.own x.other) got (T.own x) s'.base)
    (hmarked : s'.marked (p₀.peerID x.other) = true)
    (hup : ((T.phase x.other).up || a.engaged) = true)
    (hstanding : Standing p₀ x.other (T.phase x.other) (T.own x.other) (T.got x) s' mail call) :
    At p₀ ⟨Function.update T.phase x a, T.own, Function.update T.got x.other got⟩ x.other s' call
      mail := by
  have hphase : Function.update T.phase x a x.other = T.phase x.other :=
    Function.update_of_ne x.other_ne _ _
  refine ⟨hsteady, ?_, ?_, ?_⟩
  · show Tables p₀ x.other (Function.update T.phase x a x.other) _
      (Function.update T.got x.other got x.other) (T.own x.other.other) _
    rw [hphase, Function.update_self, Side.other_other]
    exact htables
  · show _ = ((Function.update T.phase x a x.other).up ||
      (Function.update T.phase x a x.other.other).engaged)
    rw [hphase, Side.other_other, Function.update_self, hmarked, hup]
  · show Standing p₀ x.other (Function.update T.phase x a x.other) _
      (Function.update T.got x.other got x.other.other) _ _ _
    rw [hphase, Side.other_other, Function.update_of_ne x.other_ne.symm]
    exact hstanding

/-- **The handler answers the call of the other server.** -/
theorem At.answer {receiver : String} {request : Request} {call : Call} {callOther : Option Call}
    {sOther : RDMAServer ReliableRDMA} (hfresh : p₀.Fresh) (hsane : T.Sane p₀)
    (hat : At p₀ T x s (some call) (.request receiver request))
    (hpeer : receiver ≠ (p₀.node x).sequencerIpPort)
    (hother : At p₀ T x.other sOther callOther mail) :
    wp (RDMAServer.handle request)
      (fun response s' => ∃ T', Traffic.Sane p₀ T' ∧
        At p₀ T' x s (some call) (.reply (.ok response)) ∧ At p₀ T' x.other s' callOther mail)
      (fun _ _ => False) sOther := by
  have hstands := hat.standing.2.2
  obtain ⟨ipPort, ret, stage⟩ := call
  rcases hstands.waits (by simp) with hstage | ⟨qp, qpPt, localConn, hstage⟩
  · obtain rfl : stage = .lookingUp none := hstage
    exact absurd hstands.2.2.1 hpeer
  · obtain rfl : stage = .requesting qp qpPt localConn := hstage
    obtain ⟨rfl, ⟨hraised, -, rfl⟩, h, hown, hspare, hnum⟩ := hstands
    have hid : p₀.peerID x.other =
        (RDMAClient.requestOf (p₀.node x).ownNodeID localConn).nodeid.toNat := by
      unfold peerID
      rw [Side.other_other]
      rfl
    -- nothing was accepted from it before
    have hgot : T.got x.other = none := by
      refine hsane.got_other_eq_none ?_
      rw [hraised]
      rfl
    have hflag := hother.flag
    have hlt : p₀.peerID x.other < sOther.ownNodeID.toNat ↔ x ≠ p₀.winner := by
      rw [hother.steady.ownNodeID, ← hfresh.lt_iff x]
      unfold peerID
      rw [Side.other_other]
    have htables := hother.tables
    rw [hgot, Side.other_other] at htables
    have hstanding := hother.standing
    rw [Side.other_other] at hstanding
    unfold RDMAServer.handle
    simp only [wp_bind]
    refine RDMAServer.wp_connectQueue hid (fun flags hflags hup hback => ?_)
      (fun flags hflags hgo => ?_) fun hbad => absurd (hfresh.peerID_lt x.other) (Nat.not_lt.mpr hbad)
    · rw [hflag] at hup
      have hup' : ((T.phase x.other).up || false) = true := by
        unfold Crossing.flag at hup
        rw [Side.other_other, hraised] at hup
        exact hup
      refine ⟨_, hsane.answer hraised (if_pos ⟨hup, hlt.mp hback⟩).symm rfl,
        hat.rephase ?_ ?_ ⟨rfl, Or.inr ⟨rfl, rfl⟩, h, hown, hspare, hnum⟩,
        At.of_answered ?_ htables ?_ hup' (hstanding.congr rfl rfl)⟩
      · rw [hraised]
        rfl
      · rw [hraised]
        decide
      · exact hother.steady.client rfl rfl rfl (Finset.Subset.refl _)
      · show flags.getD _ false = true
        rw [hflags, if_pos rfl]
    · have haccept : ¬ (Crossing.flag T.phase x.other = true ∧ x ≠ p₀.winner) := by
        rw [← hflag, ← hlt]
        exact hgo
      have hsane' : ∀ k, Traffic.Sane p₀ ⟨Function.update T.phase x .accepted, T.own,
          Function.update T.got x.other (some k)⟩ :=
        fun k => hsane.answer hraised (if_neg haccept).symm rfl
      -- whose call is not accepted
      have hfree : (T.phase x.other).engaged = false := by
        have hone := (Crossing.invariant_sane.reachable (hsane' 0).reachable).one x
        change (Function.update T.phase x .accepted x).engaged = true →
          (Function.update T.phase x .accepted x.other).engaged = false at hone
        rw [Function.update_self, Function.update_of_ne x.other_ne] at hone
        exact hone rfl
      have hout : p₀.peerID x.other ∉ sOther.base.connected := by
        refine htables.unlinked rfl fun hbad => ?_
        rw [hbad] at hfree
        exact absurd hfree (by decide)
      refine RDMAServer.wp_setUpQueue hother.steady.currentSRQ ?_ ?_ ?_ ?_
      · intro e d hbad
        rcases hbad with hbad | hbad
        · exact absurd htables.succeeds hbad
        · exact absurd (hfresh.peerID_lt x.other) (Nat.not_lt.mpr hbad)
      · exact fun _ _ _ _ hin => absurd hin hout
      · intro b₁ b₂ i old hinit hrerouted _ hable
        rw [hown] at htables
        have hconn : (RDMAServer.remoteConnOf sOther.base.stack
            (RDMAClient.requestOf (p₀.node x).ownNodeID localConn)).qpNum =
            p₀.number x.other.other h := by
          show localConn.qpNum.toUInt32.toUInt64 = _
          rw [hnum, Side.other_other]
          exact toUInt64_toUInt32_number _ _
        obtain ⟨hmade, huntouched⟩ := htables.accept hinit hrerouted hconn hable
        refine ⟨_, hsane' _, hat.rephase ?_ ?_ ⟨rfl, Or.inl ⟨rfl, _, rfl, _, rfl, ?_⟩, h, hown,
          hspare, hnum⟩, At.of_answered ?_ (hown ▸ hmade) ?_ (Bool.or_true _) ?_⟩
        · rw [hraised]
          rfl
        · rw [hraised]
          decide
        · show ((sOther.base.device.qpNum (sOther.base.device.next + 2)).toUInt64.toUInt32).toUInt64 = _
          rw [htables.qpNum]
          exact toUInt64_toUInt32_number _ _
        · exact hother.steady.client rfl rfl rfl (Finset.Subset.refl _)
        · show flags.getD _ false = true
          rw [hflags, if_pos rfl]
        · exact hstanding.keep hfree rfl huntouched
      · exact fun _ _ _ _ _ _ _ hbad => absurd htables.succeeds hbad

/-! ## Runs -/

/-- Nothing has happened yet. -/
theorem Fresh.inv (hfresh : p₀.Fresh) : Inv p₀ p₀ := by
  refine ⟨rfl, ⟨fun _ => .idle, fun _ => none, fun _ => none⟩, ⟨System.Reachable.init rfl, fun _ => rfl⟩,
    fun x => ⟨⟨rfl, rfl, rfl, hfresh.opened x, hfresh.currentSRQ x⟩, ?_, hfresh.unmarked x, ?_⟩⟩
  · refine ⟨hfresh.succeeds x, rfl, le_refl _, fun h hle hlive => absurd hle ?_, ?_, ?_, ?_, ?_⟩
    · obtain ⟨qp, hqp⟩ := Option.ne_none_iff_exists'.mp hlive
      exact Nat.not_le.mpr ((p₀.node x).base.device.lt_of_qps hqp)
    · rintro h (hbad | hbad) <;> exact absurd hbad (by simp)
    · exact fun _ hbad => absurd hbad (by simp)
    · exact fun _ _ => hfresh.unconnected x
    · exact fun _ hbad => absurd hbad (by simp)
  · rw [hfresh.call x]
    exact ⟨rfl, rfl, hfresh.mail x, hfresh.closed x⟩

/-- A piece of a call. -/
theorem Inv.goOn {call : Call} {act : Act (RDMAClient ReliableRDMA) Call}
    (hsequencer : p.sequencer = p₀.sequencer)
    (hats : ∀ y, At p₀ T y (p.node y) (p.call y) (p.mail y))
    (h : wp act (Leads p₀ T x (p.node x) mail) (fun _ _ => False) (p.node x).toRDMAClient) :
    Inv p₀ (p.goOn x call act mail) := by
  have hrun : Leads p₀ T x (p.node x) mail (call.run act (p.node x).toRDMAClient).1
      (call.run act (p.node x).toRDMAClient).2 :=
    Call.run_of_wp (wp_mono h (fun _ _ hleads => hleads) fun _ _ hbad => hbad.elim)
  obtain ⟨T', hsane, hagrees, hat⟩ := hrun
  refine ⟨hsequencer, T', hsane, fun y => ?_⟩
  show At p₀ T' y (Function.update p.node x _ y) (Function.update p.call x _ y)
    (Function.update p.mail x _ y)
  by_cases hy : y = x
  · rw [hy, Function.update_self, Function.update_self, Function.update_self]
    exact hat
  · rw [Function.update_of_ne hy, Function.update_of_ne hy, Function.update_of_ne hy]
    obtain rfl := Side.eq_other_of_ne hy
    exact (hats x.other).agree hagrees

/-- A call is made, or its message goes on its way. -/
theorem Inv.repost {q : Exchange} (hsane : T.Sane p₀) (hsequencer : p.sequencer = p₀.sequencer)
    (hats : ∀ y, At p₀ T y (p.node y) (p.call y) (p.mail y)) (hnode : q.node = p.node)
    (hq : q.sequencer = p.sequencer)
    (hother : ∀ y, y ≠ x → q.call y = p.call y ∧ q.mail y = p.mail y)
    (hstanding : Standing p₀ x (T.phase x) (T.own x) (T.got x.other) (p.node x) (q.mail x) (q.call x)) :
    Inv p₀ q := by
  refine ⟨hq.trans hsequencer, T, hsane, fun y => ?_⟩
  rw [hnode]
  by_cases hy : y = x
  · rw [hy]
    exact ⟨(hats x).steady, (hats x).tables, (hats x).flag, hstanding⟩
  · rw [(hother y hy).1, (hother y hy).2]
    exact hats y

/-- **The message of a call** is the one of its stage. -/
theorem At.send {call : Call} {message : String × Request} (hat : At p₀ T x s (some call) .none)
    (hmessage : call.request s.toRDMAClient = some message) :
    Standing p₀ x (T.phase x) (T.own x) (T.got x.other) s (.request message.1 message.2)
      (some call) := by
  obtain ⟨hsteady, -, -, hipPort, hknows, hstands⟩ := hat
  refine ⟨hipPort, hknows, ?_⟩
  obtain ⟨ipPort, ret, stage⟩ := call
  unfold Call.request at hmessage
  unfold Stands at hstands ⊢
  cases stage with
  | lookingUp retry =>
      cases retry with
      | some retry => exact hstands.elim
      | none =>
          obtain ⟨hidle, hown, -⟩ := hstands
          obtain rfl := Option.some.inj hmessage
          refine ⟨hidle, hown, hsteady.sequencerIpPort, ?_⟩
          show Request.getNodeIDForIpPortRequest ipPort = _
          rw [show ipPort = _ from hipPort]
  | requesting qp qpPt localConn =>
      obtain ⟨heq, hraised, hspare⟩ := hstands
      obtain rfl := Option.some.inj hmessage
      refine ⟨heq, ⟨hraised, hipPort, ?_⟩, hspare⟩
      show Request.rdmaConnRequest (RDMAClient.requestOf s.ownNodeID localConn) = _
      rw [hsteady.ownNodeID]
  | requestingNodeID => exact hstands.elim
  | _ => exact absurd hmessage (by simp)

/-- **The sequencer answers.** -/
theorem At.lookUp {receiver : String} {request : Request} {call : Call} (hfresh : p₀.Fresh)
    (hat : At p₀ T x s (some call) (.request receiver request))
    (hreceiver : receiver = (p₀.node x).sequencerIpPort) :
    wp (NodeIDSequencer.handle request)
      (fun response q => q = p₀.sequencer ∧ Standing p₀ x (T.phase x) (T.own x) (T.got x.other) s
        (.reply (.ok response)) (some call))
      (fun _ _ => False) p₀.sequencer := by
  obtain ⟨-, -, -, hipPort, hknows, hstands⟩ := hat
  obtain ⟨ipPort, ret, stage⟩ := call
  have hregistered := hfresh.registered x.other
  rcases hstands.waits (by simp) with hstage | ⟨qp, qpPt, localConn, hstage⟩
  · obtain rfl : stage = .lookingUp none := hstage
    obtain ⟨hidle, hown, -, rfl⟩ := hstands
    refine NodeIDSequencer.wp_handle_getNodeIDForIpPortRequest hfresh.sequencer ?_ ?_
    · intro resp hlookup hip hreturn
      refine ⟨rfl, hipPort, hknows, hidle, hown, resp, rfl, ?_, hip, hreturn⟩
      exact Option.some.inj (hlookup.symm.trans hregistered)
    · intro resp hbad
      exact absurd (hbad.symm.trans hregistered) (by simp)
  · obtain rfl : stage = .requesting qp qpPt localConn := hstage
    obtain ⟨-, ⟨-, hpeer, -⟩, -⟩ := hstands
    exact absurd (hpeer.symm.trans hreceiver) (hfresh.peerIpPort_ne x)

/-- A server that has no call has no message. -/
theorem At.call_of_request {receiver : String} {request : Request}
    (hat : At p₀ T x s call (.request receiver request)) : ∃ c, call = some c := by
  cases call with
  | none => exact absurd hat.standing.2.2.1 (by simp)
  | some c => exact ⟨c, rfl⟩

/-- **Every event keeps what is known.** -/
theorem Inv.step (hfresh : p₀.Fresh) (hinv : Inv p₀ p) {event : ExchangeEvent}
    (henabled : p.Enabled event) : Inv p₀ (p.exec retries event) := by
  have hkept := hinv
  obtain ⟨hsequencer, T, hsane, hats⟩ := hinv
  cases event with
  | connect x retServerNodeID =>
      have hnone : p.call x = none := henabled
      refine Inv.repost (x := x) hsane hsequencer hats rfl rfl
        (fun y hy => ⟨Function.update_of_ne hy _ _, rfl⟩) ?_
      have hstanding := (hats x).standing
      rw [hnone] at hstanding
      show Standing p₀ x _ _ _ _ _ (Function.update p.call x _ x)
      rw [Function.update_self]
      refine ⟨?_, nofun, hstanding⟩
      show (p.node x.other).ownIpPort = (p₀.node x.other).ownIpPort
      exact (hats x.other).steady.ownIpPort
  | advance x =>
      unfold exec
      dsimp only
      cases hcall : p.call x with
      | none => exact hkept
      | some call =>
          have hat := hats x
          rw [hcall] at hat
          refine Inv.goOn hsequencer hats (hat.advance hfresh hsane ?_)
          have hidle : (p.call x).bind (Call.request (p.node x).toRDMAClient) = none := henabled
          rw [hcall] at hidle
          exact hidle
  | send x =>
      obtain ⟨message, hmessage, hmail⟩ := henabled
      unfold exec
      dsimp only
      rw [hmessage]
      unfold outgoing at hmessage
      obtain ⟨call, hcall, hrequest⟩ := Option.bind_eq_some_iff.mp hmessage
      have hat := hats x
      rw [hcall, hmail] at hat
      refine Inv.repost (x := x) hsane hsequencer hats rfl rfl
        (fun y hy => ⟨rfl, Function.update_of_ne hy _ _⟩) ?_
      show Standing p₀ x _ _ _ _ (Function.update p.mail x _ x) (p.call x)
      rw [Function.update_self, hcall]
      exact hat.send hrequest
  | deliver x =>
      obtain ⟨receiver, request, hmail⟩ := henabled
      have hat := hats x
      rw [hmail] at hat
      obtain ⟨call, hcall⟩ := hat.call_of_request
      rw [hcall] at hat
      unfold exec
      dsimp only
      rw [hmail]
      dsimp only
      rw [hat.steady.sequencerIpPort]
      split_ifs with hreceiver
      · obtain ⟨response, hanswer, hq, hstanding⟩ := ok_of_wp (hat.lookUp hfresh hreceiver)
        rw [hsequencer, hanswer, hq]
        refine Inv.repost (x := x) hsane hsequencer hats rfl hsequencer.symm
          (fun y hy => ⟨rfl, Function.update_of_ne hy _ _⟩) ?_
        show Standing p₀ x _ _ _ _ (Function.update p.mail x _ x) (p.call x)
        rw [Function.update_self, hcall]
        exact hstanding
      · obtain ⟨response, hanswer, T', hsane', hat', hother'⟩ :=
          ok_of_wp (hat.answer hfresh hsane hreceiver (hats x.other))
        rw [hanswer]
        refine ⟨hsequencer, T', hsane', fun y => ?_⟩
        show At p₀ T' y (Function.update p.node x.other _ y) (p.call y) (Function.update p.mail x _ y)
        by_cases hy : y = x
        · rw [hy, Function.update_of_ne x.other_ne.symm, Function.update_self, hcall]
          exact hat'
        · obtain rfl := Side.eq_other_of_ne hy
          rw [Function.update_self, Function.update_of_ne hy]
          exact hother'
  | receive x =>
      obtain ⟨answer, hmail⟩ := henabled
      unfold exec
      dsimp only
      rw [hmail]
      cases hcall : p.call x with
      | none => exact hkept
      | some call =>
          have hat := hats x
          rw [hcall, hmail] at hat
          exact Inv.goOn hsequencer hats (hat.receive hsane)

/-! ## What becomes of an exchange -/

/-- **A call that has returned** is through, was refused or has yielded. -/
theorem At.returned {call : Call} (hat : At p₀ T x s (some call) mail) (hdone : call.running = false) :
    call.stage = .returned true ∧ call.retServerNodeID = (p₀.node x.other).ownNodeID ∧
      ((T.own x = none ∧ (T.phase x = .refused ∨ T.phase x = .yielded)) ∨
        (T.phase x = .through ∧ ∃ h g, T.own x = some h ∧ T.got x.other = some g ∧
          Linked s.base (p₀.peerID x) h (p₀.number x.other g))) := by
  obtain ⟨-, -, -, -, hknows, hstands⟩ := hat
  obtain ⟨ipPort, ret, stage⟩ := call
  unfold Stands at hstands
  unfold Call.running at hdone
  cases stage with
  | returned success =>
      cases success with
      | false => exact hstands.elim
      | true => exact ⟨rfl, hknows rfl, hstands.2⟩
  | threw => exact hstands.elim
  | _ => exact absurd hdone (by simp)

/-- What a quiet server has come to. -/
theorem At.rest (hat : At p₀ T x s call mail) (hdone : ∀ c, call = some c → c.running = false) :
    (call = none ∧ T.phase x = .idle ∧ T.own x = none) ∨
      (∃ c, call = some c ∧ T.own x = none ∧ (T.phase x = .refused ∨ T.phase x = .yielded)) ∨
      (T.phase x = .through ∧ ∃ h g, T.own x = some h ∧ T.got x.other = some g ∧
        Linked s.base (p₀.peerID x) h (p₀.number x.other g)) := by
  cases call with
  | none => exact Or.inl ⟨rfl, hat.standing.1, hat.standing.2.1⟩
  | some c =>
      obtain ⟨-, -, hout | hthrough⟩ := hat.returned (hdone c rfl)
      · exact Or.inr (Or.inl ⟨c, rfl, hout⟩)
      · exact Or.inr (Or.inr hthrough)

/-- One call is through, and the other server has made nothing that is left. -/
theorem through_of_quiet (hsane : T.Sane p₀)
    (hats : ∀ x, At p₀ T x (p.node x) (p.call x) (p.mail x))
    (hdone : ∀ x c, p.call x = some c → c.running = false) (hstarted : ∃ x, p.call x ≠ none) :
    ∃ x, T.phase x = .through ∧ T.own x.other = none := by
  have hrest := fun x => (hats x).rest (hdone x)
  obtain ⟨x, hthrough, hfree⟩ : ∃ x, T.phase x = .through ∧ (T.phase x.other).engaged = false := by
    refine Crossing.through_of_rest hsane.reachable (fun y => ?_) ?_
    · rcases hrest y with ⟨-, hphase, -⟩ | ⟨-, -, -, hphase | hphase⟩ | ⟨hphase, -⟩ <;> rw [hphase] <;>
        decide
    · obtain ⟨y, hy⟩ := hstarted
      refine ⟨y, ?_⟩
      rcases hrest y with ⟨hnone, -⟩ | ⟨-, -, -, hphase | hphase⟩ | ⟨hphase, -⟩
      · exact absurd hnone hy
      all_goals rw [hphase]; decide
  refine ⟨x, hthrough, ?_⟩
  rcases hrest x.other with ⟨-, -, hown⟩ | ⟨-, -, hown, -⟩ | ⟨hphase, -⟩
  · exact hown
  · exact hown
  · rw [hphase] at hfree
    exact absurd hfree (by decide)

/-- **A side of the connection**: the queue pair `i` of one server, which is
the only one it has made that is left, stands opposite `j` of the other. -/
structure Coupled (p₀ p : Exchange) (y : Side) (i j : ℕ) : Prop where
  near : Linked (p.node y).base (p₀.peerID y) i (p₀.number y.other j)
  far : Linked (p.node y.other).base (p₀.peerID y.other) j (p₀.number y i)
  new : (p₀.node y).base.device.next ≤ i
  only : ∀ k, (p₀.node y).base.device.next ≤ k → (p.node y).base.device.qps k ≠ none → k = i

/-- The call that is through has coupled both sides. -/
theorem coupled_of_through (hsane : T.Sane p₀)
    (hats : ∀ x, At p₀ T x (p.node x) (p.call x) (p.mail x))
    (hdone : ∀ x c, p.call x = some c → c.running = false) {x : Side}
    (hthrough : T.phase x = .through) (hown : T.own x.other = none) :
    ∃ h g, Coupled p₀ p x h g ∧ Coupled p₀ p x.other g h := by
  have hgot : T.got x = none := by
    refine hsane.got_eq_none ?_
    rw [hthrough]
    rfl
  obtain ⟨h, g, hh, hg, hlinked⟩ : ∃ h g, T.own x = some h ∧ T.got x.other = some g ∧
      Linked (p.node x).base (p₀.peerID x) h (p₀.number x.other g) := by
    rcases (hats x).rest (hdone x) with ⟨-, hphase, -⟩ | ⟨-, -, -, hphase | hphase⟩ | ⟨-, hlinked⟩
    · exact absurd (hphase.symm.trans hthrough) (by decide)
    · exact absurd (hphase.symm.trans hthrough) (by decide)
    · exact absurd (hphase.symm.trans hthrough) (by decide)
    · exact hlinked
  have hlinked' : Linked (p.node x.other).base (p₀.peerID x.other) g (p₀.number x h) := by
    obtain ⟨i, hi, hlinked'⟩ := (hats x.other).tables.linked g hg
    rw [Side.other_other] at hi hlinked'
    rwa [Option.some.inj (hh.symm.trans hi)]
  refine ⟨h, g, ⟨hlinked, hlinked', ((hats x).tables.since h (Or.inl hh)).1, fun k hk hlive => ?_⟩,
    ⟨?_, ?_, ((hats x.other).tables.since g (Or.inr hg)).1, fun k hk hlive => ?_⟩⟩
  · rcases (hats x).tables.new k hk hlive with hk | hk
    · exact Option.some.inj (hk.symm.trans hh)
    · rw [hgot] at hk
      exact absurd hk (by simp)
  · rw [Side.other_other]
    exact hlinked'
  · rw [Side.other_other]
    exact hlinked
  · rcases (hats x.other).tables.new k hk hlive with hk | hk
    · rw [hown] at hk
      exact absurd hk (by simp)
    · exact Option.some.inj (hk.symm.trans hg)

/-- **Two servers that call `connect` for each other**, or one of them for
the other, are connected once every call has returned. -/
theorem connect_joined (retries : ℕ) (hfresh : p₀.Fresh) (hleads : (runs retries).Leads p₀ p)
    (hquiet : p.Quiet) (hstarted : ∃ x, p.call x ≠ none) : Joined p₀ p := by
  have hinv : Inv p₀ p := by
    refine hleads.keeps (System.Reachable.init hfresh) ?_ hfresh.inv
    rintro q event _ - hinv ⟨henabled, rfl⟩
    exact hinv.step hfresh henabled
  obtain ⟨-, T, hsane, hats⟩ := hinv
  have hdone := fun x c (hc : p.call x = some c) => (hquiet x).2 c hc
  obtain ⟨x, hthrough, hown⟩ := through_of_quiet hsane hats hdone hstarted
  obtain ⟨h, g, hcoupled, hcoupled'⟩ := coupled_of_through hsane hats hdone hthrough hown
  have hends : ∀ y, ∃ i j, Coupled p₀ p y i j := by
    intro y
    by_cases hy : y = x
    · rw [hy]
      exact ⟨h, g, hcoupled⟩
    · rw [Side.eq_other_of_ne hy]
      exact ⟨g, h, hcoupled'⟩
  have hpeerID : ∀ y, p.peerID y = p₀.peerID y := by
    intro y
    unfold peerID
    rw [(hats y.other).steady.ownNodeID]
  refine ⟨fun y call hcall => ?_, fun y => ?_, fun y j hj => ?_, fun y => ?_⟩
  · have hat := hats y
    rw [hcall] at hat
    obtain ⟨hstage, hret, -⟩ := hat.returned (hdone y call hcall)
    rw [(hats y.other).steady.ownNodeID]
    exact ⟨hstage, hret⟩
  · obtain ⟨i, j, hends⟩ := hends y
    rw [hpeerID]
    exact ⟨i, hends.near.qp, hends.near.live, hends.new, hends.only⟩
  · obtain ⟨i, k, hends⟩ := hends y
    rw [hpeerID] at hj ⊢
    obtain rfl := Option.some.inj (hends.far.qp.symm.trans hj)
    rw [hends.near.route, (hats y.other).tables.qpNum]
    rfl
  · obtain ⟨i, j, hends⟩ := hends y
    rw [hpeerID]
    exact hends.near.connected

/-! ## Two requests that cross -/

/-- A server on a new device. -/
def newServer (ownIpPort : String) (ownNodeID : UInt64) : RDMAServer ReliableRDMA where
  api := ReliableRDMA.fresh steadyReliable
  ownNodeID := ownNodeID
  nodeIDsConnection := []
  nodeIDsQPs := []
  connections := ∅
  name := "RDMAServer"
  ownIpPort := ownIpPort
  nodeType := .server
  sequencerIpPort := "10.0.0.9:5600"
  sockets := {"10.0.0.9:5600"}
  buffer := BaseMemory.new 4096 64
  currentSRQ := sizeMax

/-- A sequencer that two servers have registered with. -/
def twoRegistered : NodeIDSequencer :=
  (NodeIDSequencer.handle (.nodeIDRequest ⟨"10.0.0.2:5200", "RDMAServer", NodeType.server.code⟩)
    (NodeIDSequencer.handle (.nodeIDRequest ⟨"10.0.0.1:5200", "RDMAServer", NodeType.server.code⟩)
      .fresh).2).2

def twoServers : Exchange where
  node
    | .left => newServer "10.0.0.1:5200" 0
    | .right => newServer "10.0.0.2:5200" 1
  call _ := none
  mail _ := .none
  sequencer := twoRegistered

/-- A server calls `connect`, and its request is under way. -/
def asks (x : Side) : List ExchangeEvent :=
  [.connect x 55, .advance x, .advance x, .send x, .deliver x, .receive x, .advance x, .advance x,
    .advance x, .send x]

/-- The requests of both cross. The left one is refused, and the right one
goes through. -/
def crossing : List ExchangeEvent :=
  asks .left ++ asks .right ++ [.deliver .left, .deliver .right, .receive .left, .receive .right,
    .advance .left, .advance .left, .advance .right, .advance .right, .advance .right, .advance .right]

theorem twoServers_fresh : twoServers.Fresh where
  succeeds x := by cases x <;> exact fun _ => rfl
  currentSRQ x := by cases x <;> rfl
  call _ := rfl
  mail _ := rfl
  sequencer := (NodeIDSequencer.sound_fresh.handle _).handle _
  registered x := by cases x <;> decide +kernel
  distinct := by decide
  opened x := by cases x <;> decide +kernel
  closed x := by cases x <;> decide +kernel
  unmarked x := by cases x <;> rfl
  unconnected x := by cases x <;> decide +kernel

theorem connect_joined_crossing : Joined twoServers (crossing.foldl (exec 5) twoServers) := by
  refine connect_joined 5 twoServers_fresh ?_ ?_ ⟨.left, by decide +kernel⟩
  · have hmeets : System.MeetsAlong Enabled (exec 5) twoServers crossing := by decide +kernel
    refine (System.Leads.refl twoServers).along (hmeets.steps ?_)
    intro s event henabled
    exact ⟨henabled, rfl⟩
  · have hdone : ∀ x, ((crossing.foldl (exec 5) twoServers).call x).all (fun c => !c.running) = true := by
      intro x
      cases x <;> decide +kernel
    intro x
    refine ⟨by cases x <;> decide +kernel, fun c hc => ?_⟩
    have hrunning := hdone x
    rw [hc] at hrunning
    exact Bool.not_eq_true' _ ▸ hrunning

end Exchange

end RdmaManager
