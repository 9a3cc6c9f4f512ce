import RdmaManager.Common.Termination
import RdmaManager.Perf.BurstBounds
/-!
# Where an acknowledgement finds no receive

A server that is quick lets the client take two acknowledgements before a
burst that posts no receives, and one before a burst that posts some, so the
bursts that post are as small as they can be (`EagerInv`). After `p + 1` of
these the client has posted `M` receives and `p` batches of them, and it is
enough that the messages it has sent are for more acknowledgements than that.
-/

namespace RdmaManager

variable {c : PerfConfig} {p : ℕ} {s : Perf} {t : PerfTrail} {b : BurstTrail} {e : PerfEvent}

/-! ## The server's runs -/

/-- The acknowledgements that were taken before the last burst. -/
def BurstTrail.taken (b : BurstTrail) : ℕ := 2 * b.barren + (b.posting - 1)

/-- Those that are to be taken before the next one, with the counter that it
begins with. -/
def BurstTrail.quota (b : BurstTrail) (ackMsgCounter : ℕ) : ℕ :=
  b.taken + if ackMsgCounter = 0 then 1 else 2

theorem BurstTrail.quota_zero (b : BurstTrail) : b.quota 0 = b.taken + 1 := rfl

theorem BurstTrail.quota_of_ne (b : BurstTrail) {ackMsgCounter : ℕ} (h : ackMsgCounter ≠ 0) :
    b.quota ackMsgCounter = b.taken + 2 := by
  unfold quota
  rw [if_neg h]

theorem BurstTrail.taken_posting (h : 1 ≤ b.posting) :
    BurstTrail.taken { b with posting := b.posting + 1 } = b.taken + 1 := by
  unfold taken
  simp only
  omega

theorem BurstTrail.taken_barren : BurstTrail.taken { b with barren := b.barren + 1 } = b.taken + 2 := by
  unfold taken
  simp only
  omega

/-- What is to be taken before a burst that posts receives may be before the
one after it. -/
theorem BurstTrail.le_quota_posting (ackMsgCounter : ℕ) :
    b.taken + 1 ≤ BurstTrail.quota { b with posting := b.posting + 1 } ackMsgCounter := by
  unfold quota taken
  simp only
  split_ifs <;> omega

/-- The next burst would be one too many. -/
def BurstTrail.Last (p : ℕ) (b : BurstTrail) (ackMsgCounter : ℕ) : Prop :=
  b.posting = p + 1 ∧ ackMsgCounter = 0

/-- **An eager server** acknowledges what the next burst is to wait for and no
more, before `p + 1` bursts have posted receives. -/
def Eager (c : PerfConfig) (p : ℕ) (x : (Perf × PerfTrail) × BurstTrail) (e : PerfEvent) : Prop :=
  0 < x.1.1.client.totalBudget →
    (e = .acks → ¬ x.2.Last p (x.1.1.client.upcoming c) →
      x.1.2.ackCount < x.2.quota (x.1.1.client.upcoming c)) ∧
    (e = .leaves → ¬ x.2.Last p (x.1.1.client.upcoming c) ∧
      x.1.2.ackCount = x.2.quota (x.1.1.client.upcoming c))

/-- What holds in a burst that began with `ackMsgCounter`, where `armed` of its
messages have the receive that they come with. -/
def Opened (c : PerfConfig) (k : PerfClient) (t : PerfTrail) (b : BurstTrail)
    (ackMsgCounter armed : ℕ) : Prop :=
  1 ≤ b.posting ∧ t.acknowledged = c.ackMsgPackgin * b.taken ∧
    (ackMsgCounter = 0 → b.posting = 1 ∧ b.posted ≤ armed ∨
      2 ≤ b.posting ∧ c.maxWr ≤ k.pendingMessages + c.ackMsgPackgin ∧
        b.posted + 2 * c.ackMsgPackgin ≤ c.maxWr + c.ackMsgPackgin * b.posting + armed)

/-- What holds at each stage of the client. -/
def Hurried (c : PerfConfig) (p : ℕ) (s : Perf) (t : PerfTrail) (b : BurstTrail) : Prop :=
  match s.client.stage with
  | .round => 0 < s.client.totalBudget → ¬ b.Last p s.client.ackMsgCounter ∧
      (b = ⟨0, 0, 0⟩ ∧ t.acknowledged = 0 ∨
        1 ≤ b.posting ∧ t.sent = c.maxWr + c.ackMsgPackgin * b.taken ∧
          t.acknowledged = c.ackMsgPackgin * b.quota s.client.ackMsgCounter)
  | .posting _ ackMsgCounter i => Opened c s.client t b ackMsgCounter i
  | .sending _ ackMsgCounter i => Opened c s.client t b ackMsgCounter (i + 1)
  | .completing _ => 1 ≤ b.posting ∧ t.acknowledged = c.ackMsgPackgin * b.taken
  | .polling => 0 < s.client.totalBudget →
      1 ≤ b.posting ∧ t.sent = c.maxWr + c.ackMsgPackgin * b.taken
  | .done => True

/-- **What a run with an eager server keeps.** -/
structure EagerInv (c : PerfConfig) (p : ℕ) (s : Perf) (t : PerfTrail) (b : BurstTrail) : Prop where
  most : b.posting ≤ p + 1
  waits : 0 < s.client.totalBudget → ¬ b.Last p (s.client.upcoming c) →
    t.ackPosts s ≤ b.quota (s.client.upcoming c)
  unposted : b.posting = 0 → b.posted = 0
  capped : 1 ≤ b.posting → b.posted + c.ackMsgPackgin ≤ c.maxWr + c.ackMsgPackgin * b.posting
  hurried : Hurried c p s t b

namespace EagerInv

/-- A burst that posts receives has begun. -/
theorem opened_posting {k : PerfClient}
    (hcapped : 1 ≤ b.posting → b.posted + c.ackMsgPackgin ≤ c.maxWr + c.ackMsgPackgin * b.posting)
    (hsettled : k.pendingMessages + t.acknowledged = t.sent)
    (hround : b = ⟨0, 0, 0⟩ ∧ t.acknowledged = 0 ∨
      1 ≤ b.posting ∧ t.sent = c.maxWr + c.ackMsgPackgin * b.taken ∧
        t.acknowledged = c.ackMsgPackgin * b.quota 0) :
    Opened c k t { b with posting := b.posting + 1 } 0 0 := by
  rcases hround with ⟨rfl, hacknowledged⟩ | ⟨hsome, hsent, hacknowledged⟩
  · exact ⟨Nat.le_refl 1, hacknowledged, fun _ => Or.inl ⟨rfl, Nat.le_refl 0⟩⟩
  · rw [BurstTrail.quota_zero] at hacknowledged
    refine ⟨Nat.le_add_left 1 _, ?_, fun _ => Or.inr ⟨Nat.succ_le_succ hsome, ?_, ?_⟩⟩
    · rw [BurstTrail.taken_posting hsome, hacknowledged]
    · rw [Nat.mul_succ] at hacknowledged
      omega
    · have hold := hcapped hsome
      have hnext : c.ackMsgPackgin * (b.posting + 1) =
          c.ackMsgPackgin * b.posting + c.ackMsgPackgin := Nat.mul_succ _ _
      simp only
      omega

/-- A burst that posts none has begun, and it is not the first. -/
theorem opened_barren (hcount : CountInv c s t b) (hstage : s.client.stage = .round)
    (hcounter : s.client.ackMsgCounter ≠ 0) {k : PerfClient}
    (hround : b = ⟨0, 0, 0⟩ ∧ t.acknowledged = 0 ∨
      1 ≤ b.posting ∧ t.sent = c.maxWr + c.ackMsgPackgin * b.taken ∧
        t.acknowledged = c.ackMsgPackgin * b.quota s.client.ackMsgCounter) :
    Opened c k t { b with barren := b.barren + 1 } s.client.ackMsgCounter 0 := by
  rcases hround with ⟨hnone, -⟩ | ⟨hsome, -, hacknowledged⟩
  · -- the first one posts receives
    have hlt := hcount.counter
    have hcounted := hcount.counted
    unfold PerfClient.upcoming PerfConfig.due at hcounted
    rw [hstage, hnone] at hcounted
    simp only [if_neg hcounter] at hcounted
    omega
  · rw [b.quota_of_ne hcounter] at hacknowledged
    refine ⟨hsome, ?_, fun hzero => absurd hzero hcounter⟩
    rw [BurstTrail.taken_barren, hacknowledged]

theorem begins (h : EagerInv c p s t b) (hcredit : CreditInv c s t) (hcount : CountInv c s t b)
    (hstage : s.client.stage = .round) :
    EagerInv c p (s.begins c) t (b.write (s, t) .begins (s.begins c, t)) := by
  have hwaits := h.waits
  have hhurried := h.hurried
  unfold Hurried at hhurried
  unfold PerfClient.upcoming at hwaits
  rw [hstage] at hhurried hwaits
  unfold BurstTrail.write
  rcases hcredit.begins_cases hstage with ⟨hzero, hbegins⟩ | ⟨hpos, sendBudget, -, -, hbegins⟩
  · simp only [hbegins, if_pos hzero]
    exact ⟨h.most, fun hpos => absurd hzero (Nat.ne_of_gt hpos), h.unposted, h.capped,
      fun hpos => absurd hzero (Nat.ne_of_gt hpos)⟩
  · obtain ⟨hnot, hround⟩ := hhurried hpos
    have hposts : t.ackPosts s ≤ b.quota s.client.ackMsgCounter := hwaits hpos hnot
    have hmost := h.most
    have hcapped := h.capped
    obtain ⟨-, hsettled⟩ := hcredit.settled (by rw [hstage]; rfl)
    simp only [hbegins, if_neg (Nat.ne_of_gt hpos)]
    by_cases hcounter : s.client.ackMsgCounter = 0
    · rw [if_pos hcounter]
      refine ⟨?_, fun _ _ => ?_, fun hbad => absurd hbad (Nat.succ_ne_zero _), fun _ => ?_, ?_⟩
      · show b.posting + 1 ≤ p + 1
        unfold BurstTrail.Last at hnot
        omega
      · rw [hcounter] at hposts
        exact hposts.trans (BurstTrail.le_quota_posting _)
      · show b.posted + c.ackMsgPackgin ≤ c.maxWr + c.ackMsgPackgin * (b.posting + 1)
        rw [Nat.mul_succ]
        rcases Nat.eq_zero_or_pos b.posting with hnone | hsome
        · rw [h.unposted hnone]
          omega
        · have hold := hcapped hsome
          omega
      · show Opened c _ t _ s.client.ackMsgCounter 0
        rw [hcounter] at hround ⊢
        exact opened_posting hcapped hsettled hround
    · rw [if_neg hcounter]
      refine ⟨hmost, fun _ _ => ?_, h.unposted, hcapped, ?_⟩
      · rw [b.quota_of_ne hcounter] at hposts
        refine hposts.trans ?_
        rw [← BurstTrail.taken_barren]
        exact Nat.le_add_right _ _
      · show Opened c _ t _ s.client.ackMsgCounter 0
        exact opened_barren hcount hstage hcounter hround

theorem posting (h : EagerInv c p s t b) (hcredit : CreditInv c s t) {sendBudget ackMsgCounter i : ℕ}
    (hstage : s.client.stage = .posting sendBudget ackMsgCounter i) :
    EagerInv c p (s.posts c) t (b.write (s, t) .posts (s.posts c, t)) := by
  have hwaits := h.waits
  have hcapped := h.capped
  have hhurried := h.hurried
  have hok := hcredit.client
  unfold Hurried at hhurried
  unfold PerfClient.upcoming at hwaits
  unfold PerfClient.Ok PerfClient.Bursts at hok
  rw [hstage] at hhurried hwaits hok
  obtain ⟨⟨hroom, -⟩, hlt⟩ := hok
  obtain ⟨hsome, hacknowledged, hposts⟩ := hhurried
  unfold BurstTrail.write Perf.posts
  rw [hstage]
  by_cases hcounter : ackMsgCounter = 0
  · simp only [if_pos hcounter, Nat.add_sub_cancel_left]
    refine ⟨h.most, hwaits, fun hbad => absurd hbad (Nat.ne_of_gt hsome), fun _ => ?_, hsome,
      hacknowledged, fun _ => ?_⟩
    · show b.posted + 1 + c.ackMsgPackgin ≤ c.maxWr + c.ackMsgPackgin * b.posting
      rcases hposts hcounter with ⟨hone, harmed⟩ | ⟨htwo, hwindow, harmed⟩
      · rw [hone]
        omega
      · omega
    · rcases hposts hcounter with ⟨hone, harmed⟩ | ⟨htwo, hwindow, harmed⟩
      · exact Or.inl ⟨hone, Nat.succ_le_succ harmed⟩
      · refine Or.inr ⟨htwo, hwindow, ?_⟩
        show b.posted + 1 + 2 * c.ackMsgPackgin ≤ c.maxWr + c.ackMsgPackgin * b.posting + (i + 1)
        omega
  · simp only [if_neg hcounter, Nat.sub_self, Nat.add_zero]
    exact ⟨h.most, hwaits, h.unposted, hcapped, hsome, hacknowledged, fun hzero => absurd hzero hcounter⟩

theorem sends (h : EagerInv c p s t b) (hcount : CountInv c s t b) {sendBudget ackMsgCounter i : ℕ}
    (hstage : s.client.stage = .sending sendBudget ackMsgCounter i) :
    EagerInv c p s.sends { t with sent := t.sent + 1 } b := by
  have hupcoming : s.client.upcoming c = c.nextCounter ackMsgCounter := by
    unfold PerfClient.upcoming
    rw [hstage]
  have hwaits := h.waits
  have hhurried := h.hurried
  unfold Hurried at hhurried
  rw [hstage] at hhurried
  rw [hupcoming] at hwaits
  obtain ⟨hsome, hacknowledged, hposts⟩ := hhurried
  unfold Perf.sends
  rw [hstage]
  by_cases hlast : i + 1 = sendBudget
  · simp only [if_pos hlast]
    rw [← (hcount.sending _ _ _ hstage).2] at hwaits
    exact ⟨h.most, hwaits, h.unposted, h.capped, hsome, hacknowledged⟩
  · simp only [if_neg hlast]
    exact ⟨h.most, hwaits, h.unposted, h.capped, hsome, hacknowledged, hposts⟩

theorem completes (h : EagerInv c p s t b) (hcredit : CreditInv c s t) {sendBudget : ℕ}
    (hstage : s.client.stage = .completing sendBudget) : EagerInv c p s.completes t b := by
  have hwaits := h.waits
  have hhurried := h.hurried
  unfold Hurried at hhurried
  unfold PerfClient.upcoming at hwaits
  rw [hstage] at hhurried hwaits
  obtain ⟨⟨⟨-, -, hfull⟩, -⟩, -, hpending⟩ := hcredit.of_completing hstage
  rw [hcredit.completes_eq hstage]
  refine ⟨h.most, fun hpos => hwaits ?_, h.unposted, h.capped, fun hpos => ⟨hhurried.1, ?_⟩⟩
  · have hlt := Nat.lt_of_sub_pos hpos
    omega
  · have hwindow := hfull (Nat.lt_of_sub_pos hpos)
    have hacknowledged := hhurried.2
    omega

theorem takes (h : EagerInv c p s t b) (hcredit : CreditInv c s t) (hstage : s.client.stage = .polling)
    {imm : ℕ} {acks : List ℕ} (hwire : s.wire.acks = imm :: acks) (n : ℕ) :
    EagerInv c p s.takes { t with acknowledged := n } b := by
  have hwaits := h.waits
  have hhurried := h.hurried
  unfold Hurried at hhurried
  unfold PerfClient.upcoming at hwaits
  rw [hstage] at hhurried hwaits
  rw [(hcredit.takes_eq hstage hwire).2]
  refine ⟨h.most, ?_, h.unposted, h.capped, ?_⟩
  · unfold PerfClient.upcoming
    simp only [hstage]
    exact hwaits
  · unfold Hurried
    simp only [hstage]
    exact hhurried

/-- The client has taken all that the server has posted. -/
theorem acknowledged_eq (hrun : BurstRun c ((s, t), b)) (hstage : s.client.stage = .polling)
    (hpos : 0 < s.client.totalBudget) (hacks : s.wire.acks = []) (hack : s.wire.ack = none) :
    t.acknowledged = c.ackMsgPackgin * t.ackCount := by
  have hcredit : CreditInv c s t := hrun.credit
  have hle := hcredit.ackSum_le
  have hsum := hcredit.acks
  obtain ⟨hsettled, -⟩ := hcredit.settled (by rw [hstage]; rfl)
  have hcount := (PatientInv.batches hrun.batch (by simp only; omega)).1
  simp only at hcount
  rw [hack] at hcount hsum
  rw [hacks] at hsum
  have hcount' : c.ackMsgPackgin * t.ackCount = t.ackSum := hcount
  have hsum' : t.ackSum = t.acknowledged + 0 + 0 := hsum
  omega

theorem leaves (h : EagerInv c p s t b) (hrun : BurstRun c ((s, t), b))
    (hstage : s.client.stage = .polling) (hacks : s.wire.acks = [])
    (heager : Eager c p ((s, t), b) .leaves) : EagerInv c p s.leaves t b := by
  have hwaits := h.waits
  have hhurried := h.hurried
  have hupcoming : s.client.upcoming c = s.client.ackMsgCounter := by
    unfold PerfClient.upcoming
    rw [hstage]
  unfold Hurried at hhurried
  rw [hstage] at hhurried
  rw [hupcoming] at hwaits
  unfold Eager at heager
  simp only [hupcoming, true_implies] at heager
  unfold Perf.leaves
  by_cases hfin : s.client.totalBudget = 0 ∧ s.client.pendingMessages = 0
  · rw [if_pos hfin]
    exact ⟨h.most, hwaits, h.unposted, h.capped, trivial⟩
  · rw [if_neg hfin]
    refine ⟨h.most, hwaits, h.unposted, h.capped, fun hpos => ?_⟩
    obtain ⟨hsome, hsent⟩ := hhurried hpos
    obtain ⟨hnot, hquota⟩ := (heager hpos).2
    have hposts := hwaits hpos hnot
    have hack : s.wire.ack = none := by
      by_contra hsent
      obtain ⟨imm, himm⟩ := Option.ne_none_iff_exists'.mp hsent
      unfold PerfTrail.ackPosts at hposts
      rw [himm] at hposts
      have hposts' : t.ackCount + 1 ≤ b.quota s.client.ackMsgCounter := hposts
      omega
    refine ⟨hnot, Or.inr ⟨hsome, hsent, ?_⟩⟩
    show t.acknowledged = c.ackMsgPackgin * b.quota s.client.ackMsgCounter
    rw [acknowledged_eq hrun hstage hpos hacks hack, hquota]

/-- A step that the client does not see, and that posts no acknowledgement. -/
theorem unseen (h : EagerInv c p s t b) {s' : Perf} {t' : PerfTrail} (hclient : s'.client = s.client)
    (hsent : t'.sent = t.sent) (hacknowledged : t'.acknowledged = t.acknowledged)
    (hposts : 0 < s.client.totalBudget → ¬ b.Last p (s.client.upcoming c) →
      t'.ackPosts s' ≤ b.quota (s.client.upcoming c)) : EagerInv c p s' t' b := by
  have hhurried := h.hurried
  unfold Hurried Opened at hhurried
  refine ⟨h.most, ?_, h.unposted, h.capped, ?_⟩
  · rw [hclient]
    exact hposts
  · unfold Hurried Opened
    rw [hclient, hacknowledged, hsent]
    exact hhurried

theorem acking (h : EagerInv c p s t b) (heager : Eager c p ((s, t), b) .acks) (n : ℕ) :
    EagerInv c p s.acks { t with ackSum := n } b := by
  refine h.unseen rfl rfl rfl fun hpos hnot => ?_
  exact (heager hpos).1 rfl hnot

theorem ackArrives (h : EagerInv c p s t b) (hsome : s.wire.ack ≠ none) :
    EagerInv c p s.ackArrives { t with ackCount := t.ackCount + 1 } b := by
  obtain ⟨imm, himm⟩ := Option.ne_none_iff_exists'.mp hsome
  refine h.unseen rfl rfl rfl fun hpos hnot => ?_
  have hposts := h.waits hpos hnot
  unfold PerfTrail.ackPosts at hposts
  rw [himm] at hposts
  exact hposts

theorem start (c : PerfConfig) (p : ℕ) : EagerInv c p (Perf.start c) ⟨0, 0, 0, 0⟩ ⟨0, 0, 0⟩ := by
  refine ⟨Nat.zero_le _, fun _ _ => Nat.zero_le _, fun _ => rfl, fun hbad => absurd hbad (Nat.not_succ_le_zero 0),
    fun _ => ⟨?_, Or.inl ⟨rfl, rfl⟩⟩⟩
  rintro ⟨hlast, -⟩
  exact absurd hlast.symm (Nat.succ_ne_zero p)

/-- **Every step** of an eager server's run keeps it. -/
theorem step (h : EagerInv c p s t b) (hrun : BurstRun c ((s, t), b)) (hen : s.Enabled c e)
    (heager : Eager c p ((s, t), b) e) :
    EagerInv c p (s.exec c e) (PerfTrail.write s e (s.exec c e) t)
      (b.write (s, t) e (s.exec c e, PerfTrail.write s e (s.exec c e) t)) := by
  have hcredit : CreditInv c s t := hrun.credit
  cases e with
  | begins => exact h.begins hcredit hrun.count hen
  | posts =>
      obtain ⟨sendBudget, ackMsgCounter, i, hstage⟩ := hen
      exact h.posting hcredit hstage
  | sends =>
      obtain ⟨sendBudget, ackMsgCounter, i, hstage⟩ := hen
      exact h.sends hrun.count hstage
  | completes =>
      obtain ⟨⟨sendBudget, hstage⟩, -⟩ := hen
      exact h.completes hcredit hstage
  | takes =>
      obtain ⟨imm, acks, hwire⟩ := List.exists_cons_of_ne_nil hen.2
      exact h.takes hcredit hen.1 hwire _
  | leaves => exact h.leaves hrun hen.1 hen.2.1 heager
  | acks => exact h.acking heager _
  | ackArrives => exact h.ackArrives hen
  | arrives => exact h.unseen rfl rfl rfl h.waits
  | serverTakes => exact h.unseen rfl rfl rfl h.waits
  | reposts => exact h.unseen rfl rfl rfl h.waits
  | returns => exact h.unseen rfl rfl rfl h.waits

end EagerInv

/-! ## More acknowledgements than receives -/

/-- The acknowledgements that are taken before the last burst. -/
def PerfConfig.lastTaken (c : PerfConfig) (p : ℕ) : ℕ :=
  2 * (c.ackMsgPackgin * (p + 1) - (p + 1)) + p

/-- **More messages than receives**: all there are need more acknowledgements
than `M` and `p` batches, and so do those that can be sent before the client
posts another one, or these are all. -/
structure PerfConfig.Overrun (c : PerfConfig) (p : ℕ) : Prop where
  batch : 2 ≤ c.ackMsgPackgin
  total : c.ackMsgPackgin * (c.maxWr + c.ackMsgPackgin * p) < c.total
  last : c.maxWr + c.ackMsgPackgin * p < c.lastTaken p + 2 ∨
    c.total ≤ c.maxWr + c.ackMsgPackgin * c.lastTaken p

/-- The server has posted more acknowledgements. -/
def Perf.Overrun (c : PerfConfig) (p : ℕ) (s : Perf) (t : PerfTrail) : Prop :=
  c.maxWr + c.ackMsgPackgin * p < t.ackPosts s

namespace EagerInv

theorem last_taken (hcount : CountInv c s t b) (hlast : b.Last p (s.client.upcoming c)) :
    b.taken = c.lastTaken p := by
  have hcounted := hcount.counted
  obtain ⟨hposting, hzero⟩ := hlast
  unfold PerfConfig.due at hcounted
  rw [if_pos hzero, hposting] at hcounted
  unfold BurstTrail.taken PerfConfig.lastTaken
  omega

/-- When all messages are acknowledged there are more. -/
theorem overrun_of_all (hrun : BurstRun c ((s, t), b)) (hover : c.Overrun p)
    (hall : t.ackSum = c.total) : s.Overrun c p t := by
  have hacked : t.ackSum ≤ c.ackMsgPackgin * t.ackPosts s := hrun.count.acked
  have htotal := hover.total
  exact Nat.lt_of_mul_lt_mul_left (a := c.ackMsgPackgin) (by omega)

/-- A server that has nothing to do has acknowledged two batches more than were
taken. -/
theorem ackCount_of_idle (h : EagerInv c p s t b) (hrun : BurstRun c ((s, t), b))
    (hbatch : 2 ≤ c.ackMsgPackgin) (hstage : s.client.stage = .polling)
    (hpos : 0 < s.client.totalBudget) (hacks : s.wire.acks = []) (hsilent : s.Silent)
    (hidle : s.ServerWaits) : t.ackCount = b.taken + 2 := by
  have hcredit : CreditInv c s t := hrun.credit
  have hwindow := PerfConfig.maxWr_cases hbatch
  have hdata := hcredit.data
  have hhurried := h.hurried
  obtain ⟨⟨hlt, -⟩, hcounted⟩ := hcredit.of_serverPolling hidle.1
  have hacknowledged := acknowledged_eq hrun hstage hpos hacks hsilent.2
  have hsum := hcredit.acks
  rw [hacks, hsilent.2] at hsum
  have hsum' : t.ackSum = t.acknowledged + 0 + 0 := hsum
  unfold Hurried at hhurried
  rw [hstage] at hhurried
  have hsent := (hhurried hpos).2
  rw [hsilent.1, hidle.2] at hdata
  have hlower : c.ackMsgPackgin * (b.taken + 1) < c.ackMsgPackgin * t.ackCount := by
    rw [Nat.mul_succ]
    omega
  have hupper : c.ackMsgPackgin * t.ackCount < c.ackMsgPackgin * (b.taken + 3) := by
    rw [Nat.mul_add]
    omega
  have h₁ := Nat.lt_of_mul_lt_mul_left hlower
  have h₂ := Nat.lt_of_mul_lt_mul_left hupper
  omega

/-- An eager client leaves when it has taken its quota. -/
theorem leaves_of_quota (h : EagerInv c p s t b) (hrun : BurstRun c ((s, t), b))
    (hstage : s.client.stage = .polling) (hpos : 0 < s.client.totalBudget)
    (hacks : s.wire.acks = []) (hack : s.wire.ack = none)
    (hnot : ¬ b.Last p (s.client.upcoming c)) (hquota : t.ackCount = b.quota (s.client.upcoming c)) :
    s.Enabled c .leaves ∧ Eager c p ((s, t), b) .leaves := by
  have hcredit : CreditInv c s t := hrun.credit
  have hpack := c.ackMsgPackgin_pos
  have hacknowledged := acknowledged_eq hrun hstage hpos hacks hack
  obtain ⟨-, hsettled⟩ := hcredit.settled (by rw [hstage]; rfl)
  have hhurried := h.hurried
  unfold Hurried at hhurried
  rw [hstage] at hhurried
  have hsent := (hhurried hpos).2
  refine ⟨⟨hstage, hacks, ?_⟩, fun _ => ⟨fun hbad => PerfEvent.noConfusion hbad, fun _ => ⟨hnot, hquota⟩⟩⟩
  have hmore : c.ackMsgPackgin * (b.taken + 1) ≤ c.ackMsgPackgin * t.ackCount := by
    refine Nat.mul_le_mul_left _ ?_
    rw [hquota]
    unfold BurstTrail.quota
    split_ifs <;> omega
  rw [Nat.mul_succ] at hmore
  omega

/-- There are more when the last burst has been acknowledged. -/
theorem overrun_of_last (h : EagerInv c p s t b) (hrun : BurstRun c ((s, t), b))
    (hover : c.Overrun p) (hstage : s.client.stage = .polling) (hpos : 0 < s.client.totalBudget)
    (hlast : b.Last p (s.client.upcoming c)) (hposts : t.ackPosts s = b.taken + 2) :
    s.Overrun c p t := by
  have hcredit : CreditInv c s t := hrun.credit
  have htaken := last_taken hrun.count hlast
  obtain ⟨hsettled, -⟩ := hcredit.settled (by rw [hstage]; rfl)
  have hhurried := h.hurried
  unfold Hurried at hhurried
  rw [hstage] at hhurried
  have hsent := (hhurried hpos).2
  unfold Perf.Overrun
  rw [hposts]
  rw [htaken] at hsent ⊢
  rcases hover.last with hless | hall
  · exact hless
  · -- there would be nothing left to send
    omega

/-- A step of an eager server's run that lowers the measure. -/
def Hurries (c : PerfConfig) (p : ℕ) (s : Perf) (t : PerfTrail) (b : BurstTrail) : Prop :=
  ∃ e, s.Enabled c e ∧ Eager c p ((s, t), b) e ∧ (s.exec c e).measure < s.measure

/-- Most steps are those of any run. -/
theorem hurries_of_enabled (hcredit : CreditInv c s t) (hen : s.Enabled c e) (hacks : e ≠ .acks)
    (hleaves : e ≠ .leaves) : Hurries c p s t b :=
  ⟨e, hen, fun _ => ⟨fun hbad => absurd hbad hacks, fun hbad => absurd hbad hleaves⟩,
    hcredit.measure_lt hen fun hbad => absurd hbad hleaves⟩

theorem hurries_of_quota (h : EagerInv c p s t b) (hrun : BurstRun c ((s, t), b))
    (hstage : s.client.stage = .polling) (hpos : 0 < s.client.totalBudget)
    (hacks : s.wire.acks = []) (hack : s.wire.ack = none)
    (hnot : ¬ b.Last p (s.client.upcoming c)) (hquota : t.ackCount = b.quota (s.client.upcoming c)) :
    Hurries c p s t b := by
  have hcredit : CreditInv c s t := hrun.credit
  obtain ⟨hen, heager⟩ := h.leaves_of_quota hrun hstage hpos hacks hack hnot hquota
  exact ⟨.leaves, hen, heager, hcredit.measure_lt hen fun _ => Or.inl hpos⟩

/-- An acknowledgement that is due is posted, or waits for the client to begin
its next burst. -/
theorem hurries_acking (h : EagerInv c p s t b) (hrun : BurstRun c ((s, t), b))
    (hstage : s.client.stage = .polling) (hacks : s.wire.acks = []) (hack : s.wire.ack = none)
    (hserver : s.server.stage = .acking) : Hurries c p s t b := by
  have hcredit : CreditInv c s t := hrun.credit
  by_cases hfull : 0 < s.client.totalBudget ∧ ¬ b.Last p (s.client.upcoming c) ∧
      t.ackCount = b.quota (s.client.upcoming c)
  · exact h.hurries_of_quota hrun hstage hfull.1 hacks hack hfull.2.1 hfull.2.2
  · refine ⟨.acks, hserver, fun hpos => ⟨fun _ hlast => ?_, fun hbad => PerfEvent.noConfusion hbad⟩,
      hcredit.measure_lt hserver fun hbad => PerfEvent.noConfusion hbad⟩
    refine lt_of_le_of_ne ?_ fun hquota => hfull ⟨hpos, hlast, hquota⟩
    exact (Nat.le_add_right _ _).trans (h.waits hpos hlast)

/-- Where the server has nothing to do the client has its quota, or there are
more acknowledgements than receives. -/
theorem hurries_idle (h : EagerInv c p s t b) (hrun : BurstRun c ((s, t), b)) (hover : c.Overrun p)
    (hnot : ¬ s.Overrun c p t) (hstage : s.client.stage = .polling) (hacks : s.wire.acks = [])
    (hsilent : s.Silent) (hidle : s.ServerWaits) : Hurries c p s t b := by
  have hcredit : CreditInv c s t := hrun.credit
  have hdata := hcredit.data
  have hmessages := hsilent.1
  have harrived := hidle.2
  obtain ⟨hsettled, -⟩ := hcredit.settled (by rw [hstage]; rfl)
  obtain ⟨⟨-, hmore⟩, -⟩ := hcredit.of_serverPolling hidle.1
  have hpos : 0 < s.client.totalBudget := by omega
  have hcount := h.ackCount_of_idle hrun hover.batch hstage hpos hacks hsilent hidle
  have hposts : t.ackPosts s = b.taken + 2 := by
    unfold PerfTrail.ackPosts
    rw [hsilent.2, hcount]
    rfl
  by_cases hlast : b.Last p (s.client.upcoming c)
  · exact absurd (h.overrun_of_last hrun hover hstage hpos hlast hposts) hnot
  · -- the quota is not less than two, as it has not been exceeded
    have hle := h.waits hpos hlast
    refine h.hurries_of_quota hrun hstage hpos hacks hsilent.2 hlast ?_
    unfold BurstTrail.quota at hle ⊢
    split_ifs at hle ⊢ <;> omega

/-- **A step that lowers the measure** while there are no more acknowledgements
than receives. -/
theorem progress (h : EagerInv c p s t b) (hrun : BurstRun c ((s, t), b)) (hover : c.Overrun p)
    (hnot : ¬ s.Overrun c p t) : Hurries c p s t b := by
  have hcredit : CreditInv c s t := hrun.credit
  have hstep : ∀ e, s.Enabled c e → e ≠ .acks → e ≠ .leaves → Hurries c p s t b :=
    fun e => hurries_of_enabled hcredit
  cases hclient : s.client.stage with
  | round => exact hstep .begins hclient (by simp) (by simp)
  | posting sendBudget ackMsgCounter i => exact hstep .posts ⟨_, _, _, hclient⟩ (by simp) (by simp)
  | sending sendBudget ackMsgCounter i => exact hstep .sends ⟨_, _, _, hclient⟩ (by simp) (by simp)
  | completing sendBudget =>
      rcases Nat.eq_zero_or_pos s.wire.messages with hzero | hpos
      · exact hstep .completes ⟨⟨_, hclient⟩, hzero⟩ (by simp) (by simp)
      · exact hstep .arrives hpos (by simp) (by simp)
  | done =>
      -- everything is acknowledged
      have hacks := hcredit.acks
      have hcounted := hcredit.counted
      have hall := (hcredit.of_done hclient).2.2
      exact absurd (overrun_of_all hrun hover (by omega)) hnot
  | polling =>
      -- whatever is on its way comes first
      by_cases hacks : s.wire.acks ≠ []
      · exact hstep .takes ⟨hclient, hacks⟩ (by simp) (by simp)
      by_cases hack : s.wire.ack ≠ none
      · exact hstep .ackArrives hack (by simp) (by simp)
      rcases Nat.eq_zero_or_pos s.wire.messages with hmessages | hpos
      · have hacks' : s.wire.acks = [] := not_not.mp hacks
        have hack' : s.wire.ack = none := not_not.mp hack
        cases hserver : s.server.stage with
        | reposting => exact hstep .reposts hserver (by simp) (by simp)
        | completing => exact hstep .returns ⟨hserver, hack'⟩ (by simp) (by simp)
        | done => exact absurd (overrun_of_all hrun hover (hcredit.of_serverDone hserver)) hnot
        | acking => exact h.hurries_acking hrun hclient hacks' hack' hserver
        | polling =>
            rcases Nat.eq_zero_or_pos s.wire.arrived with harrived | hpos
            · exact h.hurries_idle hrun hover hnot hclient hacks' ⟨hmessages, hack'⟩ ⟨hserver, harrived⟩
            · exact hstep .serverTakes ⟨hserver, hpos⟩ (by simp) (by simp)
      · exact hstep .arrives hpos (by simp) (by simp)

end EagerInv

end RdmaManager
