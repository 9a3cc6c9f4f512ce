import Mathlib.Tactic.Ring
import RdmaManager.Perf.Bursts
/-!
# Where every acknowledgement finds a receive

What was sent exceeds the receives that were posted by two batches for each
burst that posted none, at most: a burst is what was acknowledged before it,
which is one batch or two (`BoundInv`). A burst that posts receives posts at
least a batch of them, the first `M`. So an acknowledgement without a receive
needs more than `M / 2` bursts without one, and more messages than they can
have (`posts_le`).
-/

namespace RdmaManager

variable {c : PerfConfig} {s : Perf} {t : PerfTrail} {b : BurstTrail} {e : PerfEvent}

/-- Every burst that posts receives has posted a batch of them, the first a
full window. -/
def Refilled (c : PerfConfig) (b : BurstTrail) : Prop :=
  1 ≤ b.posting ∧ c.maxWr + c.ackMsgPackgin * b.posting ≤ b.posted + c.ackMsgPackgin

/-- What holds in a burst that began with `ackMsgCounter`, where `armed` of its
messages have the receive that they come with. -/
def Bursting (c : PerfConfig) (k : PerfClient) (t : PerfTrail) (b : BurstTrail)
    (ackMsgCounter armed : ℕ) : Prop :=
  if ackMsgCounter = 0 then
    b.posting = 1 ∧ k.pendingMessages = 0 ∧ armed ≤ b.posted ∨
      2 ≤ b.posting ∧ k.pendingMessages + c.ackMsgPackgin ≤ c.maxWr ∧
        c.maxWr + c.ackMsgPackgin * b.posting + armed ≤ b.posted + 2 * c.ackMsgPackgin
  else Refilled c b ∧ c.maxWr + t.acknowledged ≤ b.posted + 2 * c.ackMsgPackgin * b.barren

/-- What holds at each stage of the client. -/
def Bounded (c : PerfConfig) (s : Perf) (t : PerfTrail) (b : BurstTrail) : Prop :=
  match s.client.stage with
  | .round => 0 < s.client.totalBudget →
      b.posting = 0 ∧ s.client.pendingMessages = 0 ∨
        Refilled c b ∧ ∃ m, s.client.pendingMessages + c.ackMsgPackgin * (m + 1) = c.maxWr
  | .posting _ ackMsgCounter i => Bursting c s.client t b ackMsgCounter i
  | .sending _ ackMsgCounter i => Bursting c s.client t b ackMsgCounter (i + 1)
  | .completing sendBudget => ∃ ackMsgCounter, Bursting c s.client t b ackMsgCounter sendBudget
  | .polling => 0 < s.client.totalBudget →
      Refilled c b ∧ ∃ m, s.client.pendingMessages + c.ackMsgPackgin * m = c.maxWr
  | .done => True

/-- **What was sent and what was posted.** The last burst that posts receives
need not have ended. -/
structure BoundInv (c : PerfConfig) (s : Perf) (t : PerfTrail) (b : BurstTrail) : Prop where
  sent : t.sent + s.client.stage.armed ≤ b.posted + 2 * c.ackMsgPackgin * b.barren
  refilled : b.posting = 0 ∨ Refilled c b ∨
    b.barren + b.posting + c.ackMsgPackgin = c.ackMsgPackgin * b.posting + 1 ∧
      (2 ≤ b.posting → c.maxWr + c.ackMsgPackgin * b.posting ≤ b.posted + 2 * c.ackMsgPackgin)
  bounded : Bounded c s t b

theorem PerfConfig.maxWr_cases (h : 2 ≤ c.ackMsgPackgin) :
    c.maxWr = 2 * c.ackMsgPackgin ∨ c.maxWr = 2 * c.ackMsgPackgin + 1 := by
  unfold PerfConfig.ackMsgPackgin at *
  split_ifs at * <;> omega

/-- A receive more takes nothing from what is refilled. -/
theorem Refilled.mono (h : Refilled c b) (n : ℕ) : Refilled c { b with posted := b.posted + n } :=
  ⟨h.1, h.2.trans (by simp only; omega)⟩

namespace BoundInv

theorem begins (h : BoundInv c s t b) (hcredit : CreditInv c s t) (hcount : CountInv c s t b)
    (hbatch : 2 ≤ c.ackMsgPackgin) (hstage : s.client.stage = .round) :
    BoundInv c (s.begins c) t (b.write (s, t) .begins (s.begins c, t)) := by
  have hsent := h.sent
  have hbounded := h.bounded
  have hcounted := hcount.counted
  unfold Bounded at hbounded
  unfold PerfClient.upcoming at hcounted
  rw [hstage] at hsent hbounded hcounted
  unfold BurstTrail.write
  rcases hcredit.begins_cases hstage with ⟨hzero, hbegins⟩ | ⟨hpos, sendBudget, -, -, hbegins⟩
  · simp only [hbegins, if_pos hzero]
    exact ⟨hsent, h.refilled, fun hpos => absurd hzero (Nat.ne_of_gt hpos)⟩
  · have hwindow := PerfConfig.maxWr_cases hbatch
    have hround := hbounded hpos
    have hsent' : t.sent ≤ b.posted + 2 * c.ackMsgPackgin * b.barren := hsent
    simp only [hbegins, if_neg (Nat.ne_of_gt hpos)]
    by_cases hcounter : s.client.ackMsgCounter = 0
    · -- a burst with receives
      have hcounted' : b.barren + b.posting + c.ackMsgPackgin =
          c.ackMsgPackgin * b.posting + c.ackMsgPackgin := by
        unfold PerfConfig.due at hcounted
        rw [hcounter] at hcounted
        exact hcounted
      rw [if_pos hcounter]
      have hnext : c.ackMsgPackgin * (b.posting + 1) =
          c.ackMsgPackgin * b.posting + c.ackMsgPackgin := Nat.mul_succ _ _
      refine ⟨hsent', Or.inr (Or.inr ⟨?_, fun htwo => ?_⟩), ?_⟩
      · show b.barren + (b.posting + 1) + c.ackMsgPackgin = c.ackMsgPackgin * (b.posting + 1) + 1
        omega
      · show c.maxWr + c.ackMsgPackgin * (b.posting + 1) ≤ b.posted + 2 * c.ackMsgPackgin
        have htwo' : 2 ≤ b.posting + 1 := htwo
        rcases hround with ⟨hnone, -⟩ | ⟨⟨-, hrefilled⟩, -⟩ <;> omega
      · show Bursting c _ t _ s.client.ackMsgCounter 0
        unfold Bursting
        rw [if_pos hcounter]
        rcases hround with ⟨hnone, hpending⟩ | ⟨⟨hsome, hrefilled⟩, m, hpending⟩
        · refine Or.inl ⟨?_, hpending, Nat.zero_le _⟩
          show b.posting + 1 = 1
          omega
        · have hm : c.ackMsgPackgin * (m + 1) = c.ackMsgPackgin * m + c.ackMsgPackgin :=
            Nat.mul_succ _ _
          refine Or.inr ⟨?_, ?_, ?_⟩
          · show 2 ≤ b.posting + 1
            omega
          · show s.client.pendingMessages + c.ackMsgPackgin ≤ c.maxWr
            omega
          · show c.maxWr + c.ackMsgPackgin * (b.posting + 1) + 0 ≤ b.posted + 2 * c.ackMsgPackgin
            omega
    · -- one without: it is two batches at most
      have hlt := hcount.counter
      have hcounted' : b.barren + b.posting + c.ackMsgPackgin =
          c.ackMsgPackgin * b.posting + s.client.ackMsgCounter := by
        unfold PerfConfig.due at hcounted
        rw [if_neg hcounter] at hcounted
        exact hcounted
      rw [if_neg hcounter]
      have hnext : 2 * c.ackMsgPackgin * (b.barren + 1) =
          2 * c.ackMsgPackgin * b.barren + 2 * c.ackMsgPackgin := Nat.mul_succ _ _
      rcases hround with ⟨hnone, -⟩ | ⟨hrefilled, m, hpending⟩
      · rw [hnone] at hcounted'
        omega
      · have hsettled := hcredit.settled (by rw [hstage]; rfl)
        have htwo : m + 1 ≤ 2 := by
          by_contra hmore
          have hthree := Nat.mul_le_mul_left c.ackMsgPackgin (show 3 ≤ m + 1 by omega)
          omega
        have hbatches := Nat.mul_le_mul_left c.ackMsgPackgin htwo
        refine ⟨?_, Or.inr (Or.inl hrefilled), ?_⟩
        · show t.sent + 0 ≤ b.posted + 2 * c.ackMsgPackgin * (b.barren + 1)
          omega
        · show Bursting c _ t _ s.client.ackMsgCounter 0
          unfold Bursting
          rw [if_neg hcounter]
          refine ⟨hrefilled, ?_⟩
          show c.maxWr + t.acknowledged ≤ b.posted + 2 * c.ackMsgPackgin * (b.barren + 1)
          omega

theorem posting (h : BoundInv c s t b) (hcredit : CreditInv c s t) {sendBudget ackMsgCounter i : ℕ}
    (hstage : s.client.stage = .posting sendBudget ackMsgCounter i) :
    BoundInv c (s.posts c) t (b.write (s, t) .posts (s.posts c, t)) := by
  have hsent := h.sent
  have hbounded := h.bounded
  have hok := hcredit.client
  have hpending := hcredit.pending
  unfold Bounded Bursting at hbounded
  unfold PerfClient.Ok PerfClient.Bursts at hok
  rw [hstage] at hsent hbounded hok hpending
  have hsent' : t.sent + 0 ≤ b.posted + 2 * c.ackMsgPackgin * b.barren := hsent
  have hpending' : s.client.pendingMessages + i + t.acknowledged = t.sent := hpending
  obtain ⟨⟨hroom, -⟩, hlt⟩ := hok
  unfold BurstTrail.write Perf.posts
  rw [hstage]
  simp only at hbounded ⊢
  by_cases hcounter : ackMsgCounter = 0
  · rw [if_pos hcounter] at hbounded
    simp only [if_pos hcounter, Nat.add_sub_cancel_left]
    refine ⟨?_, h.refilled.imp_right (Or.imp (fun hfull => hfull.mono 1) fun hlast => ?_), ?_⟩
    · show t.sent + 1 ≤ b.posted + 1 + 2 * c.ackMsgPackgin * b.barren
      omega
    · refine ⟨hlast.1, fun htwo => (hlast.2 htwo).trans ?_⟩
      simp only
      omega
    · show Bursting c _ t _ ackMsgCounter (i + 1)
      unfold Bursting
      rw [if_pos hcounter]
      rcases hbounded with ⟨hone, hnone, harmed⟩ | ⟨htwo, hwindow, harmed⟩
      · exact Or.inl ⟨hone, hnone, Nat.succ_le_succ harmed⟩
      · refine Or.inr ⟨htwo, hwindow, ?_⟩
        show c.maxWr + c.ackMsgPackgin * b.posting + (i + 1) ≤ b.posted + 1 + 2 * c.ackMsgPackgin
        omega
  · rw [if_neg hcounter] at hbounded
    simp only [if_neg hcounter, Nat.sub_self, Nat.add_zero]
    refine ⟨?_, h.refilled, ?_⟩
    · show t.sent + 1 ≤ b.posted + 2 * c.ackMsgPackgin * b.barren
      have hfree := hbounded.2
      omega
    · show Bursting c _ t _ ackMsgCounter (i + 1)
      unfold Bursting
      rw [if_neg hcounter]
      exact hbounded

theorem sends (h : BoundInv c s t b) {sendBudget ackMsgCounter i : ℕ}
    (hstage : s.client.stage = .sending sendBudget ackMsgCounter i) :
    BoundInv c s.sends { t with sent := t.sent + 1 } b := by
  have hsent := h.sent
  have hbounded := h.bounded
  unfold Bounded at hbounded
  rw [hstage] at hsent hbounded
  have hsent' : t.sent + 1 ≤ b.posted + 2 * c.ackMsgPackgin * b.barren := hsent
  unfold Perf.sends
  rw [hstage]
  by_cases hlast : i + 1 = sendBudget
  · simp only [if_pos hlast]
    refine ⟨hsent', h.refilled, ⟨ackMsgCounter, ?_⟩⟩
    rw [← hlast]
    exact hbounded
  · simp only [if_neg hlast]
    exact ⟨hsent', h.refilled, hbounded⟩

theorem completes (h : BoundInv c s t b) (hcredit : CreditInv c s t) {sendBudget : ℕ}
    (hstage : s.client.stage = .completing sendBudget) : BoundInv c s.completes t b := by
  have hsent := h.sent
  have hbounded := h.bounded
  unfold Bounded at hbounded
  rw [hstage] at hsent hbounded
  obtain ⟨⟨⟨-, -, hfull⟩, -⟩, -⟩ := hcredit.of_completing hstage
  rw [hcredit.completes_eq hstage]
  refine ⟨hsent, h.refilled, fun hpos => ?_⟩
  have hwindow := hfull (Nat.lt_of_sub_pos hpos)
  obtain ⟨ackMsgCounter, hburst⟩ := hbounded
  unfold Bursting at hburst
  refine ⟨?_, 0, ?_⟩
  · split_ifs at hburst with hcounter
    · rcases hburst with ⟨hone, hnone, harmed⟩ | ⟨htwo, hroom, harmed⟩
      · refine ⟨Nat.le_of_eq hone.symm, ?_⟩
        rw [hone]
        omega
      · exact ⟨by omega, by omega⟩
    · exact hburst.1
  · show s.client.pendingMessages + sendBudget + c.ackMsgPackgin * 0 = c.maxWr
    omega

theorem takes (h : BoundInv c s t b) (hcredit : CreditInv c s t) (hbatches : BatchInv c s t)
    (hstage : s.client.stage = .polling) {imm : ℕ} {acks : List ℕ} (hwire : s.wire.acks = imm :: acks)
    (n : ℕ) : BoundInv c s.takes { t with acknowledged := n } b := by
  have hsent := h.sent
  have hbounded := h.bounded
  have hle := hcredit.ackSum_le
  obtain ⟨hsettled, -⟩ := hcredit.settled (by rw [hstage]; rfl)
  obtain ⟨himm, htakes⟩ := hcredit.takes_eq hstage hwire
  unfold Bounded at hbounded
  rw [hstage] at hbounded
  rw [htakes]
  refine ⟨hsent, h.refilled, ?_⟩
  unfold Bounded
  simp only [hstage]
  intro hpos
  obtain ⟨hrefilled, m, hpending⟩ := hbounded hpos
  have hbatch : imm = c.ackMsgPackgin :=
    (PatientInv.batches hbatches (by omega)).2 imm (by rw [hwire]; exact List.mem_cons_self)
  refine ⟨hrefilled, m + 1, ?_⟩
  show s.client.pendingMessages - imm + c.ackMsgPackgin * (m + 1) = c.maxWr
  rw [Nat.mul_succ]
  omega

theorem leaves (h : BoundInv c s t b) (hstage : s.client.stage = .polling)
    (hnot : s.client.pendingMessages ≠ c.maxWr) : BoundInv c s.leaves t b := by
  have hsent := h.sent
  have hbounded := h.bounded
  unfold Bounded at hbounded
  rw [hstage] at hsent hbounded
  unfold Perf.leaves
  by_cases hfin : s.client.totalBudget = 0 ∧ s.client.pendingMessages = 0
  · rw [if_pos hfin]
    exact ⟨hsent, h.refilled, trivial⟩
  · rw [if_neg hfin]
    refine ⟨hsent, h.refilled, fun hpos => ?_⟩
    obtain ⟨hrefilled, m, hpending⟩ := hbounded hpos
    cases m with
    | zero => exact absurd hpending hnot
    | succ m => exact Or.inr ⟨hrefilled, m, hpending⟩

/-- A step that the client does not see. -/
theorem unseen (h : BoundInv c s t b) {s' : Perf} {t' : PerfTrail} (hclient : s'.client = s.client)
    (hsent : t'.sent = t.sent) (hacknowledged : t'.acknowledged = t.acknowledged) :
    BoundInv c s' t' b := by
  have hbounded := h.bounded
  unfold Bounded Bursting at hbounded
  refine ⟨?_, h.refilled, ?_⟩
  · rw [hsent, hclient]
    exact h.sent
  · unfold Bounded Bursting
    rw [hclient, hacknowledged]
    exact hbounded

theorem start (c : PerfConfig) : BoundInv c (Perf.start c) ⟨0, 0, 0, 0⟩ ⟨0, 0, 0⟩ :=
  ⟨Nat.zero_le _, Or.inl rfl, fun _ => Or.inl ⟨rfl, rfl⟩⟩

/-- **Every step** keeps it. -/
theorem step (h : BoundInv c s t b) (hrun : BurstRun c ((s, t), b)) (hbatch : 2 ≤ c.ackMsgPackgin)
    (hen : s.Enabled c e) :
    BoundInv c (s.exec c e) (PerfTrail.write s e (s.exec c e) t)
      (b.write (s, t) e (s.exec c e, PerfTrail.write s e (s.exec c e) t)) := by
  have hcredit : CreditInv c s t := hrun.credit
  cases e with
  | begins => exact h.begins hcredit hrun.count hbatch hen
  | posts =>
      obtain ⟨sendBudget, ackMsgCounter, i, hstage⟩ := hen
      exact h.posting hcredit hstage
  | sends =>
      obtain ⟨sendBudget, ackMsgCounter, i, hstage⟩ := hen
      exact h.sends hstage
  | completes =>
      obtain ⟨⟨sendBudget, hstage⟩, -⟩ := hen
      exact h.completes hcredit hstage
  | takes =>
      obtain ⟨imm, acks, hwire⟩ := List.exists_cons_of_ne_nil hen.2
      exact h.takes hcredit hrun.batch hen.1 hwire _
  | leaves => exact h.leaves hen.1 hen.2.2
  | arrives => exact h.unseen rfl rfl rfl
  | serverTakes => exact h.unseen rfl rfl rfl
  | reposts => exact h.unseen rfl rfl rfl
  | acks => exact h.unseen rfl rfl rfl
  | ackArrives => exact h.unseen rfl rfl rfl
  | returns => exact h.unseen rfl rfl rfl

end BoundInv

/-! ## Acknowledgements and receives -/

/-- No more is sent than is to be. -/
theorem CreditInv.sent_le (h : CreditInv c s t) : t.sent ≤ c.total := by
  have hdata := h.data
  have hreceives := h.receives
  have hmessages := h.messages_le
  omega

end RdmaManager
