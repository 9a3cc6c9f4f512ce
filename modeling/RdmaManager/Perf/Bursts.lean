import RdmaManager.Perf.Leftover
/-!
# The bursts of a connection

A burst posts a receive with each of its messages where the counter of the
connection is zero when it begins, and none otherwise. The counter goes on by
one a burst, so one burst of `ackMsgPackgin` posts receives. A second trail
counts the bursts of either kind and the receives; the counter is what the two
counts leave (`CountInv`).
-/

namespace RdmaManager

variable {c : PerfConfig} {s : Perf} {t : PerfTrail} {b : BurstTrail} {e : PerfEvent}

/-- **What has begun**: bursts that post receives and bursts that post none;
and how many receives were posted. -/
structure BurstTrail where
  posting : ℕ
  barren : ℕ
  posted : ℕ
  deriving DecidableEq, Repr

/-- What a step adds to the trail. -/
def BurstTrail.write (x : Perf × PerfTrail) (e : PerfEvent) (y : Perf × PerfTrail) (b : BurstTrail) :
    BurstTrail :=
  match e with
  | .begins =>
      if x.1.client.totalBudget = 0 then b
      else if x.1.client.ackMsgCounter = 0 then { b with posting := b.posting + 1 }
      else { b with barren := b.barren + 1 }
  | .posts => { b with posted := b.posted + (y.1.wire.ackReceives - x.1.wire.ackReceives) }
  | _ => b

/-- The counter with which the next burst begins. -/
def PerfClient.upcoming (c : PerfConfig) (k : PerfClient) : ℕ :=
  match k.stage with
  | .posting _ ackMsgCounter _ => c.nextCounter ackMsgCounter
  | .sending _ ackMsgCounter _ => c.nextCounter ackMsgCounter
  | _ => k.ackMsgCounter

/-- The acknowledgements that the server has posted. -/
def PerfTrail.ackPosts (t : PerfTrail) (s : Perf) : ℕ := t.ackCount + s.wire.ack.toList.length

/-- **The counter counts the bursts**, and a receive that was posted is there
or was used. -/
structure CountInv (c : PerfConfig) (s : Perf) (t : PerfTrail) (b : BurstTrail) : Prop where
  counter : s.client.ackMsgCounter < c.ackMsgPackgin
  begun : ∀ sendBudget ackMsgCounter i, s.client.stage = .posting sendBudget ackMsgCounter i →
    ackMsgCounter < c.ackMsgPackgin
  sending : ∀ sendBudget ackMsgCounter i, s.client.stage = .sending sendBudget ackMsgCounter i →
    ackMsgCounter < c.ackMsgPackgin ∧ s.client.ackMsgCounter = c.nextCounter ackMsgCounter
  counted : b.barren + b.posting + c.ackMsgPackgin =
    c.ackMsgPackgin * b.posting + c.due (s.client.upcoming c)
  covers : b.posted ≤ s.wire.ackReceives + t.ackCount
  acked : t.ackSum ≤ c.ackMsgPackgin * t.ackPosts s

namespace CountInv

theorem begins (h : CountInv c s t b) (hcredit : CreditInv c s t) (hstage : s.client.stage = .round) :
    CountInv c (s.begins c) t (b.write (s, t) .begins (s.begins c, t)) := by
  have hcounter := h.counter
  have hcounted : b.barren + b.posting + c.ackMsgPackgin =
      c.ackMsgPackgin * b.posting + c.due s.client.ackMsgCounter := by
    have hcounted := h.counted
    unfold PerfClient.upcoming at hcounted
    rw [hstage] at hcounted
    exact hcounted
  unfold BurstTrail.write
  rcases hcredit.begins_cases hstage with ⟨hzero, hbegins⟩ | ⟨hpos, sendBudget, -, -, hbegins⟩
  · simp only [hbegins, if_pos hzero]
    exact ⟨hcounter, fun _ _ _ hbad => ClientStage.noConfusion hbad,
      fun _ _ _ hbad => ClientStage.noConfusion hbad, hcounted, h.covers, h.acked⟩
  · have hdue := PerfConfig.due_nextCounter hcounter
    simp only [hbegins, if_neg (Nat.ne_of_gt hpos)]
    refine ⟨hcounter, ?_, fun _ _ _ hbad => ClientStage.noConfusion hbad, ?_, ?_, ?_⟩
    · rintro _ ackMsgCounter _ hposting
      obtain ⟨-, rfl, -⟩ := ClientStage.posting.inj hposting
      exact hcounter
    · show _ = _ + c.due (c.nextCounter s.client.ackMsgCounter)
      rw [hdue]
      unfold PerfConfig.due at hcounted
      split_ifs at hcounted ⊢ with hzero
      · rw [Nat.mul_succ, hzero]
        simp only
        omega
      · simp only
        omega
    · split_ifs <;> exact h.covers
    · exact h.acked

theorem posts (h : CountInv c s t b) {sendBudget ackMsgCounter i : ℕ}
    (hstage : s.client.stage = .posting sendBudget ackMsgCounter i) :
    CountInv c (s.posts c) t (b.write (s, t) .posts (s.posts c, t)) := by
  have hcounter := h.begun _ _ _ hstage
  have hcounted := h.counted
  have hcovers := h.covers
  unfold PerfClient.upcoming at hcounted
  rw [hstage] at hcounted
  unfold BurstTrail.write Perf.posts
  rw [hstage]
  refine ⟨PerfConfig.nextCounter_lt ackMsgCounter, fun _ _ _ hbad => ClientStage.noConfusion hbad, ?_,
    hcounted, ?_, h.acked⟩
  · rintro _ _ _ hsending
    obtain ⟨-, rfl, -⟩ := ClientStage.sending.inj hsending
    exact ⟨hcounter, rfl⟩
  · simp only
    split_ifs <;> omega

theorem sends (h : CountInv c s t b) {sendBudget ackMsgCounter i : ℕ}
    (hstage : s.client.stage = .sending sendBudget ackMsgCounter i) :
    CountInv c s.sends { t with sent := t.sent + 1 } b := by
  obtain ⟨hcounter, hnext⟩ := h.sending _ _ _ hstage
  have hcounted := h.counted
  unfold PerfClient.upcoming at hcounted
  rw [hstage] at hcounted
  unfold Perf.sends
  rw [hstage]
  by_cases hlast : i + 1 = sendBudget
  · simp only [if_pos hlast]
    refine ⟨h.counter, fun _ _ _ hbad => ClientStage.noConfusion hbad,
      fun _ _ _ hbad => ClientStage.noConfusion hbad, ?_, h.covers, h.acked⟩
    show _ = _ + c.due s.client.ackMsgCounter
    rw [hnext]
    exact hcounted
  · simp only [if_neg hlast]
    refine ⟨h.counter, ?_, fun _ _ _ hbad => ClientStage.noConfusion hbad, hcounted, h.covers, h.acked⟩
    rintro _ _ _ hposting
    obtain ⟨-, rfl, -⟩ := ClientStage.posting.inj hposting
    exact hcounter

/-- A step outside a burst. -/
theorem outside (h : CountInv c s t b) {s' : Perf} {t' : PerfTrail}
    (hcounter : s'.client.ackMsgCounter = s.client.ackMsgCounter)
    (hupcoming : s.client.upcoming c = s.client.ackMsgCounter)
    (hupcoming' : s'.client.upcoming c = s'.client.ackMsgCounter)
    (hposting : ∀ sendBudget ackMsgCounter i, s'.client.stage ≠ .posting sendBudget ackMsgCounter i)
    (hsending : ∀ sendBudget ackMsgCounter i, s'.client.stage ≠ .sending sendBudget ackMsgCounter i)
    (hwire : s'.wire.ack = s.wire.ack) (hreceives : s'.wire.ackReceives = s.wire.ackReceives)
    (hcount : t'.ackCount = t.ackCount) (hsum : t'.ackSum = t.ackSum) : CountInv c s' t' b := by
  have hcounted := h.counted
  rw [hupcoming] at hcounted
  refine ⟨hcounter ▸ h.counter, fun _ _ _ hbad => absurd hbad (hposting _ _ _),
    fun _ _ _ hbad => absurd hbad (hsending _ _ _), ?_, ?_, ?_⟩
  · rw [hupcoming', hcounter]
    exact hcounted
  · rw [hreceives, hcount]
    exact h.covers
  · unfold PerfTrail.ackPosts
    rw [hsum, hcount, hwire]
    exact h.acked

theorem completes (h : CountInv c s t b) {sendBudget : ℕ}
    (hstage : s.client.stage = .completing sendBudget) : CountInv c s.completes t b := by
  have hupcoming : s.client.upcoming c = s.client.ackMsgCounter := by
    unfold PerfClient.upcoming
    rw [hstage]
  unfold Perf.completes
  rw [hstage]
  exact h.outside rfl hupcoming rfl (fun _ _ _ => ClientStage.noConfusion)
    (fun _ _ _ => ClientStage.noConfusion) rfl rfl rfl rfl

theorem takes (h : CountInv c s t b) (hcredit : CreditInv c s t) (hstage : s.client.stage = .polling)
    {imm : ℕ} {acks : List ℕ} (hwire : s.wire.acks = imm :: acks) (n : ℕ) :
    CountInv c s.takes { t with acknowledged := n } b := by
  have hupcoming : s.client.upcoming c = s.client.ackMsgCounter := by
    unfold PerfClient.upcoming
    rw [hstage]
  rw [(hcredit.takes_eq hstage hwire).2]
  refine h.outside rfl hupcoming ?_ ?_ ?_ rfl rfl rfl rfl
  · unfold PerfClient.upcoming
    simp only [hstage]
  · intro _ _ _ hbad
    exact ClientStage.noConfusion (hstage.symm.trans hbad)
  · intro _ _ _ hbad
    exact ClientStage.noConfusion (hstage.symm.trans hbad)

theorem leaves (h : CountInv c s t b) (hstage : s.client.stage = .polling) :
    CountInv c s.leaves t b := by
  have hupcoming : s.client.upcoming c = s.client.ackMsgCounter := by
    unfold PerfClient.upcoming
    rw [hstage]
  unfold Perf.leaves
  split_ifs
  · exact h.outside rfl hupcoming rfl (fun _ _ _ => ClientStage.noConfusion)
      (fun _ _ _ => ClientStage.noConfusion) rfl rfl rfl rfl
  · exact h.outside rfl hupcoming rfl (fun _ _ _ => ClientStage.noConfusion)
      (fun _ _ _ => ClientStage.noConfusion) rfl rfl rfl rfl

theorem acking (h : CountInv c s t b) (hcredit : CreditInv c s t) (hstage : s.server.stage = .acking) :
    CountInv c s.acks { t with ackSum := t.ackSum + s.server.ackMsgCounter % 2 ^ 32 } b := by
  have hnone := hcredit.ack_none (by rw [hstage]; simp)
  have hacked := h.acked
  obtain ⟨⟨-, hle, -⟩, -⟩ := hcredit.of_acking hstage
  unfold PerfTrail.ackPosts at hacked
  rw [hnone] at hacked
  have hacked' : t.ackSum ≤ c.ackMsgPackgin * t.ackCount := hacked
  unfold Perf.acks
  rw [hcredit.cast_eq hstage]
  refine ⟨h.counter, h.begun, h.sending, h.counted, h.covers, ?_⟩
  show t.ackSum + s.server.ackMsgCounter ≤ c.ackMsgPackgin * (t.ackCount + 1)
  rw [Nat.mul_succ]
  omega

theorem ackArrives (h : CountInv c s t b) (hsome : s.wire.ack ≠ none) :
    CountInv c s.ackArrives { t with ackCount := t.ackCount + 1 } b := by
  obtain ⟨imm, himm⟩ := Option.ne_none_iff_exists'.mp hsome
  have hcovers := h.covers
  have hacked := h.acked
  unfold PerfTrail.ackPosts at hacked
  rw [himm] at hacked
  refine ⟨h.counter, h.begun, h.sending, h.counted, ?_, hacked⟩
  show b.posted ≤ s.wire.ackReceives - 1 + (t.ackCount + 1)
  omega

theorem start (c : PerfConfig) : CountInv c (Perf.start c) ⟨0, 0, 0, 0⟩ ⟨0, 0, 0⟩ := by
  refine ⟨c.ackMsgPackgin_pos, fun _ _ _ hbad => ClientStage.noConfusion hbad,
    fun _ _ _ hbad => ClientStage.noConfusion hbad, ?_, Nat.le_refl 0, Nat.zero_le _⟩
  show 0 + 0 + c.ackMsgPackgin = c.ackMsgPackgin * 0 + c.ackMsgPackgin
  omega

/-- **Every step** keeps it. -/
theorem step (h : CountInv c s t b) (hcredit : CreditInv c s t) (hen : s.Enabled c e) :
    CountInv c (s.exec c e) (PerfTrail.write s e (s.exec c e) t)
      (b.write (s, t) e (s.exec c e, PerfTrail.write s e (s.exec c e) t)) := by
  cases e with
  | begins => exact h.begins hcredit hen
  | posts =>
      obtain ⟨sendBudget, ackMsgCounter, i, hstage⟩ := hen
      exact h.posts hstage
  | sends =>
      obtain ⟨sendBudget, ackMsgCounter, i, hstage⟩ := hen
      exact h.sends hstage
  | completes =>
      obtain ⟨⟨sendBudget, hstage⟩, -⟩ := hen
      exact h.completes hstage
  | takes =>
      obtain ⟨imm, acks, hwire⟩ := List.exists_cons_of_ne_nil hen.2
      exact h.takes hcredit hen.1 hwire _
  | leaves => exact h.leaves hen.1
  | acks => exact h.acking hcredit hen
  | ackArrives => exact h.ackArrives hen
  | arrives => exact ⟨h.counter, h.begun, h.sending, h.counted, h.covers, h.acked⟩
  | serverTakes => exact ⟨h.counter, h.begun, h.sending, h.counted, h.covers, h.acked⟩
  | reposts => exact ⟨h.counter, h.begun, h.sending, h.counted, h.covers, h.acked⟩
  | returns => exact ⟨h.counter, h.begun, h.sending, h.counted, h.covers, h.acked⟩

end CountInv

/-- What every run keeps of its trails. -/
structure BurstRun (c : PerfConfig) (x : (Perf × PerfTrail) × BurstTrail) : Prop where
  credit : CreditInv c x.1.1 x.1.2
  batch : BatchInv c x.1.1 x.1.2
  count : CountInv c x.1.1 x.1.2 x.2

theorem BurstRun.start (c : PerfConfig) : BurstRun c ((Perf.start c, ⟨0, 0, 0, 0⟩), ⟨0, 0, 0⟩) :=
  ⟨CreditInv.start c, BatchInv.start c, CountInv.start c⟩

theorem BurstRun.step (h : BurstRun c ((s, t), b)) (hen : s.Enabled c e) :
    BurstRun c ((s.exec c e, PerfTrail.write s e (s.exec c e) t),
      b.write (s, t) e (s.exec c e, PerfTrail.write s e (s.exec c e) t)) :=
  ⟨h.credit.step hen, h.batch.step h.credit hen, h.count.step h.credit hen⟩

end RdmaManager
