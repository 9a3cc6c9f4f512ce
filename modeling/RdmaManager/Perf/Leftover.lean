import RdmaManager.Perf.AckReceives
import RdmaManager.Perf.Progress
/-!
# Receives that are left over, and receives that are missing

With a batch of two messages or more, and two messages or more to send,
a patient server leaves the client with a receive. Every burst but the
first takes one acknowledgement, and only every `ackMsgPackgin`th burst
posts receives, as many as it has messages: a batch of them. So the number
of receives falls from `M` by one a burst, and is back at `M` when
`ackMsgPackgin` are used up (`PatientInv`).
-/

namespace RdmaManager

variable {c : PerfConfig} {s s' : Perf} {t t' : PerfTrail} {e : PerfEvent}

/-! ## Batches -/

/-- Every acknowledgement is for a whole batch, or the last one was
posted. -/
def BatchInv (c : PerfConfig) (s : Perf) (t : PerfTrail) : Prop :=
  c.ackMsgPackgin * (t.ackCount + s.wire.ack.toList.length) = t.ackSum ∧
      (∀ imm ∈ s.wire.acks ++ s.wire.ack.toList, imm = c.ackMsgPackgin) ∨
    t.ackSum = c.total ∧
      c.ackMsgPackgin * (t.ackCount + s.wire.ack.toList.length) < c.total + c.ackMsgPackgin

/-- The steps that touch no acknowledgement. -/
theorem Perf.exec_acks (htakes : e ≠ .takes) (hacks : e ≠ .acks) (harrives : e ≠ .ackArrives) :
    (s.exec c e).wire.ack = s.wire.ack ∧ (s.exec c e).wire.acks = s.wire.acks := by
  cases e with
  | begins =>
      show (s.begins c).wire.ack = _ ∧ (s.begins c).wire.acks = _
      unfold Perf.begins
      split_ifs <;> exact ⟨rfl, rfl⟩
  | posts =>
      show (s.posts c).wire.ack = _ ∧ (s.posts c).wire.acks = _
      unfold Perf.posts
      split <;> exact ⟨rfl, rfl⟩
  | sends =>
      show s.sends.wire.ack = _ ∧ s.sends.wire.acks = _
      unfold Perf.sends
      split <;> exact ⟨rfl, rfl⟩
  | completes =>
      show s.completes.wire.ack = _ ∧ s.completes.wire.acks = _
      unfold Perf.completes
      split <;> exact ⟨rfl, rfl⟩
  | takes => exact absurd rfl htakes
  | acks => exact absurd rfl hacks
  | ackArrives => exact absurd rfl harrives
  | leaves => exact ⟨rfl, rfl⟩
  | arrives => exact ⟨rfl, rfl⟩
  | serverTakes => exact ⟨rfl, rfl⟩
  | reposts => exact ⟨rfl, rfl⟩
  | returns => exact ⟨rfl, rfl⟩

theorem PerfTrail.write_acks (s s' : Perf) (t : PerfTrail) (hacks : e ≠ .acks)
    (harrives : e ≠ .ackArrives) :
    (PerfTrail.write s e s' t).ackSum = t.ackSum ∧
      (PerfTrail.write s e s' t).ackCount = t.ackCount := by
  cases e <;> first | exact ⟨rfl, rfl⟩ | exact absurd rfl hacks | exact absurd rfl harrives

theorem BatchInv.acking (h : BatchInv c s t) (hcredit : CreditInv c s t)
    (hstage : s.server.stage = .acking) :
    BatchInv c s.acks { t with ackSum := t.ackSum + s.server.ackMsgCounter % 2 ^ 32 } := by
  have hnone := hcredit.ack_none (by rw [hstage]; simp)
  obtain ⟨⟨hpos, -, hlast⟩, hcounted⟩ := hcredit.of_acking hstage
  unfold BatchInv at h
  rw [hnone] at h
  rcases h with ⟨hcount, hvalues⟩ | ⟨hsum, -⟩
  · have hcount' : c.ackMsgPackgin * (t.ackCount + 1) = t.ackSum + c.ackMsgPackgin := by
      rw [← hcount]
      exact Nat.mul_succ _ _
    unfold Perf.acks
    rw [hcredit.cast_eq hstage]
    rcases hlast with hfull | hend
    · refine Or.inl ⟨hcount'.trans (by rw [hfull]), fun imm himm => ?_⟩
      rcases List.mem_append.mp himm with hold | hnew
      · exact hvalues imm (List.mem_append_left _ hold)
      · rw [List.mem_singleton.mp hnew, hfull]
    · -- the last batch may be short
      refine Or.inr ⟨?_, ?_⟩
      · show t.ackSum + s.server.ackMsgCounter = c.total
        omega
      · show c.ackMsgPackgin * (t.ackCount + 1) < c.total + c.ackMsgPackgin
        omega
  · omega

theorem BatchInv.ackArrives (h : BatchInv c s t) (hsome : s.wire.ack ≠ none) :
    BatchInv c s.ackArrives { t with ackCount := t.ackCount + 1 } := by
  obtain ⟨imm, himm⟩ := Option.ne_none_iff_exists'.mp hsome
  unfold BatchInv Perf.ackArrives at *
  rw [himm] at h ⊢
  simp only [Option.toList_some, Option.toList_none, List.length_singleton, List.length_nil,
    List.append_nil, Nat.add_zero] at h ⊢
  exact h

theorem BatchInv.takes (h : BatchInv c s t) (hcredit : CreditInv c s t)
    (hstage : s.client.stage = .polling) {imm : ℕ} {acks : List ℕ}
    (hwire : s.wire.acks = imm :: acks) (n : ℕ) :
    BatchInv c s.takes { t with acknowledged := n } := by
  rw [(hcredit.takes_eq hstage hwire).2]
  unfold BatchInv at h ⊢
  rw [hwire] at h
  refine h.imp_left fun hbatch => ⟨hbatch.1, fun v hv => hbatch.2 v ?_⟩
  exact List.mem_cons_of_mem imm hv

theorem BatchInv.step (h : BatchInv c s t) (hcredit : CreditInv c s t) (hen : s.Enabled c e) :
    BatchInv c (s.exec c e) (PerfTrail.write s e (s.exec c e) t) := by
  by_cases htakes : e = .takes
  · subst htakes
    obtain ⟨imm, acks, hwire⟩ := List.exists_cons_of_ne_nil hen.2
    exact h.takes hcredit hen.1 hwire _
  · by_cases hacks : e = .acks
    · subst hacks
      exact h.acking hcredit hen
    · by_cases harrives : e = .ackArrives
      · subst harrives
        exact h.ackArrives hen
      · obtain ⟨hack, hlist⟩ := Perf.exec_acks (s := s) (c := c) htakes hacks harrives
        obtain ⟨hsum, hcount⟩ := PerfTrail.write_acks s (s.exec c e) t hacks harrives
        unfold BatchInv at h ⊢
        rw [hack, hlist, hsum, hcount]
        exact h

theorem BatchInv.start (c : PerfConfig) : BatchInv c (Perf.start c) ⟨0, 0, 0, 0⟩ :=
  Or.inl ⟨Nat.mul_zero _, fun _ himm => absurd himm List.not_mem_nil⟩

/-! ## A patient server -/

/-- The server has nothing to acknowledge, and no acknowledgement in
flight. -/
def Perf.Quiet (s : Perf) : Prop :=
  s.wire.ack = none ∧ s.server.unacked = 0 ∧ s.server.uncounted = 0

/-- The acknowledgements taken since the last burst that posted receives,
at the head of a round. -/
def PerfConfig.due (c : PerfConfig) (ackMsgCounter : ℕ) : ℕ :=
  if ackMsgCounter = 0 then c.ackMsgPackgin else ackMsgCounter

/-- A burst can begin: it is the first, or a batch was acknowledged. -/
def PerfClient.Opening (c : PerfConfig) (k : PerfClient) (receives ackMsgCounter : ℕ) : Prop :=
  k.pendingMessages = 0 ∧ k.totalBudget = c.total ∧ ackMsgCounter = 0 ∧ receives = 0 ∨
    k.pendingMessages + c.ackMsgPackgin = c.maxWr ∧ receives + c.due ackMsgCounter = c.maxWr

/-- More receives are posted than acknowledgements are to come. -/
def Spared (c : PerfConfig) (s : Perf) (t : PerfTrail) : Prop :=
  c.total + c.ackMsgPackgin ≤ c.ackMsgPackgin * (s.wire.ackReceives + t.ackCount)

/-- What holds at each stage of the client while it has a budget. -/
def Going (c : PerfConfig) (s : Perf) (t : PerfTrail) : Prop :=
  match s.client.stage with
  | .round => s.client.Opening c s.wire.ackReceives s.client.ackMsgCounter ∧ s.Quiet ∧
      s.wire.acks = []
  | .posting _ ackMsgCounter i => ackMsgCounter < c.ackMsgPackgin ∧
      (∃ first, s.client.Opening c first ackMsgCounter ∧
        s.wire.ackReceives = first + if ackMsgCounter = 0 then i else 0) ∧
      s.Quiet ∧ s.wire.acks = []
  | .sending _ ackMsgCounter i => ackMsgCounter < c.ackMsgPackgin ∧
      s.client.ackMsgCounter = c.nextCounter ackMsgCounter ∧
      (∃ first, s.client.Opening c first ackMsgCounter ∧
        s.wire.ackReceives = first + if ackMsgCounter = 0 then i + 1 else 0) ∧
      s.Quiet ∧ s.wire.acks = []
  | .completing sendBudget =>
      (sendBudget < s.client.totalBudget →
        s.wire.ackReceives + c.due s.client.ackMsgCounter = c.maxWr + 1) ∧
      (s.client.totalBudget ≤ sendBudget → Spared c s t) ∧ s.Quiet ∧ s.wire.acks = []
  | .polling =>
      -- no acknowledgement has come, one has, or it was taken
      s.client.pendingMessages = c.maxWr ∧
          s.wire.ackReceives + c.due s.client.ackMsgCounter = c.maxWr + 1 ∧ s.wire.acks = [] ∨
        s.client.pendingMessages = c.maxWr ∧
          s.wire.ackReceives + c.due s.client.ackMsgCounter = c.maxWr ∧ s.Quiet ∧
          s.wire.acks = [c.ackMsgPackgin] ∨
        s.client.pendingMessages + c.ackMsgPackgin = c.maxWr ∧
          s.wire.ackReceives + c.due s.client.ackMsgCounter = c.maxWr ∧ s.Quiet ∧ s.wire.acks = []
  | .done => True

/-- **What a run with a patient server keeps.** -/
structure PatientInv (c : PerfConfig) (s : Perf) (t : PerfTrail) : Prop where
  counter : s.client.ackMsgCounter < c.ackMsgPackgin
  ended : s.client.totalBudget = 0 → Spared c s t
  going : 0 < s.client.totalBudget → Going c s t

/-- A batch is more than one message, and so is what is to be sent. -/
structure PerfConfig.Batched (c : PerfConfig) : Prop where
  batch : 2 ≤ c.ackMsgPackgin
  total : 2 ≤ c.total

theorem PerfConfig.two_mul_ackMsgPackgin_le (h : 2 ≤ c.ackMsgPackgin) :
    2 * c.ackMsgPackgin ≤ c.maxWr := by
  unfold PerfConfig.ackMsgPackgin at *
  split_ifs at * <;> omega

theorem PerfConfig.nextCounter_lt (ackMsgCounter : ℕ) :
    c.nextCounter ackMsgCounter < c.ackMsgPackgin := by
  have hpos := c.ackMsgPackgin_pos
  unfold PerfConfig.nextCounter
  split_ifs <;> omega

/-- A burst uses up one acknowledgement, or posts receives for a batch. -/
theorem PerfConfig.due_nextCounter {ackMsgCounter : ℕ}
    (hlt : ackMsgCounter < c.ackMsgPackgin) :
    c.due (c.nextCounter ackMsgCounter) = ackMsgCounter + 1 := by
  unfold PerfConfig.due PerfConfig.nextCounter
  by_cases hnext : ackMsgCounter + 1 < c.ackMsgPackgin
  · rw [if_pos hnext, if_neg (Nat.succ_ne_zero _)]
  · rw [if_neg hnext, if_pos rfl]
    omega

theorem PerfConfig.due_le {ackMsgCounter : ℕ} (hlt : ackMsgCounter < c.ackMsgPackgin) :
    c.due ackMsgCounter ≤ c.ackMsgPackgin := by
  unfold PerfConfig.due
  split_ifs <;> omega

/-- The receives that are left when the budget is used up are more than
the acknowledgements for a full window. -/
theorem maxWr_add_le {batch maxWr receives : ℕ} (htwo : 2 ≤ batch) (hwindow : 2 * batch ≤ maxWr)
    (hreceives : maxWr + 1 ≤ receives + batch) : maxWr + batch ≤ batch * receives := by
  obtain ⟨rest, rfl⟩ : ∃ rest, receives = batch + 1 + rest := ⟨receives - batch - 1, by omega⟩
  have hmul : batch * (batch + 1 + rest) = batch * batch + batch + batch * rest := by
    rw [Nat.mul_add, Nat.mul_succ]
  have hsquare : 2 * batch ≤ batch * batch := Nat.mul_le_mul_right batch htwo
  have hlinear : rest ≤ batch * rest := Nat.le_mul_of_pos_left rest (by omega)
  omega

/-- A first burst that sends all leaves more receives than
acknowledgements are to come. -/
theorem add_le_mul_of_two_le {batch total : ℕ} (htwo : 2 ≤ batch) (htotal : 2 ≤ total) :
    total + batch ≤ batch * total := by
  obtain ⟨rest, rfl⟩ : ∃ rest, total = 2 + rest := ⟨total - 2, by omega⟩
  have hmul : batch * (2 + rest) = batch * 2 + batch * rest := Nat.mul_add batch 2 rest
  have hlinear : 2 * rest ≤ batch * rest := Nat.mul_le_mul_right rest htwo
  omega

namespace PatientInv

/-! ### The client -/

theorem begins (h : PatientInv c s t) (hcredit : CreditInv c s t) (hstage : s.client.stage = .round) :
    PatientInv c (s.begins c) t := by
  have hgoing := h.going
  unfold Going at hgoing
  rw [hstage] at hgoing
  rcases hcredit.begins_cases hstage with ⟨hzero, hbegins⟩ | ⟨hpos, sendBudget, -, -, hbegins⟩
  · rw [hbegins]
    exact ⟨h.counter, h.ended, fun hpos => absurd hzero (Nat.ne_of_gt hpos)⟩
  · obtain ⟨hopening, hrest⟩ := hgoing hpos
    rw [hbegins]
    refine ⟨h.counter, h.ended, fun _ => ⟨h.counter, ⟨_, hopening, ?_⟩, hrest⟩⟩
    split_ifs <;> rfl

theorem posting (h : PatientInv c s t) (hcredit : CreditInv c s t) {sendBudget ackMsgCounter i : ℕ}
    (hstage : s.client.stage = .posting sendBudget ackMsgCounter i) :
    PatientInv c (s.posts c) t := by
  have hok := hcredit.client
  have hgoing := h.going
  unfold PerfClient.Ok at hok
  unfold Going at hgoing
  rw [hstage] at hok hgoing
  obtain ⟨⟨-, hbudget, -⟩, hlt⟩ := hok
  obtain ⟨hcounter, ⟨first, hopening, hfirst⟩, hrest⟩ := hgoing (by omega)
  unfold Perf.posts
  rw [hstage]
  refine ⟨PerfConfig.nextCounter_lt ackMsgCounter, fun hzero => ?_,
    fun _ => ⟨hcounter, rfl, ⟨first, hopening, ?_⟩, hrest⟩⟩
  · have hzero' : s.client.totalBudget = 0 := hzero
    omega
  · show (if ackMsgCounter = 0 then s.wire.ackReceives + 1 else s.wire.ackReceives) = _
    split_ifs at hfirst ⊢
    · rw [hfirst]
      exact Nat.add_assoc first i 1
    · exact hfirst

/-- **The end of a burst**: `receives` are posted, `sendBudget` messages were
sent, and all that was acknowledged before makes `count` batches. -/
theorem sent_all (hbatched : c.Batched) (count : ℕ) {k : PerfClient}
    {sendBudget ackMsgCounter first receives : ℕ} (hopening : k.Opening c first ackMsgCounter)
    (hbursts : k.Bursts c sendBudget)
    (hpos : 0 < sendBudget) (hcounter : ackMsgCounter < c.ackMsgPackgin)
    (hreceives : receives = first + if ackMsgCounter = 0 then sendBudget else 0)
    (hcount : k.totalBudget ≤ sendBudget →
      k.pendingMessages + sendBudget + c.ackMsgPackgin * count = c.total) :
    (sendBudget < k.totalBudget →
        receives + c.due (c.nextCounter ackMsgCounter) = c.maxWr + 1) ∧
      (k.totalBudget ≤ sendBudget →
        c.total + c.ackMsgPackgin ≤ c.ackMsgPackgin * (receives + count)) := by
  have htwo := PerfConfig.two_mul_ackMsgPackgin_le hbatched.batch
  obtain ⟨hroom, hbudget, hfull⟩ := hbursts
  have hdue := PerfConfig.due_nextCounter hcounter
  rw [hdue, Nat.mul_add]
  rcases hopening with ⟨hpending, htotal, rfl, rfl⟩ | ⟨hpending, hfirst⟩
  · -- the first burst
    rw [if_pos rfl, Nat.zero_add] at hreceives
    subst hreceives
    refine ⟨fun hlt => ?_, fun hle => ?_⟩
    · have hwindow := hfull hlt
      omega
    · have hall : receives = c.total := by omega
      have hmul := add_le_mul_of_two_le hbatched.batch hbatched.total
      rw [hall]
      omega
  · -- a later one is at most a batch
    have hbatch : sendBudget ≤ c.ackMsgPackgin := by omega
    unfold PerfConfig.due at hfirst
    refine ⟨fun hlt => ?_, fun hle => ?_⟩
    · have hwindow := hfull hlt
      split_ifs at hfirst hreceives <;> omega
    · have hleft : c.maxWr + 1 ≤ receives + c.ackMsgPackgin := by
        split_ifs at hfirst hreceives <;> omega
      have hmul := maxWr_add_le hbatched.batch htwo hleft
      have hsum := hcount hle
      omega

/-- While there is a budget, what the server has acknowledged is whole
batches. -/
theorem batches (hbatch : BatchInv c s t) (hlt : t.ackSum < c.total) :
    c.ackMsgPackgin * (t.ackCount + s.wire.ack.toList.length) = t.ackSum ∧
      ∀ imm ∈ s.wire.acks ++ s.wire.ack.toList, imm = c.ackMsgPackgin :=
  hbatch.resolve_right fun hlast => absurd hlast.1 (Nat.ne_of_lt hlt)

theorem sends (h : PatientInv c s t) (hcredit : CreditInv c s t) (hbatch : BatchInv c s t)
    (hbatched : c.Batched) {sendBudget ackMsgCounter i : ℕ}
    (hstage : s.client.stage = .sending sendBudget ackMsgCounter i) :
    PatientInv c s.sends { t with sent := t.sent + 1 } := by
  have hgoing := h.going
  have hle := hcredit.ackSum_le
  obtain ⟨⟨hbursts, hlt⟩, hsent, hpending⟩ := hcredit.of_sending hstage
  have hbudget := hbursts.2.1
  unfold Going at hgoing
  rw [hstage] at hgoing
  obtain ⟨hcounter, hnext, ⟨first, hopening, hfirst⟩, hquiet, hacks⟩ := hgoing (by omega)
  have hover : ¬ s.client.totalBudget = 0 := by omega
  unfold Perf.sends
  rw [hstage]
  by_cases hlast : i + 1 = sendBudget
  · simp only [if_pos hlast]
    rw [hlast] at hfirst
    have hcount := (batches hbatch (by omega)).1
    have hsum := hcredit.acks
    rw [hquiet.1] at hcount hsum
    rw [hacks] at hsum
    have hcount' : c.ackMsgPackgin * t.ackCount = t.ackSum := hcount
    have hsum' : t.ackSum = t.acknowledged + 0 + 0 := hsum
    obtain ⟨hmore, hall⟩ :=
      sent_all hbatched t.ackCount hopening hbursts (by omega) hcounter hfirst (by omega)
    refine ⟨h.counter, fun hzero => absurd hzero hover, fun _ => ⟨fun hrest => ?_, hall, hquiet, hacks⟩⟩
    rw [← hnext] at hmore
    exact hmore hrest
  · simp only [if_neg hlast]
    exact ⟨h.counter, fun hzero => absurd hzero hover,
      fun _ => ⟨hcounter, ⟨first, hopening, hfirst⟩, hquiet, hacks⟩⟩

theorem completes (h : PatientInv c s t) (hcredit : CreditInv c s t) {sendBudget : ℕ}
    (hstage : s.client.stage = .completing sendBudget) : PatientInv c s.completes t := by
  have hgoing := h.going
  obtain ⟨⟨⟨-, hbudget, hfull⟩, hpos⟩, -⟩ := hcredit.of_completing hstage
  unfold Going at hgoing
  rw [hstage] at hgoing
  obtain ⟨hmore, hall, -, hacks⟩ := hgoing (by omega)
  rw [hcredit.completes_eq hstage]
  refine ⟨h.counter, fun hzero => hall ?_, fun hrest => Or.inl ⟨hfull ?_, hmore ?_, hacks⟩⟩
  · exact Nat.le_of_sub_eq_zero hzero
  · exact Nat.lt_of_sub_pos hrest
  · exact Nat.lt_of_sub_pos hrest

theorem takes (h : PatientInv c s t) (hcredit : CreditInv c s t) (hstage : s.client.stage = .polling)
    {imm : ℕ} {acks : List ℕ} (hwire : s.wire.acks = imm :: acks) (n : ℕ) :
    PatientInv c s.takes { t with acknowledged := n } := by
  have hgoing := h.going
  have hpack := c.ackMsgPackgin_le
  unfold Going at hgoing
  rw [hstage, hwire] at hgoing
  rw [(hcredit.takes_eq hstage hwire).2]
  refine ⟨h.counter, h.ended, fun hpos => ?_⟩
  unfold Going
  simp only [hstage]
  rcases hgoing hpos with ⟨-, -, hbad⟩ | ⟨hfull, hreceives, hquiet, hone⟩ | ⟨-, -, -, hbad⟩
  · exact absurd hbad (List.cons_ne_nil imm acks)
  · obtain ⟨rfl, rfl⟩ := List.cons.inj hone
    refine Or.inr (Or.inr ⟨?_, hreceives, hquiet, rfl⟩)
    omega
  · exact absurd hbad (List.cons_ne_nil imm acks)

theorem leaves (h : PatientInv c s t) (hstage : s.client.stage = .polling)
    (hacks : s.wire.acks = []) (hnot : s.client.pendingMessages ≠ c.maxWr) :
    PatientInv c s.leaves t := by
  have hgoing := h.going
  unfold Going at hgoing
  rw [hstage, hacks] at hgoing
  unfold Perf.leaves
  refine ⟨h.counter, h.ended, fun hpos => ?_⟩
  have hpos' : 0 < s.client.totalBudget := hpos
  unfold Going
  rw [if_neg (by omega)]
  rcases hgoing hpos' with ⟨hbad, -⟩ | ⟨hbad, -⟩ | ⟨hpending, hreceives, hquiet, -⟩
  · exact absurd hbad hnot
  · exact absurd hbad hnot
  · exact ⟨Or.inr ⟨hpending, hreceives⟩, hquiet, hacks⟩

/-! ### The connection and the server -/

/-- A step that the client does not see, and that leaves a quiet server
quiet where the client does not wait. -/
theorem unseen (h : PatientInv c s t) (hclient : s'.client = s.client)
    (hacks : s'.wire.acks = s.wire.acks) (hreceives : s'.wire.ackReceives = s.wire.ackReceives)
    (hcount : t'.ackCount = t.ackCount)
    (hquiet : 0 < s.client.totalBudget →
      s.client.stage = .polling ∧ s.client.pendingMessages = c.maxWr ∧ s.wire.acks = [] ∨
        (s.Quiet → s'.Quiet)) : PatientInv c s' t' := by
  have hover := h.ended
  have hgoing := h.going
  have hpack := c.ackMsgPackgin_pos
  refine ⟨by rw [hclient]; exact h.counter, fun hzero => ?_, fun hpos => ?_⟩
  · unfold Spared
    rw [hreceives, hcount]
    exact hover (by rw [← hclient]; exact hzero)
  · rw [hclient] at hpos
    have hold := hgoing hpos
    unfold Going Spared at hold ⊢
    rw [hclient, hacks, hreceives, hcount]
    rcases hquiet hpos with ⟨hstage, hfull, hnone⟩ | hstill
    · rw [hstage] at hold ⊢
      rcases hold with hwaits | ⟨-, -, -, hbad⟩ | ⟨hbad, -⟩
      · exact Or.inl hwaits
      · rw [hnone] at hbad
        exact absurd hbad.symm (List.cons_ne_nil _ _)
      · omega
    · cases hstage : s.client.stage with
      | round =>
          rw [hstage] at hold
          exact ⟨hold.1, hstill hold.2.1, hold.2.2⟩
      | posting sendBudget ackMsgCounter i =>
          rw [hstage] at hold
          exact ⟨hold.1, hold.2.1, hstill hold.2.2.1, hold.2.2.2⟩
      | sending sendBudget ackMsgCounter i =>
          rw [hstage] at hold
          exact ⟨hold.1, hold.2.1, hold.2.2.1, hstill hold.2.2.2.1, hold.2.2.2.2⟩
      | completing sendBudget =>
          rw [hstage] at hold
          exact ⟨hold.1, hold.2.1, hstill hold.2.2.1, hold.2.2.2⟩
      | polling =>
          rw [hstage] at hold
          refine hold.imp_right fun hcame => ?_
          refine hcame.imp (fun hone => ?_) fun htaken => ?_
          · exact ⟨hone.1, hone.2.1, hstill hone.2.2.1, hone.2.2.2⟩
          · exact ⟨htaken.1, htaken.2.1, hstill htaken.2.2.1, htaken.2.2.2⟩
      | done => trivial

theorem reposts (h : PatientInv c s t) (hstage : s.server.stage = .reposting) :
    PatientInv c (s.reposts c) t := by
  refine h.unseen rfl rfl rfl rfl fun _ => Or.inr fun hquiet => ?_
  have huncounted := hquiet.2.2
  unfold PerfServer.uncounted at huncounted
  rw [hstage] at huncounted
  exact absurd huncounted Nat.one_ne_zero

theorem acking (h : PatientInv c s t) (hcredit : CreditInv c s t) (hstage : s.server.stage = .acking)
    (n : ℕ) : PatientInv c s.acks { t with ackSum := n } := by
  refine h.unseen rfl rfl rfl rfl fun _ => Or.inr fun hquiet => ?_
  have hunacked := hquiet.2.1
  unfold PerfServer.unacked at hunacked
  rw [hstage] at hunacked
  exact absurd hunacked (Nat.ne_of_gt (hcredit.of_acking hstage).1.1)

theorem returns (h : PatientInv c s t) : PatientInv c s.returns t := by
  refine h.unseen rfl rfl rfl rfl fun _ => Or.inr fun hquiet => ?_
  obtain ⟨-, hunacked, huncounted⟩ := CreditInv.again_ok (c := c) (k := s.returns.server) rfl
    c.ackMsgPackgin_pos fun _ _ => rfl
  exact ⟨hquiet.1, hunacked, huncounted⟩

/-- While there is a budget, an acknowledgement is in flight only to a
client that waits for it. -/
theorem waits (h : PatientInv c s t) (hcredit : CreditInv c s t) (hsome : s.wire.ack ≠ none)
    (hpos : 0 < s.client.totalBudget) :
    s.client.stage = .polling ∧ s.client.pendingMessages = c.maxWr ∧
      s.wire.ackReceives + c.due s.client.ackMsgCounter = c.maxWr + 1 ∧ s.wire.acks = [] := by
  have hgoing := h.going hpos
  unfold Going at hgoing
  cases hstage : s.client.stage with
  | round =>
      rw [hstage] at hgoing
      exact absurd hgoing.2.1.1 hsome
  | posting sendBudget ackMsgCounter i =>
      rw [hstage] at hgoing
      exact absurd hgoing.2.2.1.1 hsome
  | sending sendBudget ackMsgCounter i =>
      rw [hstage] at hgoing
      exact absurd hgoing.2.2.2.1.1 hsome
  | completing sendBudget =>
      rw [hstage] at hgoing
      exact absurd hgoing.2.2.1.1 hsome
  | polling =>
      rw [hstage] at hgoing
      rcases hgoing with hwaits | ⟨-, -, hquiet, -⟩ | ⟨-, -, hquiet, -⟩
      · exact ⟨rfl, hwaits⟩
      · exact absurd hquiet.1 hsome
      · exact absurd hquiet.1 hsome
  | done => exact absurd (hcredit.of_done hstage).1.1 (Nat.ne_of_gt hpos)

/-- What arrives is for a batch. -/
theorem ackArrives (h : PatientInv c s t) (hcredit : CreditInv c s t) (hbatch : BatchInv c s t)
    (hsome : s.wire.ack ≠ none) :
    PatientInv c s.ackArrives { t with ackCount := t.ackCount + 1 } := by
  have hpack := c.ackMsgPackgin_le
  have hdue := PerfConfig.due_le h.counter
  refine ⟨h.counter, fun hzero => ?_, fun hpos => ?_⟩
  · -- a receive less, and an acknowledgement less to come
    have hspared := h.ended hzero
    unfold Spared at hspared ⊢
    refine hspared.trans (Nat.mul_le_mul_left _ ?_)
    show s.wire.ackReceives + t.ackCount ≤ s.wire.ackReceives - 1 + (t.ackCount + 1)
    omega
  · -- the client waits for it
    have hpos' : 0 < s.client.totalBudget := hpos
    obtain ⟨hstage, hfull, hreceives, hacks⟩ := h.waits hcredit hsome hpos'
    obtain ⟨imm, himm⟩ := Option.ne_none_iff_exists'.mp hsome
    obtain ⟨hsent, -⟩ := hcredit.settled (by rw [hstage]; rfl)
    have hle := hcredit.ackSum_le
    have hserver := hcredit.one hsome
    have hone : imm = c.ackMsgPackgin := (batches hbatch (by omega)).2 imm
      (List.mem_append_right _ (by rw [himm]; exact List.mem_singleton_self _))
    unfold Going Perf.ackArrives
    simp only [hstage]
    refine Or.inr (Or.inl ⟨hfull, by omega, ⟨rfl, ?_, ?_⟩, ?_⟩)
    · unfold PerfServer.unacked
      simp only [hserver]
    · unfold PerfServer.uncounted
      simp only [hserver]
    · rw [hacks, himm, hone]
      rfl

theorem start (c : PerfConfig) : PatientInv c (Perf.start c) ⟨0, 0, 0, 0⟩ := by
  have hpos := c.total_pos
  refine ⟨c.ackMsgPackgin_pos, fun hzero => ?_,
    fun _ => ⟨Or.inl ⟨rfl, rfl, rfl, rfl⟩, ⟨rfl, rfl, rfl⟩, rfl⟩⟩
  have hzero' : c.total = 0 := hzero
  omega

theorem step (h : PatientInv c s t) (hcredit : CreditInv c s t) (hbatch : BatchInv c s t)
    (hbatched : c.Batched) (hen : s.Enabled c e) (hpatient : s.Patient c e) :
    PatientInv c (s.exec c e) (PerfTrail.write s e (s.exec c e) t) := by
  cases e with
  | begins => exact h.begins hcredit hen
  | posts =>
      obtain ⟨sendBudget, ackMsgCounter, i, hstage⟩ := hen
      exact h.posting hcredit hstage
  | sends =>
      obtain ⟨sendBudget, ackMsgCounter, i, hstage⟩ := hen
      exact h.sends hcredit hbatch hbatched hstage
  | completes =>
      obtain ⟨⟨sendBudget, hstage⟩, -⟩ := hen
      exact h.completes hcredit hstage
  | takes =>
      obtain ⟨imm, acks, hwire⟩ := List.exists_cons_of_ne_nil hen.2
      exact h.takes hcredit hen.1 hwire _
  | leaves => exact h.leaves hen.1 hen.2.1 hen.2.2
  | arrives => exact h.unseen rfl rfl rfl rfl fun _ => Or.inr fun hquiet => hquiet
  | serverTakes =>
      refine h.unseen rfl rfl rfl rfl fun hpos => Or.inl ?_
      exact (hpatient rfl).resolve_left (Nat.ne_of_gt hpos)
  | reposts => exact h.reposts hen
  | acks => exact h.acking hcredit hen _
  | ackArrives => exact h.ackArrives hcredit hbatch hen
  | returns => exact h.returns

end PatientInv

/-- The three invariants of a run with a patient server. -/
structure PatientRun (c : PerfConfig) (x : Perf × PerfTrail) : Prop where
  credit : CreditInv c x.1 x.2
  batch : BatchInv c x.1 x.2
  patient : PatientInv c x.1 x.2

theorem patientRun_invariant (hbatched : c.Batched) :
    (patientTrails c).Invariant (PatientRun c) where
  init x hinit := by
    obtain ⟨hstart, htrail⟩ := hinit
    rw [show x = (Perf.start c, ⟨0, 0, 0, 0⟩) from Prod.ext hstart htrail]
    exact ⟨CreditInv.start c, BatchInv.start c, PatientInv.start c⟩
  step x e y _ h hstep := by
    obtain ⟨hpatient, ⟨hen, hexec⟩, hwrite⟩ := hstep
    rw [show y = (x.1.exec c e, PerfTrail.write x.1 e (x.1.exec c e) x.2) from
      Prod.ext hexec (by rw [← hexec]; exact hwrite)]
    exact ⟨h.credit.step hen, h.batch.step h.credit hen,
      h.patient.step h.credit h.batch hbatched hen hpatient⟩

/-- **A receive is left over** where a patient run has ended. -/
theorem spared_of_ended {x : Perf × PerfTrail} (h : PatientRun c x) (hended : x.1.Ended) :
    0 < x.1.wire.ackReceives := by
  obtain ⟨hclient, hserver⟩ := hended
  have hack := h.credit.ack_none (by rw [hserver]; simp)
  have hbatch := h.batch
  have hsum := h.credit.of_serverDone hserver
  have hpack := c.ackMsgPackgin_pos
  have hspared := h.patient.ended (h.credit.of_done hclient).1.1
  unfold Spared at hspared
  unfold BatchInv at hbatch
  rw [hack] at hbatch
  have hcount : c.ackMsgPackgin * x.2.ackCount < c.total + c.ackMsgPackgin := by
    rcases hbatch with ⟨hcount, -⟩ | ⟨-, hcount⟩
    · have hcount' : c.ackMsgPackgin * x.2.ackCount = x.2.ackSum := hcount
      omega
    · exact hcount
  have hlt := Nat.lt_of_mul_lt_mul_left (hcount.trans_le hspared)
  omega

/-- With batches there is a run that leaves a receive. -/
theorem not_acksReceived (hbatched : c.Batched) : ¬ AcksReceived c := by
  intro hall
  obtain ⟨y, hleads, hended⟩ :=
    CreditInv.finishes (x := (Perf.start c, ⟨0, 0, 0, 0⟩)) (CreditInv.start c)
  have hstart : (patientTrails c).Reachable (Perf.start c, ⟨0, 0, 0, 0⟩) := .init ⟨rfl, rfl⟩
  have hreach := hstart.leads hleads
  have hrun := (patientRun_invariant hbatched).reachable hreach
  have hnone := (hall y.1 hreach.of_restrict.of_record).2.2 hended.1
  have hleft := spared_of_ended hrun hended
  omega

/-- **Every acknowledgement finds a receive, and none is left over**,
exactly where the limit is at most three or there is one message. -/
theorem acks_received_iff (c : PerfConfig) : AcksReceived c ↔ c.maxWr ≤ 3 ∨ c.total = 1 := by
  rw [← single_iff]
  refine ⟨fun hall => ?_, acksReceived_of_single⟩
  by_contra hnot
  have hpack := c.ackMsgPackgin_pos
  have htotal := c.total_pos
  unfold PerfConfig.Single at hnot
  exact not_acksReceived ⟨by omega, by omega⟩ hall

/-! ## A run in which an acknowledgement finds no receive -/

instance (stage : ClientStage) : Decidable (∃ sendBudget ackMsgCounter i,
    stage = .posting sendBudget ackMsgCounter i) :=
  match stage with
  | .posting _ _ _ => isTrue ⟨_, _, _, rfl⟩
  | .round | .sending _ _ _ | .completing _ | .polling | .done =>
      isFalse (by rintro ⟨_, _, _, h⟩; exact ClientStage.noConfusion h)

instance (stage : ClientStage) : Decidable (∃ sendBudget ackMsgCounter i,
    stage = .sending sendBudget ackMsgCounter i) :=
  match stage with
  | .sending _ _ _ => isTrue ⟨_, _, _, rfl⟩
  | .round | .posting _ _ _ | .completing _ | .polling | .done =>
      isFalse (by rintro ⟨_, _, _, h⟩; exact ClientStage.noConfusion h)

instance (stage : ClientStage) : Decidable (∃ sendBudget, stage = .completing sendBudget) :=
  match stage with
  | .completing _ => isTrue ⟨_, rfl⟩
  | .round | .posting _ _ _ | .sending _ _ _ | .polling | .done =>
      isFalse (by rintro ⟨_, h⟩; exact ClientStage.noConfusion h)

instance (c : PerfConfig) (s : Perf) : ∀ e, Decidable (s.Enabled c e)
  | .begins => inferInstanceAs (Decidable (_ = _))
  | .posts => inferInstanceAs (Decidable (∃ _ _ _, _ = _))
  | .sends => inferInstanceAs (Decidable (∃ _ _ _, _ = _))
  | .completes => inferInstanceAs (Decidable (_ ∧ _))
  | .takes => inferInstanceAs (Decidable (_ ∧ _))
  | .leaves => inferInstanceAs (Decidable (_ ∧ _))
  | .arrives => inferInstanceAs (Decidable (_ < _))
  | .serverTakes => inferInstanceAs (Decidable (_ ∧ _))
  | .reposts => inferInstanceAs (Decidable (_ = _))
  | .acks => inferInstanceAs (Decidable (_ = _))
  | .ackArrives => inferInstanceAs (Decidable (_ ≠ _))
  | .returns => inferInstanceAs (Decidable (_ ∧ _))

/-- At most four messages are pending, of fourteen. -/
def fourOfFourteen : PerfConfig := ⟨4, 14, by decide, by decide⟩

/-- A burst of `n` messages, all of which arrive. -/
def burstOf (n : ℕ) : List PerfEvent :=
  [.begins] ++ (List.replicate n [.posts, .sends, .arrives]).flatten ++ [.completes]

/-- The server receives two messages and is about to acknowledge them. -/
def batchOfTwo : List PerfEvent := [.serverTakes, .reposts, .serverTakes, .reposts]

/-- It acknowledges them. -/
def acknowledged : List PerfEvent := [.acks, .ackArrives, .returns]

/-- Two batches are acknowledged before the client polls, then one, then
two, and then two more before it polls again. -/
def quickServer : List PerfEvent :=
  burstOf 4 ++ batchOfTwo ++ acknowledged ++ batchOfTwo ++ acknowledged ++ [.takes, .takes, .leaves] ++
    burstOf 4 ++ batchOfTwo ++ acknowledged ++ [.takes, .leaves] ++
    burstOf 2 ++ batchOfTwo ++ acknowledged ++ batchOfTwo ++ acknowledged ++ [.takes, .takes, .leaves] ++
    burstOf 4 ++ batchOfTwo ++ acknowledged ++ batchOfTwo

/-- **The connection breaks**: the server is about to acknowledge, and the
client has no receive posted. -/
theorem ack_without_receive :
    (perfRuns fourOfFourteen).Reachable
        (quickServer.foldl (Perf.exec fourOfFourteen) (Perf.start fourOfFourteen)) ∧
      ¬ AcksReceived fourOfFourteen := by
  have hreach : (perfRuns fourOfFourteen).Reachable
      (quickServer.foldl (Perf.exec fourOfFourteen) (Perf.start fourOfFourteen)) := by
    have hsteps : System.MeetsAlong (Perf.Enabled fourOfFourteen) (Perf.exec fourOfFourteen)
        (Perf.start fourOfFourteen) quickServer := by decide +kernel
    exact System.Reachable.along (System.Reachable.init rfl)
      (System.MeetsAlong.steps (M := perfRuns fourOfFourteen) (fun s e hen => ⟨hen, rfl⟩) hsteps)
  refine ⟨hreach, fun hall => ?_⟩
  exact absurd ((hall _ hreach).1 (by decide +kernel)) (by decide +kernel)

end RdmaManager
