import Mathlib.Algebra.Order.BigOperators.Group.List
import Mathlib.Algebra.Order.Group.Nat
import Mathlib.Algebra.GroupWithZero.Nat
import RdmaManager.Perf.Credits
/-!
# The flow control conserves credits

Every message is in one place: it is beyond the client's budget, in
flight, arrived, or counted by the server, which has acknowledged it or
will with the rest of its batch. `CreditInv` says so in numbers, with the
bounds that the stages of the two threads keep. Every step keeps it
(`CreditInv.step`), and what the flow control is for is read off it.
-/

namespace RdmaManager

variable {c : PerfConfig} {s : Perf} {t : PerfTrail}

/-! ## The invariant -/

/-- The messages of the burst that have been sent and that the client has not
accounted for. -/
def ClientStage.sent : ClientStage → ℕ
  | .posting _ _ i => i
  | .sending _ _ i => i
  | .completing sendBudget => sendBudget
  | _ => 0

/-- What a budget of a burst is. -/
def PerfClient.Bursts (c : PerfConfig) (k : PerfClient) (sendBudget : ℕ) : Prop :=
  k.pendingMessages + sendBudget ≤ c.maxWr ∧ sendBudget ≤ k.totalBudget ∧
    (sendBudget < k.totalBudget → k.pendingMessages + sendBudget = c.maxWr)

/-- What the client's stage says. -/
def PerfClient.Ok (c : PerfConfig) (k : PerfClient) : Prop :=
  match k.stage with
  | .round => ¬ (k.totalBudget = 0 ∧ k.pendingMessages = 0) ∧
      (0 < k.totalBudget → k.pendingMessages < c.maxWr)
  | .posting sendBudget _ i => k.Bursts c sendBudget ∧ i < sendBudget
  | .sending sendBudget _ i => k.Bursts c sendBudget ∧ i < sendBudget
  | .completing sendBudget => k.Bursts c sendBudget ∧ 0 < sendBudget
  | .polling => True
  | .done => k.totalBudget = 0 ∧ k.pendingMessages = 0

/-- The messages that the server has counted and not acknowledged. -/
def PerfServer.unacked (k : PerfServer) : ℕ :=
  match k.stage with
  | .completing => 0
  | _ => k.ackMsgCounter

/-- The message that the server has polled and not counted. -/
def PerfServer.uncounted (k : PerfServer) : ℕ :=
  match k.stage with
  | .reposting => 1
  | _ => 0

/-- What the server's stage says. -/
def PerfServer.Ok (c : PerfConfig) (k : PerfServer) : Prop :=
  match k.stage with
  | .polling => k.ackMsgCounter < c.ackMsgPackgin ∧ (0 < k.totalBudget ∨ 0 < k.budgetR)
  | .reposting => k.ackMsgCounter < c.ackMsgPackgin
  | .acking => 0 < k.ackMsgCounter ∧ k.ackMsgCounter ≤ c.ackMsgPackgin ∧
      (k.ackMsgCounter = c.ackMsgPackgin ∨ k.totalBudget = 0 ∧ k.budgetR = 0)
  | .completing => 0 < k.ackMsgCounter ∧ k.ackMsgCounter ≤ c.ackMsgPackgin ∧
      (k.ackMsgCounter = c.ackMsgPackgin ∨ k.totalBudget = 0 ∧ k.budgetR = 0)
  | .done => k.totalBudget = 0 ∧ k.budgetR = 0 ∧ k.ackMsgCounter = 0

/-- **Every message is in one place.** -/
structure CreditInv (c : PerfConfig) (s : Perf) (t : PerfTrail) : Prop where
  sent : t.sent + s.client.totalBudget = c.total + s.client.stage.sent
  pending : s.client.pendingMessages + s.client.stage.sent + t.acknowledged = t.sent
  room : s.client.pendingMessages ≤ c.maxWr
  client : s.client.Ok c
  data : t.sent + s.server.totalBudget + s.server.budgetR =
    c.total + s.wire.messages + s.wire.arrived
  receives : s.wire.receives + s.wire.arrived = s.server.budgetR
  window : s.server.budgetR + s.server.uncounted ≤ c.maxWr ∧
    (0 < s.server.totalBudget → s.server.budgetR + s.server.uncounted = c.maxWr)
  server : s.server.Ok c
  counted : t.ackSum + s.server.unacked + s.server.uncounted + s.server.totalBudget +
    s.server.budgetR = c.total
  acks : t.ackSum = t.acknowledged + s.wire.acks.sum + s.wire.ack.getD 0
  values : ∀ imm ∈ s.wire.acks ++ s.wire.ack.toList, 0 < imm
  one : s.wire.ack ≠ none → s.server.stage = .completing

/-- What is pending, with what is being sent, is within the limit. -/
theorem PerfClient.Ok.room {k : PerfClient} (h : k.Ok c) (hroom : k.pendingMessages ≤ c.maxWr) :
    k.pendingMessages + k.stage.sent ≤ c.maxWr := by
  unfold PerfClient.Ok PerfClient.Bursts at h
  unfold ClientStage.sent
  rcases hstage : k.stage <;> simp only [hstage] at h ⊢ <;> omega

namespace CreditInv

/-- What the server has acknowledged it has received. -/
theorem ackSum_le (h : CreditInv c s t) : t.ackSum + s.wire.messages + s.wire.arrived ≤ t.sent := by
  have hdata := h.data
  have hcounted := h.counted
  omega

/-- An acknowledgement is in flight only while the server waits for it to
complete. -/
theorem ack_none (h : CreditInv c s t) (hstage : s.server.stage ≠ .completing) :
    s.wire.ack = none := by
  by_contra hsome
  exact hstage (h.one hsome)

theorem totalBudget_le (h : CreditInv c s t) : s.client.totalBudget ≤ c.total := by
  have hsent := h.sent
  have hpending := h.pending
  omega

/-- **Every message finds a receive**: what is in flight is what the server
has receives for. -/
theorem messages_le (h : CreditInv c s t) : s.wire.messages ≤ s.wire.receives := by
  have hdata := h.data
  have hreceives := h.receives
  have hcounted := h.counted
  have hacks := h.acks
  have hpending := h.pending
  have hroom := h.client.room h.room
  have hsent := h.sent
  rcases Nat.eq_zero_or_pos s.server.totalBudget with hzero | hpos
  · -- the receives that are left are for the messages that are left
    have hle : s.client.stage.sent ≤ s.client.totalBudget := by
      have hclient := h.client
      unfold PerfClient.Ok PerfClient.Bursts at hclient
      unfold ClientStage.sent
      rcases hstage : s.client.stage <;> simp only [hstage] at hclient ⊢ <;> omega
    omega
  · -- the window is full, and no more than a window is pending
    have hwindow := h.window.2 hpos
    omega

/-! ### What a stage says -/

/-- Outside a burst, what was sent is accounted for. -/
theorem settled (h : CreditInv c s t) (hzero : s.client.stage.sent = 0) :
    t.sent + s.client.totalBudget = c.total ∧
      s.client.pendingMessages + t.acknowledged = t.sent := by
  have hsent := h.sent
  have hpending := h.pending
  omega

theorem of_sending (h : CreditInv c s t) {sendBudget ackMsgCounter i : ℕ}
    (hstage : s.client.stage = .sending sendBudget ackMsgCounter i) :
    (s.client.Bursts c sendBudget ∧ i < sendBudget) ∧
      t.sent + s.client.totalBudget = c.total + i ∧
      s.client.pendingMessages + i + t.acknowledged = t.sent := by
  have hok := h.client
  have hsent := h.sent
  have hpending := h.pending
  unfold PerfClient.Ok at hok
  rw [hstage] at hok hsent hpending
  exact ⟨hok, hsent, hpending⟩

theorem of_completing (h : CreditInv c s t) {sendBudget : ℕ}
    (hstage : s.client.stage = .completing sendBudget) :
    (s.client.Bursts c sendBudget ∧ 0 < sendBudget) ∧
      t.sent + s.client.totalBudget = c.total + sendBudget ∧
      s.client.pendingMessages + sendBudget + t.acknowledged = t.sent := by
  have hok := h.client
  have hsent := h.sent
  have hpending := h.pending
  unfold PerfClient.Ok at hok
  rw [hstage] at hok hsent hpending
  exact ⟨hok, hsent, hpending⟩

/-- When the client's loop has ended, all is sent and acknowledged. -/
theorem of_done (h : CreditInv c s t) (hstage : s.client.stage = .done) :
    (s.client.totalBudget = 0 ∧ s.client.pendingMessages = 0) ∧ t.sent = c.total ∧
      t.acknowledged = c.total := by
  have hok := h.client
  obtain ⟨hsent, hpending⟩ := h.settled (by rw [hstage]; rfl)
  unfold PerfClient.Ok at hok
  rw [hstage] at hok
  refine ⟨hok, ?_, ?_⟩ <;> omega

theorem of_serverPolling (h : CreditInv c s t) (hstage : s.server.stage = .polling) :
    (s.server.ackMsgCounter < c.ackMsgPackgin ∧ (0 < s.server.totalBudget ∨ 0 < s.server.budgetR)) ∧
      t.ackSum + s.server.ackMsgCounter + s.server.totalBudget + s.server.budgetR = c.total := by
  have hok := h.server
  have hcounted := h.counted
  unfold PerfServer.Ok at hok
  unfold PerfServer.unacked PerfServer.uncounted at hcounted
  rw [hstage] at hok hcounted
  exact ⟨hok, hcounted⟩

theorem of_reposting (h : CreditInv c s t) (hstage : s.server.stage = .reposting) :
    s.server.ackMsgCounter < c.ackMsgPackgin ∧
      t.ackSum + s.server.ackMsgCounter + 1 + s.server.totalBudget + s.server.budgetR = c.total := by
  have hok := h.server
  have hcounted := h.counted
  unfold PerfServer.Ok at hok
  unfold PerfServer.unacked PerfServer.uncounted at hcounted
  rw [hstage] at hok hcounted
  exact ⟨hok, hcounted⟩

theorem of_acking (h : CreditInv c s t) (hstage : s.server.stage = .acking) :
    (0 < s.server.ackMsgCounter ∧ s.server.ackMsgCounter ≤ c.ackMsgPackgin ∧
        (s.server.ackMsgCounter = c.ackMsgPackgin ∨
          s.server.totalBudget = 0 ∧ s.server.budgetR = 0)) ∧
      t.ackSum + s.server.ackMsgCounter + s.server.totalBudget + s.server.budgetR = c.total := by
  have hok := h.server
  have hcounted := h.counted
  unfold PerfServer.Ok at hok
  unfold PerfServer.unacked PerfServer.uncounted at hcounted
  rw [hstage] at hok hcounted
  exact ⟨hok, hcounted⟩

/-- When the server's loop has ended, it has acknowledged all. -/
theorem of_serverDone (h : CreditInv c s t) (hstage : s.server.stage = .done) :
    t.ackSum = c.total := by
  have hok := h.server
  have hcounted := h.counted
  unfold PerfServer.Ok at hok
  unfold PerfServer.unacked PerfServer.uncounted at hcounted
  rw [hstage] at hok hcounted
  simp only at hok hcounted
  omega

/-- What the server casts to `uint32_t` fits. -/
theorem cast_eq (h : CreditInv c s t) (hstage : s.server.stage = .acking) :
    s.server.ackMsgCounter % 2 ^ 32 = s.server.ackMsgCounter := by
  have hpack := c.ackMsgPackgin_le
  have hM := c.maxWr_lt
  obtain ⟨⟨-, hle, -⟩, -⟩ := h.of_acking hstage
  exact Nat.mod_eq_of_lt (by omega)

/-! ## The client's steps -/

/-- **The head of a round**: the client has no budget and polls, or a
burst begins. -/
theorem begins_cases (h : CreditInv c s t) (hstage : s.client.stage = .round) :
    s.client.totalBudget = 0 ∧
        s.begins c = { s with client := { s.client with stage := .polling } } ∨
      0 < s.client.totalBudget ∧ ∃ sendBudget, s.client.Bursts c sendBudget ∧ 0 < sendBudget ∧
        s.begins c = { s with client := { s.client with
          stage := .posting sendBudget s.client.ackMsgCounter 0 } } := by
  have hok := h.client
  have hroom := h.room
  have hM := c.maxWr_lt
  unfold PerfClient.Ok at hok
  rw [hstage] at hok
  obtain ⟨hnot, hlt⟩ := hok
  unfold Perf.begins
  rw [if_neg hnot, sub64_of_le hroom (by omega)]
  obtain ⟨sendBudget, hbudget⟩ : ∃ sendBudget, sendBudget =
      if s.client.totalBudget < c.maxWr - s.client.pendingMessages then s.client.totalBudget
      else c.maxWr - s.client.pendingMessages := ⟨_, rfl⟩
  simp only [← hbudget]
  rcases Nat.eq_zero_or_pos s.client.totalBudget with hzero | hpos
  · have hnone : ¬ 0 < sendBudget := by
      split_ifs at hbudget <;> omega
    rw [if_neg hnone]
    exact Or.inl ⟨hzero, rfl⟩
  · have hfree := hlt hpos
    have hsome : 0 < sendBudget := by
      split_ifs at hbudget <;> omega
    have hbursts : s.client.Bursts c sendBudget := by
      unfold PerfClient.Bursts
      split_ifs at hbudget <;> omega
    rw [if_pos hsome]
    exact Or.inr ⟨hpos, sendBudget, hbursts, hsome, rfl⟩

theorem begins (h : CreditInv c s t) (hstage : s.client.stage = .round) :
    CreditInv c (s.begins c) t := by
  have hsent := h.sent
  have hpending := h.pending
  rw [hstage] at hsent hpending
  rcases h.begins_cases hstage with ⟨-, hbegins⟩ | ⟨-, sendBudget, hbursts, hpos, hbegins⟩
  · rw [hbegins]
    exact ⟨hsent, hpending, h.room, trivial, h.data, h.receives, h.window, h.server, h.counted,
      h.acks, h.values, h.one⟩
  · rw [hbegins]
    exact ⟨hsent, hpending, h.room, ⟨hbursts, hpos⟩, h.data, h.receives, h.window, h.server,
      h.counted, h.acks, h.values, h.one⟩

theorem posts (h : CreditInv c s t) {sendBudget ackMsgCounter i : ℕ}
    (hstage : s.client.stage = .posting sendBudget ackMsgCounter i) :
    CreditInv c (s.posts c) t := by
  have hclient := h.client
  have hsent := h.sent
  have hpending := h.pending
  unfold PerfClient.Ok at hclient
  rw [hstage] at hclient hsent hpending
  unfold Perf.posts
  rw [hstage]
  exact ⟨hsent, hpending, h.room, hclient, h.data, h.receives, h.window, h.server, h.counted,
    h.acks, h.values, h.one⟩

theorem sends (h : CreditInv c s t) {sendBudget ackMsgCounter i : ℕ}
    (hstage : s.client.stage = .sending sendBudget ackMsgCounter i) :
    CreditInv c s.sends { t with sent := t.sent + 1 } := by
  obtain ⟨⟨hbursts, hlt⟩, hsent, hpending⟩ := h.of_sending hstage
  have hdata := h.data
  unfold Perf.sends
  rw [hstage]
  have hstage' : (if i + 1 = sendBudget then ClientStage.completing sendBudget
      else .posting sendBudget ackMsgCounter (i + 1)).sent = i + 1 := by
    split_ifs with hlast
    · exact hlast.symm
    · rfl
  refine ⟨?_, ?_, h.room, ?_, ?_, h.receives, h.window, h.server, h.counted, h.acks, h.values, h.one⟩
  · show t.sent + 1 + s.client.totalBudget = c.total + _
    rw [hstage']
    omega
  · show s.client.pendingMessages + _ + t.acknowledged = t.sent + 1
    rw [hstage']
    omega
  · by_cases hlast : i + 1 = sendBudget
    · simp only [if_pos hlast]
      exact ⟨hbursts, by omega⟩
    · simp only [if_neg hlast]
      exact ⟨hbursts, by omega⟩
  · show t.sent + 1 + s.server.totalBudget + s.server.budgetR =
      c.total + (s.wire.messages + 1) + s.wire.arrived
    omega

/-- What the client accounts for after a burst. -/
theorem completes_eq (h : CreditInv c s t) {sendBudget : ℕ}
    (hstage : s.client.stage = .completing sendBudget) :
    s.completes = { s with client := { s.client with
      stage := .polling
      totalBudget := s.client.totalBudget - sendBudget
      pendingMessages := s.client.pendingMessages + sendBudget } } := by
  have htotal := h.totalBudget_le
  have hM := c.maxWr_lt
  have hN := c.total_lt
  obtain ⟨⟨⟨hroom, hbudget, -⟩, -⟩, -⟩ := h.of_completing hstage
  unfold Perf.completes
  rw [hstage]
  simp only
  rw [sub64_of_le hbudget (by omega), wrap64_of_lt (by omega)]

theorem completes (h : CreditInv c s t) {sendBudget : ℕ}
    (hstage : s.client.stage = .completing sendBudget) : CreditInv c s.completes t := by
  obtain ⟨⟨⟨hroom, hbudget, -⟩, -⟩, hsent, hpending⟩ := h.of_completing hstage
  rw [h.completes_eq hstage]
  refine ⟨?_, ?_, hroom, trivial, h.data, h.receives, h.window, h.server, h.counted, h.acks,
    h.values, h.one⟩
  · show t.sent + (s.client.totalBudget - sendBudget) = c.total + 0
    omega
  · show s.client.pendingMessages + sendBudget + 0 + t.acknowledged = t.sent
    omega

/-- What the client polls is pending. -/
theorem acks_le (h : CreditInv c s t) (hstage : s.client.stage = .polling) :
    s.wire.acks.sum ≤ s.client.pendingMessages := by
  have hacks := h.acks
  have hle := h.ackSum_le
  obtain ⟨-, hpending⟩ := h.settled (by rw [hstage]; rfl)
  omega

theorem takes_eq (h : CreditInv c s t) (hstage : s.client.stage = .polling) {imm : ℕ}
    {acks : List ℕ} (hwire : s.wire.acks = imm :: acks) :
    imm ≤ s.client.pendingMessages ∧
      s.takes = { s with
        client := { s.client with pendingMessages := s.client.pendingMessages - imm }
        wire := { s.wire with acks } } := by
  have hle := h.acks_le hstage
  have hroom := h.room
  have hM := c.maxWr_lt
  rw [hwire, List.sum_cons] at hle
  refine ⟨by omega, ?_⟩
  unfold Perf.takes
  rw [hwire]
  simp only
  rw [sub64_of_le (by omega) (by omega)]

theorem takes (h : CreditInv c s t) (hstage : s.client.stage = .polling) {imm : ℕ} {acks : List ℕ}
    (hwire : s.wire.acks = imm :: acks) :
    CreditInv c s.takes { t with acknowledged := t.acknowledged + s.wire.acks.headD 0 } := by
  obtain ⟨hle, htakes⟩ := h.takes_eq hstage hwire
  have hacks := h.acks
  have hpending := h.pending
  have hroom := h.room
  have hvalues := h.values
  rw [hwire, List.sum_cons] at hacks
  rw [hwire] at hvalues
  rw [htakes, hwire]
  refine ⟨h.sent, ?_, ?_, ?_, h.data, h.receives, h.window, h.server, h.counted, ?_, ?_, h.one⟩
  · show s.client.pendingMessages - imm + s.client.stage.sent + (t.acknowledged + imm) = t.sent
    omega
  · show s.client.pendingMessages - imm ≤ c.maxWr
    omega
  · unfold PerfClient.Ok
    simp only [hstage]
  · show t.ackSum = t.acknowledged + imm + acks.sum + s.wire.ack.getD 0
    omega
  · intro v hv
    exact hvalues v (List.mem_cons_of_mem imm hv)

theorem leaves (h : CreditInv c s t) (hstage : s.client.stage = .polling)
    (hnot : s.client.pendingMessages ≠ c.maxWr) : CreditInv c s.leaves t := by
  have hsent := h.sent
  have hpending := h.pending
  have hroom := h.room
  rw [hstage] at hsent hpending
  unfold Perf.leaves
  by_cases hfin : s.client.totalBudget = 0 ∧ s.client.pendingMessages = 0
  · rw [if_pos hfin]
    exact ⟨hsent, hpending, hroom, hfin, h.data, h.receives, h.window, h.server, h.counted, h.acks,
      h.values, h.one⟩
  · -- without room the poll would have waited
    rw [if_neg hfin]
    refine ⟨hsent, hpending, hroom, ⟨hfin, fun _ => ?_⟩, h.data, h.receives, h.window, h.server,
      h.counted, h.acks, h.values, h.one⟩
    exact lt_of_le_of_ne hroom hnot

/-! ## The connection's steps and the server's -/

theorem arrives (h : CreditInv c s t) (hpos : 0 < s.wire.messages) : CreditInv c s.arrives t := by
  have hfinds := h.messages_le
  have hdata := h.data
  have hreceives := h.receives
  refine ⟨h.sent, h.pending, h.room, h.client, ?_, ?_, h.window, h.server, h.counted, h.acks,
    h.values, h.one⟩
  · show t.sent + s.server.totalBudget + s.server.budgetR =
      c.total + (s.wire.messages - 1) + (s.wire.arrived + 1)
    omega
  · show s.wire.receives - 1 + (s.wire.arrived + 1) = s.server.budgetR
    omega

theorem serverTakes (h : CreditInv c s t) (hstage : s.server.stage = .polling)
    (hpos : 0 < s.wire.arrived) : CreditInv c s.serverTakes t := by
  have hdata := h.data
  have hreceives := h.receives
  have hwindow := h.window
  have hM := c.maxWr_lt
  have hone := h.one
  obtain ⟨hserver, hcounted⟩ := h.of_serverPolling hstage
  unfold PerfServer.uncounted at hwindow
  rw [hstage] at hwindow hone
  simp only at hwindow
  have hbudget : sub64 s.server.budgetR 1 = s.server.budgetR - 1 :=
    sub64_of_le (by omega) (by omega)
  unfold Perf.serverTakes
  rw [hbudget]
  refine ⟨h.sent, h.pending, h.room, h.client, ?_, ?_, ?_, hserver.1, ?_, h.acks, h.values,
    fun hack => ?_⟩
  · show t.sent + s.server.totalBudget + (s.server.budgetR - 1) =
      c.total + s.wire.messages + (s.wire.arrived - 1)
    omega
  · show s.wire.receives + (s.wire.arrived - 1) = s.server.budgetR - 1
    omega
  · show s.server.budgetR - 1 + 1 ≤ c.maxWr ∧
      (0 < s.server.totalBudget → s.server.budgetR - 1 + 1 = c.maxWr)
    omega
  · show t.ackSum + s.server.ackMsgCounter + 1 + s.server.totalBudget + (s.server.budgetR - 1) =
      c.total
    omega
  · exact absurd (hone hack) (by simp)

theorem acking (h : CreditInv c s t) (hstage : s.server.stage = .acking) :
    CreditInv c s.acks { t with ackSum := t.ackSum + s.server.ackMsgCounter % 2 ^ 32 } := by
  have hacks := h.acks
  have hvalues := h.values
  have hwindow := h.window
  have hnone := h.ack_none (by rw [hstage]; simp)
  obtain ⟨hok, hcounted⟩ := h.of_acking hstage
  unfold PerfServer.uncounted at hwindow
  rw [hstage] at hwindow
  rw [hnone] at hacks hvalues
  have hacks' : t.ackSum = t.acknowledged + s.wire.acks.sum + 0 := hacks
  unfold Perf.acks
  rw [h.cast_eq hstage]
  refine ⟨h.sent, h.pending, h.room, h.client, h.data, h.receives, hwindow, hok, ?_, ?_, ?_,
    fun _ => rfl⟩
  · show t.ackSum + s.server.ackMsgCounter + 0 + 0 + s.server.totalBudget + s.server.budgetR = c.total
    omega
  · show t.ackSum + s.server.ackMsgCounter =
      t.acknowledged + s.wire.acks.sum + s.server.ackMsgCounter
    omega
  · intro v hv
    rcases List.mem_append.mp hv with hold | hnew
    · exact hvalues v (List.mem_append_left _ hold)
    · rw [List.mem_singleton.mp hnew]
      exact hok.1

theorem ackArrives (h : CreditInv c s t) (n : ℕ) :
    CreditInv c s.ackArrives { t with ackCount := n } := by
  have hacks := h.acks
  refine ⟨h.sent, h.pending, h.room, h.client, h.data, h.receives, h.window, h.server, h.counted,
    ?_, ?_, fun hbad => absurd rfl hbad⟩
  · show t.ackSum = t.acknowledged + (s.wire.acks ++ s.wire.ack.toList).sum + 0
    rw [List.sum_append, hacks]
    cases s.wire.ack with
    | none => rfl
    | some imm => simp [Nat.add_assoc]
  · intro v hv
    refine h.values v ?_
    show v ∈ s.wire.acks ++ s.wire.ack.toList
    have hv' : v ∈ s.wire.acks ++ s.wire.ack.toList ++ [] := hv
    rwa [List.append_nil] at hv'

/-- The server goes on while a message is to come. -/
theorem again_ok {k : PerfServer} (hstage : k.stage = Perf.again k.totalBudget k.budgetR)
    (hlt : k.ackMsgCounter < c.ackMsgPackgin)
    (hzero : k.totalBudget = 0 → k.budgetR = 0 → k.ackMsgCounter = 0) :
    k.Ok c ∧ k.unacked = k.ackMsgCounter ∧ k.uncounted = 0 := by
  unfold PerfServer.Ok PerfServer.unacked PerfServer.uncounted
  unfold Perf.again at hstage
  split_ifs at hstage with hmore
  · rw [hstage]
    exact ⟨⟨hlt, hmore⟩, rfl, rfl⟩
  · rw [hstage]
    have h₁ : k.totalBudget = 0 := by omega
    have h₂ : k.budgetR = 0 := by omega
    exact ⟨⟨h₁, h₂, hzero h₁ h₂⟩, rfl, rfl⟩

theorem reposts (h : CreditInv c s t) (hstage : s.server.stage = .reposting) :
    CreditInv c (s.reposts c) t := by
  have hwindow := h.window
  have hdata := h.data
  have hreceives := h.receives
  have hone := h.one
  have hN := c.total_lt
  obtain ⟨hlt, hcounted⟩ := h.of_reposting hstage
  unfold PerfServer.uncounted at hwindow
  rw [hstage] at hwindow hone
  simp only at hwindow
  obtain ⟨totalBudget, htotal⟩ : ∃ totalBudget, totalBudget =
      if 0 < s.server.totalBudget then sub64 s.server.totalBudget 1 else s.server.totalBudget :=
    ⟨_, rfl⟩
  obtain ⟨budgetR, hbudget⟩ : ∃ budgetR, budgetR =
      if 0 < s.server.totalBudget then s.server.budgetR + 1 else s.server.budgetR := ⟨_, rfl⟩
  obtain ⟨receives, hposted⟩ : ∃ receives, receives =
      if 0 < s.server.totalBudget then s.wire.receives + 1 else s.wire.receives := ⟨_, rfl⟩
  -- a receive is posted again exactly where the budget allows it
  have hsum : totalBudget + budgetR = s.server.totalBudget + s.server.budgetR ∧
      budgetR ≤ c.maxWr ∧ (0 < totalBudget → budgetR = c.maxWr) ∧
      receives + s.wire.arrived = budgetR := by
    by_cases hmore : 0 < s.server.totalBudget
    · rw [if_pos hmore] at htotal hbudget hposted
      rw [sub64_of_le (by omega) (by omega)] at htotal
      omega
    · rw [if_neg hmore] at htotal hbudget hposted
      omega
  obtain ⟨hsum, hle, hfull, hkeeps⟩ := hsum
  unfold Perf.reposts
  simp only [← htotal, ← hbudget, ← hposted]
  -- whatever the server does next
  have hfacts : ∀ stage, (⟨stage, totalBudget, budgetR, s.server.ackMsgCounter + 1⟩ : PerfServer).Ok c →
      (⟨stage, totalBudget, budgetR, s.server.ackMsgCounter + 1⟩ : PerfServer).unacked =
        s.server.ackMsgCounter + 1 →
      (⟨stage, totalBudget, budgetR, s.server.ackMsgCounter + 1⟩ : PerfServer).uncounted = 0 →
      CreditInv c ⟨s.client, ⟨stage, totalBudget, budgetR, s.server.ackMsgCounter + 1⟩,
        { s.wire with receives := receives }⟩ t := by
    intro stage hok hunacked huncounted
    refine ⟨h.sent, h.pending, h.room, h.client, ?_, hkeeps, ?_, hok, ?_, h.acks, h.values,
      fun hack => ?_⟩
    · show t.sent + totalBudget + budgetR = c.total + s.wire.messages + s.wire.arrived
      omega
    · rw [huncounted]
      exact ⟨hle, hfull⟩
    · rw [hunacked, huncounted]
      show t.ackSum + (s.server.ackMsgCounter + 1) + 0 + totalBudget + budgetR = c.total
      omega
    · exact absurd (hone hack) (by simp)
  by_cases hack : s.server.ackMsgCounter + 1 = c.ackMsgPackgin ∨ totalBudget = 0 ∧ budgetR = 0
  · rw [if_pos hack]
    exact hfacts _ ⟨Nat.succ_pos _, hlt, hack⟩ rfl rfl
  · rw [if_neg hack]
    obtain ⟨hok, hunacked, huncounted⟩ := again_ok
      (k := ⟨Perf.again totalBudget budgetR, totalBudget, budgetR, s.server.ackMsgCounter + 1⟩) rfl
      (by show s.server.ackMsgCounter + 1 < c.ackMsgPackgin; omega)
      (fun h₁ h₂ => absurd (Or.inr ⟨h₁, h₂⟩) hack)
    exact hfacts _ hok hunacked huncounted

theorem returns (h : CreditInv c s t) (hstage : s.server.stage = .completing)
    (hack : s.wire.ack = none) : CreditInv c s.returns t := by
  have hcounted := h.counted
  have hwindow := h.window
  unfold PerfServer.uncounted at hwindow hcounted
  unfold PerfServer.unacked at hcounted
  rw [hstage] at hwindow hcounted
  obtain ⟨hserver, hunacked, huncounted⟩ := again_ok (k := s.returns.server) rfl
    c.ackMsgPackgin_pos fun _ _ => rfl
  refine ⟨h.sent, h.pending, h.room, h.client, h.data, h.receives, ?_, hserver, ?_, h.acks, h.values,
    fun hsome => absurd hack hsome⟩
  · rw [huncounted]
    exact hwindow
  · rw [huncounted, hunacked]
    exact hcounted

/-- The state in which the client may begin. -/
theorem start (c : PerfConfig) : CreditInv c (Perf.start c) ⟨0, 0, 0, 0⟩ := by
  have hM := c.maxWr_pos
  have hN := c.total_pos
  have hlt := c.total_lt
  have hpack := c.ackMsgPackgin_pos
  obtain ⟨budgetR, hbudget⟩ : ∃ budgetR, budgetR =
      if c.maxWr < c.total then c.maxWr else c.total := ⟨_, rfl⟩
  have hle : budgetR ≤ c.total ∧ budgetR ≤ c.maxWr ∧ (budgetR < c.total → budgetR = c.maxWr) ∧
      0 < budgetR := by
    split_ifs at hbudget <;> omega
  unfold Perf.start
  simp only [← hbudget]
  rw [sub64_of_le hle.1 hlt]
  refine ⟨Nat.add_comm _ _, rfl, Nat.zero_le _,
    ⟨by show ¬ (c.total = 0 ∧ 0 = 0); omega, fun _ => hM⟩, ?_, rfl,
    ⟨hle.2.1, fun hpos => hle.2.2.1 (Nat.lt_of_sub_pos hpos)⟩, ⟨hpack, Or.inr hle.2.2.2⟩, ?_, rfl,
    fun v hv => absurd hv List.not_mem_nil, fun hbad => absurd rfl hbad⟩
  · show 0 + (c.total - budgetR) + budgetR = c.total + 0 + 0
    omega
  · show 0 + 0 + 0 + (c.total - budgetR) + budgetR = c.total
    omega

theorem step (h : CreditInv c s t) {e : PerfEvent} (hen : s.Enabled c e) :
    CreditInv c (s.exec c e) (PerfTrail.write s e (s.exec c e) t) := by
  cases e with
  | begins => exact h.begins hen
  | posts =>
      obtain ⟨sendBudget, ackMsgCounter, i, hstage⟩ := hen
      exact h.posts hstage
  | sends =>
      obtain ⟨sendBudget, ackMsgCounter, i, hstage⟩ := hen
      exact h.sends hstage
  | completes =>
      obtain ⟨⟨sendBudget, hstage⟩, -⟩ := hen
      exact h.completes hstage
  | takes =>
      obtain ⟨imm, acks, hwire⟩ := List.exists_cons_of_ne_nil hen.2
      exact h.takes hen.1 hwire
  | leaves => exact h.leaves hen.1 hen.2.2
  | arrives => exact h.arrives hen
  | serverTakes => exact h.serverTakes hen.1 hen.2
  | reposts => exact h.reposts hen
  | acks => exact h.acking hen
  | ackArrives => exact h.ackArrives _
  | returns => exact h.returns hen.1 hen.2

end CreditInv

theorem creditInv_invariant (c : PerfConfig) :
    (perfTrails c).Invariant fun x => CreditInv c x.1 x.2 where
  init x hinit := by
    rw [hinit.1, hinit.2]
    exact CreditInv.start c
  step x e y _ h hstep := by
    obtain ⟨⟨hen, hexec⟩, hwrite⟩ := hstep
    rw [hwrite, hexec]
    exact h.step hen

end RdmaManager
