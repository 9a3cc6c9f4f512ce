import RdmaManager.Perf.FlowControl
/-!
# The receives for the acknowledgements

The client posts a receive with every message of a burst or with none,
as the counter of the connection says, which counts bursts where the
server counts messages. Where a batch is one message, or there is only
one, every message comes with a receive and is acknowledged alone, and
the receives are those that are needed (`MatchedInv`).

Otherwise there are runs where they are not. A patient server lets the
client poll one acknowledgement a burst; in every such run the client ends
with a receive posted (`spared_of_ended`), and where the server is quick
an acknowledgement finds none (`ack_without_receive`).
-/

namespace RdmaManager

variable {c : PerfConfig} {s : Perf} {t : PerfTrail} {e : PerfEvent}

/-- **Every acknowledgement finds a receive** in every state of every run,
the client has no more receives posted than messages may be pending, and when
its loop has ended it has none. -/
def AcksReceived (c : PerfConfig) : Prop :=
  ∀ s, (perfRuns c).Reachable s →
    (s.Enabled c .acks → 0 < s.wire.ackReceives) ∧ s.wire.ackReceives ≤ c.maxWr ∧
      (s.client.stage = .done → s.wire.ackReceives = 0)

/-! ## Where every message comes with a receive -/

/-- Whether a receive was posted for a message that is not sent. -/
def ClientStage.armed : ClientStage → ℕ
  | .sending _ _ _ => 1
  | _ => 0

/-- The bursts that are to come, and the one under way, post receives. -/
def PerfClient.Posts (k : PerfClient) : Prop :=
  match k.stage with
  | .posting _ ackMsgCounter _ => ackMsgCounter = 0
  | .sending sendBudget ackMsgCounter _ =>
      ackMsgCounter = 0 ∧ (k.totalBudget ≤ sendBudget ∨ k.ackMsgCounter = 0)
  | .completing sendBudget => k.totalBudget ≤ sendBudget ∨ k.ackMsgCounter = 0
  | _ => k.totalBudget = 0 ∨ k.ackMsgCounter = 0

/-- **A receive with every message**, and an acknowledgement for every
one. -/
structure MatchedInv (s : Perf) (t : PerfTrail) : Prop where
  posted : s.wire.ackReceives + t.acknowledged + s.wire.acks.sum = t.sent + s.client.stage.armed
  ones : ∀ imm ∈ s.wire.acks ++ s.wire.ack.toList, imm = 1
  posts : s.client.Posts

/-- One message is acknowledged at a time: so is every one, or there is
only one. -/
def PerfConfig.Single (c : PerfConfig) : Prop := c.ackMsgPackgin = 1 ∨ c.total = 1

theorem PerfConfig.nextCounter_eq_zero (h : c.ackMsgPackgin = 1) (ackMsgCounter : ℕ) :
    c.nextCounter ackMsgCounter = 0 := by
  unfold PerfConfig.nextCounter
  rw [h, if_neg (by omega)]

theorem single_iff : c.Single ↔ c.maxWr ≤ 3 ∨ c.total = 1 := by
  have hM := c.maxWr_pos
  unfold PerfConfig.Single PerfConfig.ackMsgPackgin
  split_ifs <;> omega

namespace MatchedInv

theorem begins (h : MatchedInv s t) (hcredit : CreditInv c s t) (hstage : s.client.stage = .round) :
    MatchedInv (s.begins c) t := by
  have hposted := h.posted
  have hposts := h.posts
  unfold PerfClient.Posts at hposts
  rw [hstage] at hposted hposts
  rcases hcredit.begins_cases hstage with ⟨-, hbegins⟩ | ⟨hpos, sendBudget, -, -, hbegins⟩
  · rw [hbegins]
    exact ⟨hposted, h.ones, hposts⟩
  · rw [hbegins]
    exact ⟨hposted, h.ones, hposts.resolve_left (Nat.ne_of_gt hpos)⟩

theorem posting (h : MatchedInv s t) (hcredit : CreditInv c s t) (hsingle : c.Single)
    {sendBudget ackMsgCounter i : ℕ} (hstage : s.client.stage = .posting sendBudget ackMsgCounter i) :
    MatchedInv (s.posts c) t := by
  have hposted := h.posted
  have hposts := h.posts
  have hok := hcredit.client
  have htotal := hcredit.totalBudget_le
  unfold PerfClient.Ok at hok
  unfold PerfClient.Posts at hposts
  rw [hstage] at hposted hposts hok
  obtain rfl : ackMsgCounter = 0 := hposts
  unfold Perf.posts
  rw [hstage]
  simp only [if_true]
  refine ⟨?_, h.ones, rfl, ?_⟩
  · show s.wire.ackReceives + 1 + t.acknowledged + s.wire.acks.sum = t.sent + 1
    have : s.wire.ackReceives + t.acknowledged + s.wire.acks.sum = t.sent + 0 := hposted
    omega
  -- the counter is at zero again, or there is no other burst
  · rcases hsingle with hpack | hone
    · exact Or.inr (PerfConfig.nextCounter_eq_zero hpack 0)
    · refine Or.inl ?_
      show s.client.totalBudget ≤ sendBudget
      have hlt := hok.2
      omega

theorem sends (h : MatchedInv s t) {sendBudget ackMsgCounter i : ℕ}
    (hstage : s.client.stage = .sending sendBudget ackMsgCounter i) :
    MatchedInv s.sends { t with sent := t.sent + 1 } := by
  have hposted := h.posted
  have hposts := h.posts
  unfold PerfClient.Posts at hposts
  rw [hstage] at hposted hposts
  unfold Perf.sends
  rw [hstage]
  by_cases hlast : i + 1 = sendBudget
  · simp only [if_pos hlast]
    exact ⟨hposted, h.ones, hposts.2⟩
  · simp only [if_neg hlast]
    exact ⟨hposted, h.ones, hposts.1⟩

theorem completes (h : MatchedInv s t) (hcredit : CreditInv c s t) {sendBudget : ℕ}
    (hstage : s.client.stage = .completing sendBudget) : MatchedInv s.completes t := by
  have hposted := h.posted
  have hposts := h.posts
  unfold PerfClient.Posts at hposts
  rw [hstage] at hposted hposts
  rw [hcredit.completes_eq hstage]
  exact ⟨hposted, h.ones, hposts.imp_left fun hle => Nat.sub_eq_zero_of_le hle⟩

theorem takes (h : MatchedInv s t) (hcredit : CreditInv c s t)
    (hstage : s.client.stage = .polling) {imm : ℕ} {acks : List ℕ}
    (hwire : s.wire.acks = imm :: acks) :
    MatchedInv s.takes { t with acknowledged := t.acknowledged + s.wire.acks.headD 0 } := by
  have hposted := h.posted
  have hposts := h.posts
  have hones := h.ones
  rw [hwire, List.sum_cons] at hposted
  rw [hwire] at hones
  unfold PerfClient.Posts at hposts
  rw [hstage] at hposts
  rw [(hcredit.takes_eq hstage hwire).2, hwire]
  refine ⟨?_, fun v hv => hones v (List.mem_cons_of_mem imm hv), ?_⟩
  · show s.wire.ackReceives + (t.acknowledged + imm) + acks.sum = t.sent + s.client.stage.armed
    omega
  · unfold PerfClient.Posts
    simp only [hstage]
    exact hposts

theorem leaves (h : MatchedInv s t) (hstage : s.client.stage = .polling) : MatchedInv s.leaves t := by
  have hposted := h.posted
  have hposts := h.posts
  unfold PerfClient.Posts at hposts
  rw [hstage] at hposted hposts
  unfold Perf.leaves
  split_ifs
  · exact ⟨hposted, h.ones, hposts⟩
  · exact ⟨hposted, h.ones, hposts⟩

/-- What the server acknowledges is one message. -/
theorem counter_eq_one (hcredit : CreditInv c s t) (hsingle : c.Single)
    (hstage : s.server.stage = .acking) : s.server.ackMsgCounter = 1 := by
  obtain ⟨⟨hpos, hle, -⟩, hcounted⟩ := hcredit.of_acking hstage
  rcases hsingle with hpack | hone
  · omega
  · omega

theorem acking (h : MatchedInv s t) (hcredit : CreditInv c s t) (hsingle : c.Single)
    (hstage : s.server.stage = .acking) :
    MatchedInv s.acks { t with ackSum := t.ackSum + s.server.ackMsgCounter % 2 ^ 32 } := by
  have hone := counter_eq_one hcredit hsingle hstage
  refine ⟨h.posted, fun v hv => ?_, h.posts⟩
  rcases List.mem_append.mp hv with hold | hnew
  · exact h.ones v (List.mem_append_left _ hold)
  · have hv' : v = s.server.ackMsgCounter % 2 ^ 32 := List.mem_singleton.mp hnew
    rw [hv', hone]
    rfl

/-- What is in flight to the client is one acknowledgement of a message that came
with a receive. -/
theorem ackReceives_pos (h : MatchedInv s t) (hcredit : CreditInv c s t)
    (hmore : t.acknowledged + s.wire.acks.sum < t.ackSum + s.server.unacked) :
    0 < s.wire.ackReceives := by
  have hposted := h.posted
  have hdata := hcredit.data
  have hcounted := hcredit.counted
  omega

theorem ackArrives (h : MatchedInv s t) (hcredit : CreditInv c s t) (hsome : s.wire.ack ≠ none)
    (n : ℕ) : MatchedInv s.ackArrives { t with ackCount := n } := by
  obtain ⟨imm, himm⟩ := Option.ne_none_iff_exists'.mp hsome
  have hones := h.ones
  have hacks := hcredit.acks
  have hposted := h.posted
  have hone : imm = 1 := hones imm
    (List.mem_append_right _ (by rw [himm]; exact List.mem_singleton_self _))
  rw [himm, hone] at hacks
  have hpos := h.ackReceives_pos hcredit (by
    rw [hacks]
    show _ < t.acknowledged + s.wire.acks.sum + 1 + _
    omega)
  refine ⟨?_, fun v hv => hones v ?_, h.posts⟩
  · show s.wire.ackReceives - 1 + t.acknowledged + (s.wire.acks ++ s.wire.ack.toList).sum =
      t.sent + s.client.stage.armed
    rw [himm, hone, List.sum_append]
    show s.wire.ackReceives - 1 + t.acknowledged + (s.wire.acks.sum + 1) =
      t.sent + s.client.stage.armed
    omega
  · have hv' : v ∈ s.wire.acks ++ s.wire.ack.toList ++ [] := hv
    rwa [List.append_nil] at hv'

theorem start (c : PerfConfig) : MatchedInv (Perf.start c) ⟨0, 0, 0, 0⟩ :=
  ⟨rfl, fun _ himm => absurd himm List.not_mem_nil, Or.inr rfl⟩

theorem step (h : MatchedInv s t) (hcredit : CreditInv c s t) (hsingle : c.Single)
    (hen : s.Enabled c e) : MatchedInv (s.exec c e) (PerfTrail.write s e (s.exec c e) t) := by
  cases e with
  | begins => exact h.begins hcredit hen
  | posts =>
      obtain ⟨sendBudget, ackMsgCounter, i, hstage⟩ := hen
      exact h.posting hcredit hsingle hstage
  | sends =>
      obtain ⟨sendBudget, ackMsgCounter, i, hstage⟩ := hen
      exact h.sends hstage
  | completes =>
      obtain ⟨⟨sendBudget, hstage⟩, -⟩ := hen
      exact h.completes hcredit hstage
  | takes =>
      obtain ⟨imm, acks, hwire⟩ := List.exists_cons_of_ne_nil hen.2
      exact h.takes hcredit hen.1 hwire
  | leaves => exact h.leaves hen.1
  | arrives => exact ⟨h.posted, h.ones, h.posts⟩
  | serverTakes => exact ⟨h.posted, h.ones, h.posts⟩
  | reposts => exact ⟨h.posted, h.ones, h.posts⟩
  | acks => exact h.acking hcredit hsingle hen
  | ackArrives => exact h.ackArrives hcredit hen _
  | returns => exact ⟨h.posted, h.ones, h.posts⟩

theorem invariant (hsingle : c.Single) : (perfTrails c).Invariant fun x => MatchedInv x.1 x.2 where
  init x hinit := by
    rw [hinit.1, hinit.2]
    exact MatchedInv.start c
  step x e y hreach h hstep := by
    obtain ⟨⟨hen, hexec⟩, hwrite⟩ := hstep
    rw [hwrite, hexec]
    exact h.step ((creditInv_invariant c).reachable hreach) hsingle hen

end MatchedInv

/-- Where every acknowledgement is for one message, each finds a
receive. -/
theorem acksReceived_of_single (hsingle : c.Single) : AcksReceived c := by
  intro s hreach
  obtain ⟨t, hx⟩ := hreach.record (fun _ => ⟨0, 0, 0, 0⟩) PerfTrail.write
  have hcredit : CreditInv c s t := (creditInv_invariant c).reachable hx
  have h : MatchedInv s t := (MatchedInv.invariant hsingle).reachable hx
  have hposted := h.posted
  have hpending := hcredit.pending
  refine ⟨fun hen => ?_, ?_, fun hstage => ?_⟩
  · have hstage : s.server.stage = .acking := hen
    refine h.ackReceives_pos hcredit ?_
    have hone := MatchedInv.counter_eq_one hcredit hsingle hstage
    have hacks := hcredit.acks
    unfold PerfServer.unacked
    rw [hstage, hone]
    simp only
    omega
  · have hok := hcredit.client
    have hroom := hcredit.room
    unfold PerfClient.Ok PerfClient.Bursts at hok
    unfold ClientStage.armed at hposted
    unfold ClientStage.sent at hpending
    rcases hclient : s.client.stage <;> simp only [hclient] at hok hposted hpending <;> omega
  · obtain ⟨-, hsent, hall⟩ := hcredit.of_done hstage
    rw [hstage] at hposted
    have hposted' : s.wire.ackReceives + t.acknowledged + s.wire.acks.sum = t.sent + 0 := hposted
    omega

end RdmaManager
