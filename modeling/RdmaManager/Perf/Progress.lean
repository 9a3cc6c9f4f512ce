import RdmaManager.Perf.FlowControl
/-!
# Both loops of the benchmark end

The two threads never wait for each other (`not_both_wait`), and from
every state of a run that has not ended there is a step that lowers a
measure of what is left to do (`progress`). So every run can be completed,
with a server that takes its messages late too (`finishes`), which is what
the runs that waste receives need.
-/

namespace RdmaManager

variable {c : PerfConfig} {s : Perf} {t : PerfTrail}

/-- The client can neither send nor end before an acknowledgement comes. -/
def Perf.ClientWaits (c : PerfConfig) (s : Perf) : Prop :=
  s.client.stage = .polling ∧ s.wire.acks = [] ∧
    (s.client.pendingMessages = c.maxWr ∨
      s.client.totalBudget = 0 ∧ 0 < s.client.pendingMessages)

/-- The server can do nothing before a message comes. -/
def Perf.ServerWaits (s : Perf) : Prop := s.server.stage = .polling ∧ s.wire.arrived = 0

/-- Nothing is on its way. -/
def Perf.Silent (s : Perf) : Prop := s.wire.messages = 0 ∧ s.wire.ack = none

/-- Both loops have ended. -/
def Perf.Ended (s : Perf) : Prop := s.client.stage = .done ∧ s.server.stage = .done

/-- The server takes a message only where the client has no budget left, or
all that may be pending is and no acknowledgement has come. -/
def Perf.Patient (c : PerfConfig) (s : Perf) (e : PerfEvent) : Prop :=
  e = .serverTakes → s.client.totalBudget = 0 ∨
    s.client.stage = .polling ∧ s.client.pendingMessages = c.maxWr ∧ s.wire.acks = []

/-- How far a stage of the client is from the end of its round. A round
without budget begins only to poll. -/
def ClientStage.weight (totalBudget : ℕ) : ClientStage → ℕ
  | .round => if totalBudget = 0 then 4 else 2
  | .posting _ _ _ => 1
  | .sending _ _ _ => 0
  | .completing _ => 4
  | .polling => 3
  | .done => 0

def ServerStage.weight : ServerStage → ℕ
  | .polling => 0
  | .reposting => 6
  | .acking => 5
  | .completing => 2
  | .done => 0

/-- What is left to do. -/
def Perf.measure (s : Perf) : ℕ :=
  -- what is to be done for a message weighs less at every place it comes to
  13 * (s.client.totalBudget - s.client.stage.sent) + 8 * s.wire.messages + 7 * s.wire.arrived +
    2 * s.wire.ack.toList.length + s.wire.acks.length + s.server.stage.weight +
    s.client.stage.weight s.client.totalBudget

namespace CreditInv

/-- **Not both wait** where nothing is on its way. -/
theorem not_both_wait (h : CreditInv c s t) :
    ¬ (s.ClientWaits c ∧ s.ServerWaits ∧ s.Silent) := by
  rintro ⟨⟨hclient, hacks, hwaits⟩, ⟨hserver, harrived⟩, hmessages, hack⟩
  have hsum := h.acks
  have hdata := h.data
  have hpack := c.ackMsgPackgin_le
  obtain ⟨hsent, hpending⟩ := h.settled (by rw [hclient]; rfl)
  obtain ⟨hok, hcounted⟩ := h.of_serverPolling hserver
  rw [hacks, hack] at hsum
  have hsum' : t.ackSum = t.acknowledged + 0 + 0 := hsum
  -- what is pending is what the server has not acknowledged, which is less than a batch
  omega

/-- Once all messages are acknowledged the server has nothing to do but
return. -/
theorem server_of_acknowledged (h : CreditInv c s t) (hall : t.acknowledged = c.total) :
    s.server.stage = .done ∨ s.server.stage = .completing ∧ s.wire.ack = none := by
  have hacks := h.acks
  cases hserver : s.server.stage with
  | polling =>
      obtain ⟨⟨-, hmore⟩, hcounted⟩ := h.of_serverPolling hserver
      omega
  | reposting =>
      obtain ⟨-, hcounted⟩ := h.of_reposting hserver
      omega
  | acking =>
      obtain ⟨⟨hpos, -⟩, hcounted⟩ := h.of_acking hserver
      omega
  | completing =>
      refine Or.inr ⟨rfl, ?_⟩
      have hcounted := h.counted
      by_contra hsome
      obtain ⟨imm, himm⟩ := Option.ne_none_iff_exists'.mp hsome
      have hpos := h.values imm
        (List.mem_append_right _ (by rw [himm]; exact List.mem_singleton_self _))
      rw [himm] at hacks
      have hacks' : t.ackSum = t.acknowledged + s.wire.acks.sum + imm := hacks
      omega
  | done => exact Or.inl rfl

end CreditInv

theorem CreditInv.measure_begins (h : CreditInv c s t) (hstage : s.client.stage = .round) :
    (s.begins c).measure < s.measure := by
  rcases h.begins_cases hstage with ⟨hzero, hbegins⟩ | ⟨hpos, sendBudget, -, -, hbegins⟩
  · rw [hbegins]
    unfold Perf.measure
    simp only [hstage, ClientStage.sent, ClientStage.weight, if_pos hzero]
    omega
  · rw [hbegins]
    unfold Perf.measure
    simp only [hstage, ClientStage.sent, ClientStage.weight, if_neg (Nat.ne_of_gt hpos)]
    omega

theorem Perf.measure_posts {sendBudget ackMsgCounter i : ℕ}
    (hstage : s.client.stage = .posting sendBudget ackMsgCounter i) :
    (s.posts c).measure < s.measure := by
  unfold Perf.posts Perf.measure
  simp only [hstage, ClientStage.sent, ClientStage.weight]
  omega

theorem CreditInv.measure_sends (h : CreditInv c s t) {sendBudget ackMsgCounter i : ℕ}
    (hstage : s.client.stage = .sending sendBudget ackMsgCounter i) :
    s.sends.measure < s.measure := by
  obtain ⟨⟨⟨-, hbudget, -⟩, hlt⟩, -⟩ := h.of_sending hstage
  unfold Perf.sends Perf.measure
  by_cases hlast : i + 1 = sendBudget
  · simp only [hstage, if_pos hlast, ClientStage.sent, ClientStage.weight]
    omega
  · simp only [hstage, if_neg hlast, ClientStage.sent, ClientStage.weight]
    omega

theorem CreditInv.measure_completes (h : CreditInv c s t) {sendBudget : ℕ}
    (hstage : s.client.stage = .completing sendBudget) : s.completes.measure < s.measure := by
  rw [h.completes_eq hstage]
  unfold Perf.measure
  simp only [hstage, ClientStage.sent, ClientStage.weight]
  omega

theorem Perf.measure_takes (hstage : s.client.stage = .polling) (hsome : s.wire.acks ≠ []) :
    s.takes.measure < s.measure := by
  obtain ⟨imm, acks, hwire⟩ := List.exists_cons_of_ne_nil hsome
  unfold Perf.takes Perf.measure
  simp only [hwire, hstage, ClientStage.sent, ClientStage.weight, List.length_cons]
  omega

theorem Perf.measure_leaves (hstage : s.client.stage = .polling)
    (hmore : 0 < s.client.totalBudget ∨ s.client.pendingMessages = 0) :
    s.leaves.measure < s.measure := by
  unfold Perf.leaves Perf.measure
  by_cases hfin : s.client.totalBudget = 0 ∧ s.client.pendingMessages = 0
  · simp only [hstage, if_pos hfin, ClientStage.sent, ClientStage.weight]
    omega
  · have hne : s.client.totalBudget ≠ 0 := by omega
    simp only [hstage, if_neg hfin, if_neg hne, ClientStage.sent, ClientStage.weight]
    omega

theorem Perf.measure_arrives (hpos : 0 < s.wire.messages) : s.arrives.measure < s.measure := by
  unfold Perf.arrives Perf.measure
  simp only
  omega

theorem Perf.measure_serverTakes (hstage : s.server.stage = .polling) (hpos : 0 < s.wire.arrived) :
    s.serverTakes.measure < s.measure := by
  unfold Perf.serverTakes Perf.measure
  simp only [hstage, ServerStage.weight]
  omega

theorem Perf.measure_reposts (hstage : s.server.stage = .reposting) :
    (s.reposts c).measure < s.measure := by
  have hweight : ∀ stage : ServerStage, stage ≠ .reposting → stage.weight ≤ 5 := by
    intro stage hne
    cases stage <;> first | exact absurd rfl hne | decide
  obtain ⟨stage, hnext⟩ : ∃ stage, stage = (s.reposts c).server.stage := ⟨_, rfl⟩
  have hlt := hweight stage (by
    rw [hnext]
    unfold Perf.reposts Perf.again
    simp only
    split_ifs <;> simp)
  have hmeasure : (s.reposts c).measure + s.server.stage.weight = s.measure + stage.weight := by
    rw [hnext]
    unfold Perf.measure Perf.reposts
    simp only
    omega
  rw [hstage] at hmeasure
  have hsix : ServerStage.weight .reposting = 6 := rfl
  omega

theorem Perf.measure_acks (hstage : s.server.stage = .acking) (hnone : s.wire.ack = none) :
    s.acks.measure < s.measure := by
  unfold Perf.acks Perf.measure
  simp only [hstage, hnone, ServerStage.weight, Option.toList_some, Option.toList_none,
    List.length_singleton, List.length_nil]
  omega

theorem Perf.measure_ackArrives (hsome : s.wire.ack ≠ none) : s.ackArrives.measure < s.measure := by
  obtain ⟨imm, himm⟩ := Option.ne_none_iff_exists'.mp hsome
  unfold Perf.ackArrives Perf.measure
  simp only [himm, Option.toList_none, Option.toList_some, List.length_append, List.length_nil,
    List.length_singleton]
  omega

theorem Perf.measure_returns (hstage : s.server.stage = .completing) :
    s.returns.measure < s.measure := by
  unfold Perf.returns Perf.measure Perf.again
  simp only [hstage, ServerStage.weight]
  split_ifs <;> simp only <;> omega

/-- **Every step lowers the measure**, but for a poll that finds nothing
while there is nothing to send. -/
theorem CreditInv.measure_lt (h : CreditInv c s t) {e : PerfEvent} (hen : s.Enabled c e)
    (hleaves : e = .leaves → 0 < s.client.totalBudget ∨ s.client.pendingMessages = 0) :
    (s.exec c e).measure < s.measure := by
  cases e with
  | begins => exact h.measure_begins hen
  | posts =>
      obtain ⟨sendBudget, ackMsgCounter, i, hstage⟩ := hen
      exact Perf.measure_posts hstage
  | sends =>
      obtain ⟨sendBudget, ackMsgCounter, i, hstage⟩ := hen
      exact h.measure_sends hstage
  | completes =>
      obtain ⟨⟨sendBudget, hstage⟩, -⟩ := hen
      exact h.measure_completes hstage
  | takes => exact Perf.measure_takes hen.1 hen.2
  | leaves => exact Perf.measure_leaves hen.1 (hleaves rfl)
  | arrives => exact Perf.measure_arrives hen
  | serverTakes => exact Perf.measure_serverTakes hen.1 hen.2
  | reposts => exact Perf.measure_reposts hen
  | acks => exact Perf.measure_acks hen (h.ack_none (by rw [hen]; simp))
  | ackArrives => exact Perf.measure_ackArrives hen
  | returns => exact Perf.measure_returns hen.1

/-- Where nothing is on its way, the server goes on or the client does. -/
theorem CreditInv.progress_silent (h : CreditInv c s t) (hclient : s.client.stage = .polling)
    (hacks : s.wire.acks = []) (hack : s.wire.ack = none) (hmessages : s.wire.messages = 0) :
    ∃ e, s.Enabled c e ∧ s.Patient c e ∧ (s.exec c e).measure < s.measure := by
  have hM := c.maxWr_pos
  have hstep : ∀ e, s.Enabled c e → s.Patient c e → e ≠ .leaves →
      ∃ e, s.Enabled c e ∧ s.Patient c e ∧ (s.exec c e).measure < s.measure := by
    intro e hen hpatient hleaves
    exact ⟨e, hen, hpatient, h.measure_lt hen fun hbad => absurd hbad hleaves⟩
  have hleave : s.client.pendingMessages ≠ c.maxWr →
      (0 < s.client.totalBudget ∨ s.client.pendingMessages = 0) →
      ∃ e, s.Enabled c e ∧ s.Patient c e ∧ (s.exec c e).measure < s.measure := by
    intro hne hmore
    have hen : s.Enabled c .leaves := ⟨hclient, hacks, hne⟩
    exact ⟨.leaves, hen, fun hbad => PerfEvent.noConfusion hbad, h.measure_lt hen fun _ => hmore⟩
  cases hserver : s.server.stage with
  | polling =>
      rcases Nat.eq_zero_or_pos s.wire.arrived with hzero | hpos
      · -- the server waits for a message, so the client does not wait
        have hnot : ¬ s.ClientWaits c := fun hwaits =>
          h.not_both_wait ⟨hwaits, ⟨hserver, hzero⟩, hmessages, hack⟩
        refine hleave (fun hfull => hnot ⟨hclient, hacks, Or.inl hfull⟩) ?_
        by_contra hmore
        exact hnot ⟨hclient, hacks, Or.inr (by omega)⟩
      · by_cases hwaits : s.client.totalBudget = 0 ∨ s.client.pendingMessages = c.maxWr
        · refine hstep .serverTakes ⟨hserver, hpos⟩ (fun _ => ?_) (by simp)
          exact hwaits.imp_right fun hfull => ⟨hclient, hfull, hacks⟩
        · exact hleave (fun hfull => hwaits (Or.inr hfull)) (Or.inl (by omega))
  | reposting => exact hstep .reposts hserver (fun hbad => PerfEvent.noConfusion hbad) (by simp)
  | acking => exact hstep .acks hserver (fun hbad => PerfEvent.noConfusion hbad) (by simp)
  | completing =>
      exact hstep .returns ⟨hserver, hack⟩ (fun hbad => PerfEvent.noConfusion hbad) (by simp)
  | done =>
      have hnone : s.client.pendingMessages = 0 := by
        have hsum := h.acks
        have hall := h.of_serverDone hserver
        obtain ⟨hsent, hpending⟩ := h.settled (by rw [hclient]; rfl)
        rw [hacks, hack] at hsum
        have hsum' : t.ackSum = t.acknowledged + 0 + 0 := hsum
        omega
      exact hleave (by omega) (Or.inr hnone)

/-- **A step that lowers the measure**, from every state where not both
loops have ended, and a patient one. -/
theorem CreditInv.progress (h : CreditInv c s t) (hnot : ¬ s.Ended) :
    ∃ e, s.Enabled c e ∧ s.Patient c e ∧ (s.exec c e).measure < s.measure := by
  have hstep : ∀ e, s.Enabled c e → e ≠ .serverTakes → e ≠ .leaves →
      ∃ e, s.Enabled c e ∧ s.Patient c e ∧ (s.exec c e).measure < s.measure := by
    intro e hen htakes hleaves
    exact ⟨e, hen, fun hbad => absurd hbad htakes, h.measure_lt hen fun hbad => absurd hbad hleaves⟩
  cases hclient : s.client.stage with
  | round => exact hstep .begins hclient (by simp) (by simp)
  | posting sendBudget ackMsgCounter i => exact hstep .posts ⟨_, _, _, hclient⟩ (by simp) (by simp)
  | sending sendBudget ackMsgCounter i => exact hstep .sends ⟨_, _, _, hclient⟩ (by simp) (by simp)
  | completing sendBudget =>
      rcases Nat.eq_zero_or_pos s.wire.messages with hzero | hpos
      · exact hstep .completes ⟨⟨_, hclient⟩, hzero⟩ (by simp) (by simp)
      · exact hstep .arrives hpos (by simp) (by simp)
  | done =>
      rcases h.server_of_acknowledged (h.of_done hclient).2.2 with hdone | hreturns
      · exact absurd ⟨hclient, hdone⟩ hnot
      · exact hstep .returns hreturns (by simp) (by simp)
  | polling =>
      by_cases hacks : s.wire.acks = []
      · by_cases hack : s.wire.ack = none
        · rcases Nat.eq_zero_or_pos s.wire.messages with hzero | hpos
          · exact h.progress_silent hclient hacks hack hzero
          · exact hstep .arrives hpos (by simp) (by simp)
        · exact hstep .ackArrives hack (by simp) (by simp)
      · exact hstep .takes ⟨hclient, hacks⟩ (by simp) (by simp)

/-- The runs in which the server is patient. -/
def patientTrails (c : PerfConfig) : System (Perf × PerfTrail) PerfEvent :=
  (perfTrails c).restrict fun x e => x.1.Patient c e

/-- **Both loops can end**, with a patient server too. -/
theorem CreditInv.finishes {x : Perf × PerfTrail} (h : CreditInv c x.1 x.2) :
    ∃ y, (patientTrails c).Leads x y ∧ y.1.Ended := by
  obtain ⟨n, hn⟩ : ∃ n, n = x.1.measure := ⟨_, rfl⟩
  -- on what is left to do, which the steps of `progress` lower
  induction n using Nat.strong_induction_on generalizing x with
  | _ n ih =>
      by_cases hended : x.1.Ended
      · exact ⟨x, System.Leads.refl x, hended⟩
      · obtain ⟨e, hen, hpatient, hlt⟩ := h.progress hended
        have hstep : (patientTrails c).Step x e
            (x.1.exec c e, PerfTrail.write x.1 e (x.1.exec c e) x.2) := ⟨hpatient, ⟨hen, rfl⟩, rfl⟩
        obtain ⟨y, hleads, hy⟩ := ih (x.1.exec c e).measure (by rw [hn]; exact hlt)
          (x := (x.1.exec c e, PerfTrail.write x.1 e (x.1.exec c e) x.2)) (h.step hen) rfl
        exact ⟨y, Relation.ReflTransGen.head ⟨e, hstep⟩ hleads, hy⟩

/-! ## What the flow control keeps -/

/-- **Credits are conserved** in a state with its trail. -/
structure Credited (c : PerfConfig) (s : Perf) (t : PerfTrail) : Prop where
  /-- What the client has accounted for as sent is pending or acknowledged. -/
  accounted : s.client.pendingMessages + t.acknowledged + s.client.totalBudget = c.total
  /-- What has been sent is pending or acknowledged, but for the messages
  of the burst under way, which are accounted for at its end. -/
  sent : s.client.pendingMessages + s.client.stage.sent + t.acknowledged = t.sent
  bounded : s.client.pendingMessages + s.client.stage.sent ≤ c.maxWr
  covered : s.client.stage = .polling → ∀ imm ∈ s.wire.acks, imm ≤ s.client.pendingMessages
  finds : 0 < s.wire.messages → 0 < s.wire.receives
  acknowledges : s.server.stage = .done → t.ackSum = c.total
  live : ¬ (s.ClientWaits c ∧ s.ServerWaits ∧ s.Silent)
  ends : s.client.stage = .done → t.sent = c.total ∧ s.client.pendingMessages = 0

theorem CreditInv.credited (h : CreditInv c s t) : Credited c s t where
  accounted := by
    have hsent := h.sent
    have hpending := h.pending
    omega
  sent := h.pending
  bounded := h.client.room h.room
  covered := by
    intro hstage imm himm
    exact (List.single_le_sum (fun _ _ => Nat.zero_le _) imm himm).trans (h.acks_le hstage)
  finds := fun hpos => lt_of_lt_of_le hpos h.messages_le
  acknowledges := h.of_serverDone
  live := h.not_both_wait
  ends := fun hstage => ⟨(h.of_done hstage).2.1, (h.of_done hstage).1.2⟩

/-- **The flow control is conserving**: so are its credits in every state
of every run, and from every state both loops can be run to their ends. -/
def Conserving (c : PerfConfig) : Prop :=
  ∀ x, (perfTrails c).Reachable x →
    Credited c x.1 x.2 ∧ ∃ y, (perfTrails c).Leads x y ∧ y.1.Ended

/-- **Credits are conserved**, whatever the number of messages and the
limit are, and however the threads interleave. -/
theorem credits_conserved (c : PerfConfig) : Conserving c := by
  intro x hreach
  have h := (creditInv_invariant c).reachable hreach
  obtain ⟨y, hleads, hended⟩ := h.finishes
  exact ⟨h.credited, y, hleads.of_restrict, hended⟩

end RdmaManager
