import RdmaManager.Rdma.SendBound
/-!
# `requestRead` between blocking operations

`requestRead` posts a signaled request and returns without polling, so its
completion stays in the queue that every blocking operation polls, and an
operation takes the first completion it finds for its own. Where no
operation polls while a requested read is outstanding, each completion goes
to the request it belongs to (`ReadInv`).
-/

namespace RdmaManager

/-- The calls on one reliable connection, and completions between them. -/
inductive ReadEvent
  | call (op : RcOp) (signaled : Bool) (v : Verbs)
  | requestRead (offset memAddr size : ℕ) (v : Verbs)
  | pollSend (doPoll imm : Bool) (polls : List SendPoll) (out : UInt32)
  | completes (n : ℕ)

namespace ReadEvent

variable (c : SendConfig) (id : ℕ) (p : BaseRDMA × SendQueue)

/-- What becomes of the call, and of the state. -/
def run : ReadEvent → Outcome × (BaseRDMA × SendQueue)
  | call op signaled v => op.exec c id signaled v p
  | requestRead offset memAddr size v => ReliableRDMA.requestRead c id offset memAddr size v p
  | pollSend doPoll imm polls out =>
      ((ReliableRDMA.pollSend id doPoll imm polls out p).1,
        (ReliableRDMA.pollSend id doPoll imm polls out p).2.2)
  | completes n => (.returned, (p.1, p.2.complete n))

/-- The call returned, or it is a `pollSend` that threw and took nothing. -/
def Ends (e : ReadEvent) : Prop :=
  (e.run c id p).1 = .returned ∨
    (∃ doPoll imm polls out, e = pollSend doPoll imm polls out) ∧ (e.run c id p).1 ≠ .waiting ∧
      p.2.Later (e.run c id p).2.2

end ReadEvent

/-- **What is remembered of a run**, by the numbers of the requests: the
reads that were requested, the requests whose completions `pollSend` took,
and those whose operation polled and returned before they had completed. -/
structure ReadTrail where
  reads : List ℕ
  reported : List ℕ
  early : List ℕ
  deriving DecidableEq, Repr

namespace ReadTrail

/-- Nothing has happened. -/
def empty : ReadTrail := ⟨[], [], []⟩

/-- Note an event between `p` and `p'`. -/
def write (c : SendConfig) (id : ℕ) (p : BaseRDMA × SendQueue) (e : ReadEvent)
    (p' : BaseRDMA × SendQueue) (t : ReadTrail) : ReadTrail :=
  match e with
  | .call _ _ _ =>
      if p'.2.SignaledAt p.2.wrs.length = true ∧ p'.2.done ≤ p.2.wrs.length then
        { t with early := t.early ++ [p.2.wrs.length] }
      else t
  | .requestRead _ _ _ _ => { t with reads := t.reads ++ [p.2.wrs.length] }
  | .pollSend _ _ _ _ =>
      if (e.run c id p).1 = .returned then { t with reported := t.reported ++ [p'.2.reclaimed - 1] }
      else t
  | .completes _ => t

/-- **Completions belong to their requests**: no operation that polls
returned before its own request had completed, the reads are reported in
the order in which they were requested, and the send queue holds no more
than it can. -/
structure Right (maxWr : UInt32) (q : SendQueue) (t : ReadTrail) : Prop where
  early : t.early = []
  reported : t.reported <+: t.reads
  room : q.unreclaimed ≤ maxWr.toNat

end ReadTrail

/-- The runs on a new queue. -/
def readRuns (c : SendConfig) (id : ℕ) : System (BaseRDMA × SendQueue) ReadEvent where
  Init p := p.1.countWR.getD id 0 < c.maxWr.toNat ∧ p.2 = SendQueue.empty
  Step p e p' := e.Ends c id p ∧ p' = (e.run c id p).2

/-- **The condition on a call**: an operation that polls, because it is
signaled or the counter makes it so, is called only while no completion is
outstanding; and while one is, requests are posted only with room for them. -/
def SoundRead (c : SendConfig) (id : ℕ) (p : BaseRDMA × SendQueue) : ReadEvent → Prop
  | .call _ signaled _ =>
      ((counted c.maxWr signaled (p.1.countWR.getD id 0)).1 = true → p.2.outstanding = []) ∧
        (p.2.outstanding ≠ [] → p.2.unreclaimed < c.maxWr.toNat)
  | .requestRead _ _ _ _ => p.2.outstanding ≠ [] → p.2.unreclaimed < c.maxWr.toNat
  | _ => True

/-- The runs whose calls meet the condition, with their trail. -/
def soundReads (c : SendConfig) (id : ℕ) : System ((BaseRDMA × SendQueue) × ReadTrail) ReadEvent :=
  ((readRuns c id).restrict (SoundRead c id)).record (fun _ => ReadTrail.empty) (ReadTrail.write c id)

/-! ## One event -/

variable {c : SendConfig} {id : ℕ} {p : BaseRDMA × SendQueue} {t : ReadTrail}

/-- What `pollSend` does: it changes the queue only, takes a completion
where it returns, and may take one where it throws. -/
theorem pollSend_cases (id : ℕ) (doPoll imm : Bool) (polls : List SendPoll) (out : UInt32)
    (p : BaseRDMA × SendQueue) :
    (ReliableRDMA.pollSend id doPoll imm polls out p).2.2.1 = p.1 ∧
      ((ReliableRDMA.pollSend id doPoll imm polls out p).1 ≠ .returned ∧
          p.2.Later (ReliableRDMA.pollSend id doPoll imm polls out p).2.2.2 ∨
        ∃ i, p.2.Took i (ReliableRDMA.pollSend id doPoll imm polls out p).2.2.2) := by
  unfold ReliableRDMA.pollSend
  by_cases hqp : (p.1.qpAt id).qp = none
  · rw [if_pos hqp]
    exact ⟨rfl, Or.inl ⟨by simp, SendQueue.Later.refl _⟩⟩
  · rw [if_neg hqp]
    rcases p.2.sendLoop_cases doPoll polls with
      ⟨hend | ⟨hend, -⟩ | ⟨n, hend⟩, hlater⟩ | ⟨wc, i, hend, htook⟩
    · rw [← Prod.mk.eta (p := sendLoop doPoll polls p.2), hend]
      exact ⟨rfl, Or.inl ⟨by simp, hlater⟩⟩
    · rw [← Prod.mk.eta (p := sendLoop doPoll polls p.2), hend]
      exact ⟨rfl, Or.inl ⟨by simp, hlater⟩⟩
    · rw [← Prod.mk.eta (p := sendLoop doPoll polls p.2), hend]
      cases doPoll
      · exact ⟨rfl, Or.inl ⟨by simp, hlater⟩⟩
      · exact ⟨rfl, Or.inl ⟨by simp, hlater⟩⟩
    · rw [← Prod.mk.eta (p := sendLoop doPoll polls p.2), hend]
      by_cases hs : wc.status ≠ IBV_WC_SUCCESS
      · simp only [if_pos hs]
        exact ⟨trivial, Or.inr ⟨i, htook⟩⟩
      · simp only [if_neg hs]
        exact ⟨trivial, Or.inr ⟨i, htook⟩⟩

/-- **What holds between two calls of a sound run.** -/
structure ReadInv (c : SendConfig) (id : ℕ) (p : BaseRDMA × SendQueue) (t : ReadTrail) : Prop where
  tally : Tally c.maxWr (p.1.countWR.getD id 0) p.2
  reads : t.reads = t.reported ++ p.2.outstanding
  early : t.early = []
  room : p.2.unreclaimed ≤ c.maxWr.toNat

/-- Under the condition there is room for one more request. -/
theorem ReadInv.lt (h : ReadInv c id p t)
    (hroom : p.2.outstanding ≠ [] → p.2.unreclaimed < c.maxWr.toNat) :
    p.2.unreclaimed < c.maxWr.toNat := by
  by_cases hquiet : p.2.outstanding = []
  · exact lt_of_le_of_lt (h.tally.unreclaimed_le hquiet) h.tally.lt
  · exact hroom hquiet

theorem ReadInv.right (h : ReadInv c id p t) : t.Right c.maxWr p.2 :=
  ⟨h.early, ⟨_, h.reads.symm⟩, h.room⟩

/-- `requestRead` posts a signaled request and does not wait. -/
theorem requestRead_posting (c : SendConfig) (id offset memAddr size : ℕ) (v : Verbs) :
    ∃ request texts, (∀ b s wr, request b s = .ok wr → wr.signaled = b) ∧
      ReliableRDMA.requestRead c id offset memAddr size v =
        posting (BaseRDMA.checkSignaled c.maxWr id true) request texts false v :=
  ⟨_, _, remoteRequest_signaled fun _ _ => rfl, rfl⟩

/-- A request that is counted and posted, for which the call does not
wait. -/
theorem ReadInv.posted (h : ReadInv c id p t) {signaled : Bool} {wr : SendWr} {b : BaseRDMA}
    {q : SendQueue} (hcounted : (wr.signaled, b.countWR.getD id 0) =
      counted c.maxWr signaled (p.1.countWR.getD id 0))
    (hq : q = p.2.post wr) (hlt : p.2.unreclaimed < c.maxWr.toNat) :
    ReadInv c id (b, q)
      { t with reads := t.reads ++ if wr.signaled = true then [p.2.wrs.length] else [] } := by
  subst hq
  have hout := SendQueue.outstanding_post p.2 wr
  refine ⟨h.tally.post hcounted, ?_, h.early, ?_⟩
  · show t.reads ++ _ = t.reported ++ (p.2.post wr).outstanding
    rw [hout, h.reads, List.append_assoc]
  · rw [SendQueue.unreclaimed_post]
    exact hlt

theorem ReadInv.requestRead (h : ReadInv c id p t) {offset memAddr size : ℕ} {v : Verbs}
    (hsound : SoundRead c id p (.requestRead offset memAddr size v)) :
    (ReliableRDMA.requestRead c id offset memAddr size v p).2.2.unreclaimed ≤ c.maxWr.toNat ∧
      ((ReliableRDMA.requestRead c id offset memAddr size v p).1 = .returned →
        ReadInv c id (ReliableRDMA.requestRead c id offset memAddr size v p).2
          { t with reads := t.reads ++ [p.2.wrs.length] }) := by
  have hlt := h.lt hsound
  obtain ⟨request, texts, hrequest, hexec⟩ := requestRead_posting c id offset memAddr size v
  rw [hexec]
  rcases posting_cases texts false v p
    (checkSignaled_checks c.maxWr id true) hrequest with ⟨hq, hnot⟩ | ⟨wr, hcounted, hpost⟩
  · rw [hq]
    exact ⟨h.room, fun hret => absurd hret hnot⟩
  · have hsig : wr.signaled = true := congrArg Prod.fst hcounted
    rw [if_neg (by simp)] at hpost
    have hafter := h.posted hcounted hpost.2 hlt
    rw [if_pos hsig] at hafter
    exact ⟨hafter.room, fun _ => hafter⟩

/-- An operation that polls does so with nothing outstanding, and takes
the completion of its own request. -/
theorem ReadInv.call (h : ReadInv c id p t) {op : RcOp} {signaled : Bool} {v : Verbs}
    (hsound : SoundRead c id p (.call op signaled v)) :
    (op.exec c id signaled v p).2.2.unreclaimed ≤ c.maxWr.toNat ∧
      ((op.exec c id signaled v p).1 = .returned → ReadInv c id (op.exec c id signaled v p).2
        (ReadTrail.write c id p (.call op signaled v) (op.exec c id signaled v p).2 t)) := by
  obtain ⟨hquiet, hroom⟩ := hsound
  have hlt := h.lt hroom
  obtain ⟨request, hrequest, hexec⟩ := op.exec_posting c id signaled
  obtain ⟨texts, heq⟩ := hexec v
  have hcheck := checkSignaled_checks c.maxWr id signaled
  rw [heq]
  by_cases hpolls : (counted c.maxWr signaled (p.1.countWR.getD id 0)).1 = true
  · -- nothing is outstanding, as between blocking operations
    have hbound : SendBound c.maxWr _ p.2 := ⟨h.tally, hquiet hpolls⟩
    obtain ⟨hle, hafter⟩ := hbound.posting texts v hcheck hrequest
    refine ⟨hle, fun hret => ?_⟩
    have hnext := hafter (Or.inl hret)
    have hnone : ReadTrail.write c id p (.call op signaled v)
        (posting (BaseRDMA.checkSignaled c.maxWr id signaled) request texts true v p).2 t = t := by
      refine if_neg fun hearly => ?_
      have hunsig := SendQueue.unsignaled_of_outstanding_nil hnext.quiet
        ((SendQueue.reclaimed_le _).trans hearly.2) (SendQueue.lt_of_signaledAt hearly.1)
      rw [hearly.1] at hunsig
      exact Bool.noConfusion hunsig
    rw [hnone]
    refine ⟨hnext.tally, ?_, h.early, hle⟩
    rw [hnext.quiet, h.reads, hquiet hpolls]
  · rcases posting_cases texts true v p hcheck hrequest with
      ⟨hq, hnot⟩ | ⟨wr, hcounted, hpost⟩
    · rw [hq]
      exact ⟨h.room, fun hret => absurd hret hnot⟩
    · have hsig : wr.signaled ≠ true := by
        rw [← congrArg Prod.fst hcounted] at hpolls
        exact hpolls
      rw [if_neg fun hwait => hsig hwait.1] at hpost
      have hafter := h.posted hcounted hpost.2 hlt
      rw [if_neg hsig, List.append_nil] at hafter
      have hnone : ReadTrail.write c id p (.call op signaled v)
          (posting (BaseRDMA.checkSignaled c.maxWr id signaled) request texts true v p).2 t = t := by
        refine if_neg fun hearly => hsig ?_
        rw [hpost.2, SendQueue.signaledAt_post_length] at hearly
        exact hearly.1
      rw [hnone]
      exact ⟨hafter.room, fun _ => hafter⟩

/-- `pollSend` takes the completion of the oldest read. -/
theorem ReadInv.pollSend (h : ReadInv c id p t) {doPoll imm : Bool} {polls : List SendPoll}
    {out : UInt32} :
    (ReliableRDMA.pollSend id doPoll imm polls out p).2.2.2.unreclaimed ≤ c.maxWr.toNat ∧
      ((ReadEvent.pollSend doPoll imm polls out).Ends c id p →
        ReadInv c id (ReliableRDMA.pollSend id doPoll imm polls out p).2.2
          (ReadTrail.write c id p (.pollSend doPoll imm polls out)
            (ReliableRDMA.pollSend id doPoll imm polls out p).2.2 t)) := by
  obtain ⟨hobject, hqueue⟩ := pollSend_cases id doPoll imm polls out p
  rcases hqueue with ⟨hnot, hlater⟩ | ⟨i, htook⟩
  · refine ⟨by rw [hlater.unreclaimed]; exact h.room, fun _ => ?_⟩
    have hnone : ReadTrail.write c id p (.pollSend doPoll imm polls out)
        (ReliableRDMA.pollSend id doPoll imm polls out p).2.2 t = t := if_neg hnot
    rw [hnone]
    refine ⟨?_, ?_, h.early, ?_⟩
    · rw [hobject]
      exact h.tally.congr hlater.wrs
    · rw [hlater.outstanding]
      exact h.reads
    · rw [hlater.unreclaimed]
      exact h.room
  · -- it took the first completion that was outstanding
    have hroom : (ReliableRDMA.pollSend id doPoll imm polls out p).2.2.2.unreclaimed ≤
        c.maxWr.toNat := by
      have hold := h.room
      have hle := htook.le
      unfold SendQueue.unreclaimed at hold ⊢
      rw [htook.wrs, htook.reclaimed]
      omega
    refine ⟨hroom, fun hends => ?_⟩
    rcases hends with hret | ⟨-, -, hlater⟩
    · have hsome : ReadTrail.write c id p (.pollSend doPoll imm polls out)
          (ReliableRDMA.pollSend id doPoll imm polls out p).2.2 t =
            { t with reported := t.reported ++
              [(ReliableRDMA.pollSend id doPoll imm polls out p).2.2.2.reclaimed - 1] } := if_pos hret
      rw [hsome]
      refine ⟨?_, ?_, h.early, hroom⟩
      · rw [hobject]
        exact h.tally.congr htook.wrs
      · rw [h.reads, htook.outstanding, htook.reclaimed, Nat.add_sub_cancel, List.append_assoc,
          List.singleton_append]
    · have hreclaimed : (ReliableRDMA.pollSend id doPoll imm polls out p).2.2.2.reclaimed =
          p.2.reclaimed := hlater.reclaimed
      have hle := htook.le
      rw [htook.reclaimed] at hreclaimed
      omega

/-! ## Runs -/

theorem ReadInv.event (h : ReadInv c id p t) {e : ReadEvent} (hsound : SoundRead c id p e) :
    (e.run c id p).2.2.unreclaimed ≤ c.maxWr.toNat ∧
      (e.Ends c id p → ReadInv c id (e.run c id p).2 (ReadTrail.write c id p e (e.run c id p).2 t)) := by
  have hreturned : ∀ {r : Prop}, e.Ends c id p →
      (¬ ∃ doPoll imm polls out, e = .pollSend doPoll imm polls out) →
      ((e.run c id p).1 = .returned → r) → r := by
    intro r hends hnot hr
    rcases hends with hret | ⟨hpoll, -⟩
    · exact hr hret
    · exact absurd hpoll hnot
  cases e with
  | call op signaled v =>
      obtain ⟨hle, hnext⟩ := h.call hsound
      exact ⟨hle, fun hends => hreturned hends (by simp) hnext⟩
  | requestRead offset memAddr size v =>
      obtain ⟨hle, hnext⟩ := h.requestRead hsound
      exact ⟨hle, fun hends => hreturned hends (by simp) hnext⟩
  | pollSend doPoll imm polls out => exact h.pollSend
  | completes n =>
      have hlater := SendQueue.later_complete p.2 n
      refine ⟨h.room, fun _ => ⟨h.tally.congr rfl, ?_, h.early, h.room⟩⟩
      show t.reads = t.reported ++ (p.2.complete n).outstanding
      rw [hlater.outstanding]
      exact h.reads

theorem readInv_invariant (c : SendConfig) (id : ℕ) :
    (soundReads c id).Invariant fun x => ReadInv c id x.1 x.2 where
  init x hinit := by
    obtain ⟨⟨hlt, hqueue⟩, htrail⟩ := hinit
    refine ⟨?_, ?_, by rw [htrail]; rfl, by rw [hqueue]; exact Nat.zero_le _⟩
    · rw [hqueue]
      exact Tally.empty hlt
    · rw [htrail, hqueue]
      rfl
  step x e x' _ h hstep := by
    obtain ⟨⟨hsound, hends, hnext⟩, htrail⟩ := hstep
    rw [htrail, hnext]
    exact (h.event hsound).2 hends

/-- **Completions belong to their requests** in every state of a run whose
calls meet the condition, and at no point of a call that meets it does the
send queue hold too much. -/
theorem reads_matched (c : SendConfig) (id : ℕ) {x : (BaseRDMA × SendQueue) × ReadTrail}
    (hreach : (soundReads c id).Reachable x) :
    x.2.Right c.maxWr x.1.2 ∧
      ∀ e, SoundRead c id x.1 e → (e.run c id x.1).2.2.unreclaimed ≤ c.maxWr.toNat := by
  have h := (readInv_invariant c id).reachable hreach
  exact ⟨h.right, fun e hsound => (h.event hsound).1⟩

/-! ## Two runs -/

/-- The default configuration. -/
def defaultSend : SendConfig := ⟨4096, 1, fun _ => "errno"⟩

/-- One connection with its remote data. -/
def oneConnection : BaseRDMA :=
  ((do
    let id ← ReliableRDMA.initQP
    BaseRDMA.setRemoteConnData id IbConn.zero : Act BaseRDMA Unit)
      (ReliableRDMA.blank (Device.opened (fun _ => 0) fun _ => 7) 4096 1 1 IbConn.zero)).2

/-- The state and the trail after an event. -/
def nextRead (x : (BaseRDMA × SendQueue) × ReadTrail) (e : ReadEvent) :
    (BaseRDMA × SendQueue) × ReadTrail :=
  ((e.run defaultSend 0 x.1).2,
    ReadTrail.write defaultSend 0 x.1 e (e.run defaultSend 0 x.1).2 x.2)

/-- Where the runs begin. -/
def startRead : (BaseRDMA × SendQueue) × ReadTrail := ((oneConnection, SendQueue.empty), ReadTrail.empty)

/-- A read is requested, an unsignaled write is posted, the read is polled
for, and a signaled read follows. -/
def polledFirst : List ReadEvent :=
  [.requestRead 0 8192 8 ⟨0, [], 0⟩, .call (.write 64 8192 8) false ⟨0, [], 0⟩,
    .pollSend true false [.after 0 IBV_WC_SUCCESS 0, .after 1 IBV_WC_SUCCESS 0] 0,
    .call (.read 0 8192 8) true ⟨0, [.after 2 IBV_WC_SUCCESS 0], 0⟩]

theorem reads_matched_polledFirst :
    (polledFirst.foldl nextRead startRead).2.Right 4096 (polledFirst.foldl nextRead startRead).1.2 ∧
      (polledFirst.foldl nextRead startRead).2.reported = [0] := by
  refine ⟨(reads_matched defaultSend 0 (System.Reachable.along (System.Reachable.init
    (s := startRead) ⟨⟨by decide +kernel, rfl⟩, rfl⟩) ?_)).1, by decide +kernel⟩
  refine ⟨⟨⟨fun hout => absurd (by decide +kernel) hout, Or.inl (by decide +kernel), rfl⟩, rfl⟩,
    ⟨⟨⟨fun hpoll => absurd hpoll (by decide +kernel), fun _ => by decide +kernel⟩,
      Or.inl (by decide +kernel), rfl⟩, rfl⟩,
    ⟨⟨trivial, Or.inl (by decide +kernel), rfl⟩, rfl⟩,
    ⟨⟨⟨fun _ => by decide +kernel, fun _ => by decide +kernel⟩, Or.inl (by decide +kernel), rfl⟩, rfl⟩,
    trivial⟩

/-- A read is requested, and a signaled write follows. -/
def writeFirst : List ReadEvent :=
  [.requestRead 0 8192 8 ⟨0, [], 0⟩,
    .call (.write 64 8192 8) true ⟨0, [.after 1 IBV_WC_SUCCESS 0], 0⟩]

/-- **The write returns on the completion of the read**, before its own
request has completed. -/
theorem write_returns_early :
    (((readRuns defaultSend 0).record (fun _ => ReadTrail.empty)
      (ReadTrail.write defaultSend 0)).Reachable (writeFirst.foldl nextRead startRead)) ∧
      ¬ (writeFirst.foldl nextRead startRead).2.Right 4096
        (writeFirst.foldl nextRead startRead).1.2 := by
  refine ⟨System.Reachable.along (System.Reachable.init (s := startRead)
    ⟨⟨by decide +kernel, rfl⟩, rfl⟩) ?_, fun hright => ?_⟩
  · exact ⟨⟨⟨Or.inl (by decide +kernel), rfl⟩, rfl⟩, ⟨⟨Or.inl (by decide +kernel), rfl⟩, rfl⟩, trivial⟩
  · exact absurd hright.early (by decide +kernel)

end RdmaManager
