import RdmaManager.Common.System
import RdmaManager.Rdma.Posting
/-!
# Unsignaled requests do not overflow a send queue

The counter forces every `RDMA_MAX_WR`th request of a queue to be
signaled, and the call that posts a signaled request polls its completion,
which reclaims the slots of all before it. So between two calls no
signaled request is out (`SendBound`), and of the unsignaled ones there are
no more than the counter says (`Tally`). The three paths, a reliable connection, the one
unreliable queue pair and a multicast group, differ in the counter and in
the request; `posting` is the same for all.
-/

namespace RdmaManager

variable {σ Op : Type}

/-! ## The counter -/

/-- What `checkCount` makes of the flag and of the counter. -/
def counted (maxWr : UInt32) (signaled : Bool) (n : ℕ) : Bool × ℕ :=
  if signaled then (true, 0)
  else if wrap64 (n + 1) = maxWr.toNat then (true, 0)
  else (false, wrap64 (n + 1))

/-- `check` counts a request of the flag `signaled` in `counter`. -/
def Checks (maxWr : UInt32) (counter : σ → ℕ) (signaled : Bool) (check : Act σ Bool) : Prop :=
  ∀ s b s', check s = (.ok b, s') → (b, counter s') = counted maxWr signaled (counter s)

theorem checkCount_checks (what : String) (maxWr : UInt32) (i : ℕ) (signaled : Bool) :
    Checks maxWr (fun v : List ℕ => v.getD i 0) signaled (checkCount what maxWr i signaled) := by
  intro v b v' hcheck
  have hwp : Act.wp (checkCount what maxWr i signaled)
      (fun b v' => (b, v'.getD i 0) = counted maxWr signaled (v.getD i 0)) (fun _ _ => True) v := by
    unfold checkCount counted
    simp only [Act.wp_bind, Act.wp_get, Act.wp_element 0, Act.wp_ite, Act.wp_modify, Act.wp_pure]
    refine ⟨fun hi => ⟨fun hsig => ?_, fun hsig => ⟨fun hfull => ?_, fun hfull => ?_⟩⟩, fun _ => trivial⟩
    · rw [getD_set hi, if_pos rfl, if_pos hsig]
    · rw [getD_set hi, if_pos rfl, if_neg hsig, if_pos hfull]
    · rw [getD_set hi, if_pos rfl, if_neg hsig, if_neg hfull]
  have hcounted := Act.wp_ok hwp hcheck
  exact hcounted

/-- A check of a part of the object. -/
theorem Checks.zoom {τ : Type} {maxWr : UInt32} {counter : τ → ℕ} {signaled : Bool}
    {check : Act τ Bool} {part : σ → τ} {put : σ → τ → σ} (h : Checks maxWr counter signaled check)
    (hput : ∀ s x, part (put s x) = x) :
    Checks maxWr (fun s => counter (part s)) signaled (Act.zoom part put check) := by
  intro s b s' hcheck
  obtain ⟨hok, rfl⟩ := Prod.mk.inj hcheck
  show (b, counter (part (put s (check (part s)).2))) = _
  rw [hput]
  exact h (part s) b _ (Prod.ext hok rfl)

/-! ## One call -/

variable {maxWr : UInt32} {counter : σ → ℕ} {signaled : Bool} {check : Act σ Bool}
  {request : Bool → σ → Except Exn SendWr} {p : σ × SendQueue} {q q' : SendQueue}

/-- What is done after a request was posted. -/
theorem await_cases (texts : SendTexts) (polls : List SendPoll) (q : SendQueue) :
    (await texts polls q).1 ≠ .returned ∧ q.Later (await texts polls q).2 ∨
      ∃ i, q.Took i (await texts polls q).2 := by
  unfold await
  rcases q.sendLoop_cases true polls with ⟨hend | ⟨-, hbad⟩ | ⟨n, hend⟩, hlater⟩ | ⟨wc, i, hend, htook⟩
  · refine Or.inl ?_
    rw [← Prod.mk.eta (p := sendLoop true polls q), hend]
    exact ⟨by simp, hlater⟩
  · exact absurd hbad (by simp)
  · refine Or.inl ?_
    rw [← Prod.mk.eta (p := sendLoop true polls q), hend]
    exact ⟨by simp, hlater⟩
  · refine Or.inr ⟨i, ?_⟩
    rw [← Prod.mk.eta (p := sendLoop true polls q), hend]
    by_cases hs : wc.status ≠ IBV_WC_SUCCESS
    · simp only [if_pos hs]
      exact htook
    · simp only [if_neg hs]
      exact htook

/-- **A call that posts**: it fails before its request is posted, or the
request is counted and posted, and polled for if it is to be. -/
theorem posting_cases (texts : SendTexts) (wait : Bool) (v : Verbs) (p : σ × SendQueue)
    (hcheck : Checks maxWr counter signaled check)
    (hrequest : ∀ b s wr, request b s = .ok wr → wr.signaled = b) :
    (posting check request texts wait v p).2.2 = p.2 ∧
        (posting check request texts wait v p).1 ≠ .returned ∨
      ∃ wr, (wr.signaled, counter (posting check request texts wait v p).2.1) =
          counted maxWr signaled (counter p.1) ∧
        if wr.signaled = true ∧ wait = true then
          (posting check request texts wait v p).1 = (await texts v.polls (p.2.post wr)).1 ∧
            (posting check request texts wait v p).2.2 = (await texts v.polls (p.2.post wr)).2
        else (posting check request texts wait v p).1 = .returned ∧
          (posting check request texts wait v p).2.2 = p.2.post wr := by
  unfold posting
  rcases hres : check p.1 with ⟨e | b, s⟩
  · exact Or.inl ⟨rfl, by simp⟩
  · have hcounted := hcheck p.1 b s hres
    cases hreq : request b s with
    | error e => exact Or.inl ⟨by simp [hreq], by simp [hreq]⟩
    | ok wr =>
        have hsig := hrequest b s wr hreq
        simp only [hreq]
        unfold postAndAwait
        by_cases herr : v.errno ≠ 0
        · rw [if_pos herr]
          exact Or.inl ⟨rfl, by simp⟩
        · rw [if_neg herr]
          refine Or.inr ⟨wr, by rw [hsig, hcounted], ?_⟩
          by_cases hwait : wr.signaled = true ∧ wait = true
          · rw [if_pos hwait, if_pos hwait]
            exact ⟨rfl, rfl⟩
          · rw [if_neg hwait, if_neg hwait]
            exact ⟨rfl, rfl⟩

/-- At no point of a call is more than its one request more out. -/
theorem unreclaimed_posting_le (texts : SendTexts) (v : Verbs) (p : σ × SendQueue)
    (hcheck : Checks maxWr counter signaled check)
    (hrequest : ∀ b s wr, request b s = .ok wr → wr.signaled = b) :
    (posting check request texts true v p).2.2.unreclaimed ≤ p.2.unreclaimed + 1 := by
  rcases posting_cases texts true v p hcheck hrequest with ⟨hq, -⟩ | ⟨wr, -, hpost⟩
  · rw [hq]
    exact Nat.le_succ _
  · have hposted : (p.2.post wr).unreclaimed = p.2.unreclaimed + 1 := SendQueue.unreclaimed_post
    by_cases hsig : wr.signaled = true
    · rw [if_pos ⟨hsig, rfl⟩] at hpost
      rw [hpost.2]
      rcases await_cases texts v.polls (p.2.post wr) with ⟨-, hlater⟩ | ⟨i, htook⟩
      · rw [hlater.unreclaimed, hposted]
      · have hle := htook.unreclaimed_le
        omega
    · rw [if_neg fun hwait => hsig hwait.1] at hpost
      rw [hpost.2, hposted]

/-- **A call that is done** on a queue whose signaled requests have been
polled for, and so its own: it has returned, or has taken a completion. -/
theorem posting_done (hquiet : p.2.outstanding = []) (texts : SendTexts) (v : Verbs)
    (hcheck : Checks maxWr counter signaled check)
    (hrequest : ∀ b s wr, request b s = .ok wr → wr.signaled = b)
    (hends : (posting check request texts true v p).1 = .returned ∨
      p.2.reclaimed < (posting check request texts true v p).2.2.reclaimed) :
    ∃ wr, (wr.signaled, counter (posting check request texts true v p).2.1) =
        counted maxWr signaled (counter p.1) ∧
      (posting check request texts true v p).2.2.wrs = (p.2.post wr).wrs ∧
      (posting check request texts true v p).2.2.outstanding = [] ∧
      (posting check request texts true v p).2.2.unreclaimed =
        if wr.signaled then 0 else p.2.unreclaimed + 1 := by
  rcases posting_cases texts true v p hcheck hrequest with ⟨hq, hnot⟩ | ⟨wr, hcounted, hpost⟩
  · rw [hq] at hends
    exact absurd (hends.resolve_left hnot) (lt_irrefl _)
  · have hout := SendQueue.outstanding_post p.2 wr
    rw [hquiet, List.nil_append] at hout
    refine ⟨wr, hcounted, ?_⟩
    by_cases hsig : wr.signaled = true
    · rw [if_pos ⟨hsig, rfl⟩] at hpost
      rw [if_pos hsig] at hout ⊢
      rw [hpost.1, hpost.2] at hends
      rw [hpost.2]
      rcases await_cases texts v.polls (p.2.post wr) with ⟨hnot, hlater⟩ | ⟨i, htook⟩
      · rw [hlater.reclaimed] at hends
        exact absurd (hends.resolve_left hnot) (lt_irrefl _)
      · -- it is the only one out, so the completion taken is its own
        have hfirst := htook.outstanding
        rw [hout] at hfirst
        obtain ⟨hi, hrest⟩ := List.cons.inj hfirst
        refine ⟨htook.wrs, hrest.symm, ?_⟩
        rw [htook.unreclaimed_eq, ← hi, SendQueue.length_post]
        omega
    · rw [if_neg fun hwait => hsig hwait.1] at hpost
      rw [if_neg hsig] at hout ⊢
      rw [hpost.2]
      exact ⟨rfl, hout, SendQueue.unreclaimed_post⟩

/-! ## The invariant -/

/-- The `n` requests from `i` on are unsignaled. -/
def SendQueue.UnsignaledRun (q : SendQueue) (i n : ℕ) : Prop :=
  i + n ≤ q.wrs.length ∧ ∀ j, i ≤ j → j < i + n → q.SignaledAt j = false

theorem SendQueue.UnsignaledRun.congr {i k : ℕ} (h : q'.UnsignaledRun i k) (hwrs : q'.wrs = q.wrs) :
    q.UnsignaledRun i k := by
  refine ⟨by rw [← hwrs]; exact h.1, fun j hj hlt => ?_⟩
  rw [← SendQueue.signaledAt_congr hwrs]
  exact h.2 j hj hlt

/-- **The counter stands at `n`**: it counts the unsignaled requests that
were posted last, and stays below the limit. -/
structure Tally (maxWr : UInt32) (n : ℕ) (q : SendQueue) : Prop where
  lt : n < maxWr.toNat
  ending : ∀ i k, q.UnsignaledRun i k → i + k = q.wrs.length → k ≤ n
  runs : ∀ i k, q.UnsignaledRun i k → k < maxWr.toNat

/-- **What holds between two calls**: all signaled requests have been
polled for. -/
structure SendBound (maxWr : UInt32) (n : ℕ) (q : SendQueue) : Prop where
  tally : Tally maxWr n q
  quiet : q.outstanding = []

/-- The flag and the counter after a request was counted. -/
theorem counted_cases {n : ℕ} (hn : n < maxWr.toNat) (signaled : Bool) :
    counted maxWr signaled n = (true, 0) ∨
      counted maxWr signaled n = (false, n + 1) ∧ n + 1 < maxWr.toNat := by
  have hsize := maxWr.toNat_lt
  unfold counted
  rw [wrap64_of_lt (by omega)]
  by_cases hsig : signaled = true
  · exact Or.inl (if_pos hsig)
  · rw [if_neg hsig]
    by_cases hfull : n + 1 = maxWr.toNat
    · exact Or.inl (if_pos hfull)
    · exact Or.inr ⟨if_neg hfull, by omega⟩

namespace Tally

variable {n n' : ℕ} {wr : SendWr}

theorem empty (h : n < maxWr.toNat) : Tally maxWr n SendQueue.empty := by
  have hnone : ∀ i k, SendQueue.empty.UnsignaledRun i k → k = 0 := by
    intro i k hrun
    have hlen : i + k ≤ 0 := hrun.1
    omega
  refine ⟨h, fun i k hrun _ => ?_, fun i k hrun => ?_⟩
  · rw [hnone i k hrun]
    exact Nat.zero_le n
  · rw [hnone i k hrun]
    exact lt_of_le_of_lt (Nat.zero_le n) h

/-- Only what has been posted counts. -/
theorem congr (h : Tally maxWr n q) (hwrs : q'.wrs = q.wrs) : Tally maxWr n q' := by
  refine ⟨h.lt, fun i k hrun hend => ?_, fun i k hrun => h.runs i k (hrun.congr hwrs)⟩
  exact h.ending i k (hrun.congr hwrs) (by rw [← hwrs]; exact hend)

/-- A request that is counted and posted. -/
theorem post (h : Tally maxWr n q) (hcounted : (wr.signaled, n') = counted maxWr signaled n) :
    Tally maxWr n' (q.post wr) := by
  have hlen : (q.post wr).wrs.length = q.wrs.length + 1 := List.length_append
  have hlt : n' < maxWr.toNat ∧ (wr.signaled = false → n' = n + 1) := by
    have hpos := h.lt
    rcases counted_cases h.lt signaled with hc | ⟨hc, hroom⟩
    · obtain ⟨hsig, rfl⟩ := Prod.mk.inj (hcounted.trans hc)
      exact ⟨by omega, fun hunsig => by rw [hsig] at hunsig; exact Bool.noConfusion hunsig⟩
    · obtain ⟨hsig, rfl⟩ := Prod.mk.inj (hcounted.trans hc)
      exact ⟨hroom, fun _ => rfl⟩
  have hold : ∀ {i k}, (q.post wr).UnsignaledRun i k → i + k ≤ q.wrs.length → q.UnsignaledRun i k := by
    intro i k hrun hle
    refine ⟨hle, fun j hj hjlt => ?_⟩
    rw [← SendQueue.signaledAt_post_of_lt (by omega)]
    exact hrun.2 j hj hjlt
  have hending : ∀ i k, (q.post wr).UnsignaledRun i k → i + k = (q.post wr).wrs.length → k ≤ n' := by
    intro i k hrun hend
    cases k with
    | zero => exact Nat.zero_le n'
    | succ k =>
        -- the last request of the run is the one that was posted
        have hlast := hrun.2 q.wrs.length (by omega) (by omega)
        rw [SendQueue.signaledAt_post_length] at hlast
        have hshort : (q.post wr).UnsignaledRun i k :=
          ⟨by omega, fun j hj hjlt => hrun.2 j hj (by omega)⟩
        have hle := h.ending i k (hold hshort (by omega)) (by omega)
        rw [hlt.2 hlast]
        exact Nat.succ_le_succ hle
  refine ⟨hlt.1, hending, fun i k hrun => ?_⟩
  have hbound := hrun.1
  -- the run was there before, or the new request ends it
  rcases Nat.lt_or_ge (i + k) (q.wrs.length + 1) with hin | hout
  · exact h.runs i k (hold hrun (by omega))
  · exact lt_of_le_of_lt (hending i k hrun (by omega)) hlt.1

/-- Where no signaled request is out, the unsignaled ones were posted last. -/
theorem unreclaimed_le (h : Tally maxWr n q) (hquiet : q.outstanding = []) : q.unreclaimed ≤ n := by
  have h₁ := q.reclaimed_le
  have h₂ := q.done_le
  refine h.ending q.reclaimed q.unreclaimed ⟨?_, fun j hj hlt => ?_⟩ ?_
  · unfold SendQueue.unreclaimed
    omega
  · unfold SendQueue.unreclaimed at hlt
    exact SendQueue.unsignaled_of_outstanding_nil hquiet hj (by omega)
  · unfold SendQueue.unreclaimed
    omega

end Tally

theorem SendBound.later {n : ℕ} (h : SendBound maxWr n q) (hq : q.Later q') : SendBound maxWr n q' :=
  ⟨h.tally.congr hq.wrs, hq.outstanding.trans h.quiet⟩

theorem SendBound.le {n : ℕ} (h : SendBound maxWr n q) : q.unreclaimed ≤ n :=
  h.tally.unreclaimed_le h.quiet

/-- **A call on a queue within its bound**: at no point of it are more
requests out than the queue holds, and the bound holds again if it returns
or has taken a completion. -/
theorem SendBound.posting (h : SendBound maxWr (counter p.1) p.2) (texts : SendTexts) (v : Verbs)
    (hcheck : Checks maxWr counter signaled check)
    (hrequest : ∀ b s wr, request b s = .ok wr → wr.signaled = b) :
    (posting check request texts true v p).2.2.unreclaimed ≤ maxWr.toNat ∧
      ((RdmaManager.posting check request texts true v p).1 = .returned ∨
          p.2.reclaimed < (RdmaManager.posting check request texts true v p).2.2.reclaimed →
        SendBound maxWr (counter (RdmaManager.posting check request texts true v p).2.1)
          (RdmaManager.posting check request texts true v p).2.2) := by
  refine ⟨?_, fun hends => ?_⟩
  · have hlt := h.tally.lt
    have hle := h.le
    have hone := unreclaimed_posting_le texts v p hcheck hrequest
    omega
  · obtain ⟨wr, hcounted, hwrs, hquiet, -⟩ := posting_done h.quiet texts v hcheck hrequest hends
    exact ⟨(h.tally.post hcounted).congr hwrs, hquiet⟩

/-! ## Runs -/

/-- **A way to send**: its calls, and the counter that counts them. -/
structure SendPath (σ Op : Type) where
  exec : Op → Verbs → σ × SendQueue → Outcome × (σ × SendQueue)
  counter : σ → ℕ

/-- A call, or completions between calls. -/
inductive SendEvent (Op : Type)
  | call (op : Op) (v : Verbs)
  | completes (n : ℕ)

namespace SendPath

variable (P : SendPath σ Op)

/-- The runs on a new queue. A call returns, or throws for the status of a
completion it took. -/
def runs (maxWr : UInt32) : System (σ × SendQueue) (SendEvent Op) where
  Init p := P.counter p.1 < maxWr.toNat ∧ p.2 = SendQueue.empty
  Step p e p' :=
    match e with
    | .call op v => ((P.exec op v p).1 = .returned ∨
        p.2.reclaimed < (P.exec op v p).2.2.reclaimed) ∧ p' = (P.exec op v p).2
    | .completes n => p' = (p.1, p.2.complete n)

/-- **The bound**: in every state of every run, and at every point of a
call from there, the queue holds at most `maxWr` requests that are not
reclaimed; after the calls of the run it holds at most as many as the
counter says, which is less than `maxWr`, and so is every run of unsignaled
requests. -/
def Bounded (maxWr : UInt32) : Prop :=
  ∀ p, (P.runs maxWr).Reachable p →
    (∀ op v, (P.exec op v p).2.2.unreclaimed ≤ maxWr.toNat) ∧
      p.2.unreclaimed ≤ P.counter p.1 ∧ P.counter p.1 ≤ maxWr.toNat - 1 ∧
      ∀ i k, p.2.UnsignaledRun i k → k ≤ maxWr.toNat - 1

/-- Every call is one of `posting`, with a check that counts in the
counter. -/
def Posts (maxWr : UInt32) : Prop :=
  ∀ op, ∃ signaled check request, Checks maxWr P.counter signaled check ∧
    (∀ b s wr, request b s = .ok wr → wr.signaled = b) ∧
    ∀ v, ∃ texts, P.exec op v = posting check request texts true v

variable {P}

theorem Posts.keeps (hposts : P.Posts maxWr) (op : Op) (v : Verbs)
    (h : SendBound maxWr (P.counter p.1) p.2) :
    (P.exec op v p).2.2.unreclaimed ≤ maxWr.toNat ∧ ((P.exec op v p).1 = .returned ∨
        p.2.reclaimed < (P.exec op v p).2.2.reclaimed →
      SendBound maxWr (P.counter (P.exec op v p).2.1) (P.exec op v p).2.2) := by
  obtain ⟨signaled, check, request, hcheck, hrequest, hexec⟩ := hposts op
  obtain ⟨texts, htexts⟩ := hexec v
  rw [htexts]
  exact h.posting texts v hcheck hrequest

theorem Posts.bounded (hposts : P.Posts maxWr) : P.Bounded maxWr := by
  have hinv : (P.runs maxWr).Invariant fun p => SendBound maxWr (P.counter p.1) p.2 := by
    refine ⟨fun p hinit => ?_, fun p e p' _ h hstep => ?_⟩
    · rw [hinit.2]
      exact ⟨Tally.empty hinit.1, rfl⟩
    · cases e with
      | call op v =>
          obtain ⟨hends, rfl⟩ : ((P.exec op v p).1 = .returned ∨
            p.2.reclaimed < (P.exec op v p).2.2.reclaimed) ∧ p' = (P.exec op v p).2 := hstep
          exact (hposts.keeps op v h).2 hends
      | completes n =>
          obtain rfl : p' = (p.1, p.2.complete n) := hstep
          exact h.later (SendQueue.later_complete p.2 n)
  intro p hreach
  have h := hinv.reachable hreach
  refine ⟨fun op v => (hposts.keeps op v h).1, h.le, Nat.le_sub_one_of_lt h.tally.lt, fun i k hrun => ?_⟩
  exact Nat.le_sub_one_of_lt (h.tally.runs i k hrun)

end SendPath

/-! ## The three paths -/

/-- The blocking operations on a reliable connection. -/
inductive RcOp
  | write (offset memAddr size : ℕ)
  | writeImm (offset memAddr size : ℕ) (imm : UInt32)
  | read (offset memAddr size : ℕ)
  | fetchAndAdd (offset memAddr size : ℕ)
  | fetchAndAddValue (offset memAddr valueToAdd size : ℕ)
  | compareAndSwap (offset memAddr : ℕ) (toCompare toSwap : ℤ) (size : ℕ)
  | send (memAddr size : ℕ)
  | sendImm (memAddr size : ℕ) (imm : UInt32)
  deriving DecidableEq, Repr

/-- Call the operation on the connection `id`. -/
def RcOp.exec (c : SendConfig) (id : ℕ) (signaled : Bool) (v : Verbs) :
    RcOp → BaseRDMA × SendQueue → Outcome × (BaseRDMA × SendQueue)
  | .write offset memAddr size => ReliableRDMA.write c id offset memAddr size signaled v
  | .writeImm offset memAddr size imm => ReliableRDMA.writeImm c id offset memAddr size signaled v imm
  | .read offset memAddr size => ReliableRDMA.read c id offset memAddr size signaled v
  | .fetchAndAdd offset memAddr size => ReliableRDMA.fetchAndAdd c id offset memAddr size signaled v
  | .fetchAndAddValue offset memAddr valueToAdd size =>
      ReliableRDMA.fetchAndAddValue c id offset memAddr size signaled v valueToAdd
  | .compareAndSwap offset memAddr toCompare toSwap size =>
      ReliableRDMA.compareAndSwap c id offset memAddr size signaled v toCompare toSwap
  | .send memAddr size => ReliableRDMA.send c id memAddr size signaled v
  | .sendImm memAddr size imm => ReliableRDMA.sendImm c id memAddr size signaled v imm

/-- The arguments of `send` and `sendMCast` but the id. -/
structure SendArgs where
  memAddr : ℕ
  size : ℕ
  signaled : Bool
  deriving DecidableEq, Repr

/-- A reliable connection, with every operation and its flag. -/
def reliablePath (c : SendConfig) (id : ℕ) : SendPath BaseRDMA (RcOp × Bool) where
  exec call v := call.1.exec c id call.2 v
  counter s := s.countWR.getD id 0

/-- The one queue pair of an unreliable object: `send` to any connection. -/
def unreliablePath (c : SendConfig) : SendPath UnreliableRDMA (ℕ × SendArgs) where
  exec a v := UnreliableRDMA.send c a.1 a.2.memAddr a.2.size a.2.signaled v
  counter u := u.countWR.getD 0 0

/-- One multicast id. -/
def multicastPath (c : SendConfig) (id : ℕ) : SendPath MulticastRDMA SendArgs where
  exec a v := MulticastRDMA.sendMCast c id a.memAddr a.size a.signaled v
  counter m := m.sendMCastCount.getD id 0

theorem checkSignaled_checks (maxWr : UInt32) (id : ℕ) (signaled : Bool) :
    Checks maxWr (fun s : BaseRDMA => s.countWR.getD id 0) signaled
      (BaseRDMA.checkSignaled maxWr id signaled) :=
  (checkCount_checks _ maxWr id signaled).zoom fun _ _ => rfl

theorem remoteRequest_signaled {id : ℕ} {wr : Bool → IbConn → SendWr}
    (hwr : ∀ b conn, (wr b conn).signaled = b) (b : Bool) (s : BaseRDMA) (r : SendWr)
    (h : ReliableRDMA.remoteRequest id (wr b) s = .ok r) : r.signaled = b := by
  unfold ReliableRDMA.remoteRequest at h
  split_ifs at h
  obtain rfl := Except.ok.inj h
  exact hwr b _

theorem localRequest_signaled {id : ℕ} {wr : Bool → SendWr} (hwr : ∀ b, (wr b).signaled = b)
    (b : Bool) (s : BaseRDMA) (r : SendWr)
    (h : ReliableRDMA.localRequest id (wr b) s = .ok r) : r.signaled = b := by
  unfold ReliableRDMA.localRequest at h
  split_ifs at h
  obtain rfl := Except.ok.inj h
  exact hwr b

/-- Every operation is one of `posting`, which waits. -/
theorem RcOp.exec_posting (c : SendConfig) (id : ℕ) (op : RcOp) (signaled : Bool) :
    ∃ request, (∀ b s wr, request b s = .ok wr → wr.signaled = b) ∧ ∀ v, ∃ texts,
      op.exec c id signaled v =
        posting (BaseRDMA.checkSignaled c.maxWr id signaled) request texts true v := by
  cases op with
  | write | writeImm | read =>
      exact ⟨_, remoteRequest_signaled fun _ _ => rfl, fun v => ⟨_, rfl⟩⟩
  | fetchAndAdd | fetchAndAddValue | compareAndSwap =>
      exact ⟨_, remoteRequest_signaled fun _ _ => rfl, fun v => ⟨_, rfl⟩⟩
  | send | sendImm => exact ⟨_, localRequest_signaled fun _ => rfl, fun v => ⟨_, rfl⟩⟩

theorem reliablePath_posts (c : SendConfig) (id : ℕ) : (reliablePath c id).Posts c.maxWr := by
  rintro ⟨op, signaled⟩
  obtain ⟨request, hrequest, hexec⟩ := op.exec_posting c id signaled
  exact ⟨signaled, _, request, checkSignaled_checks c.maxWr id signaled, hrequest, hexec⟩

theorem unreliablePath_posts (c : SendConfig) : (unreliablePath c).Posts c.maxWr := by
  intro a
  refine ⟨a.2.signaled, _, _, (checkSignaled_checks c.maxWr 0 a.2.signaled).zoom fun _ _ => rfl, ?_,
    fun v => ⟨_, rfl⟩⟩
  intro b u wr h
  split_ifs at h
  obtain rfl := Except.ok.inj h
  rfl

theorem multicastPath_posts (c : SendConfig) (id : ℕ) : (multicastPath c id).Posts c.maxWr := by
  intro a
  refine ⟨a.signaled, _, _, (checkCount_checks _ c.maxWr id a.signaled).zoom fun _ _ => rfl, ?_,
    fun v => ⟨_, rfl⟩⟩
  intro b m wr h
  split at h
  · exact absurd h (by simp)
  · obtain rfl := Except.ok.inj h
    rfl

/-- **Unsignaled requests never overflow a send queue**, on any of the
three paths. -/
theorem sends_bounded (c : SendConfig) :
    (∀ id, (reliablePath c id).Bounded c.maxWr) ∧ (unreliablePath c).Bounded c.maxWr ∧
      ∀ id, (multicastPath c id).Bounded c.maxWr :=
  ⟨fun id => (reliablePath_posts c id).bounded, (unreliablePath_posts c).bounded,
    fun id => (multicastPath_posts c id).bounded⟩

end RdmaManager
