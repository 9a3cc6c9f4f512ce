import RdmaManager.Rdma.RequestRead
/-!
# Posts that fail

`checkSignaled` counts a request before it is posted, and nothing undoes it
when `ibv_post_send` fails. An unsignaled request that was not posted is
counted all the same, which does no harm. A signaled one has set the
counter to zero, while the unsignaled requests before it still occupy their
slots: from there on the counter is too low, and the queue overflows.
-/

namespace RdmaManager

variable {σ : Type} {maxWr : UInt32} {signaled : Bool} {check : Act σ Bool}
  {counter : σ → ℕ} {request : Bool → σ → Except Exn SendWr} {p : σ × SendQueue} {q q' : SendQueue}

/-! ## The counter of a call -/

/-- Of a counter that exists, what `checkCount` does. -/
theorem checkCount_of_lt (what : String) (maxWr : UInt32) {i : ℕ} {v : List ℕ} (hi : i < v.length)
    (signaled : Bool) : checkCount what maxWr i signaled v =
      (.ok (counted maxWr signaled (v.getD i 0)).1, v.set i (counted maxWr signaled (v.getD i 0)).2) := by
  have hn : Act.element what v i v = (.ok (v.getD i 0), v) := by
    rw [Act.element, List.getD_eq_getElem?_getD, List.getElem?_eq_getElem hi]
    rfl
  unfold checkCount counted
  rw [Act.bind_of_ok Act.get_apply, Act.bind_of_ok hn]
  split_ifs <;> rfl

/-- Which requests are signaled. -/
theorem counted_fst {n : ℕ} (hn : n < maxWr.toNat) :
    (counted maxWr signaled n).1 = true ↔ signaled = true ∨ n + 1 = maxWr.toNat := by
  have hsize := maxWr.toNat_lt
  unfold counted
  rw [wrap64_of_lt (by omega)]
  by_cases hsig : signaled = true
  · simp [hsig]
  · by_cases hfull : n + 1 = maxWr.toNat <;> simp [hsig, hfull]

/-- They set the counter to zero. -/
theorem counted_snd {n : ℕ} (h : (counted maxWr signaled n).1 = true) :
    (counted maxWr signaled n).2 = 0 := by
  unfold counted at h ⊢
  split_ifs at h ⊢ with hsig hfull
  · rfl
  · rfl

/-- A call leaves the object as `checkSignaled` does. -/
theorem posting_object (texts : SendTexts) (wait : Bool) (v : Verbs) (p : σ × SendQueue) :
    (posting check request texts wait v p).2.1 = (check p.1).2 := by
  unfold posting
  rcases check p.1 with ⟨e | b, s⟩
  · rfl
  · cases hreq : request b s <;> simp only [hreq]

/-- A post that fails enqueues nothing. -/
theorem posting_failed (texts : SendTexts) (wait : Bool) {v : Verbs} (herr : v.errno ≠ 0)
    (p : σ × SendQueue) : (posting check request texts wait v p).2.2 = p.2 := by
  unfold posting
  rcases check p.1 with ⟨e | b, s⟩
  · rfl
  · cases hreq : request b s with
    | error e => simp only [hreq]
    | ok wr =>
        simp only [hreq]
        unfold postAndAwait
        rw [if_pos herr]

/-! ## What the counter accounts for -/

/-- **The counter `n` accounts for the queue**: there are no more requests
out, and none of them is signaled. -/
structure Accounts (maxWr : UInt32) (n : ℕ) (q : SendQueue) : Prop where
  lt : n < maxWr.toNat
  le : q.unreclaimed ≤ n
  quiet : q.outstanding = []

theorem Accounts.later {n : ℕ} (h : Accounts maxWr n q) (hq : q.Later q') : Accounts maxWr n q' :=
  ⟨h.lt, by rw [hq.unreclaimed]; exact h.le, hq.outstanding.trans h.quiet⟩

/-- A call that posts its request, and polls for it if it is signaled. -/
theorem Accounts.posting (h : Accounts maxWr (counter p.1) p.2) (texts : SendTexts) (v : Verbs)
    (hcheck : Checks maxWr counter signaled check)
    (hrequest : ∀ b s wr, request b s = .ok wr → wr.signaled = b)
    (hends : (posting check request texts true v p).1 = .returned ∨
      p.2.reclaimed < (posting check request texts true v p).2.2.reclaimed) :
    Accounts maxWr (counter (RdmaManager.posting check request texts true v p).2.1)
      (RdmaManager.posting check request texts true v p).2.2 := by
  obtain ⟨wr, hcounted, -, hquiet, hout⟩ := posting_done h.quiet texts v hcheck hrequest hends
  have hlt := h.lt
  have hle := h.le
  rcases counted_cases h.lt signaled with hc | ⟨hc, hroom⟩
  · obtain ⟨hsig, hn⟩ := Prod.mk.inj (hcounted.trans hc)
    rw [hn]
    rw [hsig, if_pos rfl] at hout
    exact ⟨by omega, hout.le, hquiet⟩
  · obtain ⟨hsig, hn⟩ := Prod.mk.inj (hcounted.trans hc)
    rw [hn]
    rw [hsig, if_neg Bool.false_ne_true] at hout
    exact ⟨hroom, by omega, hquiet⟩

/-- A request that was counted and not posted: the counter accounts for the
queue if it was not set to zero, or if nothing is out. -/
theorem Accounts.uncounted {n n' : ℕ} {b : Bool} (h : Accounts maxWr n q)
    (hcounted : (b, n') = counted maxWr signaled n) (hspared : b = true → q.unreclaimed = 0) :
    Accounts maxWr n' q := by
  have hlt := h.lt
  have hle := h.le
  rcases counted_cases h.lt signaled with hc | ⟨hc, hroom⟩
  · obtain ⟨hb, rfl⟩ := Prod.mk.inj (hcounted.trans hc)
    have hnone := hspared hb
    exact ⟨by omega, by omega, h.quiet⟩
  · obtain ⟨-, rfl⟩ := Prod.mk.inj (hcounted.trans hc)
    exact ⟨hroom, by omega, h.quiet⟩

/-! ## Runs in which posts fail -/

namespace ReliableRDMA

/-- **The runs of a connection** on a new queue whose calls may fail to
post, with any error. A call that does not returns, or throws for the
status of a completion it took. -/
def failing (c : SendConfig) (id : ℕ) : System (BaseRDMA × SendQueue) (SendEvent (RcOp × Bool)) where
  Init p := id < p.1.countWR.length ∧ p.1.countWR.getD id 0 < c.maxWr.toNat ∧ p.2 = SendQueue.empty
  Step p e p' :=
    match e with
    | .call op v => (v.errno ≠ 0 ∨ ((reliablePath c id).exec op v p).1 = .returned ∨
        p.2.reclaimed < ((reliablePath c id).exec op v p).2.2.reclaimed) ∧
          p' = ((reliablePath c id).exec op v p).2
    | .completes n => p' = (p.1, p.2.complete n)

/-- A post that fails is of an unsignaled request that is not forced to be
signaled, or nothing is out. -/
def Spared (c : SendConfig) (id : ℕ) (p : BaseRDMA × SendQueue) : SendEvent (RcOp × Bool) → Prop
  | .call (_, signaled) v => v.errno ≠ 0 →
      (signaled = true ∨ p.1.countWR.getD id 0 + 1 = c.maxWr.toNat) → p.2.unreclaimed = 0
  | .completes _ => True

/-- **The accounting is in order**: no more requests are out than the
counter says, and whatever is posted next, never more than the queue holds. -/
def InOrder (c : SendConfig) (id : ℕ) (p : BaseRDMA × SendQueue) : Prop :=
  p.2.unreclaimed ≤ p.1.countWR.getD id 0 ∧
    ∀ op v, ((reliablePath c id).exec op v p).2.2.unreclaimed ≤ c.maxWr.toNat

variable {c : SendConfig} {id : ℕ} {p p' : BaseRDMA × SendQueue}

/-- The counter exists and accounts for the queue. -/
structure Accounted (c : SendConfig) (id : ℕ) (p : BaseRDMA × SendQueue) : Prop where
  exists_counter : id < p.1.countWR.length
  accounts : Accounts c.maxWr (p.1.countWR.getD id 0) p.2

theorem checkSignaled_of_lt (maxWr : UInt32) {s : BaseRDMA} (hid : id < s.countWR.length)
    (signaled : Bool) : BaseRDMA.checkSignaled maxWr id signaled s =
      (.ok (counted maxWr signaled (s.countWR.getD id 0)).1,
        { s with countWR := s.countWR.set id (counted maxWr signaled (s.countWR.getD id 0)).2 }) := by
  unfold BaseRDMA.checkSignaled Act.zoom
  rw [checkCount_of_lt _ _ hid]

/-- The counters after a call. -/
theorem countWR_exec (hid : id < p.1.countWR.length) (op : RcOp × Bool) (v : Verbs) :
    ((reliablePath c id).exec op v p).2.1.countWR =
      p.1.countWR.set id (counted c.maxWr op.2 (p.1.countWR.getD id 0)).2 := by
  obtain ⟨request, -, hexec⟩ := op.1.exec_posting c id op.2
  obtain ⟨texts, htexts⟩ := hexec v
  show (op.1.exec c id op.2 v p).2.1.countWR = _
  rw [htexts, posting_object, checkSignaled_of_lt c.maxWr hid]

theorem counter_exec (hid : id < p.1.countWR.length) (op : RcOp × Bool) (v : Verbs) :
    ((reliablePath c id).exec op v p).2.1.countWR.getD id 0 =
      (counted c.maxWr op.2 (p.1.countWR.getD id 0)).2 := by
  rw [countWR_exec hid, getD_set hid, if_pos rfl]

theorem queue_exec_failed (op : RcOp × Bool) {v : Verbs} (herr : v.errno ≠ 0) :
    ((reliablePath c id).exec op v p).2.2 = p.2 := by
  obtain ⟨request, -, hexec⟩ := op.1.exec_posting c id op.2
  obtain ⟨texts, htexts⟩ := hexec v
  show (op.1.exec c id op.2 v p).2.2 = _
  rw [htexts, posting_failed texts true herr]

theorem Accounted.inOrder (h : Accounted c id p) : InOrder c id p := by
  refine ⟨h.accounts.le, fun op v => ?_⟩
  obtain ⟨request, hrequest, hexec⟩ := op.1.exec_posting c id op.2
  obtain ⟨texts, htexts⟩ := hexec v
  have hle := unreclaimed_posting_le texts v p (checkSignaled_checks c.maxWr id op.2) hrequest
  have hout := h.accounts.le
  have hlt := h.accounts.lt
  show (op.1.exec c id op.2 v p).2.2.unreclaimed ≤ _
  rw [htexts]
  omega

/-- **One call** that posts, or fails to and is spared. -/
theorem Accounted.call (h : Accounted c id p) (op : RcOp × Bool) (v : Verbs)
    (hspared : Spared c id p (.call op v))
    (hends : v.errno ≠ 0 ∨ ((reliablePath c id).exec op v p).1 = .returned ∨
      p.2.reclaimed < ((reliablePath c id).exec op v p).2.2.reclaimed) :
    Accounted c id ((reliablePath c id).exec op v p).2 := by
  refine ⟨?_, ?_⟩
  · rw [countWR_exec h.exists_counter, List.length_set]
    exact h.exists_counter
  · by_cases herr : v.errno ≠ 0
    · rw [queue_exec_failed op herr, counter_exec h.exists_counter]
      exact h.accounts.uncounted rfl fun hset => hspared herr ((counted_fst h.accounts.lt).mp hset)
    · obtain ⟨request, hrequest, hexec⟩ := op.1.exec_posting c id op.2
      obtain ⟨texts, htexts⟩ := hexec v
      have hdone := hends.resolve_left herr
      have hsame : (reliablePath c id).exec op v p =
          posting (BaseRDMA.checkSignaled c.maxWr id op.2) request texts true v p := by
        show op.1.exec c id op.2 v p = _
        rw [htexts]
      rw [hsame] at hdone ⊢
      exact h.accounts.posting texts v (checkSignaled_checks c.maxWr id op.2) hrequest hdone

/-- A request that is to be signaled, while others are out. -/
theorem not_inOrder_of_not_spared (h : Accounted c id p) (op : RcOp × Bool) (v : Verbs)
    (hspared : ¬ Spared c id p (.call op v)) :
    ¬ InOrder c id ((reliablePath c id).exec op v p).2 := by
  obtain ⟨herr, hset, hout⟩ : v.errno ≠ 0 ∧
      (op.2 = true ∨ p.1.countWR.getD id 0 + 1 = c.maxWr.toNat) ∧ p.2.unreclaimed ≠ 0 := by
    simpa only [Spared, Classical.not_imp] using hspared
  intro hinOrder
  have hle := hinOrder.1
  have hzero := counted_snd ((counted_fst h.accounts.lt).mpr hset)
  rw [queue_exec_failed op herr, counter_exec h.exists_counter, hzero] at hle
  exact hout (Nat.le_zero.mp hle)

theorem accounted_invariant (c : SendConfig) (id : ℕ) :
    ((failing c id).restrict (Spared c id)).Invariant (Accounted c id) where
  init p hinit := by
    obtain ⟨hid, hlt, hqueue⟩ := hinit
    refine ⟨hid, hlt, ?_, ?_⟩ <;> rw [hqueue]
    · exact Nat.zero_le _
    · rfl
  step p e p' _ h hstep := by
    obtain ⟨hspared, hstep⟩ := hstep
    cases e with
    | call op v =>
        obtain ⟨hends, rfl⟩ : _ ∧ p' = ((reliablePath c id).exec op v p).2 := hstep
        exact h.call op v hspared hends
    | completes n =>
        obtain rfl : p' = (p.1, p.2.complete n) := hstep
        exact ⟨h.exists_counter, h.accounts.later (SendQueue.later_complete p.2 n)⟩

/-- **Posts that fail**: in a run all of whose failing posts are spared the
accounting is in order in every state; and the first step that is not
spared ends that. -/
theorem failed_posts_inOrder (hreach : ((failing c id).restrict (Spared c id)).Reachable p) :
    InOrder c id p ∧
      ∀ e p', (failing c id).Step p e p' → (InOrder c id p' ↔ Spared c id p e) := by
  have h := (accounted_invariant c id).reachable hreach
  refine ⟨h.inOrder, fun e p' hstep => ⟨fun hinOrder => ?_, fun hspared => ?_⟩⟩
  · by_contra hnot
    cases e with
    | call op v =>
        obtain ⟨-, rfl⟩ : _ ∧ p' = ((reliablePath c id).exec op v p).2 := hstep
        exact not_inOrder_of_not_spared h op v hnot hinOrder
    | completes n => exact hnot trivial
  · have hnext : ((failing c id).restrict (Spared c id)).Reachable p' := hreach.step ⟨hspared, hstep⟩
    exact ((accounted_invariant c id).reachable hnext).inOrder

/-! ## A queue that overflows -/

/-- `RDMA_MAX_WR` is 16. -/
def sixteen : SendConfig := { defaultSend with maxWr := 16 }

/-- The state after an event. -/
def nextFailing (p : BaseRDMA × SendQueue) : SendEvent (RcOp × Bool) → BaseRDMA × SendQueue
  | .call op v => ((reliablePath sixteen 0).exec op v p).2
  | .completes n => (p.1, p.2.complete n)

/-- The events that are steps. -/
def Happens (p : BaseRDMA × SendQueue) : SendEvent (RcOp × Bool) → Prop
  | .call op v => v.errno ≠ 0 ∨ ((reliablePath sixteen 0).exec op v p).1 = .returned ∨
      p.2.reclaimed < ((reliablePath sixteen 0).exec op v p).2.2.reclaimed
  | .completes _ => True

instance (p : BaseRDMA × SendQueue) : ∀ e, Decidable (Happens p e)
  | .call _ _ => inferInstanceAs (Decidable (_ ∨ _ ∨ _))
  | .completes _ => inferInstanceAs (Decidable True)

theorem reachable_along {labels : List (SendEvent (RcOp × Bool))}
    (h : System.MeetsAlong Happens nextFailing (oneConnection, SendQueue.empty) labels) :
    (failing sixteen 0).Reachable (labels.foldl nextFailing (oneConnection, SendQueue.empty)) := by
  have hinit : (failing sixteen 0).Init (oneConnection, SendQueue.empty) :=
    ⟨by decide +kernel, by decide +kernel, rfl⟩
  refine (System.Reachable.init hinit).along (h.steps fun p e hok => ?_)
  cases e with
  | call op v => exact ⟨hok, rfl⟩
  | completes n => rfl

/-- A write of 8 bytes, with what `ibv_post_send` returns. -/
def writeEight (signaled : Bool) (errno : ℕ) : SendEvent (RcOp × Bool) :=
  .call (.write 0 8192 8, signaled) ⟨errno, [], 0⟩

/-- Three unsignaled writes were posted. -/
def threePosted : BaseRDMA × SendQueue :=
  (List.replicate 3 (writeEight false 0)).foldl nextFailing (oneConnection, SendQueue.empty)

theorem failed_posts_inOrder_unsignaled : threePosted.2.unreclaimed = 3 ∧
    InOrder sixteen 0 (nextFailing threePosted (writeEight false 12)) := by
  have hposted : ((failing sixteen 0).restrict (Spared sixteen 0)).Reachable threePosted := by
    refine System.Reachable.along (.init ⟨by decide +kernel, by decide +kernel, rfl⟩) ?_
    exact ⟨⟨fun herr => absurd rfl herr, Or.inr (Or.inl (by decide +kernel)), rfl⟩,
      ⟨fun herr => absurd rfl herr, Or.inr (Or.inl (by decide +kernel)), rfl⟩,
      ⟨fun herr => absurd rfl herr, Or.inr (Or.inl (by decide +kernel)), rfl⟩, trivial⟩
  exact ⟨by decide +kernel, ((failed_posts_inOrder hposted).2 (writeEight false 12) _
    ⟨Or.inl (by decide), rfl⟩).mpr fun _ hset => absurd hset (by decide +kernel)⟩

/-- After fifteen unsignaled writes the sixteenth is to be signaled, and
fails; two more, and the queue holds seventeen. -/
def sixteenthFails : List (SendEvent (RcOp × Bool)) :=
  List.replicate 15 (writeEight false 0) ++ [writeEight false 12]

theorem queue_overflows :
    let p := sixteenthFails.foldl nextFailing (oneConnection, SendQueue.empty)
    (failing sixteen 0).Reachable p ∧ p.2.unreclaimed = 15 ∧ p.1.countWR.getD 0 0 = 0 ∧
      (nextFailing (nextFailing p (writeEight false 0)) (writeEight false 0)).2.unreclaimed = 17 ∧
      ¬ InOrder sixteen 0 p := by
  refine ⟨reachable_along (by decide +kernel), by decide +kernel, by decide +kernel,
    by decide +kernel, fun h => ?_⟩
  exact absurd h.1 (by decide +kernel)

end ReliableRDMA

end RdmaManager
