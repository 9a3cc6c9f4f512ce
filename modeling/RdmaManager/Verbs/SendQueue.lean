import RdmaManager.Verbs.Completion
/-!
# Send queues

Work requests are known by their position in the order of posting, and
complete in that order. Those that are signaled leave an entry in the
completion queue, and the slot of a request is reclaimed when the entry of
it, or of a later one, is polled. A queue does not refuse a request: that
it is never asked to hold too many is for its users to prove.
-/

namespace RdmaManager

/-- `IBV_WR_RDMA_WRITE` and so on. -/
inductive Opcode
  | rdmaWrite
  | rdmaWriteWithImm
  | rdmaRead
  | send
  | sendWithImm
  | fetchAndAdd
  | cmpAndSwp
  deriving DecidableEq, Repr

/-- The fields of `ibv_send_wr` that the source sets, with its one
`ibv_sge`. -/
structure SendWr where
  opcode : Opcode
  signaled : Bool
  addr : ℕ
  length : UInt32
  lkey : UInt32
  wrId : ℕ := 0
  inlined : Bool := false
  immData : UInt32 := 0
  remoteAddr : ℕ := 0
  rkey : UInt32 := 0
  compareAdd : ℕ := 0
  swap : ℕ := 0
  ah : Option ℕ := none
  remoteQpn : UInt32 := 0
  remoteQkey : UInt32 := 0
  deriving DecidableEq, Repr

/-- **A send queue**: all requests that were posted, how many of them have
completed, and how many slots have been reclaimed. -/
structure SendQueue where
  wrs : List SendWr
  done : ℕ
  reclaimed : ℕ
  reclaimed_le : reclaimed ≤ done
  done_le : done ≤ wrs.length
  deriving DecidableEq, Repr

namespace SendQueue

/-- A new queue. -/
def empty : SendQueue := ⟨[], 0, 0, le_rfl, le_rfl⟩

variable (q : SendQueue)

/-- The number of requests whose slots are not reclaimed. -/
def unreclaimed : ℕ := q.wrs.length - q.reclaimed

/-- The request with the number `i` is signaled. -/
def SignaledAt (i : ℕ) : Bool := (q.wrs[i]?.map SendWr.signaled).getD false

/-- The completion queue, by the numbers of the requests. -/
def cq : List ℕ := (List.range' q.reclaimed (q.done - q.reclaimed)).filter q.SignaledAt

variable {q}

theorem mem_cq {i : ℕ} : i ∈ q.cq ↔ q.reclaimed ≤ i ∧ i < q.done ∧ q.SignaledAt i = true := by
  have hle := q.reclaimed_le
  unfold cq
  rw [List.mem_filter, List.mem_range'_1]
  constructor
  · rintro ⟨⟨hge, hlt⟩, hsig⟩
    exact ⟨hge, by omega, hsig⟩
  · rintro ⟨hge, hlt, hsig⟩
    exact ⟨⟨hge, by omega⟩, hsig⟩

variable (q)

/-- `ibv_post_send`, where it succeeds. -/
def post (wr : SendWr) : SendQueue where
  wrs := q.wrs ++ [wr]
  done := q.done
  reclaimed := q.reclaimed
  reclaimed_le := q.reclaimed_le
  done_le := by
    have hle := q.done_le
    rw [List.length_append]
    omega

/-- Up to `n` more requests complete. -/
def complete (n : ℕ) : SendQueue where
  wrs := q.wrs
  done := min (q.done + n) q.wrs.length
  reclaimed := q.reclaimed
  reclaimed_le := by
    have h₁ := q.reclaimed_le
    have h₂ := q.done_le
    omega
  done_le := Nat.min_le_right _ _

/-- The entry of `i` is taken from the completion queue. -/
def reclaim (i : ℕ) (h : i < q.done) : SendQueue where
  wrs := q.wrs
  done := q.done
  reclaimed := i + 1
  reclaimed_le := h
  done_le := q.done_le

/-- `ibv_poll_cq` for one completion, which it finds with `status`. -/
def poll (status : ℕ) (immData : UInt32) : Polled × SendQueue :=
  match h : q.cq with
  | [] => (.empty, q)
  | i :: _ =>
      (.found ⟨(q.wrs[i]?.map SendWr.wrId).getD 0, status, 0, immData⟩,
        q.reclaim i (mem_cq.mp (h ▸ List.mem_cons_self)).2.1)

end SendQueue

/-- What the device does about a poll of a send completion queue. -/
inductive SendPoll
  /-- Up to `n` requests complete before the poll, and what it finds has
  this status. -/
  | after (n status : ℕ) (immData : UInt32)
  | failed (n : ℕ)
  deriving DecidableEq, Repr

/-- A poll of a send completion queue. -/
def SendPoll.run (q : SendQueue) : SendPoll → Polled × SendQueue
  | .after n status immData => (q.complete n).poll status immData
  | .failed n => (.failed n, q)

/-- `do { … } while (ne == 0 && doPoll);`: the poll that ends the loop, if
the polls are not used up before. -/
def sendLoop (doPoll : Bool) : List SendPoll → SendQueue → Option Polled × SendQueue
  | [], q => (none, q)
  | p :: polls, q =>
      if (p.run q).1 = .empty ∧ doPoll = true then sendLoop doPoll polls (p.run q).2
      else (some (p.run q).1, (p.run q).2)

namespace SendQueue

variable {q q' : SendQueue} {i n : ℕ} {wr : SendWr}

/-! ## What the operations keep -/

theorem length_post (q : SendQueue) (wr : SendWr) : (q.post wr).wrs.length = q.wrs.length + 1 :=
  List.length_append

theorem unreclaimed_post : (q.post wr).unreclaimed = q.unreclaimed + 1 := by
  have h₁ := q.reclaimed_le
  have h₂ := q.done_le
  show (q.wrs ++ [wr]).length - q.reclaimed = q.wrs.length - q.reclaimed + 1
  rw [List.length_append, List.length_singleton]
  omega

theorem lt_of_signaledAt (h : q.SignaledAt i = true) : i < q.wrs.length := by
  by_contra hge
  unfold SignaledAt at h
  rw [List.getElem?_eq_none (Nat.not_lt.mp hge)] at h
  exact Bool.noConfusion h

theorem signaledAt_post_of_lt (h : i < q.wrs.length) :
    (q.post wr).SignaledAt i = q.SignaledAt i := by
  unfold SignaledAt post
  rw [List.getElem?_append_left h]

@[simp] theorem signaledAt_post_length : (q.post wr).SignaledAt q.wrs.length = wr.signaled := by
  unfold SignaledAt post
  rw [List.getElem?_concat_length]
  rfl

/-- `q'` is `q` after completions and nothing else. -/
structure Later (q q' : SendQueue) : Prop where
  wrs : q'.wrs = q.wrs
  reclaimed : q'.reclaimed = q.reclaimed
  done : q.done ≤ q'.done

theorem Later.refl (q : SendQueue) : q.Later q := ⟨rfl, rfl, le_rfl⟩

theorem Later.trans {q'' : SendQueue} (h : q.Later q') (h' : q'.Later q'') : q.Later q'' :=
  ⟨h'.wrs.trans h.wrs, h'.reclaimed.trans h.reclaimed, h.done.trans h'.done⟩

theorem Later.unreclaimed (h : q.Later q') : q'.unreclaimed = q.unreclaimed := by
  unfold SendQueue.unreclaimed
  rw [h.wrs, h.reclaimed]

theorem later_complete (q : SendQueue) (n : ℕ) : q.Later (q.complete n) := by
  refine ⟨rfl, rfl, ?_⟩
  have hle := q.done_le
  show q.done ≤ min (q.done + n) q.wrs.length
  omega

/-- **A completion was taken**: that of `i`, which is the first signaled
request whose slot was not reclaimed, and has completed. -/
structure Took (q : SendQueue) (i : ℕ) (q' : SendQueue) : Prop where
  wrs : q'.wrs = q.wrs
  reclaimed : q'.reclaimed = i + 1
  done : q.done ≤ q'.done
  le : q.reclaimed ≤ i
  signaled : q.SignaledAt i = true
  first : ∀ j, q.reclaimed ≤ j → j < i → q.SignaledAt j = false

theorem Took.completed (h : q.Took i q') : i < q'.done := by
  have hle := q'.reclaimed_le
  rw [h.reclaimed] at hle
  exact hle

/-- The requests behind it are out. -/
theorem Took.unreclaimed_eq (h : q.Took i q') : q'.unreclaimed = q.wrs.length - (i + 1) := by
  unfold SendQueue.unreclaimed
  rw [h.wrs, h.reclaimed]

theorem Took.unreclaimed_le (h : q.Took i q') : q'.unreclaimed ≤ q.unreclaimed := by
  have hle := h.le
  rw [h.unreclaimed_eq]
  unfold SendQueue.unreclaimed
  omega

theorem signaledAt_congr (h : q'.wrs = q.wrs) (i : ℕ) : q'.SignaledAt i = q.SignaledAt i := by
  unfold SignaledAt
  rw [h]

theorem Later.took {q'' : SendQueue} (h : q.Later q') (h' : q'.Took i q'') : q.Took i q'' where
  wrs := h'.wrs.trans h.wrs
  reclaimed := h'.reclaimed
  done := h.done.trans h'.done
  le := by
    have hle := h'.le
    rwa [h.reclaimed] at hle
  signaled := by
    have hsig := h'.signaled
    rwa [signaledAt_congr h.wrs] at hsig
  first j hj hlt := by
    have hnot := h'.first j (by rwa [h.reclaimed]) hlt
    rwa [signaledAt_congr h.wrs] at hnot

/-! ## The requests that are polled for yet -/

/-- The signaled requests that are not reclaimed, in order: their
completions are to be polled. -/
def outstanding (q : SendQueue) : List ℕ :=
  (List.range' q.reclaimed (q.wrs.length - q.reclaimed)).filter q.SignaledAt

theorem Later.outstanding (h : q.Later q') : q'.outstanding = q.outstanding := by
  unfold SendQueue.outstanding SignaledAt
  rw [h.wrs, h.reclaimed]

theorem outstanding_post (q : SendQueue) (wr : SendWr) :
    (q.post wr).outstanding = q.outstanding ++ if wr.signaled then [q.wrs.length] else [] := by
  have h₁ := q.reclaimed_le
  have h₂ := q.done_le
  have hlen : (q.post wr).wrs.length - q.reclaimed = q.wrs.length - q.reclaimed + 1 := by
    show (q.wrs ++ [wr]).length - q.reclaimed = _
    rw [List.length_append, List.length_singleton]
    omega
  have hend : q.reclaimed + (q.wrs.length - q.reclaimed) = q.wrs.length := by omega
  unfold outstanding
  show (List.range' q.reclaimed ((q.post wr).wrs.length - q.reclaimed)).filter _ = _
  rw [hlen, List.range'_1_concat, List.filter_append, hend, List.filter_singleton,
    signaledAt_post_length]
  congr 1
  · refine List.filter_congr fun i hi => ?_
    rw [List.mem_range'_1] at hi
    exact signaledAt_post_of_lt (by omega)
  · cases wr.signaled <;> rfl

/-- The completion that is taken is that of the first of them. -/
theorem Took.outstanding (h : q.Took i q') : q.outstanding = i :: q'.outstanding := by
  have hcompleted := h.completed
  have hdone := q'.done_le
  have hle := h.le
  rw [h.wrs] at hdone
  have hcut : q.wrs.length - q.reclaimed = (i - q.reclaimed) + ((q.wrs.length - (i + 1)) + 1) := by
    omega
  have hi : q.reclaimed + (i - q.reclaimed) = i := by omega
  have hskip : (List.range' q.reclaimed (i - q.reclaimed)).filter q.SignaledAt = [] := by
    refine List.filter_eq_nil_iff.mpr fun j hj => ?_
    rw [List.mem_range'_1] at hj
    rw [h.first j hj.1 (by omega)]
    exact Bool.false_ne_true
  have hsame : q'.SignaledAt = q.SignaledAt := funext (signaledAt_congr h.wrs)
  unfold SendQueue.outstanding
  rw [h.wrs, h.reclaimed, hsame, hcut, ← List.range'_append_1, List.filter_append, hskip,
    List.nil_append, hi, List.range'_succ, List.filter_cons_of_pos h.signaled]

/-- Where none is left, the requests that are not reclaimed are unsignaled. -/
theorem unsignaled_of_outstanding_nil (h : q.outstanding = []) {j : ℕ} (hj : q.reclaimed ≤ j)
    (hlt : j < q.wrs.length) : q.SignaledAt j = false := by
  have hnot := List.filter_eq_nil_iff.mp h j (List.mem_range'_1.mpr ⟨hj, by omega⟩)
  simpa using hnot

/-- A poll finds nothing, or takes a completion. -/
theorem poll_cases (q : SendQueue) (status : ℕ) (immData : UInt32) :
    (q.poll status immData).1 = .empty ∧ (q.poll status immData).2 = q ∨
      ∃ wc i, (q.poll status immData).1 = .found wc ∧ wc.status = status ∧ wc.immData = immData ∧
        q.Took i (q.poll status immData).2 := by
  unfold poll
  split
  · exact Or.inl ⟨rfl, rfl⟩
  · rename_i i rest hcq
    obtain ⟨hge, hlt, hsig⟩ := mem_cq.mp (hcq ▸ List.mem_cons_self : i ∈ q.cq)
    refine Or.inr ⟨_, i, rfl, rfl, rfl, rfl, rfl, le_rfl, hge, hsig, fun j hj hji => ?_⟩
    -- an earlier signaled one would stand in front
    by_contra hsig'
    have hmem : j ∈ q.cq := mem_cq.mpr ⟨hj, hji.trans hlt, by simpa using hsig'⟩
    have hsorted : q.cq.Pairwise (· < ·) := List.Pairwise.filter _ (List.pairwise_lt_range' 1)
    rw [hcq] at hmem hsorted
    rcases List.mem_cons.mp hmem with rfl | hrest
    · exact lt_irrefl _ hji
    · exact lt_asymm hji ((List.pairwise_cons.mp hsorted).1 j hrest)

/-- The same of a poll before which requests complete. -/
theorem run_cases (q : SendQueue) (p : SendPoll) :
    ((p.run q).1 = .empty ∨ ∃ n, (p.run q).1 = .failed n) ∧ q.Later (p.run q).2 ∨
      ∃ wc i, (p.run q).1 = .found wc ∧ q.Took i (p.run q).2 := by
  cases p with
  | after n status immData =>
      have hlater := later_complete q n
      rcases (q.complete n).poll_cases status immData with ⟨hempty, hq⟩ | ⟨wc, i, hfound, -, -, htook⟩
      · refine Or.inl ⟨Or.inl hempty, ?_⟩
        show q.Later ((q.complete n).poll status immData).2
        rw [hq]
        exact hlater
      · exact Or.inr ⟨wc, i, hfound, hlater.took htook⟩
  | failed n => exact Or.inl ⟨Or.inr ⟨n, rfl⟩, Later.refl q⟩

/-- **What the loop does to the queue.** -/
theorem sendLoop_cases (doPoll : Bool) (polls : List SendPoll) (q : SendQueue) :
    ((sendLoop doPoll polls q).1 = none ∨
        ((sendLoop doPoll polls q).1 = some .empty ∧ doPoll = false) ∨
        ∃ n, (sendLoop doPoll polls q).1 = some (.failed n)) ∧ q.Later (sendLoop doPoll polls q).2 ∨
      ∃ wc i, (sendLoop doPoll polls q).1 = some (.found wc) ∧ q.Took i (sendLoop doPoll polls q).2 := by
  induction polls generalizing q with
  | nil => exact Or.inl ⟨Or.inl rfl, Later.refl q⟩
  | cons p polls ih =>
      unfold sendLoop
      by_cases hgo : (p.run q).1 = .empty ∧ doPoll = true
      · rw [if_pos hgo]
        have hlater : q.Later (p.run q).2 := by
          rcases run_cases q p with ⟨-, hlater⟩ | ⟨wc, i, hfound, -⟩
          · exact hlater
          · rw [hfound] at hgo
            exact absurd hgo.1 (by simp)
        rcases ih (p.run q).2 with ⟨hend, hq⟩ | ⟨wc, i, hfound, htook⟩
        · exact Or.inl ⟨hend, hlater.trans hq⟩
        · exact Or.inr ⟨wc, i, hfound, hlater.took htook⟩
      · rw [if_neg hgo]
        rcases run_cases q p with ⟨hempty | hfailed, hlater⟩ | ⟨wc, i, hfound, htook⟩
        · refine Or.inl ⟨Or.inr (Or.inl ⟨congrArg some hempty, ?_⟩), hlater⟩
          by_contra hset
          exact hgo ⟨hempty, by simpa using hset⟩
        · obtain ⟨n, hn⟩ := hfailed
          exact Or.inl ⟨Or.inr (Or.inr ⟨n, congrArg some hn⟩), hlater⟩
        · exact Or.inr ⟨wc, i, congrArg some hfound, htook⟩

end SendQueue

end RdmaManager
