import RdmaManager.Common.Cpp
/-!
# Polling a completion queue

`ibv_poll_cq(cq, 1, &wc)` returns the number of completions it wrote to
`wc`, and a negative number when it fails. The functions of the source
that poll run one and the same loop around it. What the successive polls
of a call find is a list, and a call whose list is used up has not
returned.
-/

namespace RdmaManager

/-- The fields of `ibv_wc` that are read. -/
structure Wc where
  wrId : ℕ
  status : ℕ
  qpNum : UInt32
  immData : UInt32
  deriving DecidableEq, Repr

/-- `IBV_WC_SUCCESS`. -/
def IBV_WC_SUCCESS : ℕ := 0

/-- What one call of `ibv_poll_cq` for one completion finds. -/
inductive Polled
  | empty
  | found (wc : Wc)
  | failed (n : ℕ)
  deriving DecidableEq, Repr

namespace Polled

/-- What `ibv_poll_cq` returns. -/
def ne : Polled → ℤ
  | empty => 0
  | found _ => 1
  | failed n => Int.negSucc n

/-- What `ibv_poll_cq` leaves in the caller's `ibv_wc`. -/
def write (wc : Wc) : Polled → Wc
  | empty => wc
  | found wc' => wc'
  | failed _ => wc

end Polled

/-- The local variables after the loop, and how often the flag has been
read. -/
structure LoopExit where
  ne : ℤ
  wc : Wc
  reads : ℕ
  deriving DecidableEq, Repr

/-- The successful completion that the loop took from the queue. -/
def LoopExit.took (e : LoopExit) : Option Wc := if 0 < e.ne then some e.wc else none

/-- `do { … } while (ne == 0 && doPoll);`. The flag is read only when the
poll found nothing, and `doPoll i` is the value of the read with the
number `i`. -/
def pollLoop (text : ℕ → String) (doPoll : ℕ → Bool) : Wc → ℕ → List Polled →
    Option (Except Exn LoopExit)
  | _, _, [] => none
  | wc, reads, p :: polls =>
      let wc := p.write { wc with status := IBV_WC_SUCCESS }
      if wc.status ≠ IBV_WC_SUCCESS then some (.error (.runtimeError (text wc.status)))
      else if p.ne = 0 then
        if doPoll reads then pollLoop text doPoll wc (reads + 1) polls
        else some (.ok ⟨p.ne, wc, reads + 1⟩)
      else some (.ok ⟨p.ne, wc, reads⟩)

/-! ## Where the loop ends -/

/-- **The loop ends with the poll `k`, which finds `p`**: those before it
found nothing and the flag was set each time. -/
structure LoopEnds (doPoll : ℕ → Bool) (polls : List Polled) (k : ℕ) (p : Polled) : Prop where
  before : ∀ i < k, polls[i]? = some .empty ∧ doPoll i = true
  at_k : polls[k]? = some p
  last : p = .empty → doPoll k = false

/-- What the loop makes of its last poll. -/
def leave (text : ℕ → String) (wc : Wc) (k : ℕ) : Polled → Except Exn LoopExit
  | .empty => .ok ⟨0, { wc with status := IBV_WC_SUCCESS }, k + 1⟩
  | .found wc' =>
      if wc'.status = IBV_WC_SUCCESS then .ok ⟨1, wc', k⟩
      else .error (.runtimeError (text wc'.status))
  | .failed n => .ok ⟨Int.negSucc n, { wc with status := IBV_WC_SUCCESS }, k⟩

variable {text : ℕ → String} {doPoll : ℕ → Bool} {wc : Wc} {polls : List Polled} {p : Polled}
  {k r : ℕ} {res : Except Exn LoopExit}

theorem LoopEnds.zero (h : p = .empty → doPoll 0 = false) : LoopEnds doPoll (p :: polls) 0 p :=
  ⟨fun i hi => absurd hi (Nat.not_lt_zero i), rfl, h⟩

theorem LoopEnds.succ (h : LoopEnds (fun i => doPoll (i + 1)) polls k p) (h₀ : doPoll 0 = true) :
    LoopEnds doPoll (.empty :: polls) (k + 1) p := by
  refine ⟨fun i hi => ?_, h.at_k, h.last⟩
  cases i with
  | zero => exact ⟨rfl, h₀⟩
  | succ i => exact h.before i (Nat.lt_of_succ_lt_succ hi)

/-- There is one such poll. -/
theorem LoopEnds.unique {k' : ℕ} {p' : Polled} (h : LoopEnds doPoll polls k p)
    (h' : LoopEnds doPoll polls k' p') : k = k' ∧ p = p' := by
  have hle : ∀ {k k' : ℕ} {p p' : Polled}, LoopEnds doPoll polls k p → LoopEnds doPoll polls k' p' →
      k ≤ k' := by
    intro k k' p p' h h'
    by_contra hlt
    obtain ⟨hempty, hread⟩ := h.before k' (Nat.not_le.mp hlt)
    have hp' : p' = .empty := Option.some.inj (h'.at_k.symm.trans hempty)
    rw [h'.last hp'] at hread
    exact Bool.noConfusion hread
  obtain rfl := le_antisymm (hle h h') (hle h' h)
  exact ⟨rfl, Option.some.inj (h.at_k.symm.trans h'.at_k)⟩

theorem pollLoop_empty (h : doPoll r = true) :
    pollLoop text doPoll wc r (.empty :: polls) =
      pollLoop text doPoll { wc with status := IBV_WC_SUCCESS } (r + 1) polls := by
  simp [pollLoop, Polled.write, Polled.ne, h]

/-- A poll that the loop does not go on after. -/
theorem pollLoop_last (h : p = .empty → doPoll r = false) :
    pollLoop text doPoll wc r (p :: polls) = some (leave text wc r p) := by
  cases p with
  | empty => simp [pollLoop, leave, Polled.write, Polled.ne, h rfl]
  | found wc' =>
      by_cases hs : wc'.status = IBV_WC_SUCCESS <;> simp [pollLoop, leave, Polled.write, Polled.ne, hs]
  | failed n => simp [pollLoop, leave, Polled.write, Polled.ne]

/-- Where the loop goes on it has changed the local status only. -/
theorem leave_status : leave text { wc with status := IBV_WC_SUCCESS } k p = leave text wc k p := by
  cases p <;> rfl

theorem ends_of_pollLoop (h : pollLoop text doPoll wc r polls = some res) :
    ∃ k p, LoopEnds (fun i => doPoll (r + i)) polls k p ∧ res = leave text wc (r + k) p := by
  induction polls generalizing wc r with
  | nil => exact absurd h (by simp [pollLoop])
  | cons p polls ih =>
      by_cases hp : p = .empty ∧ doPoll r = true
      · obtain ⟨rfl, hread⟩ := hp
        rw [pollLoop_empty hread] at h
        obtain ⟨k, p, hends, rfl⟩ := ih h
        refine ⟨k + 1, p, LoopEnds.succ ?_ hread, ?_⟩
        · have hshift : (fun i => doPoll (r + (i + 1))) = fun i => doPoll (r + 1 + i) := by
            funext i
            congr 1
            omega
          rwa [hshift]
        · rw [leave_status]
          congr 1
          omega
      · have hlast : p = .empty → doPoll r = false := by
          intro hempty
          by_contra hread
          exact hp ⟨hempty, by simpa using hread⟩
        rw [pollLoop_last hlast] at h
        exact ⟨0, p, LoopEnds.zero hlast, (Option.some.inj h).symm⟩

theorem pollLoop_of_ends (h : LoopEnds (fun i => doPoll (r + i)) polls k p) :
    pollLoop text doPoll wc r polls = some (leave text wc (r + k) p) := by
  induction k generalizing wc r polls with
  | zero =>
      obtain ⟨p', rest, rfl⟩ := List.exists_cons_of_ne_nil (l := polls)
        (by rintro rfl; simpa using h.at_k)
      obtain rfl : p' = p := by simpa using h.at_k
      exact pollLoop_last h.last
  | succ k ih =>
      obtain ⟨hempty, hread⟩ := h.before 0 (Nat.succ_pos k)
      obtain ⟨p', rest, rfl⟩ := List.exists_cons_of_ne_nil (l := polls) (by rintro rfl; simp at hempty)
      obtain rfl : p' = .empty := by simpa using hempty
      rw [pollLoop_empty (by simpa using hread), ih ⟨fun i hi => ?_, h.at_k, fun hp => ?_⟩, leave_status]
      · congr 2
        omega
      · have hnext := h.before (i + 1) (Nat.succ_lt_succ hi)
        rwa [show r + (i + 1) = r + 1 + i by omega] at hnext
      · have hlast := h.last hp
        rwa [show r + (k + 1) = r + 1 + k by omega] at hlast

/-- **What the loop returns**, by the poll that ends it. -/
theorem pollLoop_eq_some : pollLoop text doPoll wc 0 polls = some res ↔
    ∃ k p, LoopEnds doPoll polls k p ∧ res = leave text wc k p := by
  constructor
  · intro h
    simpa only [Nat.zero_add] using ends_of_pollLoop h
  · rintro ⟨k, p, hends, rfl⟩
    rw [pollLoop_of_ends (by simpa only [Nat.zero_add] using hends), Nat.zero_add]

end RdmaManager
