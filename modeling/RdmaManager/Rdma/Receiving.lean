import RdmaManager.Rdma.Delivery
/-!
# Receives on a shared receive queue

A receive names the memory a message may be written to and carries a
number, `wr_id`, which its completion gives back. Messages may complete
the posted receives in any order. With each completion stand two facts
the code cannot see: the address its message was written to, and the
connection id whose queue pair it arrived on.
-/

namespace RdmaManager

/-- `ibv_recv_wr`, with its one `ibv_sge`. -/
structure RecvWr where
  wrId : ℕ
  addr : ℕ
  length : UInt32
  lkey : UInt32
  deriving DecidableEq, Repr

/-- A message that has arrived: its completion, and where it arrived. -/
structure Arrival where
  wc : Wc
  addr : ℕ
  connID : ℕ
  deriving DecidableEq, Repr

/-- **A shared receive queue of the device**: the receives that are
posted, and its completion queue. -/
structure ReceiveQueue where
  maxWr : ℕ
  posted : List RecvWr
  cq : List Arrival
  deriving DecidableEq, Repr

def ENOMEM : ℕ := 12

namespace ReceiveQueue

/-- `ibv_post_srq_recv`. -/
def ibvPostSrqRecv (wr : RecvWr) : Act ReceiveQueue ℕ := fun q =>
  if q.posted.length < q.maxWr then (.ok 0, { q with posted := q.posted ++ [wr] })
  else (.ok ENOMEM, q)

/-- What a poll of the completion queue finds. -/
def polled (q : ReceiveQueue) : Polled :=
  match q.cq with
  | [] => .empty
  | a :: _ => .found a.wc

/-- A message takes a posted receive and completes. -/
def arrive (q : ReceiveQueue) (wr : RecvWr) (qpNum immData : UInt32) (connID : ℕ) : ReceiveQueue :=
  { q with
    posted := q.posted.erase wr
    cq := q.cq ++ [⟨⟨wr.wrId, IBV_WC_SUCCESS, qpNum, immData⟩, wr.addr, connID⟩] }

end ReceiveQueue

namespace ReliableRDMA

/-- `ReliableRDMA::receiveSRQ(size_t, size_t, const void *, size_t)`, with
`std::strerror` and the `lkey` of the buffer as arguments. -/
def receiveSRQ (o : ReliableRDMA) (strerror : ℕ → String) (lkey : UInt32)
    (srqId memoryIndex memAddr size : ℕ) : Act ReceiveQueue Unit := do
  if srqId ∉ o.srqs then throw (.outOfRange "at")
  let errno ← ReceiveQueue.ibvPostSrqRecv ⟨memoryIndex, memAddr, size.toUInt32, lkey⟩
  if errno ≠ 0 then
    throw (.runtimeError ("RECV has not been posted successfully in receiveSRQ()! errno: " ++
      strerror errno))

open Act

variable {o : ReliableRDMA} {q : ReceiveQueue}

theorem wp_ibvPostSrqRecv {wr : RecvWr} {Q : ℕ → ReceiveQueue → Prop}
    {E : Exn → ReceiveQueue → Prop} (hroom : q.posted.length < q.maxWr)
    (hQ : Q 0 { q with posted := q.posted ++ [wr] }) :
    wp (ReceiveQueue.ibvPostSrqRecv wr) Q E q := by
  unfold wp ReceiveQueue.ibvPostSrqRecv
  rw [if_pos hroom]
  exact hQ

/-- While there is room the receive is posted. -/
theorem receiveSRQ_of_room {strerror : ℕ → String} {lkey : UInt32}
    {srqId memoryIndex memAddr size : ℕ} (hsrq : srqId ∈ o.srqs)
    (hroom : q.posted.length < q.maxWr) :
    o.receiveSRQ strerror lkey srqId memoryIndex memAddr size q = (.ok (), { q with
      posted := q.posted ++ [⟨memoryIndex, memAddr, size.toUInt32, lkey⟩] }) := by
  have hwp : wp (o.receiveSRQ strerror lkey srqId memoryIndex memAddr size)
      (fun _ q' => q' = { q with
        posted := q.posted ++ [⟨memoryIndex, memAddr, size.toUInt32, lkey⟩] })
      (fun _ _ => False) q := by
    unfold receiveSRQ
    simp only [wp_bind, wp_ite, wp_pure, wp_throw]
    refine ⟨fun hnot => hnot hsrq, fun _ => wp_ibvPostSrqRecv hroom ?_⟩
    exact ⟨fun hbad => hbad rfl, fun _ => rfl⟩
  obtain ⟨_, hok, hleft⟩ := ok_of_wp hwp
  exact Prod.ext hok hleft

/-- A call that returns has posted the receive. -/
theorem posted_of_receiveSRQ {strerror : ℕ → String} {lkey : UInt32}
    {srqId memoryIndex memAddr size : ℕ} {q' : ReceiveQueue}
    (h : o.receiveSRQ strerror lkey srqId memoryIndex memAddr size q = (.ok (), q')) :
    q' = { q with posted := q.posted ++ [⟨memoryIndex, memAddr, size.toUInt32, lkey⟩] } := by
  have hwp : wp (o.receiveSRQ strerror lkey srqId memoryIndex memAddr size)
      (fun _ q' => q' = { q with
        posted := q.posted ++ [⟨memoryIndex, memAddr, size.toUInt32, lkey⟩] })
      (fun _ _ => True) q := by
    unfold receiveSRQ
    simp only [wp_bind, wp_ite, wp_pure, wp_throw]
    refine ⟨fun _ => trivial, fun _ => ?_⟩
    unfold wp ReceiveQueue.ibvPostSrqRecv
    split_ifs with hroom
    · exact ⟨fun _ => trivial, fun _ => rfl⟩
    · exact ⟨fun _ => trivial, fun hzero => absurd (not_not.mp hzero) (by decide)⟩
  have hleft := wp_ok hwp h
  exact hleft

/-- **One round of `pollReceiveSRQ`**: it goes on, it returns `0`, or it
returns `1` with the outputs of the completion in front. -/
theorem pollReceiveSRQIndex_once {srqId : ℕ} {poll : Bool} {wc : Wc} {out : Outputs}
    (hsrq : srqId ∈ o.srqs) (hok : ∀ a ∈ q.cq, a.wc.status = IBV_WC_SUCCESS ∧
      o.qpNum2connID.lookup a.wc.qpNum.toNat = some a.connID) :
    o.pollReceiveSRQIndex srqId (fun _ => poll) [q.polled] wc out =
      match q.cq with
      | [] => if poll then none else some ⟨.ok 0, out, none⟩
      | a :: _ => some ⟨.ok 1, { out with retRdmaConnID := a.connID, retMemoryIdx := a.wc.wrId },
          some a.wc⟩ := by
  unfold pollReceiveSRQIndex
  rw [pollSRQ_of_mem hsrq]
  unfold ReceiveQueue.polled
  cases hcq : q.cq with
  | nil =>
      cases poll with
      | true => rw [pollLoop_empty rfl]; rfl
      | false => rw [pollLoop_last fun _ => rfl]; rfl
  | cons a rest =>
      obtain ⟨hgood, hlookup⟩ := hok a (by rw [hcq]; exact List.mem_cons_self)
      rw [pollLoop_last (by simp)]
      simp only [leave, hgood, if_true, Option.map_some, Ended.after, LoopExit.took_found]
      unfold deliverFound BaseRDMA.connIDOf
      rw [hlookup]
      rfl

end ReliableRDMA

end RdmaManager
