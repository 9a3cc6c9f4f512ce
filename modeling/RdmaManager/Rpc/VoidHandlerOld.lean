import Mathlib.Data.Nat.ModEq
import RdmaManager.Common.System
import RdmaManager.Rdma.Receiving
/-!
# `RPCMemory` and `RPCVoidHandlerThreadOld`

The older thread does not learn from a completion which slot its message
is in. It asks `RPCMemory` for the next slot, both when it posts its first
receives and when it has polled a message, and so relies on the slots
coming round in the order the receives are consumed in. The position is a
32-bit counter, reduced modulo the number of slots: where it wraps the
slots go on in turn if their number divides `2 ^ 32`, and else they do not.
-/

namespace RdmaManager

/-- `RPCMemory`. -/
structure RPCMemory where
  localBuffer : ℕ
  msgSize : ℕ
  maxNumberMsgs : UInt32
  index : UInt32 := 0
  deriving DecidableEq, Repr

namespace RPCMemory

/-- `RPCMemory::getNext`. -/
def getNext : Act RPCMemory ℕ := fun m =>
  if m.maxNumberMsgs = 0 then (.error (.undefined "m_index % 0"), m)
  else
    (.ok (wrap64 (m.localBuffer + wrap64 (m.msgSize * (m.index % m.maxNumberMsgs).toNat))),
      { m with index := m.index + 1 })

/-- The object after `k` calls of `getNext`. -/
def advance (m : RPCMemory) : ℕ → RPCMemory
  | 0 => m
  | k + 1 => (getNext (m.advance k)).2

/-- What the call with the number `k` returns. -/
def nth (m : RPCMemory) (k : ℕ) : Except Exn ℕ := (getNext (m.advance k)).1

/-- The slot with the number `i`. -/
def slot (m : RPCMemory) (i : ℕ) : ℕ := wrap64 (m.localBuffer + m.msgSize * i)

/-- The number of the slot that the call with the number `k` returns. -/
def turn (m : RPCMemory) (k : ℕ) : ℕ := k % 2 ^ 32 % m.maxNumberMsgs.toNat

/-- **The slots come round in turn**, however often they are asked for. -/
def InTurn (m : RPCMemory) : Prop := ∀ k, m.nth k = .ok (m.slot (k % m.maxNumberMsgs.toNat))

/-- The number of the slots divides `2 ^ 32`, or slots whose numbers agree
modulo the common divisor of the two have one address. -/
def Divides (m : RPCMemory) : Prop :=
  m.maxNumberMsgs.toNat ∣ 2 ^ 32 ∨ 2 ^ 64 ∣ m.msgSize * Nat.gcd m.maxNumberMsgs.toNat (2 ^ 32)

instance (m : RPCMemory) : Decidable m.Divides := inferInstanceAs (Decidable (_ ∨ _))

variable {m : RPCMemory} {k : ℕ}

theorem slot_turn (m : RPCMemory) (k : ℕ) : m.slot (m.turn k) = wrap64 (m.localBuffer +
    wrap64 (m.msgSize * (k.toUInt32 % m.maxNumberMsgs).toNat)) := by
  have hturn : (k.toUInt32 % m.maxNumberMsgs).toNat = m.turn k := by
    rw [UInt32.toNat_mod, Nat.toUInt32_eq, UInt32.toNat_ofNat']
    rfl
  rw [hturn]
  unfold slot wrap64
  omega

/-- The counter counts the calls, modulo `2 ^ 32`. -/
theorem advance_eq (hstart : m.index = 0) (hpos : m.maxNumberMsgs ≠ 0) :
    m.advance k = { m with index := k.toUInt32 } := by
  induction k with
  | zero =>
      obtain ⟨_, _, _, _⟩ := m
      obtain rfl : _ = (0 : UInt32) := hstart
      rfl
  | succ k ih =>
      have hnext : k.toUInt32 + 1 = (k + 1).toUInt32 := by
        apply UInt32.toNat_inj.mp
        simp [UInt32.toNat_add]
      rw [advance, ih, getNext, if_neg hpos, ← hnext]

theorem nth_eq (hstart : m.index = 0) (hpos : m.maxNumberMsgs ≠ 0) (k : ℕ) :
    m.nth k = .ok (m.slot (m.turn k)) := by
  rw [nth, advance_eq hstart hpos, getNext, if_neg hpos, slot_turn]

/-! ## Where the counter wraps -/

/-- Two slots have one address if and only if their distance is a multiple
of `2 ^ 64` bytes. -/
theorem slot_eq_iff {i j : ℕ} : m.slot i = m.slot j ↔ m.msgSize * i ≡ m.msgSize * j [MOD 2 ^ 64] := by
  unfold slot wrap64
  exact ⟨fun h => Nat.ModEq.add_left_cancel' m.localBuffer h, fun h => h.add_left m.localBuffer⟩

/-- Numbers that agree modulo the common divisor name one address. -/
theorem Divides.slot_eq {i j : ℕ} (h : 2 ^ 64 ∣ m.msgSize * Nat.gcd m.maxNumberMsgs.toNat (2 ^ 32))
    (hij : i ≡ j [MOD Nat.gcd m.maxNumberMsgs.toNat (2 ^ 32)]) : m.slot i = m.slot j :=
  slot_eq_iff.mpr ((hij.mul_left' m.msgSize).of_dvd h)

theorem turn_modEq (m : RPCMemory) (k : ℕ) :
    m.turn k ≡ k [MOD Nat.gcd m.maxNumberMsgs.toNat (2 ^ 32)] := by
  have hmod : k % 2 ^ 32 % m.maxNumberMsgs.toNat ≡ k % 2 ^ 32 [MOD m.maxNumberMsgs.toNat] :=
    Nat.mod_modEq _ _
  have hwrap : k % 2 ^ 32 ≡ k [MOD 2 ^ 32] := Nat.mod_modEq _ _
  exact (hmod.of_dvd (Nat.gcd_dvd_left _ _)).trans (hwrap.of_dvd (Nat.gcd_dvd_right _ _))

/-- **Under the condition the slots come round in turn.** -/
theorem Divides.slot_turn (h : m.Divides) (k : ℕ) :
    m.slot (m.turn k) = m.slot (k % m.maxNumberMsgs.toNat) := by
  rcases h with hdvd | hdvd
  · rw [turn, Nat.mod_mod_of_dvd k hdvd]
  · refine Divides.slot_eq hdvd ((m.turn_modEq k).trans ?_)
    exact ((Nat.mod_modEq k _).of_dvd (Nat.gcd_dvd_left _ _)).symm

/-- And so does every other round of slots. -/
theorem Divides.slot_turn_add (h : m.Divides) (k : ℕ) :
    m.slot (m.turn (m.maxNumberMsgs.toNat + k)) = m.slot (m.turn k) := by
  rw [h.slot_turn, h.slot_turn, Nat.add_mod_left]

/-- The call with which a counter modulo `w` starts again, and the one a
round earlier. -/
theorem mod_wrap_first {n w : ℕ} (hlt : n < w) (hpos : 0 < n) :
    (n + (w - n)) % w % n = 0 ∧ (w - n) % w % n = w % n := by
  constructor
  · rw [Nat.add_sub_cancel' hlt.le, Nat.mod_self, Nat.zero_mod]
  · rw [Nat.mod_eq_of_lt (show w - n < w by omega), ← Nat.mod_eq_sub_mod hlt.le]

/-- The last call of the first round after the wrap, and the one a round
earlier. -/
theorem mod_wrap_last {n w : ℕ} (hlt : n < w) (hgap : 0 < w % n) (hpos : 0 < n) :
    (n + (w - 1)) % w % n = n - 1 ∧ (w - 1) % w % n = w % n - 1 := by
  have hgaplt : w % n < n := Nat.mod_lt _ hpos
  constructor
  · rw [show n + (w - 1) = n - 1 + w by omega, Nat.add_mod_right,
      Nat.mod_eq_of_lt (show n - 1 < w by omega), Nat.mod_eq_of_lt (show n - 1 < n by omega)]
  · have hdiv := Nat.div_add_mod w n
    have hsplit : w - 1 = n * (w / n) + (w % n - 1) := by omega
    rw [Nat.mod_eq_of_lt (show w - 1 < w by omega), hsplit, Nat.mul_add_mod,
      Nat.mod_eq_of_lt (show w % n - 1 < n by omega)]

/-- **The condition is necessary**: at the wrap the slot `0` follows a slot
that is not the last one. -/
theorem divides_of_slot_turn_add (hpos : m.maxNumberMsgs ≠ 0)
    (h : ∀ k, m.slot (m.turn (m.maxNumberMsgs.toNat + k)) = m.slot (m.turn k)) : m.Divides := by
  have hmax : 0 < m.maxNumberMsgs.toNat := Nat.pos_of_ne_zero fun hz =>
    hpos (UInt32.toNat_inj.mp hz)
  have hlt := m.maxNumberMsgs.toNat_lt
  rcases Nat.eq_zero_or_pos (2 ^ 32 % m.maxNumberMsgs.toNat) with hzero | hgap
  · exact Or.inl (Nat.dvd_of_mod_eq_zero hzero)
  · refine Or.inr ?_
    have hfirst : m.msgSize * 0 ≡ m.msgSize * (2 ^ 32 % m.maxNumberMsgs.toNat) [MOD 2 ^ 64] := by
      have hk := slot_eq_iff.mp (h (2 ^ 32 - m.maxNumberMsgs.toNat))
      unfold turn at hk
      rwa [(mod_wrap_first hlt hmax).1, (mod_wrap_first hlt hmax).2] at hk
    have hlast : m.msgSize * (m.maxNumberMsgs.toNat - 1) ≡
        m.msgSize * (2 ^ 32 % m.maxNumberMsgs.toNat - 1) [MOD 2 ^ 64] := by
      have hk := slot_eq_iff.mp (h (2 ^ 32 - 1))
      unfold turn at hk
      rwa [(mod_wrap_last hlt hgap hmax).1, (mod_wrap_last hlt hgap hmax).2] at hk
    have hgapdvd : 2 ^ 64 ∣ m.msgSize * (2 ^ 32 % m.maxNumberMsgs.toNat) := by
      rw [Nat.mul_zero] at hfirst
      exact Nat.modEq_zero_iff_dvd.mp hfirst.symm
    have hmaxdvd : 2 ^ 64 ∣ m.msgSize * m.maxNumberMsgs.toNat := by
      have hone := hlast.add_right (m.msgSize * 1)
      rw [← Nat.mul_add, ← Nat.mul_add, Nat.sub_add_cancel hmax, Nat.sub_add_cancel hgap] at hone
      exact Nat.modEq_zero_iff_dvd.mp (hone.trans (Nat.modEq_zero_iff_dvd.mpr hgapdvd))
    rw [Nat.gcd_rec, ← Nat.gcd_mul_left]
    exact Nat.dvd_gcd hgapdvd hmaxdvd

/-- **The slots come round in turn exactly under the condition.** -/
theorem inTurn_iff (hstart : m.index = 0) (hpos : m.maxNumberMsgs ≠ 0) : m.InTurn ↔ m.Divides := by
  have hslot : ∀ k, m.nth k = .ok (m.slot (k % m.maxNumberMsgs.toNat)) ↔
      m.slot (m.turn k) = m.slot (k % m.maxNumberMsgs.toNat) := by
    intro k
    rw [nth_eq hstart hpos]
    exact ⟨Except.ok.inj, congrArg Except.ok⟩
  constructor
  · intro h
    refine divides_of_slot_turn_add hpos fun k => ?_
    rw [(hslot _).mp (h _), (hslot _).mp (h _), Nat.add_mod_left]
  · exact fun h k => (hslot k).mpr (h.slot_turn k)

/-- Three slots of 64 bytes. -/
def threeSlots : RPCMemory := ⟨4096, 64, 3, 0⟩

/-- The call with the number `2 ^ 32` returns the slot `0` and not the slot
`1`. -/
theorem threeSlots_not_inTurn : threeSlots.nth (2 ^ 32) = .ok 4096 ∧
    threeSlots.slot (2 ^ 32 % 3) = 4160 ∧ ¬ threeSlots.InTurn := by
  have hnth : threeSlots.nth (2 ^ 32) = .ok 4096 := by
    rw [nth_eq rfl (by decide)]
    decide
  refine ⟨hnth, by decide, fun h => ?_⟩
  have hslot := hnth.symm.trans (h (2 ^ 32))
  exact absurd (Except.ok.inj hslot) (by decide)

end RPCMemory

/-! ## The thread -/

/-- `ReliableRDMA::receiveSRQ(size_t, const void *, size_t)`. -/
def ReliableRDMA.receiveSRQPlain (o : ReliableRDMA) (strerror : ℕ → String) (lkey : UInt32)
    (srqId memAddr size : ℕ) : Act ReceiveQueue Unit :=
  o.receiveSRQ strerror lkey srqId 0 memAddr size

/-- The constant fields of `RPCVoidHandlerThreadOld`, the number of messages
as the `uint32_t` it is kept in, with the `lkey` of the buffer and
`std::strerror`. -/
structure RPCVoidHandlerThreadOld where
  srqID : ℕ
  msgSize : ℕ
  maxNumberMsgs : UInt32
  rpcBuffer : ℕ
  lkey : UInt32
  strerror : ℕ → String

/-- Where the thread stands. A call of `handleRDMARPCVoid` carries its
argument `message` and the arrival that was polled. -/
inductive OldHandlerStage
  /-- `initMemory`, about to test its loop. -/
  | initialising (i : ℕ)
  /-- The object is constructed. -/
  | idle
  /-- `run`, about to test whether the thread was killed. -/
  | testing
  | polling
  | handling (message : ℕ) (arrival : Option Arrival)
  | ended
  | threw (e : Exn)
  deriving DecidableEq, Repr

/-- The thread, the server and the shared receive queue. -/
structure OldHandler where
  rpcMemory : RPCMemory
  server : ReliableRDMA
  queue : ReceiveQueue
  stage : OldHandlerStage

/-- What the thread does, and what the device and the server do. -/
inductive OldHandlerEvent
  /-- An iteration of `initMemory`, or its end. -/
  | post
  /-- `run` begins. -/
  | start
  /-- The test of the loop of `run`, with the value of `m_kill`. -/
  | test (killed : Bool)
  /-- A poll of `pollReceiveSRQ`, with the values of `m_poll` and with what
  its local variables and the one of `run` held. -/
  | poll (doPoll : ℕ → Bool) (wc : Wc) (out : Outputs)
  /-- The handler returns and the slot is posted again. -/
  | repost
  /-- A message takes the receive that was posted first. -/
  | arrive (qpNum immData : UInt32) (connID : ℕ)
  /-- The server connects and disconnects clients. -/
  | serve (server : ReliableRDMA)

namespace RPCVoidHandlerThreadOld

variable (t : RPCVoidHandlerThreadOld)

/-- `m_rpcMemory`, as it is constructed. -/
def memory : RPCMemory := ⟨t.rpcBuffer, t.msgSize, t.maxNumberMsgs, 0⟩

/-- Post `message` and go on to `next`. -/
def postSlot (message : ℕ) (next : OldHandlerStage) (s : OldHandler) : OldHandler :=
  match s.server.receiveSRQPlain t.strerror t.lkey t.srqID message t.msgSize s.queue with
  | (.ok (), queue) => { s with queue, stage := next }
  | (.error e, queue) => { s with queue, stage := .threw e }

/-- `m_rpcMemory.getNext()`, and what is done with the pointer. -/
def withNext (next : ℕ → OldHandler → OldHandler) (s : OldHandler) : OldHandler :=
  match RPCMemory.getNext s.rpcMemory with
  | (.ok ptr, rpcMemory) => next ptr { s with rpcMemory }
  | (.error e, rpcMemory) => { s with rpcMemory, stage := .threw e }

/-- A poll of `pollReceiveSRQ` in `run`, and the next slot if it returns. -/
def pollOnce (doPoll : ℕ → Bool) (wc : Wc) (out : Outputs) (s : OldHandler) : OldHandler :=
  match s.server.pollReceiveSRQAtomic t.srqID doPoll [s.queue.polled] wc out with
  | none => s
  | some e =>
      let queue := if e.took.isSome then { s.queue with cq := s.queue.cq.tail } else s.queue
      match e.ret with
      | .error x => { s with queue, stage := .threw x }
      | .ok ret =>
          if ret ≠ 0 then
            withNext (fun message s' => { s' with stage := .handling message s.queue.cq.head? })
              { s with queue }
          else { s with queue, stage := .testing }

/-- What an event makes of the state. -/
def exec (s : OldHandler) : OldHandlerEvent → OldHandler
  | .post =>
      match s.stage with
      | .initialising i =>
          if i < t.maxNumberMsgs.toNat then
            withNext (fun ptr => t.postSlot ptr (.initialising (i + 1))) s
          else { s with stage := .idle }
      | _ => s
  | .start => { s with stage := .testing }
  | .test killed => { s with stage := if killed then .ended else .polling }
  | .poll doPoll wc out => t.pollOnce doPoll wc out s
  | .repost =>
      match s.stage with
      | .handling message _ => t.postSlot message .testing s
      | _ => s
  | .arrive qpNum immData connID =>
      match s.queue.posted with
      | [] => s
      | wr :: _ => { s with queue := s.queue.arrive wr qpNum immData connID }
  | .serve server => { s with server }

/-- When an event may happen. -/
def Enabled (s : OldHandler) : OldHandlerEvent → Prop
  | .post => ∃ i, s.stage = .initialising i
  | .start => s.stage = .idle ∨ s.stage = .ended
  | .test _ => s.stage = .testing
  | .poll _ _ _ => s.stage = .polling
  | .repost => ∃ message a, s.stage = .handling message a
  | .arrive _ _ _ => s.queue.posted ≠ []
  | .serve _ => True

/-- **The runs** from the constructor on, with a receive queue of `maxWr`
receives that nobody else posts to and that gives them out in the order
they were posted in. -/
def runs (maxWr : ℕ) : System OldHandler OldHandlerEvent where
  Init s := s.rpcMemory = t.memory ∧ s.queue = ⟨maxWr, [], []⟩ ∧ s.stage = .initialising 0
  Step s e s' := Enabled s e ∧ s' = t.exec s e

/-- **The thread handles the slot its message was received into**, and that
is the slot it posts again. -/
def Aligned (s : OldHandler) : Prop :=
  ∀ message a, s.stage = .handling message a →
    ∃ b, a = some b ∧ message = b.addr ∧ t.exec s .repost = t.postSlot b.addr .testing s

/-! ## The rotation of the slots -/

/-- The receive with the number `k` names this address. -/
def ring (k : ℕ) : ℕ := t.memory.slot (t.memory.turn k)

/-- The receives that are out are the `len` from the number `n` on, and
`gets` slots have been asked for. -/
structure Out (n len gets : ℕ) (s : OldHandler) : Prop where
  out : s.queue.cq.map Arrival.addr ++ s.queue.posted.map RecvWr.addr =
    (List.range' n len).map t.ring
  status : ∀ a ∈ s.queue.cq, a.wc.status = IBV_WC_SUCCESS
  memory : s.rpcMemory = { t.memory with index := gets.toUInt32 }

/-- **Where the rotation stands** after `n` messages have been handled. -/
def Rotates (n : ℕ) (s : OldHandler) : Prop :=
  match s.stage with
  | .initialising i => n = 0 ∧ i ≤ t.maxNumberMsgs.toNat ∧ t.Out 0 i i s
  | .idle | .testing | .polling | .ended =>
      t.Out n t.maxNumberMsgs.toNat (t.maxNumberMsgs.toNat + n) s
  | .handling message a =>
      ∃ b, a = some b ∧ b.addr = t.ring n ∧ message = t.ring (t.maxNumberMsgs.toNat + n) ∧
        t.Out (n + 1) (t.maxNumberMsgs.toNat - 1) (t.maxNumberMsgs.toNat + n + 1) s
  | .threw _ => True

variable {t} {s : OldHandler} {n len gets maxWr : ℕ}

/-- What the next call of `getNext` returns. -/
theorem getNext_memory (hpos : t.maxNumberMsgs ≠ 0) (k : ℕ) :
    RPCMemory.getNext { t.memory with index := k.toUInt32 } =
      (.ok (t.ring k), { t.memory with index := (k + 1).toUInt32 }) := by
  have hk := RPCMemory.nth_eq (m := t.memory) rfl hpos k
  have hk' := RPCMemory.advance_eq (m := t.memory) (k := k + 1) rfl hpos
  rw [RPCMemory.nth, RPCMemory.advance_eq rfl hpos] at hk
  rw [RPCMemory.advance, RPCMemory.advance_eq rfl hpos] at hk'
  exact Prod.ext hk hk'

theorem withNext_of_memory {k : ℕ} (h : s.rpcMemory = { t.memory with index := k.toUInt32 })
    (hpos : t.maxNumberMsgs ≠ 0) (next : ℕ → OldHandler → OldHandler) : withNext next s =
      next (t.ring k) { s with rpcMemory := { t.memory with index := (k + 1).toUInt32 } } := by
  unfold withNext
  rw [h, getNext_memory hpos]

/-- A slot is posted, or the call throws. -/
theorem postSlot_cases (message : ℕ) (next : OldHandlerStage) (s : OldHandler) :
    (∃ wr : RecvWr, wr.addr = message ∧ t.postSlot message next s =
      { s with queue := { s.queue with posted := s.queue.posted ++ [wr] }, stage := next }) ∨
      ∃ e, (t.postSlot message next s).stage = .threw e := by
  unfold postSlot
  rcases hres : s.server.receiveSRQPlain t.strerror t.lkey t.srqID message t.msgSize s.queue with
    ⟨e | ⟨⟩, queue⟩
  · exact Or.inr ⟨e, rfl⟩
  · refine Or.inl ⟨⟨0, message, t.msgSize.toUInt32, t.lkey⟩, rfl, ?_⟩
    rw [ReliableRDMA.posted_of_receiveSRQ hres]

/-- What returns after the loop returns what the last poll did. -/
theorem deliverIfSet_ret (o : ReliableRDMA) (doPoll : ℕ → Bool) (more : Wc → Outputs → Outputs)
    (e : LoopExit) (out : Outputs) : (o.deliverIfSet doPoll more e out).1 = .ok e.ne ∨
      ∃ x, (o.deliverIfSet doPoll more e out).1 = .error x := by
  have hwp : Act.wp (o.deliverIfSet doPoll more e) (fun n _ => n = e.ne) (fun _ _ => True) out := by
    unfold ReliableRDMA.deliverIfSet BaseRDMA.connIDOf
    cases o.qpNum2connID.lookup e.wc.qpNum.toNat <;>
      simp [Act.wp_bind, Act.wp_ite, Act.wp_pure, Act.wp_throw, Act.wp_modify]
  unfold Act.wp at hwp
  rcases hres : o.deliverIfSet doPoll more e out with ⟨x | n, out'⟩ <;> rw [hres] at hwp
  · exact Or.inr ⟨x, rfl⟩
  · exact Or.inl (congrArg Except.ok hwp)

/-- What one round of `pollReceiveSRQ` returns or throws, and what it takes
from the queue. -/
theorem pollReceiveSRQAtomic_cases {o : ReliableRDMA} {q : ReceiveQueue} {srqId : ℕ}
    {doPoll : ℕ → Bool} {wc : Wc} {out : Outputs} {r : Ended ℤ}
    (hgood : ∀ a ∈ q.cq, a.wc.status = IBV_WC_SUCCESS)
    (h : o.pollReceiveSRQAtomic srqId doPoll [q.polled] wc out = some r) :
    r.took = none ∧ (r.ret = .ok 0 ∨ ∃ e, r.ret = .error e) ∨
      ∃ a rest, q.cq = a :: rest ∧ r.took = some a.wc ∧ (r.ret = .ok 1 ∨ ∃ e, r.ret = .error e) := by
  unfold ReliableRDMA.pollReceiveSRQAtomic ReliableRDMA.pollSRQ at h
  cases hsrq : o.srqs.lookup srqId with
  | none =>
      rw [hsrq] at h
      obtain rfl := Option.some.inj h
      exact Or.inl ⟨rfl, Or.inr ⟨_, rfl⟩⟩
  | some srq =>
      rw [hsrq] at h
      obtain ⟨res, hres, rfl⟩ := Option.map_eq_some_iff.mp h
      obtain ⟨k, p, hends, rfl⟩ := pollLoop_eq_some.mp hres
      have hp : p = q.polled := by
        have hat := hends.at_k
        cases k with
        | zero => exact (Option.some.inj hat).symm
        | succ k => exact absurd hat (by simp)
      unfold ReceiveQueue.polled at hp
      cases hcq : q.cq with
      | nil =>
          rw [hcq] at hp
          obtain rfl := hp
          exact Or.inl ⟨by simp [leave, Ended.after], deliverIfSet_ret o doPoll _ _ out⟩
      | cons a rest =>
          rw [hcq] at hp
          obtain rfl := hp
          have hsuccess := hgood a (by rw [hcq]; exact List.mem_cons_self)
          simp only [leave, hsuccess, if_true, Ended.after, LoopExit.took_found]
          exact Or.inr ⟨a, rest, rfl, rfl, deliverIfSet_ret o doPoll _ _ out⟩

/-- A receive more. -/
theorem Out.snoc (h : t.Out n len gets s) {wr : RecvWr} (hwr : wr.addr = t.ring (n + len))
    {s' : OldHandler} {gets' : ℕ} (hmemory : s'.rpcMemory = { t.memory with index := gets'.toUInt32 })
    (hqueue : s'.queue = { s.queue with posted := s.queue.posted ++ [wr] }) :
    t.Out n (len + 1) gets' s' := by
  refine ⟨?_, by rw [hqueue]; exact h.status, hmemory⟩
  rw [hqueue, List.map_append, ← List.append_assoc, h.out, List.range'_concat, List.map_append,
    Nat.one_mul, List.map_singleton, List.map_singleton, hwr]

theorem Rotates.post (hpos : t.maxNumberMsgs ≠ 0) (h : t.Rotates n s)
    (henabled : Enabled s .post) : ∃ n', t.Rotates n' (t.exec s .post) := by
  obtain ⟨i, hstage⟩ := henabled
  unfold Rotates at h
  rw [hstage] at h
  obtain ⟨rfl, hi, hout⟩ := h
  refine ⟨0, ?_⟩
  simp only [RPCVoidHandlerThreadOld.exec, hstage]
  by_cases hlt : i < t.maxNumberMsgs.toNat
  · rw [if_pos hlt, withNext_of_memory hout.memory hpos]
    rcases postSlot_cases (t := t) (t.ring i) (.initialising (i + 1))
        { s with rpcMemory := { t.memory with index := (i + 1).toUInt32 } } with
      ⟨wr, hwr, heq⟩ | ⟨e, hthrew⟩
    · rw [heq]
      exact ⟨rfl, hlt, hout.snoc (by rw [hwr, Nat.zero_add]) rfl rfl⟩
    · unfold Rotates
      rw [hthrew]
      trivial
  · rw [if_neg hlt]
    obtain rfl : i = t.maxNumberMsgs.toNat := by omega
    exact ⟨hout.out, hout.status, hout.memory⟩

theorem Rotates.repost (hpos : t.maxNumberMsgs ≠ 0) (h : t.Rotates n s)
    (henabled : Enabled s .repost) : ∃ n', t.Rotates n' (t.exec s .repost) := by
  obtain ⟨message, a, hstage⟩ := henabled
  unfold Rotates at h
  rw [hstage] at h
  obtain ⟨b, rfl, hb, rfl, hout⟩ := h
  refine ⟨n + 1, ?_⟩
  simp only [RPCVoidHandlerThreadOld.exec, hstage]
  have hmax : 0 < t.maxNumberMsgs.toNat := Nat.pos_of_ne_zero fun hz =>
    hpos (UInt32.toNat_inj.mp hz)
  rcases postSlot_cases (t := t) (t.ring (t.maxNumberMsgs.toNat + n)) .testing s with
    ⟨wr, hwr, heq⟩ | ⟨e, hthrew⟩
  · -- the slot that was handled follows those that are out
    rw [heq]
    have hnext : t.Out (n + 1) (t.maxNumberMsgs.toNat - 1 + 1) (t.maxNumberMsgs.toNat + n + 1)
        { s with queue := { s.queue with posted := s.queue.posted ++ [wr] }, stage := .testing } :=
      hout.snoc (by rw [hwr]; congr 1; omega) hout.memory rfl
    rwa [Nat.sub_add_cancel hmax] at hnext
  · unfold Rotates
    rw [hthrew]
    trivial

theorem Rotates.poll (hpos : t.maxNumberMsgs ≠ 0) (h : t.Rotates n s) {doPoll : ℕ → Bool} {wc : Wc}
    {out : Outputs} (henabled : Enabled s (.poll doPoll wc out)) :
    ∃ n', t.Rotates n' (t.exec s (.poll doPoll wc out)) := by
  have hstage : s.stage = .polling := henabled
  refine ⟨n, ?_⟩
  show t.Rotates n (t.pollOnce doPoll wc out s)
  unfold pollOnce
  cases hpoll : s.server.pollReceiveSRQAtomic t.srqID doPoll [s.queue.polled] wc out with
  | none => exact h
  | some r =>
      unfold Rotates at h
      rw [hstage] at h
      rcases pollReceiveSRQAtomic_cases h.status hpoll with
        ⟨htook, hret | ⟨e, hret⟩⟩ | ⟨a, rest, hcq, htook, hret | ⟨e, hret⟩⟩
      · simp only [htook, hret]
        exact ⟨h.out, h.status, h.memory⟩
      · simp only [hret]
        trivial
      · -- the message in front is in the slot `n`, and the next slot is asked for
        simp only [htook, hret, Option.isSome_some, if_true, ne_eq, one_ne_zero, not_false_eq_true,
          hcq, List.tail_cons, List.head?_cons]
        have hout := h.out
        obtain ⟨m, hm⟩ := Nat.exists_eq_succ_of_ne_zero fun hz => hpos (UInt32.toNat_inj.mp hz)
        rw [hcq, hm, List.range'_succ, List.map_cons, List.map_cons, List.cons_append] at hout
        obtain ⟨ha, hrest⟩ := List.cons_eq_cons.mp hout
        have hnext : t.Out (n + 1) (t.maxNumberMsgs.toNat - 1) (t.maxNumberMsgs.toNat + n)
            { s with queue := { s.queue with cq := rest } } := by
          refine ⟨?_, fun b hb => h.status b (by rw [hcq]; exact List.mem_cons_of_mem _ hb), h.memory⟩
          rw [hm]
          exact hrest
        rw [withNext_of_memory hnext.memory hpos]
        exact ⟨a, rfl, ha, rfl, hnext.out, hnext.status, rfl⟩
      · simp only [hret]
        trivial

/-- An event of the device or of the server. -/
theorem Rotates.congr (h : t.Rotates n s) {s' : OldHandler} (hstage : s'.stage = s.stage)
    (hout : ∀ {n len gets}, t.Out n len gets s → t.Out n len gets s') : t.Rotates n s' := by
  unfold Rotates at h ⊢
  rw [hstage]
  cases hs : s.stage with
  | initialising i =>
      rw [hs] at h
      exact ⟨h.1, h.2.1, hout h.2.2⟩
  | handling message a =>
      rw [hs] at h
      obtain ⟨b, ha, hb, hmessage, hrest⟩ := h
      exact ⟨b, ha, hb, hmessage, hout hrest⟩
  | idle => rw [hs] at h; exact hout h
  | testing => rw [hs] at h; exact hout h
  | polling => rw [hs] at h; exact hout h
  | ended => rw [hs] at h; exact hout h
  | threw e => trivial

/-- A message goes from the receives that are posted to those that have
completed. -/
theorem Out.arrive (h : t.Out n len gets s) {wr : RecvWr} {rest : List RecvWr}
    (hposted : s.queue.posted = wr :: rest) (qpNum immData : UInt32) (connID : ℕ) :
    t.Out n len gets { s with queue := s.queue.arrive wr qpNum immData connID } := by
  refine ⟨?_, fun a ha => ?_, h.memory⟩
  · show (s.queue.cq ++ [_]).map Arrival.addr ++ (s.queue.posted.erase wr).map RecvWr.addr = _
    rw [← h.out, hposted, List.erase_cons_head, List.map_append, List.append_assoc]
    rfl
  · rcases List.mem_append.mp ha with hold | hnew
    · exact h.status a hold
    · obtain rfl := List.mem_singleton.mp hnew
      rfl

/-- **One event**: the rotation goes on, by one message when its slot has
been posted again. -/
theorem Rotates.exec (hpos : t.maxNumberMsgs ≠ 0) (h : t.Rotates n s) {e : OldHandlerEvent}
    (henabled : Enabled s e) : ∃ n', t.Rotates n' (t.exec s e) := by
  cases e with
  | post => exact h.post hpos henabled
  | start =>
      refine ⟨n, ?_⟩
      unfold Rotates at h
      rcases henabled with hstage | hstage <;> rw [hstage] at h
      · exact ⟨h.out, h.status, h.memory⟩
      · exact ⟨h.out, h.status, h.memory⟩
  | test killed =>
      have hstage : s.stage = .testing := henabled
      unfold Rotates at h
      rw [hstage] at h
      refine ⟨n, ?_⟩
      cases killed with
      | true => exact ⟨h.out, h.status, h.memory⟩
      | false => exact ⟨h.out, h.status, h.memory⟩
  | poll doPoll wc out => exact h.poll hpos henabled
  | repost => exact h.repost hpos henabled
  | arrive qpNum immData connID =>
      obtain ⟨wr, rest, hposted⟩ := List.exists_cons_of_ne_nil henabled
      simp only [RPCVoidHandlerThreadOld.exec, hposted]
      exact ⟨n, h.congr rfl fun hout => hout.arrive hposted qpNum immData connID⟩
  | serve server =>
      exact ⟨n, h.congr rfl fun hout => ⟨hout.out, hout.status, hout.memory⟩⟩

theorem rotates_invariant (hpos : t.maxNumberMsgs ≠ 0) :
    (t.runs maxWr).Invariant fun s => ∃ n, t.Rotates n s where
  init s hinit := by
    obtain ⟨hmemory, hqueue, hstage⟩ := hinit
    refine ⟨0, ?_⟩
    unfold Rotates
    rw [hstage]
    refine ⟨rfl, Nat.zero_le _, ?_, ?_, by rw [hmemory]; rfl⟩
    · rw [hqueue]
      rfl
    · rw [hqueue]
      exact fun a ha => absurd ha List.not_mem_nil
  step s e s' _ h hstep := by
    obtain ⟨n, hn⟩ := h
    obtain ⟨henabled, rfl⟩ := hstep
    exact hn.exec hpos henabled

/-- **Where the slots come round in turn, the thread is aligned** in every
state of every run. -/
theorem aligned_of_divides (hpos : t.maxNumberMsgs ≠ 0) (hdiv : t.memory.Divides)
    (hreach : (t.runs maxWr).Reachable s) : t.Aligned s := by
  intro message a hstage
  obtain ⟨n, hn⟩ := (rotates_invariant hpos).reachable hreach
  unfold Rotates at hn
  rw [hstage] at hn
  obtain ⟨b, rfl, hb, rfl, -⟩ := hn
  have hsame : t.ring (t.maxNumberMsgs.toNat + n) = b.addr := by
    rw [hb]
    exact hdiv.slot_turn_add n
  refine ⟨b, rfl, hsame, ?_⟩
  simp only [RPCVoidHandlerThreadOld.exec, hstage]
  rw [hsame]

/-! ## A thread that is kept busy -/

variable (t)

/-- The receive with the number `k`. -/
def recvWr (k : ℕ) : RecvWr := ⟨0, t.ring k, t.msgSize.toUInt32, t.lkey⟩

/-- A server with the shared receive queue and one client, whose queue pair
has the number `0`. -/
def oneClient : ReliableRDMA :=
  { ReliableRDMA.fresh (ReliableRDMA.blank (Device.opened (fun _ => 0) fun _ => 0) 4096 1 1
      IbConn.zero) with
    srqs := Finmap.singleton t.srqID SharedRq.null
    qpNum2connID := Finmap.singleton 0 0 }

/-- The receives are those from the number `n` on, `len` of them, and
`n + len` slots have been asked for. -/
def standing (n len : ℕ) (stage : OldHandlerStage) : OldHandler where
  rpcMemory := { t.memory with index := (n + len).toUInt32 }
  server := t.oneClient
  queue := ⟨t.maxNumberMsgs.toNat, (List.range' n len).map t.recvWr, []⟩
  stage := stage

variable {t}

/-- There is room for every slot. -/
theorem postSlot_standing {s : OldHandler} {k : ℕ} {next : OldHandlerStage}
    (hserver : s.server = t.oneClient) (hroom : s.queue.posted.length < s.queue.maxWr) :
    t.postSlot (t.ring k) next s =
      { s with queue := { s.queue with posted := s.queue.posted ++ [t.recvWr k] }, stage := next } := by
  have hsrq : t.srqID ∈ s.server.srqs := by
    rw [hserver]
    exact (Finmap.mem_singleton _ _ _).mpr rfl
  unfold postSlot ReliableRDMA.receiveSRQPlain
  rw [ReliableRDMA.receiveSRQ_of_room hsrq hroom]
  rfl

theorem reachable_exec (h : (t.runs maxWr).Reachable s) (e : OldHandlerEvent)
    (henabled : Enabled s e) : (t.runs maxWr).Reachable (t.exec s e) :=
  h.step (l := e) ⟨henabled, rfl⟩

theorem reachable_initialising (hpos : t.maxNumberMsgs ≠ 0) {i : ℕ} (hi : i ≤ t.maxNumberMsgs.toNat) :
    (t.runs t.maxNumberMsgs.toNat).Reachable (t.standing 0 i (.initialising i)) := by
  induction i with
  | zero => exact System.Reachable.init ⟨rfl, rfl, rfl⟩
  | succ i ih =>
      refine (ih (by omega)).step (l := .post) ⟨⟨i, rfl⟩, ?_⟩
      have hroom : ((List.range' 0 i).map t.recvWr).length < t.maxNumberMsgs.toNat := by
        rw [List.length_map, List.length_range']
        omega
      simp only [RPCVoidHandlerThreadOld.exec, standing, if_pos (show i < _ from hi)]
      rw [withNext_of_memory (k := i) (by rw [Nat.zero_add]) hpos, postSlot_standing rfl hroom]
      simp only [List.range'_concat, List.map_append, List.map_singleton, Nat.zero_add, Nat.one_mul]

/-- A poll takes the message in front. -/
theorem pollOnce_found (hserver : s.server = t.oneClient) {a : Arrival} {rest : List Arrival}
    (hcq : s.queue.cq = a :: rest) (hwc : a.wc = ⟨0, IBV_WC_SUCCESS, 0, 0⟩) (wc : Wc) (out : Outputs) :
    t.pollOnce (fun _ => true) wc out s =
      withNext (fun message s' => { s' with stage := .handling message (some a) })
        { s with queue := { s.queue with cq := rest } } := by
  have hsrq : t.srqID ∈ s.server.srqs := by
    rw [hserver]
    exact (Finmap.mem_singleton _ _ _).mpr rfl
  have hgood : a.wc.status = IBV_WC_SUCCESS := by rw [hwc]
  have hlookup : s.server.qpNum2connID.lookup a.wc.qpNum.toNat = some 0 := by
    rw [hserver, hwc]
    exact Finmap.lookup_singleton_eq
  have hpoll : s.server.pollReceiveSRQAtomic t.srqID (fun _ => true) [s.queue.polled] wc out =
      some ⟨.ok 1, { out with retRdmaConnID := 0 }, some a.wc⟩ := by
    unfold ReliableRDMA.pollReceiveSRQAtomic ReceiveQueue.polled
    rw [pollSRQ_of_mem hsrq, hcq, pollLoop_last (by simp)]
    simp only [leave, hgood, if_true, Option.map_some, Ended.after, LoopExit.took_found]
    unfold ReliableRDMA.deliverIfSet BaseRDMA.connIDOf
    rw [hlookup]
    rfl
  unfold pollOnce
  rw [hpoll]
  simp only [Option.isSome_some, if_true, ne_eq, one_ne_zero, not_false_eq_true, hcq,
    List.tail_cons, List.head?_cons]

/-- The message with the number `n` has arrived and is about to be polled. -/
def waiting (t : RPCVoidHandlerThreadOld) (n : ℕ) : OldHandler :=
  { t.standing n t.maxNumberMsgs.toNat .polling with
    queue := ⟨t.maxNumberMsgs.toNat,
      (List.range' (n + 1) (t.maxNumberMsgs.toNat - 1)).map t.recvWr,
      [⟨⟨0, IBV_WC_SUCCESS, 0, 0⟩, t.ring n, 0⟩]⟩ }

/-- The message with the number `n` is being handled. -/
def busy (t : RPCVoidHandlerThreadOld) (n : ℕ) : OldHandler :=
  { t.standing (n + 1) (t.maxNumberMsgs.toNat - 1)
      (.handling (t.ring (t.maxNumberMsgs.toNat + n))
        (some ⟨⟨0, IBV_WC_SUCCESS, 0, 0⟩, t.ring n, 0⟩)) with
    rpcMemory := { t.memory with index := (t.maxNumberMsgs.toNat + n + 1).toUInt32 } }

theorem posted_standing (hpos : t.maxNumberMsgs ≠ 0) (n : ℕ) :
    (t.standing n t.maxNumberMsgs.toNat .testing).queue.posted =
      t.recvWr n :: (List.range' (n + 1) (t.maxNumberMsgs.toNat - 1)).map t.recvWr := by
  obtain ⟨m, hm⟩ := Nat.exists_eq_succ_of_ne_zero fun hz => hpos (UInt32.toNat_inj.mp hz)
  rw [hm, standing]
  rfl

/-- A message arrives and is polled. -/
theorem reachable_busy (hpos : t.maxNumberMsgs ≠ 0) {n : ℕ}
    (h : (t.runs t.maxNumberMsgs.toNat).Reachable (t.standing n t.maxNumberMsgs.toNat .testing)) :
    (t.runs t.maxNumberMsgs.toNat).Reachable (t.busy n) := by
  have hposted := posted_standing hpos n
  have harrive := reachable_exec h (.arrive 0 0 0) (by
    show _ ≠ []
    rw [hposted]
    exact List.cons_ne_nil _ _)
  simp only [RPCVoidHandlerThreadOld.exec, hposted, ReceiveQueue.arrive, List.erase_cons_head]
    at harrive
  have hwaiting : (t.runs t.maxNumberMsgs.toNat).Reachable (t.waiting n) :=
    reachable_exec harrive (.test false) rfl
  have hpoll := reachable_exec hwaiting (.poll (fun _ => true) ⟨0, 0, 0, 0⟩ ⟨0, 0, 0⟩) rfl
  have hbusy : t.exec (t.waiting n) (.poll (fun _ => true) ⟨0, 0, 0, 0⟩ ⟨0, 0, 0⟩) = t.busy n := by
    show t.pollOnce (fun _ => true) ⟨0, 0, 0, 0⟩ ⟨0, 0, 0⟩ (t.waiting n) = t.busy n
    rw [pollOnce_found rfl rfl rfl, withNext_of_memory (k := t.maxNumberMsgs.toNat + n) ?_ hpos]
    · rfl
    · rw [Nat.add_comm]
      rfl
  rwa [hbusy] at hpoll

/-- **The thread can be kept busy**: it handles a message and posts its slot
again, for ever. -/
theorem reachable_testing (hpos : t.maxNumberMsgs ≠ 0) (n : ℕ) :
    (t.runs t.maxNumberMsgs.toNat).Reachable (t.standing n t.maxNumberMsgs.toNat .testing) := by
  have hmax : 0 < t.maxNumberMsgs.toNat := Nat.pos_of_ne_zero fun hz =>
    hpos (UInt32.toNat_inj.mp hz)
  induction n with
  | zero =>
      have hidle := reachable_exec (reachable_initialising hpos le_rfl) .post ⟨_, rfl⟩
      simp only [RPCVoidHandlerThreadOld.exec, standing, lt_irrefl, if_false] at hidle
      exact reachable_exec hidle .start (Or.inl rfl)
  | succ n ih =>
      have hrepost := reachable_exec (reachable_busy hpos ih) .repost ⟨_, _, rfl⟩
      have hroom : (t.busy n).queue.posted.length < (t.busy n).queue.maxWr := by
        show ((List.range' (n + 1) (t.maxNumberMsgs.toNat - 1)).map t.recvWr).length <
          t.maxNumberMsgs.toNat
        rw [List.length_map, List.length_range']
        omega
      have hnext : t.exec (t.busy n) .repost =
          t.standing (n + 1) t.maxNumberMsgs.toNat .testing := by
        show t.postSlot (t.ring (t.maxNumberMsgs.toNat + n)) .testing (t.busy n) = _
        have hindex : t.maxNumberMsgs.toNat + n + 1 = n + 1 + t.maxNumberMsgs.toNat := by omega
        have hposted : (List.range' (n + 1) (t.maxNumberMsgs.toNat - 1)).map t.recvWr ++
            [t.recvWr (t.maxNumberMsgs.toNat + n)] =
              (List.range' (n + 1) t.maxNumberMsgs.toNat).map t.recvWr := by
          have hlast : n + 1 + (t.maxNumberMsgs.toNat - 1) = t.maxNumberMsgs.toNat + n := by omega
          rw [← Nat.sub_add_cancel hmax, List.range'_concat, Nat.sub_add_cancel hmax, Nat.one_mul,
            hlast, List.map_append, List.map_singleton]
        rw [postSlot_standing rfl hroom]
        simp only [busy, standing, hindex, hposted]
      rwa [hnext] at hrepost

/-- **An aligned thread asks for the slots in turn.** -/
theorem divides_of_aligned (hpos : t.maxNumberMsgs ≠ 0)
    (h : ∀ maxWr s, (t.runs maxWr).Reachable s → t.Aligned s) : t.memory.Divides := by
  refine RPCMemory.divides_of_slot_turn_add hpos fun n => ?_
  obtain ⟨b, hb, hmessage, -⟩ :=
    h _ _ (reachable_busy hpos (reachable_testing hpos n)) _ _ rfl
  obtain rfl := Option.some.inj hb
  exact hmessage

/-- **The ring buffer**: the slots come round in turn, and the thread handles
and posts again the slot its message was received into, for ever, exactly
if the number of slots divides `2 ^ 32` or slots with different numbers
coincide. -/
theorem ring_aligned_iff (hpos : t.maxNumberMsgs ≠ 0) :
    (t.memory.InTurn ↔ t.memory.Divides) ∧
      ((∀ maxWr s, (t.runs maxWr).Reachable s → t.Aligned s) ↔ t.memory.Divides) := by
  refine ⟨RPCMemory.inTurn_iff rfl hpos, divides_of_aligned hpos, fun hdiv maxWr s hreach => ?_⟩
  exact aligned_of_divides hpos hdiv hreach

/-- A thread of `n` slots of 64 bytes. -/
def ofSlots (n : UInt32) : RPCVoidHandlerThreadOld := ⟨0, 64, n, 4096, 1, fun _ => "ENOMEM"⟩

theorem ring_aligned_iff_three_four :
    (¬ ((ofSlots 3).memory.InTurn ∨
      ∀ maxWr s, ((ofSlots 3).runs maxWr).Reachable s → (ofSlots 3).Aligned s)) ∧
      ∀ maxWr s, ((ofSlots 4).runs maxWr).Reachable s → (ofSlots 4).Aligned s := by
  have hthree := ring_aligned_iff (t := ofSlots 3) (by decide)
  have hfour := ring_aligned_iff (t := ofSlots 4) (by decide)
  refine ⟨?_, hfour.2.mpr (by decide +kernel)⟩
  rw [hthree.1, hthree.2, or_self]
  decide +kernel

end RPCVoidHandlerThreadOld

end RdmaManager
