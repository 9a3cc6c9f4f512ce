import Mathlib.Data.Finset.Card
import Mathlib.Algebra.BigOperators.Ring.Finset
import Mathlib.Order.Interval.Finset.Nat
import RdmaManager.Common.Cpp
import RdmaManager.Common.System
import Mathlib.Tactic.Ring
import Mathlib.Data.Fintype.Prod
import Mathlib.Tactic.Push
/-!
# The local buffers of the latency benchmark

A client thread has, for every buffer slot and every connection, a place
that it receives to and one that it sends from. In normal write mode it
writes a packet that names the place it receives to, and polls the first
word there until it is the one it sent.
-/

namespace RdmaManager

/-- Ranges of `n` points each, none of which overlap, all below `M`. -/
theorem card_mul_le_of_apart {ι : Type} [DecidableEq ι] {t : Finset ι} (start : ι → ℕ) {n M : ℕ}
    (hapart : ∀ a ∈ t, ∀ b ∈ t, a ≠ b → start a + n ≤ start b ∨ start b + n ≤ start a)
    (hin : ∀ a ∈ t, start a + n ≤ M) : t.card * n ≤ M := by
  have hsub : t.biUnion (fun a => Finset.Ico (start a) (start a + n)) ⊆ Finset.range M := by
    intro x hx
    obtain ⟨a, ha, hx⟩ := Finset.mem_biUnion.mp hx
    have hend := hin a ha
    rw [Finset.mem_Ico] at hx
    rw [Finset.mem_range]
    omega
  have hcard := Finset.card_le_card hsub
  rw [Finset.card_range, Finset.card_biUnion] at hcard
  · simpa using hcard
  · intro a ha b hb hab
    rw [Function.onFun, Finset.disjoint_left]
    intro x hxa hxb
    have hab := hapart a ha b hb hab
    rw [Finset.mem_Ico] at hxa hxb
    omega

/-- The fields of a `LatencyPerfClientThread`, and the offset of its memory
in the root buffer. -/
structure LatencyThread where
  packetSize : ℕ
  bufferSlots : ℕ
  /-- `m_rdma_addresses.size()`. -/
  conns : ℕ
  rootOffset : ℕ
  deriving DecidableEq, Repr

namespace LatencyThread

variable (l : LatencyThread) (slot connIdx i : ℕ)

/-- `m_remote_memory_size_per_thread`. -/
def remoteMemorySize : ℕ := wrap64 (l.packetSize * l.bufferSlots)

/-- `m_memory_size_per_thread`. -/
def memorySize : ℕ := wrap64 (l.remoteMemorySize * l.conns * 2)

/-- `offset = (i % m_buffer_slots) * m_packet_size;` -/
def offset : ℕ := wrap64 (slot * l.packetSize)

/-- `receiveOffset = offset * (connIdx+1) * 2;` -/
def receiveOffset : ℕ := wrap64 (l.offset slot * (connIdx + 1) * 2)

/-- `sendOffset = receiveOffset + m_packet_size;` -/
def sendOffset : ℕ := wrap64 (l.receiveOffset slot connIdx + l.packetSize)

/-- One of the buffers: its slot, its connection, and whether it is sent
from. -/
structure Buffer where
  slot : ℕ
  connIdx : ℕ
  sends : Bool
  deriving DecidableEq, Repr

/-- Where a buffer starts. -/
def start (b : Buffer) : ℕ :=
  if b.sends then l.sendOffset b.slot b.connIdx else l.receiveOffset b.slot b.connIdx

/-- The thread has the buffer. -/
def Has (b : Buffer) : Prop := b.slot < l.bufferSlots ∧ b.connIdx < l.conns

/-- **No two buffers overlap.** -/
def Apart : Prop :=
  ∀ a b, l.Has a → l.Has b → a ≠ b →
    l.start a + l.packetSize ≤ l.start b ∨ l.start b + l.packetSize ≤ l.start a

/-- **The buffers are within the memory of the thread.** -/
def Within : Prop := ∀ b, l.Has b → l.start b + l.packetSize ≤ l.memorySize

/-! ## The busy-wait of the normal write mode -/

/-- `flip = 1 + ((i/m_buffer_slots) % 2)`. -/
def flip : ℕ := 1 + i / l.bufferSlots % 2

/-- `receiveRootOffsetIdx`, which is sent and then waited for. -/
def receiveRootOffsetIdx : ℕ :=
  (wrap64 (l.rootOffset + l.receiveOffset (i % l.bufferSlots) connIdx) / l.packetSize * 2 +
    l.flip i) % 2 ^ 32

/-- The server's `remoteOffset`, from the word it has received. -/
def remoteOffset (word : ℕ) : ℕ := wrap64 ((word - l.flip i) / 2 * l.packetSize)

/-- Who has written a byte last. -/
inductive Writer
  | client
  | server (connIdx : ℕ)
  deriving DecidableEq, Repr

/-- A byte of the local memory. -/
structure Cell where
  byte : ℕ
  writer : Writer
  deriving DecidableEq, Repr

/-- A packet on its way to a server: the iteration it was sent in, and its
bytes. -/
structure Packet where
  i : ℕ
  bytes : ℕ → ℕ

/-- **A run of the loop**: the iteration and the connection the client is
at, whether it waits for the echo, the memory of the thread, and the packets
that each server has not sent back. -/
structure EchoRun where
  i : ℕ
  connIdx : ℕ
  waiting : Bool
  mem : ℕ → Cell
  out : ℕ → List Packet

/-- `getUInt32`, with the low byte first. -/
def getUInt32 (mem : ℕ → Cell) (offset : ℕ) : ℕ :=
  (mem offset).byte + 2 ^ 8 * (mem (offset + 1)).byte + 2 ^ 16 * (mem (offset + 2)).byte +
    2 ^ 24 * (mem (offset + 3)).byte

/-- `set(uint32_t, size_t)`. -/
def setUInt32 (mem : ℕ → Cell) (word offset : ℕ) : ℕ → Cell := fun p =>
  if offset ≤ p ∧ p < offset + 4 then ⟨word / 2 ^ (8 * (p - offset)) % 2 ^ 8, .client⟩ else mem p

/-- `setMemory(0)` at the first slot, once an iteration. -/
def cleared (r : EchoRun) : ℕ → Cell :=
  if l.offset (r.i % l.bufferSlots) = 0 ∧ r.connIdx = 0 then fun _ => ⟨0, .client⟩ else r.mem

/-- The memory with the word to send. -/
def written (r : EchoRun) : ℕ → Cell :=
  setUInt32 (l.cleared r) (l.receiveRootOffsetIdx r.connIdx r.i)
    (l.sendOffset (r.i % l.bufferSlots) r.connIdx)

/-- The client sends a packet and begins to wait. -/
def sendsPacket (r : EchoRun) : EchoRun where
  i := r.i
  connIdx := r.connIdx
  waiting := true
  mem := l.written r
  out := Function.update r.out r.connIdx (r.out r.connIdx ++
    [⟨r.i, fun k => (l.written r (l.sendOffset (r.i % l.bufferSlots) r.connIdx + k)).byte⟩])

/-- The first word of a packet. -/
def Packet.word (m : Packet) : ℕ :=
  m.bytes 0 + 2 ^ 8 * m.bytes 1 + 2 ^ 16 * m.bytes 2 + 2 ^ 24 * m.bytes 3

/-- A server writes a packet back, to where its word says. -/
def echoed (connIdx : ℕ) (m : Packet) (mem : ℕ → Cell) : ℕ → Cell := fun p =>
  if l.remoteOffset m.i m.word ≤ l.rootOffset + p ∧
      l.rootOffset + p < l.remoteOffset m.i m.word + l.packetSize then
    ⟨m.bytes (l.rootOffset + p - l.remoteOffset m.i m.word), .server connIdx⟩
  else mem p

/-- What happens in a run. -/
inductive EchoEvent
  | send
  /-- The busy-wait finds the word and ends. -/
  | found
  | echo (connIdx : ℕ)
  deriving DecidableEq, Repr

/-- The busy-wait of the client would end. -/
def Found (r : EchoRun) : Prop :=
  getUInt32 r.mem (l.receiveOffset (r.i % l.bufferSlots) r.connIdx) =
      l.receiveRootOffsetIdx r.connIdx r.i ∧
    0 < getUInt32 r.mem (l.receiveOffset (r.i % l.bufferSlots) r.connIdx)

instance (r : EchoRun) : Decidable (l.Found r) := inferInstanceAs (Decidable (_ ∧ _))

/-- When an event can happen. A server has a packet to send back, in which
it has found a word that is not zero. -/
def Enabled (r : EchoRun) : EchoEvent → Prop
  | .send => r.waiting = false ∧ r.connIdx < l.conns
  | .found => r.waiting = true ∧ l.Found r
  | .echo connIdx => connIdx < l.conns ∧ ((r.out connIdx).head?.map Packet.word).getD 0 > 0

instance (r : EchoRun) : DecidablePred (l.Enabled r)
  | .send => inferInstanceAs (Decidable (_ ∧ _))
  | .found => inferInstanceAs (Decidable (_ ∧ _))
  | .echo _ => inferInstanceAs (Decidable (_ ∧ _))

/-- The next connection, or the first of the next iteration. -/
def advance (r : EchoRun) : EchoRun :=
  if r.connIdx + 1 < l.conns then { r with connIdx := r.connIdx + 1, waiting := false }
  else { r with i := r.i + 1, connIdx := 0, waiting := false }

/-- What an event does. -/
def exec (r : EchoRun) : EchoEvent → EchoRun
  | .send => l.sendsPacket r
  | .found => l.advance r
  | .echo connIdx =>
      match r.out connIdx with
      | [] => r
      | m :: rest =>
          { r with mem := l.echoed connIdx m r.mem, out := Function.update r.out connIdx rest }

/-- **The runs of the loop**, over memory that holds anything. -/
def echoRuns : System EchoRun EchoEvent where
  Init r := r.i = 0 ∧ r.connIdx = 0 ∧ r.waiting = false ∧ (∀ connIdx, r.out connIdx = []) ∧
    ∀ p, (r.mem p).writer = .client
  Step r e r' := l.Enabled r e ∧ l.exec r e = r'

/-- **Each wait is ended by its own server**: where the word is found that
is waited for, the server of the connection has written to it. -/
def OwnEchoes : Prop :=
  ∀ r, l.echoRuns.Reachable r → r.waiting = true → l.Found r →
    ∃ k < 4, (r.mem (l.receiveOffset (r.i % l.bufferSlots) r.connIdx + k)).writer =
      .server r.connIdx

/-! ## One connection -/

variable {l}

theorem remoteMemorySize_of_lt (h : 2 * l.packetSize * l.bufferSlots < 2 ^ 64) :
    l.remoteMemorySize = l.packetSize * l.bufferSlots := by
  rw [Nat.mul_assoc] at h
  exact wrap64_of_lt (by omega)

/-- With one connection, nothing overflows. -/
theorem start_of_one (h : 2 * l.packetSize * l.bufferSlots < 2 ^ 64) {b : Buffer}
    (hslot : b.slot < l.bufferSlots) (hconn : b.connIdx = 0) :
    l.start b = 2 * (b.slot * l.packetSize) + if b.sends then l.packetSize else 0 := by
  have hle : b.slot * l.packetSize + l.packetSize ≤ l.packetSize * l.bufferSlots := by
    rw [← Nat.succ_mul, Nat.mul_comm]
    exact Nat.mul_le_mul_left _ hslot
  rw [Nat.mul_assoc] at h
  have hoffset : l.offset b.slot = b.slot * l.packetSize := wrap64_of_lt (by omega)
  have hreceive : l.receiveOffset b.slot b.connIdx = 2 * (b.slot * l.packetSize) := by
    unfold receiveOffset
    rw [hoffset, hconn, wrap64_of_lt (by omega)]
    omega
  unfold start
  split_ifs
  · unfold sendOffset
    rw [hreceive]
    exact wrap64_of_lt (by omega)
  · rw [hreceive, Nat.add_zero]

theorem within_of_one (hconns : l.conns = 1) (h : 2 * l.packetSize * l.bufferSlots < 2 ^ 64) :
    l.Within := by
  rintro b ⟨hslot, hconn⟩
  have hle : b.slot * l.packetSize + l.packetSize ≤ l.packetSize * l.bufferSlots := by
    rw [← Nat.succ_mul, Nat.mul_comm]
    exact Nat.mul_le_mul_left _ hslot
  have hsize : l.memorySize = 2 * (l.packetSize * l.bufferSlots) := by
    unfold memorySize
    rw [remoteMemorySize_of_lt h, hconns, Nat.mul_one, Nat.mul_comm]
    rw [Nat.mul_assoc] at h
    exact wrap64_of_lt h
  rw [start_of_one h hslot (by omega), hsize]
  split_ifs <;> omega

theorem apart_of_one (hconns : l.conns = 1) (h : 2 * l.packetSize * l.bufferSlots < 2 ^ 64) :
    l.Apart := by
  rintro a b ⟨haslot, haconn⟩ ⟨hbslot, hbconn⟩ hne
  rw [start_of_one h haslot (by omega), start_of_one h hbslot (by omega)]
  rcases lt_trichotomy a.slot b.slot with hlt | heq | hgt
  · have hle : a.slot * l.packetSize + l.packetSize ≤ b.slot * l.packetSize := by
      rw [← Nat.succ_mul]
      exact Nat.mul_le_mul_right _ hlt
    split_ifs <;> omega
  · -- the two buffers of one slot
    rw [heq]
    have hsends : a.sends ≠ b.sends := by
      intro hsame
      exact hne (by cases a; cases b; simp_all)
    cases hsa : a.sends <;> cases hsb : b.sends <;> simp_all
  · have hle : b.slot * l.packetSize + l.packetSize ≤ a.slot * l.packetSize := by
      rw [← Nat.succ_mul]
      exact Nat.mul_le_mul_right _ hgt
    split_ifs <;> omega

/-- A receive buffer and the word written to a send buffer do not overlap. -/
theorem receive_ne_send (hconns : l.conns = 1) (h : 2 * l.packetSize * l.bufferSlots < 2 ^ 64)
    (hsize : 4 ≤ l.packetSize) {slot slot' k : ℕ} (hslot : slot < l.bufferSlots)
    (hslot' : slot' < l.bufferSlots) (hk : k < 4) :
    ¬ (l.sendOffset slot' 0 ≤ l.receiveOffset slot 0 + k ∧
      l.receiveOffset slot 0 + k < l.sendOffset slot' 0 + 4) := by
  have hzero : 0 < l.conns := by omega
  have happart := apart_of_one hconns h ⟨slot, 0, false⟩ ⟨slot', 0, true⟩ ⟨hslot, hzero⟩
    ⟨hslot', hzero⟩ (by simp)
  have hreceive : l.start ⟨slot, 0, false⟩ = l.receiveOffset slot 0 := rfl
  have hsend : l.start ⟨slot', 0, true⟩ = l.sendOffset slot' 0 := rfl
  rw [hreceive, hsend] at happart
  rintro ⟨hge, hlt⟩
  omega

/-- The byte is zero, or the one server has written it. -/
def Cell.Own (c : Cell) : Prop := c.byte = 0 ∨ c.writer = .server 0

/-- **The invariant with one connection**: from the first packet on, the
words to poll are zero but for what the server has written. -/
structure OwnInv (l : LatencyThread) (r : EchoRun) : Prop where
  conn : r.connIdx = 0
  own : (0 < r.i ∨ r.waiting = true) → ∀ slot < l.bufferSlots, ∀ k < 4,
    (r.mem (l.receiveOffset slot 0 + k)).Own

variable {r : EchoRun}

theorem OwnInv.sends (hr : l.OwnInv r) (hconns : l.conns = 1)
    (h : 2 * l.packetSize * l.bufferSlots < 2 ^ 64) (hsize : 4 ≤ l.packetSize)
    (hslots : 1 ≤ l.bufferSlots) : l.OwnInv (l.sendsPacket r) := by
  refine ⟨hr.conn, fun _ slot hslot k hk => ?_⟩
  have hapart := receive_ne_send hconns h hsize hslot (Nat.mod_lt r.i hslots) hk
  have hcell : l.written r (l.receiveOffset slot 0 + k) = l.cleared r (l.receiveOffset slot 0 + k) := by
    unfold written setUInt32
    rw [hr.conn, if_neg hapart]
  show (l.written r (l.receiveOffset slot 0 + k)).Own
  rw [hcell]
  unfold cleared
  split_ifs with hclear
  · exact Or.inl rfl
  · -- the first packet is preceded by a clear
    have hlater : 0 < r.i := by
      rcases Nat.eq_zero_or_pos r.i with hzero | hpos
      · refine absurd ⟨?_, hr.conn⟩ hclear
        unfold offset
        rw [hzero, Nat.zero_mod, Nat.zero_mul]
        rfl
      · exact hpos
    exact hr.own (Or.inl hlater) slot hslot k hk

theorem OwnInv.advances (hr : l.OwnInv r) (hconns : l.conns = 1) (hwaiting : r.waiting = true) :
    l.OwnInv (l.advance r) := by
  unfold advance
  rw [if_neg (by omega)]
  exact ⟨rfl, fun _ => hr.own (Or.inr hwaiting)⟩

theorem OwnInv.echo (hr : l.OwnInv r) {connIdx : ℕ} (hconn : connIdx = 0) :
    l.OwnInv (l.exec r (.echo connIdx)) := by
  subst hconn
  unfold exec
  simp only
  cases r.out 0 with
  | nil => exact hr
  | cons m rest =>
      refine ⟨hr.conn, fun hbegun slot hslot k hk => ?_⟩
      show (l.echoed 0 m r.mem (l.receiveOffset slot 0 + k)).Own
      unfold echoed
      split_ifs
      · exact Or.inr rfl
      · exact hr.own hbegun slot hslot k hk

theorem ownInv_invariant (hconns : l.conns = 1) (h : 2 * l.packetSize * l.bufferSlots < 2 ^ 64)
    (hsize : 4 ≤ l.packetSize) (hslots : 1 ≤ l.bufferSlots) :
    l.echoRuns.Invariant l.OwnInv where
  init := by
    rintro r ⟨hi, hconn, hwaiting, -, -⟩
    refine ⟨hconn, fun hbegun => ?_⟩
    rw [hi, hwaiting] at hbegun
    simp at hbegun
  step := by
    rintro r e r' - hr ⟨hen, rfl⟩
    cases e with
    | send => exact hr.sends hconns h hsize hslots
    | found => exact hr.advances hconns hen.1
    | echo connIdx => exact hr.echo (by have hlt := hen.1; omega)

theorem ownEchoes_of_one (hconns : l.conns = 1) (h : 2 * l.packetSize * l.bufferSlots < 2 ^ 64)
    (hsize : 4 ≤ l.packetSize) (hslots : 1 ≤ l.bufferSlots) : l.OwnEchoes := by
  intro r hreach hwaiting hfound
  have hr := (ownInv_invariant hconns h hsize hslots).reachable hreach
  have hown := hr.own (Or.inr hwaiting) (r.i % l.bufferSlots) (Nat.mod_lt _ hslots)
  have hpos := hfound.2
  rw [hr.conn] at hpos ⊢
  by_contra hnone
  push Not at hnone
  -- no byte is the server's, so all are zero
  have hzero : ∀ k < 4, (r.mem (l.receiveOffset (r.i % l.bufferSlots) 0 + k)).byte = 0 :=
    fun k hk => (hown k hk).resolve_right (hnone k hk)
  have h₀ := hzero 0 (by omega)
  rw [Nat.add_zero] at h₀
  have h₁ := hzero 1 (by omega)
  have h₂ := hzero 2 (by omega)
  have h₃ := hzero 3 (by omega)
  unfold getUInt32 at hpos
  omega

/-! ## When the buffers are apart -/

/-- The first slot is the same for all connections. -/
theorem conns_of_apart (hsize : 4 ≤ l.packetSize) (hslots : 1 ≤ l.bufferSlots) (h : l.Apart) :
    l.conns ≤ 1 := by
  by_contra hconns
  have hfirst : ∀ connIdx, l.start ⟨0, connIdx, false⟩ = 0 := by
    intro connIdx
    show wrap64 (wrap64 (0 * l.packetSize) * (connIdx + 1) * 2) = 0
    rw [Nat.zero_mul, show wrap64 0 = 0 from rfl, Nat.zero_mul, Nat.zero_mul]
    rfl
  have happart := h ⟨0, 0, false⟩ ⟨0, 1, false⟩ ⟨hslots, by simp only; omega⟩
    ⟨hslots, by simp only; omega⟩ (by simp)
  rw [hfirst, hfirst] at happart
  omega

/-- Buffers that are apart and within a memory fit into it. -/
theorem lt_of_apart (hconns : 1 ≤ l.conns) (happart : l.Apart) (hwithin : l.Within) :
    2 * l.packetSize * l.bufferSlots < 2 ^ 64 := by
  have hhas : ∀ x ∈ Finset.range l.bufferSlots ×ˢ (Finset.univ : Finset Bool),
      l.Has ⟨x.1, 0, x.2⟩ := by
    intro x hx
    exact ⟨Finset.mem_range.mp (Finset.mem_product.mp hx).1, hconns⟩
  have hcount := card_mul_le_of_apart
    (t := Finset.range l.bufferSlots ×ˢ (Finset.univ : Finset Bool))
    (fun x => l.start ⟨x.1, 0, x.2⟩) (n := l.packetSize) (M := l.memorySize)
    (fun a ha b hb hne => happart _ _ (hhas a ha) (hhas b hb) (by
      intro heq
      exact hne (Prod.ext (congrArg Buffer.slot heq) (congrArg Buffer.sends heq))))
    (fun a ha => hwithin _ (hhas a ha))
  rw [Finset.card_product, Finset.card_range, Finset.card_univ, Fintype.card_bool] at hcount
  have hsize : l.memorySize < 2 ^ 64 := Nat.mod_lt _ (by norm_num)
  calc 2 * l.packetSize * l.bufferSlots = l.bufferSlots * 2 * l.packetSize := by ring
    _ ≤ l.memorySize := hcount
    _ < 2 ^ 64 := hsize

/-- **When the buffers do not alias**: with one connection, whose memory has
a size that a `size_t` holds. -/
theorem buffers_apart_iff (hsize : 4 ≤ l.packetSize) (hslots : 1 ≤ l.bufferSlots)
    (hconns : 1 ≤ l.conns) :
    (l.Apart ∧ l.Within ∧ l.OwnEchoes) ↔
      l.conns = 1 ∧ 2 * l.packetSize * l.bufferSlots < 2 ^ 64 := by
  constructor
  · rintro ⟨happart, hwithin, -⟩
    have hone := conns_of_apart hsize hslots happart
    exact ⟨by omega, lt_of_apart hconns happart hwithin⟩
  · rintro ⟨hone, hlt⟩
    exact ⟨apart_of_one hone hlt, within_of_one hone hlt, ownEchoes_of_one hone hlt hsize hslots⟩

/-- A thread with the default packets and slots. -/
def defaultThread (conns : ℕ) : LatencyThread := ⟨4096, 16, conns, 0⟩

theorem buffers_apart_default :
    (defaultThread 1).Apart ∧ (defaultThread 1).Within ∧ (defaultThread 1).OwnEchoes :=
  (buffers_apart_iff (l := defaultThread 1) (by decide) (by decide) (by decide)).mpr
    ⟨rfl, by decide⟩

/-- The first server sends its packet back, and the client sends to the
second. -/
def secondSent : EchoRun :=
  [EchoEvent.send, .echo 0, .found, .send].foldl (defaultThread 2).exec
    ⟨0, 0, false, fun _ => ⟨0, .client⟩, fun _ => []⟩

/-- **With two connections** the wait for the second server is over before
it has sent anything: the word is there from the first. -/
theorem second_echo_found :
    ¬ (defaultThread 2).Apart ∧ (defaultThread 2).echoRuns.Reachable secondSent ∧
      secondSent.waiting = true ∧ secondSent.connIdx = 1 ∧ (defaultThread 2).Found secondSent ∧
      (List.range 4).map (fun k => (secondSent.mem ((defaultThread 2).receiveOffset 0 1 + k)).writer) =
        List.replicate 4 (.server 0) := by
  refine ⟨?_, ?_, by decide, by decide, by decide, by decide⟩
  · intro happart
    have hconns := conns_of_apart (l := defaultThread 2) (by decide) (by decide) happart
    exact absurd hconns (by decide)
  · have hstep : ∀ r e, (defaultThread 2).Enabled r e →
        (defaultThread 2).echoRuns.Step r e ((defaultThread 2).exec r e) := fun _ _ hen => ⟨hen, rfl⟩
    refine System.Reachable.along (System.Reachable.init ⟨rfl, rfl, rfl, fun _ => rfl, fun _ => rfl⟩)
      (System.MeetsAlong.steps hstep ?_)
    decide

end LatencyThread

end RdmaManager
