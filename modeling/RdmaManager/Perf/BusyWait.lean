import RdmaManager.Perf.LatencyBuffers
import RdmaManager.Rdma.RemoteBytes
/-!
# The busy-waits of the latency benchmark

In normal write mode neither thread is told of a packet. The server thread
polls the first word of a slot until it is not zero and of the parity of its
round, the client thread polls the place it receives to until the word is
the one it sent. `WritePair` is one client thread with one connection and
its server thread, `WritePair.runs` is what their loops and the device make
of the two buffers, and the last section says what each event does to the
words that are polled.
-/

namespace RdmaManager

/-- **A client thread and the server thread it is connected to.** -/
structure WritePair where
  client : LatencyThread
  clientID : ℕ
  /-- Where the memory of the server thread is, in the buffer of the server. -/
  localOffset : ℕ
  /-- Where it receives: `m_remOffsets[0]` of the client. -/
  remOffset : ℕ
  iterations : ℕ
  deriving DecidableEq, Repr

/-- Where the client thread stands: before its next packet, before its write
is carried out, before the write is completed, or in its busy-wait. -/
inductive WriteStage
  | begin
  | posted
  | landed
  | polling
  deriving DecidableEq, Repr

/-- Where the server thread stands: before it reads the node id, before it
resets it, in its busy-wait, before its write is carried out, or before the
write is completed. -/
inductive ServeStage
  | begin
  | received
  | polling
  | posted
  | landed
  deriving DecidableEq, Repr

namespace WriteStage

/-- The client has written the packet. -/
def written : WriteStage → ℕ
  | begin => 0
  | _ => 1

/-- The packet of the client has arrived. -/
def arrived : WriteStage → ℕ
  | landed | polling => 1
  | _ => 0

end WriteStage

namespace ServeStage

/-- The thread is at its loop. -/
def atLoop : ServeStage → Bool
  | begin | received => false
  | _ => true

/-- It has answered the packet. -/
def answered : ServeStage → ℕ
  | posted | landed => 1
  | _ => 0

/-- The echo has arrived. -/
def returned : ServeStage → ℕ
  | landed => 1
  | _ => 0

end ServeStage

/-- **A run of the two loops**, with the buffers of the client and of the
server. -/
structure BusyWait where
  i : ℕ
  client : WriteStage
  mem : ℕ → UInt8
  j : ℕ
  server : ServeStage
  remote : ℕ → UInt8
  respondConnID : ℤ
  remoteOffset : ℕ

namespace BusyWait

variable (r : BusyWait)

/-- How many packets were written. -/
def written : ℕ := r.i + r.client.written

/-- How many packets have arrived. -/
def arrived : ℕ := r.i + r.client.arrived

/-- How many packets were answered. -/
def answered : ℕ := r.j + r.server.answered

/-- How many echoes have arrived. -/
def returned : ℕ := r.j + r.server.returned

/-- How many turns there were: packets that were written, answered or found. -/
def turnCount : ℕ := r.i + r.answered + r.written

theorem returned_le : r.returned ≤ r.answered := by
  unfold returned answered
  cases r.server <;> simp [ServeStage.returned, ServeStage.answered]

theorem arrived_le : r.arrived ≤ r.written := by
  unfold arrived written
  cases r.client <;> simp [WriteStage.arrived, WriteStage.written]

theorem written_le : r.written ≤ r.i + 1 := by
  unfold written
  cases r.client <;> simp [WriteStage.written]

end BusyWait

/-- What happens in a run. -/
inductive BusyWaitEvent
  /-- The client posts its write. -/
  | writes
  | packetLands
  /-- The write of the client is completed. -/
  | completes
  /-- The busy-wait of the client ends. -/
  | finds
  /-- The server thread reads the node id. -/
  | receives
  /-- It resets the node id, and its own memory. -/
  | resets
  /-- The busy-wait of the server thread ends, and it posts its write. -/
  | answers
  | echoLands
  /-- The write of the server thread is completed. -/
  | goesOn
  deriving DecidableEq, Repr

namespace WritePair

variable (p : WritePair) (i : ℕ) (r : BusyWait)

/-- Where the client receives the echo of a packet, in its buffer. -/
def receivePlace : ℕ := p.client.rootOffset + p.client.receiveOffset (i % p.client.bufferSlots) 0

/-- Where the client sends a packet from. -/
def sendPlace : ℕ := p.client.rootOffset + p.client.sendOffset (i % p.client.bufferSlots) 0

/-- Where the server thread receives a packet, in the buffer of the server. -/
def remotePlace : ℕ := p.remOffset + p.client.offset (i % p.client.bufferSlots)

/-- The word that a packet starts with. -/
def word : ℕ := p.client.receiveRootOffsetIdx 0 i

/-- The memory of the client before it writes a packet, which it resets at
the first slot. -/
def reset : ℕ → UInt8 :=
  if p.client.offset (r.i % p.client.bufferSlots) = 0 then
    splice r.mem p.client.rootOffset (List.replicate p.client.memorySize 0)
  else r.mem

/-- When an event can happen. -/
def Enabled : BusyWaitEvent → Prop
  | .writes => r.client = .begin ∧ r.i < p.iterations
  | .packetLands => r.client = .posted
  | .completes => r.client = .landed
  | .finds => r.client = .polling ∧ getUInt32 r.mem (p.receivePlace r.i) = p.word r.i ∧
      0 < getUInt32 r.mem (p.receivePlace r.i)
  | .receives => r.server = .begin
  | .resets => r.server = .received
  | .answers => r.server = .polling ∧ r.j < p.iterations ∧
      getUInt32 r.remote (p.remotePlace r.j) % 2 = p.client.flip r.j % 2 ∧
      0 < getUInt32 r.remote (p.remotePlace r.j)
  | .echoLands => r.server = .posted
  | .goesOn => r.server = .landed

instance : DecidablePred (p.Enabled r)
  | .writes | .finds | .answers => inferInstanceAs (Decidable (_ ∧ _))
  | .packetLands | .completes | .receives | .resets | .echoLands | .goesOn => inferInstanceAs (Decidable (_ = _))

/-- What an event does. A write is carried out at once, as far as the words
at the front of packets go. -/
def exec : BusyWaitEvent → BusyWait
  | .writes =>
      { r with client := .posted, mem := setUInt32 (p.reset r) (p.word r.i) (p.sendPlace r.i) }
  | .packetLands =>
      { r with
        client := .landed
        remote := splice r.remote (p.remotePlace r.i)
          (window r.mem (p.sendPlace r.i) p.client.packetSize) }
  | .completes => { r with client := .polling }
  | .finds => { r with i := r.i + 1, client := .begin }
  | .receives => { r with server := .received, respondConnID := getInt32 r.remote p.remOffset }
  | .resets =>
      -- nobody else is at the memory that `setMemory(0)` resets
      { r with
        server := .polling
        remote := splice (setInt32 r.remote 0 p.remOffset) p.localOffset
          (List.replicate p.client.remoteMemorySize 0) }
  | .answers =>
      { r with
        server := .posted
        remoteOffset := p.client.remoteOffset r.j (getUInt32 r.remote (p.remotePlace r.j)) }
  | .echoLands =>
      { r with
        server := .landed
        mem := if r.respondConnID = p.clientID then
            splice r.mem r.remoteOffset (window r.remote (p.remotePlace r.j) p.client.packetSize)
          else r.mem }
  | .goesOn => { r with j := r.j + 1, server := .polling }

/-- The threads are at their loops, and the buffer of the server is as it was
allocated, but for the node id of the client. -/
structure Start : Prop where
  i : r.i = 0
  client : r.client = .begin
  j : r.j = 0
  server : r.server = .begin
  clientID : getUInt32 r.remote p.remOffset = p.clientID
  zero : ∀ slot, 0 < slot → slot < p.client.bufferSlots →
    getUInt32 r.remote (p.remotePlace slot) = 0

/-- **The runs of the two loops.** -/
def runs : System BusyWait BusyWaitEvent where
  Init := p.Start
  Step r e r' := p.Enabled r e ∧ r' = p.exec r e

/-- **What the benchmark relies on**: there is one connection, a packet
holds a word, the memory of the client thread starts at a packet of its
buffer, all its places have numbers that a word holds, its node id is not
negative as an `int32_t`, and the two halves of the memory of the server
thread do not overlap. -/
structure Sound : Prop where
  conns : p.client.conns = 1
  clientID : p.clientID < 2 ^ 31
  packetSize : 4 ≤ p.client.packetSize
  bufferSlots : 0 < p.client.bufferSlots
  aligned : p.client.packetSize ∣ p.client.rootOffset
  index : 2 * (p.client.rootOffset / p.client.packetSize + 2 * p.client.bufferSlots) ≤ 2 ^ 32
  fits : p.client.rootOffset + 2 * p.client.packetSize * p.client.bufferSlots < 2 ^ 64
  halves : p.localOffset + p.client.packetSize * p.client.bufferSlots ≤ p.remOffset

namespace Sound

variable {p i r} {j : ℕ} (h : p.Sound)

/-! ## The places -/

include h

theorem bufferSize_lt : 2 * p.client.packetSize * p.client.bufferSlots < 2 ^ 64 := by
  have hfits := h.fits
  omega

/-- The place of a packet ends within the slots. -/
theorem slot_le (i : ℕ) :
    i % p.client.bufferSlots * p.client.packetSize + p.client.packetSize ≤
      p.client.packetSize * p.client.bufferSlots := by
  rw [← Nat.succ_mul, Nat.mul_comm]
  exact Nat.mul_le_mul_left _ (Nat.mod_lt i h.bufferSlots)

theorem offset_eq (i : ℕ) :
    p.client.offset (i % p.client.bufferSlots) = i % p.client.bufferSlots * p.client.packetSize := by
  have hle := h.slot_le i
  have hlt := h.bufferSize_lt
  rw [Nat.mul_assoc] at hlt
  exact wrap64_of_lt (by omega)

theorem receivePlace_eq (i : ℕ) : p.receivePlace i =
    p.client.rootOffset + 2 * (i % p.client.bufferSlots * p.client.packetSize) :=
  congrArg _ (LatencyThread.start_of_one (b := ⟨i % p.client.bufferSlots, 0, false⟩) h.bufferSize_lt
    (Nat.mod_lt i h.bufferSlots) rfl)

theorem sendPlace_eq (i : ℕ) : p.sendPlace i = p.client.rootOffset +
    (2 * (i % p.client.bufferSlots * p.client.packetSize) + p.client.packetSize) :=
  congrArg _ (LatencyThread.start_of_one (b := ⟨i % p.client.bufferSlots, 0, true⟩) h.bufferSize_lt
    (Nat.mod_lt i h.bufferSlots) rfl)

theorem remotePlace_eq (i : ℕ) :
    p.remotePlace i = p.remOffset + i % p.client.bufferSlots * p.client.packetSize :=
  congrArg _ (h.offset_eq i)

theorem memorySize_eq :
    p.client.memorySize = 2 * (p.client.packetSize * p.client.bufferSlots) := by
  have hlt := h.bufferSize_lt
  rw [LatencyThread.memorySize, LatencyThread.remoteMemorySize_of_lt hlt, h.conns, Nat.mul_one,
    Nat.mul_comm]
  rw [Nat.mul_assoc] at hlt
  exact wrap64_of_lt hlt

omit h in
/-- The packets of two slots do not overlap. -/
theorem slots_apart {a b n : ℕ} (hne : a ≠ b) : a * n + n ≤ b * n ∨ b * n + n ≤ a * n := by
  rcases Nat.lt_or_gt_of_ne hne with hlt | hgt
  · refine Or.inl ?_
    rw [← Nat.succ_mul]
    exact Nat.mul_le_mul_right _ hlt
  · refine Or.inr ?_
    rw [← Nat.succ_mul]
    exact Nat.mul_le_mul_right _ hgt

/-! ## The words -/

omit h in
theorem flip_cases (i : ℕ) : p.client.flip i = 1 ∨ p.client.flip i = 2 := by
  unfold LatencyThread.flip
  omega

theorem word_eq (i : ℕ) : p.word i =
    2 * (p.client.rootOffset / p.client.packetSize + 2 * (i % p.client.bufferSlots)) +
      p.client.flip i := by
  have hpos : 0 < p.client.packetSize := Nat.zero_lt_of_lt h.packetSize
  have hslot := Nat.mod_lt i h.bufferSlots
  have hplace : p.receivePlace i < 2 ^ 64 := by
    have hle := h.slot_le i
    have hfits := h.fits
    rw [Nat.mul_assoc] at hfits
    rw [h.receivePlace_eq]
    omega
  have hindex : p.receivePlace i / p.client.packetSize =
      p.client.rootOffset / p.client.packetSize + 2 * (i % p.client.bufferSlots) := by
    rw [h.receivePlace_eq, ← Nat.mul_assoc, Nat.add_mul_div_right _ _ hpos]
  have hword : p.word i =
      (wrap64 (p.receivePlace i) / p.client.packetSize * 2 + p.client.flip i) % 2 ^ 32 := rfl
  have hlt := h.index
  rw [hword, wrap64_of_lt hplace, hindex]
  rcases flip_cases (p := p) i with hflip | hflip <;> rw [hflip] <;> omega

theorem word_pos (i : ℕ) : 0 < p.word i := by
  rw [h.word_eq]
  rcases flip_cases (p := p) i with hflip | hflip <;> omega

omit h in
theorem word_lt (i : ℕ) : p.word i < 2 ^ 32 := Nat.mod_lt _ (by decide)

theorem word_parity (i : ℕ) : p.word i % 2 = p.client.flip i % 2 := by
  rw [h.word_eq]
  omega

/-- The word that a slot has held for a round is of the other parity. -/
theorem flip_ne (hj : p.client.bufferSlots ≤ j) :
    p.client.flip (j - p.client.bufferSlots) % 2 ≠ p.client.flip j % 2 := by
  have hround := Nat.sub_mul_div j p.client.bufferSlots 1
  have hdiv := Nat.div_pos hj h.bufferSlots
  rw [Nat.mul_one] at hround
  unfold LatencyThread.flip
  omega

/-- The server thread finds out where the client receives. -/
theorem remoteOffset_word (i : ℕ) : p.client.remoteOffset i (p.word i) = p.receivePlace i := by
  have hle := h.slot_le i
  have hfits := h.fits
  have hsub : (2 * (p.client.rootOffset / p.client.packetSize + 2 * (i % p.client.bufferSlots)) +
      p.client.flip i - p.client.flip i) / 2 =
        p.client.rootOffset / p.client.packetSize + 2 * (i % p.client.bufferSlots) := by omega
  rw [LatencyThread.remoteOffset, h.word_eq, hsub, h.receivePlace_eq, Nat.add_mul,
    Nat.div_mul_cancel h.aligned, Nat.mul_assoc]
  rw [Nat.mul_assoc] at hfits
  exact wrap64_of_lt (by omega)

/-! ## The words of a run -/

omit h in
/-- The client leaves the word in the packet. -/
theorem sendWord_writes : getUInt32 (p.exec r .writes).mem (p.sendPlace r.i) = p.word r.i :=
  getUInt32_set.trans (Nat.mod_eq_of_lt (word_lt r.i))

/-- It resets the words it polls at the first slot, and else leaves them. -/
theorem receiveWord_writes (m : ℕ) : getUInt32 (p.exec r .writes).mem (p.receivePlace m) =
    if r.i % p.client.bufferSlots = 0 then 0 else getUInt32 r.mem (p.receivePlace m) := by
  have hsize := h.packetSize
  have hle := h.slot_le m
  have happart := slots_apart (a := m % p.client.bufferSlots) (b := r.i % p.client.bufferSlots)
    (n := p.client.packetSize)
  have hsend : getUInt32 (p.exec r .writes).mem (p.receivePlace m) =
      getUInt32 (p.reset r) (p.receivePlace m) := by
    refine getUInt32_splice_of_apart ?_
    rw [length_bytes32, h.receivePlace_eq, h.sendPlace_eq]
    by_cases hslot : m % p.client.bufferSlots = r.i % p.client.bufferSlots
    · rw [hslot]
      omega
    · have := happart hslot
      omega
  have hoffset : p.client.offset (r.i % p.client.bufferSlots) = 0 ↔
      r.i % p.client.bufferSlots = 0 := by
    rw [h.offset_eq, Nat.mul_eq_zero, or_iff_left (by omega)]
  rw [hsend, reset]
  simp only [hoffset]
  split_ifs
  · rw [h.memorySize_eq, h.receivePlace_eq]
    exact getUInt32_cleared (by omega) (by omega)
  · rfl

theorem remoteWord_packetLands (m : ℕ) :
    getUInt32 (p.exec r .packetLands).remote (p.remotePlace m) =
      if m % p.client.bufferSlots = r.i % p.client.bufferSlots then getUInt32 r.mem (p.sendPlace r.i)
      else getUInt32 r.remote (p.remotePlace m) := by
  split_ifs with hslot
  · have hplace : p.remotePlace m = p.remotePlace r.i := by
      unfold remotePlace
      rw [hslot]
    rw [hplace]
    exact getUInt32_copied h.packetSize
  · have happart := slots_apart (n := p.client.packetSize) hslot
    have hsize := h.packetSize
    refine getUInt32_splice_of_apart ?_
    rw [length_window, h.remotePlace_eq, h.remotePlace_eq]
    omega

theorem remoteWord_resets (m : ℕ) :
    getUInt32 (p.exec r .resets).remote (p.remotePlace m) =
      if m % p.client.bufferSlots = 0 then 0 else getUInt32 r.remote (p.remotePlace m) := by
  have hsize := h.packetSize
  have hle := h.slot_le m
  have hhalves := h.halves
  have hown : getUInt32 (p.exec r .resets).remote (p.remotePlace m) =
      getUInt32 (setUInt32 r.remote 0 p.remOffset) (p.remotePlace m) := by
    refine getUInt32_splice_of_apart ?_
    rw [List.length_replicate, LatencyThread.remoteMemorySize_of_lt h.bufferSize_lt, h.remotePlace_eq]
    omega
  rw [hown]
  split_ifs with hslot
  · rw [h.remotePlace_eq, hslot, Nat.zero_mul]
    exact getUInt32_set
  · have happart := slots_apart (n := p.client.packetSize) hslot
    refine getUInt32_splice_of_apart ?_
    rw [length_bytes32, h.remotePlace_eq]
    omega

theorem receiveWord_echoLands (hid : r.respondConnID = p.clientID)
    (hoffset : r.remoteOffset = p.receivePlace r.j) (m : ℕ) :
    getUInt32 (p.exec r .echoLands).mem (p.receivePlace m) =
      if m % p.client.bufferSlots = r.j % p.client.bufferSlots then
        getUInt32 r.remote (p.remotePlace r.j)
      else getUInt32 r.mem (p.receivePlace m) := by
  have hmem : (p.exec r .echoLands).mem = splice r.mem (p.receivePlace r.j)
      (window r.remote (p.remotePlace r.j) p.client.packetSize) := by
    rw [exec, if_pos hid, hoffset]
  rw [hmem]
  split_ifs with hslot
  · have hplace : p.receivePlace m = p.receivePlace r.j := by
      unfold receivePlace
      rw [hslot]
    rw [hplace]
    exact getUInt32_copied h.packetSize
  · have happart := slots_apart (n := p.client.packetSize) hslot
    have hsize := h.packetSize
    refine getUInt32_splice_of_apart ?_
    rw [length_window, h.receivePlace_eq, h.receivePlace_eq]
    omega

end Sound

end WritePair

end RdmaManager
