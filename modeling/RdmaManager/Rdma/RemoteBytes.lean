import RdmaManager.Common.PrivateMemory
import RdmaManager.Rdma.Atomics
/-!
# Requests on remote bytes

A request names consecutive bytes of the remote memory, and the device
finds something there and leaves something (`SendWr.carryOut`). Of a word
of eight bytes, the low one first, that is what `SendWr.execute` says
(`word_carryOut`). What a call posts is about the bytes its arguments name,
or fewer of them (`ReadEvent.posts`).
-/

namespace RdmaManager

/-- The bytes of a word, on a machine with the low byte first. -/
def bytes64 (n : ℕ) : List UInt8 := (List.range 8).map fun i => UInt8.ofNat (n / 256 ^ i)

def bytes32 (n : ℕ) : List UInt8 := (List.range 4).map fun i => UInt8.ofNat (n / 256 ^ i)

/-- The word of bytes. -/
def word64 : List UInt8 → ℕ
  | [] => 0
  | b :: bytes => b.toNat + 256 * word64 bytes

@[simp] theorem length_bytes64 (n : ℕ) : (bytes64 n).length = 8 := rfl

@[simp] theorem length_bytes32 (n : ℕ) : (bytes32 n).length = 4 := rfl

theorem word64_bytes32 (n : ℕ) : word64 (bytes32 n) = n % 2 ^ 32 := by
  simp only [bytes32, List.range, List.range.loop, List.map_cons, List.map_nil, word64,
    UInt8.toNat_ofNat']
  omega

theorem word64_bytes64 (n : ℕ) : word64 (bytes64 n) = wrap64 n := by
  simp only [bytes64, List.range, List.range.loop, List.map_cons, List.map_nil, word64,
    UInt8.toNat_ofNat', wrap64]
  omega

theorem word64_lt (bytes : List UInt8) : word64 bytes < 256 ^ bytes.length := by
  induction bytes with
  | nil => exact Nat.one_pos
  | cons b bytes ih =>
      have hb := b.toNat_lt
      rw [word64, List.length_cons, Nat.pow_succ]
      omega

/-! ## Words of a memory -/

/-- `getUInt32(size_t)`. -/
def getUInt32 (mem : ℕ → UInt8) (offset : ℕ) : ℕ := word64 (window mem offset 4)

/-- `set(uint32_t, size_t)`. -/
def setUInt32 (mem : ℕ → UInt8) (word offset : ℕ) : ℕ → UInt8 := splice mem offset (bytes32 word)

/-- `getInt32(size_t)`. -/
def getInt32 (mem : ℕ → UInt8) (offset : ℕ) : ℤ := (getUInt32 mem offset : ℤ).bmod (2 ^ 32)

/-- `set(int32_t, size_t)`. -/
def setInt32 (mem : ℕ → UInt8) (value : ℤ) (offset : ℕ) : ℕ → UInt8 :=
  setUInt32 mem (value % 2 ^ 32).toNat offset

section words

variable {mem mem' : ℕ → UInt8} {a b n word : ℕ}

theorem getUInt32_set : getUInt32 (setUInt32 mem word a) a = word % 2 ^ 32 := by
  have hwindow := window_splice mem a (bytes32 word)
  rw [length_bytes32] at hwindow
  rw [getUInt32, setUInt32, hwindow, word64_bytes32]

/-- A word below `2 ^ 31` is read as it is. -/
theorem getInt32_of_word (hword : getUInt32 mem a = word) (h : word < 2 ^ 31) :
    getInt32 mem a = word := by
  unfold getInt32
  rw [hword]
  exact Int.bmod_eq_of_le_mul_two (by omega) (by omega)

theorem getUInt32_splice_of_apart {data : List UInt8} (h : b + 4 ≤ a ∨ a + data.length ≤ b) :
    getUInt32 (splice mem a data) b = getUInt32 mem b := by
  rw [getUInt32, window_splice_of_apart h]
  rfl

/-- What is copied from one memory to another starts with the same word. -/
theorem getUInt32_copied (h : 4 ≤ n) :
    getUInt32 (splice mem a (window mem' b n)) a = getUInt32 mem' b := by
  have hwindow := window_splice mem a (window mem' b n)
  rw [length_window] at hwindow
  rw [getUInt32, ← take_window _ _ h, hwindow, take_window _ _ h]
  rfl

theorem getUInt32_cleared (hle : a ≤ b) (hlt : b + 4 ≤ a + n) :
    getUInt32 (splice mem a (List.replicate n 0)) b = 0 := by
  have hzero : window (splice mem a (List.replicate n 0)) b 4 = List.replicate 4 0 := by
    refine List.eq_replicate_iff.mpr ⟨length_window, fun x hx => ?_⟩
    obtain ⟨p, hp, rfl⟩ := List.mem_map.mp hx
    rw [List.mem_range'_1] at hp
    refine Option.some.inj ?_
    rw [splice_of_inside (by omega) (by rw [List.length_replicate]; omega),
      List.getElem?_replicate_of_lt (by omega)]
  rw [getUInt32, hzero]
  rfl

end words

/-! ## Requests -/

namespace SendWr

variable {wr : SendWr} {data found : List UInt8} {mem : ℕ → UInt8}

/-- How many remote bytes a request is about. -/
def extent (wr : SendWr) : ℕ :=
  match wr.opcode with
  | .rdmaWrite => wr.length.toNat
  | .rdmaWriteWithImm => wr.length.toNat
  | .rdmaRead => wr.length.toNat
  | .fetchAndAdd => 8
  | .cmpAndSwp => 8
  | .send => 0
  | .sendWithImm => 0

/-- **What the device leaves** in the bytes it found, where `data` is what
it gathered locally. -/
def leaves (wr : SendWr) (data found : List UInt8) : List UInt8 :=
  match wr.opcode with
  | .rdmaWrite => data
  | .rdmaWriteWithImm => data
  | .rdmaRead => found
  | .fetchAndAdd => bytes64 (word64 found + wr.compareAdd)
  | .cmpAndSwp => if word64 found = wr.compareAdd then bytes64 wr.swap else found
  | .send => []
  | .sendWithImm => []

/-- The bytes that the request finds. -/
def finds (wr : SendWr) (mem : ℕ → UInt8) : List UInt8 := window mem wr.remoteAddr wr.extent

/-- The remote memory after the request. -/
def carryOut (wr : SendWr) (data : List UInt8) (mem : ℕ → UInt8) : ℕ → UInt8 :=
  splice mem wr.remoteAddr (wr.leaves data (wr.finds mem))

theorem length_leaves (hdata : data.length = wr.length.toNat) (hfound : found.length = wr.extent) :
    (wr.leaves data found).length = wr.extent := by
  unfold leaves extent at *
  cases hop : wr.opcode <;> simp only [hop] at hfound ⊢
  · exact hdata
  · exact hdata
  · exact hfound
  · rfl
  · rfl
  · exact length_bytes64 _
  · split_ifs
    · exact length_bytes64 _
    · exact hfound

@[simp] theorem length_finds : (wr.finds mem).length = wr.extent := length_window

/-- **The two readings of an atomic request agree**: of the word it is
about. -/
theorem word_carryOut (hop : wr.opcode = .fetchAndAdd ∨ wr.opcode = .cmpAndSwp)
    (hswap : wr.swap < 2 ^ 64) (hdata : data.length = wr.length.toNat) :
    word64 (wr.finds (wr.carryOut data mem)) =
      wr.execute (fun a => word64 (window mem a 8)) wr.remoteAddr := by
  have hextent : wr.extent = 8 := by
    unfold extent
    rcases hop with hop | hop <;> rw [hop]
  have hfinds : wr.finds mem = window mem wr.remoteAddr 8 := by rw [finds, hextent]
  have hread : wr.finds (wr.carryOut data mem) = wr.leaves data (wr.finds mem) := by
    have hwindow := window_splice mem wr.remoteAddr (wr.leaves data (wr.finds mem))
    rwa [length_leaves hdata length_finds] at hwindow
  rw [hread, hfinds]
  rcases hop with hop | hop
  · unfold leaves execute
    rw [hop]
    simp only
    rw [word64_bytes64, Function.update_self]
  · rw [ReliableRDMA.execute_cas hop]
    unfold leaves casWord
    rw [hop]
    simp only
    split_ifs
    · rw [word64_bytes64, wrap64_of_lt hswap]
    · rfl

end SendWr

/-! ## What a call posts -/

/-- The remote bytes that the arguments of an operation name: their offset
and how many they are. -/
def RcOp.remote : RcOp → Option (ℕ × ℕ)
  | .write offset _ size => some (offset, size)
  | .writeImm offset _ size _ => some (offset, size)
  | .read offset _ size => some (offset, size)
  | .fetchAndAdd offset _ _ => some (offset, 8)
  | .fetchAndAddValue offset _ _ _ => some (offset, 8)
  | .compareAndSwap offset _ _ _ _ => some (offset, 8)
  | .send _ _ => none
  | .sendImm _ _ _ => none

def ReadEvent.remote : ReadEvent → Option (ℕ × ℕ)
  | .call op _ _ => op.remote
  | .requestRead offset _ size _ => some (offset, size)
  | .pollSend _ _ _ _ => none
  | .completes _ => none

/-- The request is about none but the bytes that are named. -/
def SendWr.Names (wr : SendWr) (s : BaseRDMA) (id : ℕ) (remote : Option (ℕ × ℕ)) : Prop :=
  wr.extent = 0 ∨ ∃ offset size, remote = some (offset, size) ∧
    wr.remoteAddr = ReliableRDMA.remoteAddr s id offset ∧ wr.extent ≤ size

open ReliableRDMA

variable {c : SendConfig} {id : ℕ} {p : BaseRDMA × SendQueue} {remote : Option (ℕ × ℕ)}

/-- A call posts the request it makes, or nothing. -/
theorem wrs_posting_cases {σ : Type} {check : Act σ Bool} {request : Bool → σ → Except Exn SendWr}
    (texts : SendTexts) (wait : Bool) (v : Verbs) (p : σ × SendQueue) :
    (posting check request texts wait v p).2.2.wrs = p.2.wrs ∨
      ∃ b s wr, check p.1 = (.ok b, s) ∧ request b s = .ok wr ∧
        (posting check request texts wait v p).2.2.wrs = p.2.wrs ++ [wr] := by
  by_cases herr : v.errno = 0
  · rcases hcheck : check p.1 with ⟨e | b, s⟩
    · refine Or.inl ?_
      unfold posting
      rw [hcheck]
    · cases hrequest : request b s with
      | error e =>
          refine Or.inl ?_
          unfold posting
          rw [hcheck]
          simp only [hrequest]
      | ok wr => exact Or.inr ⟨b, s, wr, rfl, hrequest, wrs_posting texts wait herr hcheck hrequest⟩
  · exact Or.inl (congrArg SendQueue.wrs (posting_failed texts wait herr p))

/-- **What a call does**: it posts at most one request, about none but the
bytes it names, and changes nothing but its counter in the object. -/
structure Posted (id : ℕ) (remote : Option (ℕ × ℕ)) (p p' : BaseRDMA × SendQueue) : Prop where
  wrs : p'.2.wrs = p.2.wrs ∨ ∃ wr, p'.2.wrs = p.2.wrs ++ [wr] ∧ wr.Names p.1 id remote
  object : ∃ countWR, p'.1 = { p.1 with countWR } ∧ countWR.length = p.1.countWR.length

theorem Posted.ready {p' : BaseRDMA × SendQueue} (h : Posted id remote p p') (hready : Ready id p.1) :
    Ready id p'.1 := by
  obtain ⟨countWR, hobject, hlength⟩ := h.object
  rw [hobject]
  exact ⟨by rw [hlength]; exact hready.counter, hready.qp, hready.rconn⟩

theorem Posted.rconnAt {p' : BaseRDMA × SendQueue} (h : Posted id remote p p') (i : ℕ) :
    p'.1.rconnAt i = p.1.rconnAt i := by
  obtain ⟨countWR, hobject, -⟩ := h.object
  rw [hobject]
  rfl

/-- A call whose requests are about none but the bytes it names. -/
theorem posted_posting {signaled : Bool} {request : Bool → BaseRDMA → Except Exn SendWr}
    (hready : Ready id p.1) (texts : SendTexts) (wait : Bool) (v : Verbs)
    (hrequest : ∀ b s wr, request b s = .ok wr → s.rconnAt id = p.1.rconnAt id →
      wr.Names p.1 id remote) :
    Posted id remote p (posting (BaseRDMA.checkSignaled c.maxWr id signaled) request texts wait v p).2 where
  wrs := by
    rcases wrs_posting_cases texts wait v p with hsame | ⟨b, s, wr, hcheck, hreq, hwrs⟩
    · exact Or.inl hsame
    · refine Or.inr ⟨wr, hwrs, hrequest b s wr hreq ?_⟩
      rw [checkSignaled_of_lt c.maxWr hready.counter] at hcheck
      obtain ⟨-, rfl⟩ := Prod.mk.inj hcheck
      rfl
  object := by
    rw [posting_object, checkSignaled_of_lt c.maxWr hready.counter]
    exact ⟨_, rfl, List.length_set⟩

/-- The requests that name remote memory. -/
theorem names_of_remoteRequest {offset size : ℕ} {wr : IbConn → SendWr} {s : BaseRDMA} {r : SendWr}
    (hr : remoteRequest id wr s = .ok r) (hconn : s.rconnAt id = p.1.rconnAt id)
    (haddr : ∀ conn, (wr conn).remoteAddr = wrap64 (conn.buffer.toNat + offset))
    (hextent : ∀ conn, (wr conn).extent ≤ size) : r.Names p.1 id (some (offset, size)) := by
  unfold remoteRequest at hr
  split_ifs at hr
  obtain rfl := Except.ok.inj hr
  refine Or.inr ⟨offset, size, rfl, ?_, hextent _⟩
  rw [haddr, hconn]
  rfl

theorem names_of_localRequest {wr r : SendWr} {s : BaseRDMA} (hextent : wr.extent = 0)
    (hr : localRequest id wr s = .ok r) : r.Names p.1 id remote := by
  unfold localRequest at hr
  split_ifs at hr
  obtain rfl := Except.ok.inj hr
  exact Or.inl hextent

theorem toNat_toUInt32_le (n : ℕ) : n.toUInt32.toNat ≤ n := by
  rw [TransferFn.toNat_toUInt32]
  exact Nat.mod_le _ _

theorem RcOp.posted (op : RcOp) (hready : Ready id p.1) (signaled : Bool) (v : Verbs) :
    Posted id op.remote p (op.exec c id signaled v p).2 := by
  cases op with
  | write offset memAddr size | writeImm offset memAddr size imm | read offset memAddr size =>
      exact posted_posting hready _ _ v fun b s wr hr hconn =>
        names_of_remoteRequest hr hconn (fun _ => rfl) fun _ => toNat_toUInt32_le size
  | fetchAndAdd | fetchAndAddValue | compareAndSwap =>
      exact posted_posting hready _ _ v fun b s wr hr hconn =>
        names_of_remoteRequest hr hconn (fun _ => rfl) fun _ => le_rfl
  | send | sendImm =>
      exact posted_posting hready _ _ v fun b s wr hr _ => names_of_localRequest rfl hr

/-- **What any call on a connection does.** -/
theorem ReadEvent.posted (e : ReadEvent) (hready : Ready id p.1) :
    Posted id e.remote p (e.run c id p).2 := by
  cases e with
  | call op signaled v => exact op.posted hready signaled v
  | requestRead offset memAddr size v =>
      exact posted_posting hready _ _ v fun b s wr hr hconn =>
        names_of_remoteRequest hr hconn (fun _ => rfl) fun _ => toNat_toUInt32_le size
  | pollSend doPoll imm polls out =>
      obtain ⟨hobject, hqueue⟩ := pollSend_cases id doPoll imm polls out p
      refine ⟨Or.inl ?_, p.1.countWR, hobject, rfl⟩
      rcases hqueue with ⟨-, hlater⟩ | ⟨i, htook⟩
      · exact hlater.wrs
      · exact htook.wrs
  | completes n => exact ⟨Or.inl rfl, p.1.countWR, rfl, rfl⟩

end RdmaManager
