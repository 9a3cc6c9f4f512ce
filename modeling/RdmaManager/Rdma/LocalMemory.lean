import RdmaManager.Memory.Canonical
import RdmaManager.Rdma.Transfers
/-!
# Local memory of the RDMA objects

`localAlloc` and `localFree` are virtual. The unreliable object reserves
`RDMA_UD_OFFSET` bytes more than it is asked for and hands out a pointer
behind them, since the network interface writes a header in front of every
datagram it receives. So the pointer of a block and the offset of its
segment differ by the header, which the release by pointer takes off and
the release by offset does not; and memory from `localMalloc` has no room
for the header.
-/

namespace RdmaManager

/-- The implementations of `BaseRDMA`. -/
inductive RdmaKind
  | reliable
  | unreliable
  deriving DecidableEq, Repr

/-- `ReliableRDMA::localAlloc`. -/
def ReliableRDMA.localAlloc (size : ℕ) : Act BaseMemory ℕ := BaseMemory.alloc size

/-- `ReliableRDMA::localFree(const size_t &)`. -/
def ReliableRDMA.localFreeOffset (offset : ℕ) : Act BaseMemory Unit := BaseMemory.free offset

/-- `ReliableRDMA::localFree(const void *)`. -/
def ReliableRDMA.localFree (ptr : ℕ) : Act BaseMemory Unit := BaseMemory.freePtr ptr

/-- `UnreliableRDMA::localAlloc`. -/
def UnreliableRDMA.localAlloc (size : ℕ) : Act BaseMemory ℕ := do
  let memRes ← BaseMemory.internalAlloc (wrap64 (size + RDMA_UD_OFFSET))
  if memRes.isnull then
    throw (.runtimeError ("UnreliableRDMA allocating local memory failed! Size: " ++ toString size))
  else
    let m ← Act.get
    return wrap64 (m.buffer + memRes.offset + RDMA_UD_OFFSET)

/-- `UnreliableRDMA::localFree(const size_t &)`. -/
def UnreliableRDMA.localFreeOffset (offset : ℕ) : Act BaseMemory Unit := BaseMemory.free offset

/-- `UnreliableRDMA::localFree(const void *)`. -/
def UnreliableRDMA.localFree (ptr : ℕ) : Act BaseMemory Unit := fun m =>
  BaseMemory.free (wrap64 (m.offsetOf ptr + 2 ^ 64 - RDMA_UD_OFFSET)) m

/-- `BaseRDMA::convertPointerToOffset`. -/
def BaseRDMA.convertPointerToOffset (m : BaseMemory) (ptr : ℕ) : ℕ := m.offsetOf ptr

/-- `BaseRDMA::localMalloc` of a `MainMemory`: the pointer of the stub, which
adds the offset of the block to the buffer again. -/
def BaseRDMA.localMalloc (size : ℕ) : Act BaseMemory ℕ := do
  let ptr ← BaseMemory.alloc size
  let m ← Act.get
  let rootOffset := m.offsetOf ptr
  return wrap64 (m.buffer + rootOffset)

namespace RdmaKind

/-- The virtual functions. -/
def localAlloc : RdmaKind → ℕ → Act BaseMemory ℕ
  | reliable => ReliableRDMA.localAlloc
  | unreliable => UnreliableRDMA.localAlloc

def localFree : RdmaKind → ℕ → Act BaseMemory Unit
  | reliable => ReliableRDMA.localFree
  | unreliable => UnreliableRDMA.localFree

def localFreeOffset : RdmaKind → ℕ → Act BaseMemory Unit
  | reliable => ReliableRDMA.localFreeOffset
  | unreliable => UnreliableRDMA.localFreeOffset

/-- The room in front of a block. -/
def header : RdmaKind → ℕ
  | reliable => 0
  | unreliable => RDMA_UD_OFFSET

/-- What `localAlloc` asks the buffer for. -/
def reserve (kind : RdmaKind) (size : ℕ) : ℕ :=
  match kind with
  | reliable => size
  | unreliable => wrap64 (size + RDMA_UD_OFFSET)

/-- The pointer to the block of the segment at an offset. -/
def pointer (kind : RdmaKind) (m : BaseMemory) (offset : ℕ) : ℕ :=
  wrap64 (m.buffer + offset + kind.header)

/-- The offset that `localFree` takes a pointer for. -/
def offset (kind : RdmaKind) (m : BaseMemory) (ptr : ℕ) : ℕ :=
  wrap64 (m.offsetOf ptr + 2 ^ 64 - kind.header)

end RdmaKind

/-- The calls of the users of an object. A stub that `localMalloc` returned
frees its block when it is deleted. -/
inductive LocalCall
  | localAlloc (size : ℕ)
  | localMalloc (size : ℕ)
  | localFree (ptr : ℕ)
  | localFreeOffset (offset : ℕ)
  | deleteStub (ptr : ℕ)
  deriving DecidableEq, Repr

namespace LocalCall

variable (kind : RdmaKind) (m : BaseMemory)

/-- The buffer after the call, whatever it returned or threw. -/
def exec : LocalCall → BaseMemory
  | localAlloc size => (kind.localAlloc size m).2
  | localMalloc size => (BaseRDMA.localMalloc size m).2
  | localFree ptr => (kind.localFree ptr m).2
  | localFreeOffset offset => (kind.localFreeOffset offset m).2
  | deleteStub ptr => (BaseMemory.freePtr ptr m).2

/-- The offset of the segment that is released. -/
def released : LocalCall → Option ℕ
  | localAlloc _ | localMalloc _ => none
  | localFree ptr => some (kind.offset m ptr)
  | localFreeOffset offset => some offset
  | deleteStub ptr => some (m.offsetOf ptr)

/-- At least one byte is reserved, or a live segment is released. -/
def Proper : LocalCall → Prop
  | localAlloc size => 0 < kind.reserve size
  | localMalloc size => 0 < size
  | call => ∀ k ∈ call.released kind m, k ∈ m.usedRdmaMem

/-- **The pointers that `localAlloc` has returned** and that have not been
released, with the segments that the calls reserved. -/
def book (owned : ℕ → Option RdmaMem) (call : LocalCall) : ℕ → Option RdmaMem :=
  match call with
  | localAlloc size =>
      match (BaseMemory.internalAlloc (kind.reserve size) m).1, (kind.localAlloc size m).1 with
      | .ok seg, .ok ptr => Function.update owned ptr (some seg)
      | _, _ => owned
  | localMalloc _ => owned
  | call =>
      match call.released kind m with
      | some k => Function.update owned (kind.pointer m k) none
      | none => owned

end LocalCall

/-- **The runs of careful users** of one object. -/
def locals (kind : RdmaKind) : System BaseMemory LocalCall where
  Init := BaseMemory.Fresh
  Step m call m' := call.Proper kind m ∧ m' = call.exec kind m

/-- Those runs with the pointers that are out. -/
def bookedLocals (kind : RdmaKind) : System (BaseMemory × (ℕ → Option RdmaMem)) LocalCall :=
  (locals kind).record (fun _ _ => none) fun m call _ owned => call.book kind m owned

/-! ## What the calls are to the buffer -/

namespace RdmaKind

open BaseMemory

variable {kind : RdmaKind} {m m' : BaseMemory} {seg : RdmaMem} {k size ptr : ℕ}

theorem localAlloc_of_some (kind : RdmaKind) (h : internalAlloc (kind.reserve size) m = (.ok seg, m'))
    (hnull : seg.isnull = false) :
    kind.localAlloc size m = (.ok (kind.pointer m' seg.offset), m') := by
  cases kind with
  | reliable => exact alloc_of_some hnull h
  | unreliable =>
      have hcall : internalAlloc (wrap64 (size + RDMA_UD_OFFSET)) m = (.ok seg, m') := h
      show UnreliableRDMA.localAlloc size m = _
      rw [UnreliableRDMA.localAlloc, Act.bind_of_ok hcall, hnull]
      rfl

theorem localAlloc_of_null (kind : RdmaKind)
    (h : internalAlloc (kind.reserve size) m = (.ok RdmaMem.null, m)) :
    ∃ e, kind.localAlloc size m = (.error e, m) := by
  cases kind with
  | reliable => exact ⟨_, alloc_of_null h⟩
  | unreliable =>
      have hcall : internalAlloc (wrap64 (size + RDMA_UD_OFFSET)) m = (.ok RdmaMem.null, m) := h
      refine ⟨.runtimeError ("UnreliableRDMA allocating local memory failed! Size: " ++
        toString size), ?_⟩
      show UnreliableRDMA.localAlloc size m = _
      rw [UnreliableRDMA.localAlloc, Act.bind_of_ok hcall]
      rfl

/-- **`localAlloc`** reserves the first free segment that is large enough, or
throws and leaves the buffer alone. -/
theorem localAlloc_cases (h : m.Sound) (kind : RdmaKind) (size : ℕ) :
    (∃ pre a post, m.rdmaMem = pre ++ a :: post ∧ kind.reserve size ≤ a.size ∧
        internalAlloc (kind.reserve size) m =
          (.ok (RdmaMem.init (kind.reserve size) false a.offset),
            m.take (kind.reserve size) pre a post) ∧
        kind.localAlloc size m =
          (.ok (kind.pointer m a.offset), m.take (kind.reserve size) pre a post)) ∨
      ∃ e, kind.localAlloc size m = (.error e, m) := by
  rcases internalAlloc_cases h (kind.reserve size) with
    ⟨pre, a, post, hsplit, hsize, -, hcall⟩ | ⟨-, hcall⟩
  · exact Or.inl ⟨pre, a, post, hsplit, hsize, hcall, localAlloc_of_some kind hcall rfl⟩
  · exact Or.inr (localAlloc_of_null kind hcall)

theorem localFree_eq (kind : RdmaKind) (m : BaseMemory) (ptr : ℕ) :
    kind.localFree ptr m = free (kind.offset m ptr) m := by
  cases kind with
  | reliable =>
      have hoffset : RdmaKind.reliable.offset m ptr = m.offsetOf ptr := by
        simp only [offset, header, offsetOf, wrap64]
        omega
      rw [hoffset]
      rfl
  | unreliable => rfl

theorem localFreeOffset_eq (kind : RdmaKind) (offset : ℕ) :
    kind.localFreeOffset offset = free offset := by
  cases kind <;> rfl

/-- The pointer of an offset is taken for that offset. -/
theorem offset_pointer (kind : RdmaKind) (m : BaseMemory) (hbuffer : m.buffer < 2 ^ 64)
    (hk : k < 2 ^ 64) : kind.offset m (kind.pointer m k) = k := by
  have hheader : kind.header ≤ 40 := by cases kind <;> decide
  simp only [offset, pointer, offsetOf, wrap64]
  omega

/-- And the base class takes it for an offset that is larger by the header. -/
theorem convertPointerToOffset_pointer (kind : RdmaKind) (m : BaseMemory)
    (hbuffer : m.buffer < 2 ^ 64) :
    BaseRDMA.convertPointerToOffset m (kind.pointer m k) = wrap64 (k + kind.header) := by
  simp only [BaseRDMA.convertPointerToOffset, pointer, offsetOf, wrap64]
  omega

/-- A stub's pointer is that of its block. -/
theorem localMalloc_eq (size : ℕ) (m : BaseMemory) : BaseRDMA.localMalloc size m =
    match BaseMemory.alloc size m with
    | (.ok ptr, m') => (.ok (wrap64 (m'.buffer + m'.offsetOf ptr)), m')
    | (.error e, m') => (.error e, m') := by
  unfold BaseRDMA.localMalloc
  rcases hcall : BaseMemory.alloc size m with ⟨e | ptr, m'⟩
  · rw [Act.bind_of_error hcall]
  · rw [Act.bind_of_ok hcall]
    rfl

/-- **A call is one of the calls of the buffer**, as careful as itself. -/
theorem exec_eq (h : m.Sound) {call : LocalCall} (hproper : call.Proper kind m) :
    ∃ c : BaseMemory.Call, c.Proper m ∧ call.exec kind m = c.exec m := by
  cases call with
  | localAlloc size =>
      refine ⟨.internalAlloc (kind.reserve size), hproper, ?_⟩
      show (kind.localAlloc size m).2 = (internalAlloc (kind.reserve size) m).2
      rcases internalAlloc_cases h (kind.reserve size) with ⟨pre, a, post, -, -, -, hcall⟩ | ⟨-, hcall⟩
      · rw [localAlloc_of_some kind hcall rfl, hcall]
      · obtain ⟨e, herr⟩ := localAlloc_of_null kind hcall
        rw [herr, hcall]
  | localMalloc size =>
      refine ⟨.alloc size, hproper, ?_⟩
      show (BaseRDMA.localMalloc size m).2 = (alloc size m).2
      rw [localMalloc_eq]
      rcases alloc size m with ⟨e | ptr, m'⟩ <;> rfl
  | localFree ptr =>
      refine ⟨.free (kind.offset m ptr), hproper _ rfl, ?_⟩
      show (kind.localFree ptr m).2 = _
      rw [localFree_eq]
      rfl
  | localFreeOffset offset =>
      refine ⟨.free offset, hproper _ rfl, ?_⟩
      show (kind.localFreeOffset offset m).2 = _
      rw [localFreeOffset_eq]
      rfl
  | deleteStub ptr => exact ⟨.free (m.offsetOf ptr), hproper _ rfl, rfl⟩

/-- **A run of an object is a run of its buffer.** -/
theorem calls_reachable (h : (locals kind).Reachable m) : calls.Reachable m := by
  have hinv : (locals kind).Invariant calls.Reachable := by
    refine ⟨fun m hinit => .init hinit, ?_⟩
    rintro m call _ - hreach ⟨hproper, rfl⟩
    obtain ⟨c, hc, hexec⟩ := exec_eq (tight_of_reachable hreach).toSound hproper
    rw [hexec]
    exact reachable_exec hreach c hc
  exact hinv.reachable h

/-! ## The pointers that are out -/

/-- A pointer is that of its segment, which is the one recorded at its
offset. -/
def Owned (kind : RdmaKind) (m : BaseMemory) (owned : ℕ → Option RdmaMem) : Prop :=
  ∀ ptr seg, owned ptr = some seg →
    ptr = kind.pointer m seg.offset ∧ m.usedRdmaMem.lookup seg.offset = some seg

/-- A live segment lies in the buffer. -/
theorem live_lt (h : m.Sound) (hk : m.usedRdmaMem.lookup k = some seg) : k < 2 ^ 64 := by
  obtain ⟨rfl, hpos⟩ := h.used k seg hk
  have hstop := h.stop_le (mem_segments_of_used hk) hpos
  have hlt := h.lt
  omega

theorem Owned.alloc {owned : ℕ → Option RdmaMem} (h : Owned kind m owned) {n : ℕ}
    (hm : m'.usedRdmaMem = m.usedRdmaMem.insert k (RdmaMem.init n false k))
    (hfresh : k ∉ m.usedRdmaMem) (hbuffer : m'.buffer = m.buffer) : Owned kind m' owned := by
  intro ptr seg hptr
  obtain ⟨rfl, hseg⟩ := h ptr seg hptr
  refine ⟨by rw [pointer, pointer, hbuffer], ?_⟩
  have hne : seg.offset ≠ k := by
    rintro rfl
    exact hfresh (Finmap.mem_iff.mpr ⟨seg, hseg⟩)
  rw [hm, Finmap.lookup_insert_of_ne _ hne, hseg]

theorem Owned.release {owned : ℕ → Option RdmaMem} (h : Owned kind m owned)
    (hm : m'.usedRdmaMem = m.usedRdmaMem.erase k) (hbuffer : m'.buffer = m.buffer) :
    Owned kind m' (Function.update owned (kind.pointer m k) none) := by
  intro ptr seg hptr
  by_cases hp : ptr = kind.pointer m k
  · rw [hp, Function.update_self] at hptr
    exact absurd hptr (by simp)
  · rw [Function.update_of_ne hp] at hptr
    obtain ⟨rfl, hseg⟩ := h ptr seg hptr
    refine ⟨by rw [pointer, pointer, hbuffer], ?_⟩
    have hne : seg.offset ≠ k := by
      rintro rfl
      exact hp rfl
    rw [hm, Finmap.lookup_erase_ne hne, hseg]

theorem owned_invariant (kind : RdmaKind) :
    (bookedLocals kind).Invariant fun p => Owned kind p.1 p.2 where
  init p hinit := by
    rw [hinit.2]
    intro ptr seg hptr
    exact absurd hptr (by simp)
  step p call q hreach h hstep := by
    obtain ⟨m, owned⟩ := p
    obtain ⟨m', owned'⟩ := q
    obtain ⟨⟨hproper, hm'⟩, howned'⟩ := hstep
    obtain rfl : m' = call.exec kind m := hm'
    obtain rfl : owned' = call.book kind m owned := howned'
    have h : Owned kind m owned := h
    have htight : m.Tight := tight_of_reachable (calls_reachable hreach.of_record)
    have hfree : ∀ k, Owned kind (free k m).2 (Function.update owned (kind.pointer m k) none) :=
      fun k => h.release (free_frame k m).1 (free_frame k m).2
    cases call with
    | localAlloc size =>
        show Owned kind (kind.localAlloc size m).2 (LocalCall.book kind m owned (.localAlloc size))
        rcases localAlloc_cases htight.toSound kind size with
          ⟨pre, a, post, hsplit, hsize, hcall, halloc⟩ | ⟨e, halloc⟩
        · have ha : a ∈ m.rdmaMem := by simp [hsplit]
          have hpos : 0 < kind.reserve size := hproper
          have hfresh := htight.offset_notMem ha (lt_of_lt_of_le hpos hsize)
          have hold : Owned kind (m.take (kind.reserve size) pre a post) owned :=
            h.alloc rfl hfresh rfl
          simp only [LocalCall.book, hcall, halloc]
          intro ptr seg hptr
          by_cases hp : ptr = kind.pointer m a.offset
          · rw [hp, Function.update_self] at hptr
            obtain rfl := Option.some.inj hptr
            exact ⟨hp, Finmap.lookup_insert _⟩
          · rw [Function.update_of_ne hp] at hptr
            exact hold ptr seg hptr
        · simp only [LocalCall.book, halloc]
          cases (internalAlloc (kind.reserve size) m).1 <;> exact h
    | localMalloc size =>
        show Owned kind (BaseRDMA.localMalloc size m).2 owned
        have hpos : 0 < size := hproper
        rw [localMalloc_eq]
        rcases internalAlloc_cases htight.toSound size with
          ⟨pre, a, post, hsplit, hsize, -, hcall⟩ | ⟨-, hcall⟩
        · have ha : a ∈ m.rdmaMem := by simp [hsplit]
          rw [alloc_of_some rfl hcall]
          exact h.alloc rfl (htight.offset_notMem ha (lt_of_lt_of_le hpos hsize)) rfl
        · rw [alloc_of_null hcall]
          exact h
    | localFree ptr =>
        show Owned kind (kind.localFree ptr m).2 _
        rw [localFree_eq]
        exact hfree _
    | localFreeOffset offset =>
        show Owned kind (kind.localFreeOffset offset m).2 _
        rw [localFreeOffset_eq]
        exact hfree _
    | deleteStub ptr => exact hfree _

/-! ## Releasing by pointer and by offset -/

/-- **Exactly the segment `seg` has become free.** -/
structure Freed (m : BaseMemory) (seg : RdmaMem) (r : Except Exn Unit × BaseMemory) : Prop where
  returned : r.1 = .ok ()
  used : r.2.usedRdmaMem = m.usedRdmaMem.erase seg.offset
  cover : ∀ q, Extent.cover (r.2.rdmaMem : Multiset RdmaMem) q =
    Extent.cover (m.rdmaMem : Multiset RdmaMem) q + (if Extent.Holds seg q then 1 else 0)

/-- The two releases of a pointer are one operation, and it frees the
segment of the pointer. -/
def Agree (kind : RdmaKind) (m : BaseMemory) (ptr : ℕ) (seg : RdmaMem) : Prop :=
  kind.localFree ptr m = kind.localFreeOffset (BaseRDMA.convertPointerToOffset m ptr) m ∧
    Freed m seg (kind.localFree ptr m)

/-- Freeing a live segment frees its bytes. -/
theorem freed_of_live (h : m.Tight) (hk : m.usedRdmaMem.lookup seg.offset = some seg) :
    Freed m seg (free seg.offset m) := by
  obtain ⟨pre, post, hsplit, hfree, hpre, hpost⟩ := free_live h.toSound hk
  have hafter := (h.putBack hk hsplit hpre hpost).toSound
  refine ⟨by rw [hfree], by rw [hfree]; rfl, fun q => ?_⟩
  rw [hfree]
  -- every byte is in one segment before and after
  have hbefore := h.cover q
  have hthen := hafter.cover q
  rw [segments, Extent.cover_add, usedSegments, entries_eq_cons_erase hk, Multiset.map_cons,
    Extent.cover_cons] at hbefore
  dsimp only at hbefore
  rw [segments, Extent.cover_add] at hthen
  have hused : (m.putBack seg.offset pre post).usedSegments =
      (m.usedRdmaMem.erase seg.offset).entries.map Sigma.snd := rfl
  have hsize : (m.putBack seg.offset pre post).memSize = m.memSize := rfl
  rw [hused, hsize] at hthen
  show Extent.cover ((m.putBack seg.offset pre post).rdmaMem : Multiset RdmaMem) q = _
  omega

/-- **The buffer is as it was in `m`**: its free segments and its live ones. -/
structure Undone (m : BaseMemory) (r : Except Exn Unit × BaseMemory) : Prop where
  returned : r.1 = .ok ()
  layout : r.2.layout = m.layout
  used : r.2.usedRdmaMem = m.usedRdmaMem

/-- On an unreliable object the release by offset spares the block. -/
theorem used_of_converted (hbuffer : m.buffer < 2 ^ 64)
    (hseg : m.usedRdmaMem.lookup k = some seg) :
    (RdmaKind.unreliable.localFreeOffset
      (BaseRDMA.convertPointerToOffset m (RdmaKind.unreliable.pointer m k)) m).2.usedRdmaMem.lookup k =
        some seg := by
  rw [localFreeOffset_eq, convertPointerToOffset_pointer _ _ hbuffer, (free_frame _ _).1]
  have hne : k ≠ wrap64 (k + RdmaKind.unreliable.header) := by
    simp only [header, RDMA_UD_OFFSET, wrap64]
    omega
  rw [Finmap.lookup_erase_ne hne, hseg]

/-- On a reliable object the releases are one. -/
theorem localFreeOffset_converted (hbuffer : m.buffer < 2 ^ 64) (hk : k < 2 ^ 64) :
    RdmaKind.reliable.localFreeOffset
      (BaseRDMA.convertPointerToOffset m (RdmaKind.reliable.pointer m k)) m = free k m := by
  rw [localFreeOffset_eq, convertPointerToOffset_pointer _ _ hbuffer]
  have hsame : wrap64 (k + RdmaKind.reliable.header) = k := wrap64_of_lt hk
  rw [hsame]

theorem localFree_pointer (kind : RdmaKind) (hbuffer : m.buffer < 2 ^ 64) (hk : k < 2 ^ 64) :
    kind.localFree (kind.pointer m k) m = free k m := by
  rw [localFree_eq, offset_pointer kind m hbuffer hk]

theorem agree_iff (h : m.Tight) (hbuffer : m.buffer < 2 ^ 64)
    (hseg : m.usedRdmaMem.lookup seg.offset = some seg) :
    Agree kind m (kind.pointer m seg.offset) seg ↔ kind = .reliable := by
  have hk := live_lt h.toSound hseg
  cases kind with
  | reliable =>
      refine iff_of_true ⟨?_, ?_⟩ rfl
      · rw [localFree_pointer _ hbuffer hk, localFreeOffset_converted hbuffer hk]
      · rw [localFree_pointer _ hbuffer hk]
        exact freed_of_live h hseg
  | unreliable =>
      refine iff_of_false (fun hagree => ?_) (by simp)
      have hspared := used_of_converted hbuffer hseg
      rw [← hagree.1, hagree.2.used, Finmap.lookup_erase] at hspared
      exact absurd hspared (by simp)

/-- **A block that is allocated and freed** leaves the buffer as it was. -/
theorem undone_free (hreach : calls.Reachable m) (hpos : 0 < size) {pre post : List RdmaMem}
    {a : RdmaMem} (hcall : internalAlloc size m =
      (.ok (RdmaMem.init size false a.offset), m.take size pre a post)) :
    Undone m (free a.offset (m.take size pre a post)) := by
  obtain ⟨htaken, hfresh, hlive⟩ := live_internalAlloc hreach hpos hcall rfl
  have hin : a.offset ∈ (m.take size pre a post).usedRdmaMem :=
    Finmap.mem_insert.mpr (Or.inl rfl)
  obtain ⟨hfreed, hgone⟩ := live_free htaken hin
  have hsize : (free a.offset (m.take size pre a post)).2.memSize = m.memSize :=
    Call.exec_memSize (m.take size pre a post) (.free a.offset)
  have hsame : (free a.offset (m.take size pre a post)).2.live = m.live := by
    rw [hgone, hlive]
    funext i
    by_cases hi : i = a.offset
    · rw [hi, Function.update_self]
      exact hfresh.symm
    · rw [Function.update_of_ne hi]
      exact Function.update_of_ne hi _ _
  refine ⟨?_, (tight_of_reachable hfreed).layout_eq (tight_of_reachable hreach) hsize hsame, ?_⟩
  · have hlookup : (m.take size pre a post).usedRdmaMem.lookup (RdmaMem.init size false a.offset).offset =
        some (RdmaMem.init size false a.offset) := Finmap.lookup_insert _
    exact (freed_of_live (tight_of_reachable htaken) hlookup).returned
  · rw [(free_frame _ _).1]
    show (m.usedRdmaMem.insert a.offset _).erase a.offset = _
    refine Finmap.ext_lookup fun i => ?_
    by_cases hi : i = a.offset
    · rw [hi, Finmap.lookup_erase]
      exact (Finmap.lookup_eq_none.mpr (live_eq_none.mp hfresh)).symm
    · rw [Finmap.lookup_erase_ne hi, Finmap.lookup_insert_of_ne _ hi]

/-- **Both releases undo an allocation** exactly on a reliable object. -/
theorem undone_iff (hcalls : calls.Reachable m) {size ptr : ℕ} {m' : BaseMemory}
    (hpos : 0 < kind.reserve size) (halloc : kind.localAlloc size m = (.ok ptr, m')) :
    Undone m (kind.localFree ptr m') ∧
      Undone m (kind.localFreeOffset (BaseRDMA.convertPointerToOffset m' ptr) m') ↔
        kind = .reliable := by
  have htight := tight_of_reachable hcalls
  have hbuffer := (memSize_pos_of_reachable hcalls).2
  rcases localAlloc_cases htight.toSound kind size with
    ⟨pre, a, post, hsplit, hsize, hcall, hok⟩ | ⟨e, herr⟩
  · obtain ⟨hptr, hm'⟩ := Prod.mk.inj (hok.symm.trans halloc)
    have hpointer : ptr = kind.pointer m' a.offset := by
      rw [← Except.ok.inj hptr, ← hm']
      rfl
    have hbuffer' : m'.buffer < 2 ^ 64 := by
      rw [← hm']
      exact hbuffer
    have hk : a.offset < 2 ^ 64 := by
      have hstop := htight.unwrapped.stop a (by simp [hsplit])
      omega
    have hundone := undone_free hcalls hpos hcall
    rw [hm'] at hundone
    rw [hpointer, localFree_pointer kind hbuffer' hk]
    cases kind with
    | reliable =>
        rw [localFreeOffset_converted hbuffer' hk]
        exact iff_of_true ⟨hundone, hundone⟩ rfl
    | unreliable =>
        -- the segment is still in use
        refine iff_of_false (fun hboth => ?_) (by simp)
        have hfresh : a.offset ∉ m.usedRdmaMem :=
          htight.offset_notMem (by simp [hsplit]) (lt_of_lt_of_le hpos hsize)
        have hlookup : m'.usedRdmaMem.lookup a.offset =
            some (RdmaMem.init (RdmaKind.unreliable.reserve size) false a.offset) := by
          rw [← hm']
          exact Finmap.lookup_insert _
        have hspared := used_of_converted hbuffer' hlookup
        rw [hboth.2.used] at hspared
        exact hfresh (Finmap.mem_iff.mpr ⟨_, hspared⟩)
  · rw [herr] at halloc
    exact absurd halloc (by simp)

/-- **The release by pointer and the release by offset agree** on every
pointer that is out, exactly on a reliable object; and so exactly there
both undo an allocation. -/
theorem releases_agree_iff {owned : ℕ → Option RdmaMem}
    (hreach : (bookedLocals kind).Reachable (m, owned)) :
    (∀ ptr seg, owned ptr = some seg → (Agree kind m ptr seg ↔ kind = .reliable)) ∧
      ∀ size ptr m', 0 < kind.reserve size → kind.localAlloc size m = (.ok ptr, m') →
        (Undone m (kind.localFree ptr m') ∧
          Undone m (kind.localFreeOffset (BaseRDMA.convertPointerToOffset m' ptr) m') ↔
            kind = .reliable) := by
  have hcalls : calls.Reachable m := calls_reachable hreach.of_record
  have htight := tight_of_reachable hcalls
  have hbuffer := (memSize_pos_of_reachable hcalls).2
  refine ⟨fun ptr seg hptr => ?_, fun size ptr m' hpos halloc => undone_iff hcalls hpos halloc⟩
  obtain ⟨rfl, hseg⟩ := (owned_invariant kind).reachable hreach ptr seg hptr
  exact agree_iff htight hbuffer hseg

/-- A buffer of 128 bytes. -/
def smallBuffer : BaseMemory := BaseMemory.new 4096 128

/-- An object over it whose user has asked for 8 bytes. -/
def oneBlock (kind : RdmaKind) : BaseMemory × (ℕ → Option RdmaMem) :=
  (LocalCall.exec kind smallBuffer (.localAlloc 8),
    LocalCall.book kind smallBuffer (fun _ => none) (.localAlloc 8))

theorem oneBlock_reachable (kind : RdmaKind) : (bookedLocals kind).Reachable (oneBlock kind) := by
  have hfresh : (bookedLocals kind).Reachable (smallBuffer, fun _ => none) :=
    .init ⟨⟨4096, 128, by omega, by omega, by omega, rfl⟩, rfl⟩
  have hpos : 0 < kind.reserve 8 := by cases kind <;> decide
  exact hfresh.step (l := .localAlloc 8) ⟨⟨hpos, rfl⟩, rfl⟩

theorem releases_agree_iff_oneBlock :
    Agree .reliable (oneBlock .reliable).1 4096 (RdmaMem.init 8 false 0) ∧
      ¬ Agree .unreliable (oneBlock .unreliable).1 4136 (RdmaMem.init 48 false 0) :=
  ⟨((releases_agree_iff (oneBlock_reachable .reliable)).1 4096 _ (by decide)).mpr rfl,
    fun h => absurd (((releases_agree_iff (oneBlock_reachable .unreliable)).1 4136 _
      (by decide)).mp h) (by simp)⟩

/-- The release by offset is accepted, and the block of 48 bytes stays in
use. -/
theorem converted_offset_leaks :
    (bookedLocals .unreliable).Reachable (oneBlock .unreliable) ∧
      (oneBlock .unreliable).2 4136 = some (RdmaMem.init 48 false 0) ∧
      (UnreliableRDMA.localFreeOffset (BaseRDMA.convertPointerToOffset (oneBlock .unreliable).1 4136)
        (oneBlock .unreliable).1).1 = .ok () ∧
      (UnreliableRDMA.localFreeOffset (BaseRDMA.convertPointerToOffset (oneBlock .unreliable).1 4136)
        (oneBlock .unreliable).1).2.usedRdmaMem.lookup 0 = some (RdmaMem.init 48 false 0) ∧
      (UnreliableRDMA.localFree 4136 (oneBlock .unreliable).1).2.usedRdmaMem.lookup 0 = none :=
  ⟨oneBlock_reachable .unreliable, by decide, by decide, by decide, by decide⟩

end RdmaKind

/-! ## Where a datagram is written to -/

/-- How the user of an unreliable object comes by a block. -/
inductive AllocPath
  | localAlloc
  | localMalloc
  deriving DecidableEq, Repr

namespace AllocPath

open BaseMemory

/-- Ask for a block. -/
def call : AllocPath → ℕ → Act BaseMemory ℕ
  | localAlloc => UnreliableRDMA.localAlloc
  | localMalloc => BaseRDMA.localMalloc

/-- What the call asks the buffer for. -/
def asks (path : AllocPath) (size : ℕ) : ℕ :=
  match path with
  | localAlloc => wrap64 (size + RDMA_UD_OFFSET)
  | localMalloc => size

/-- The pointer to the block of the segment at an offset. -/
def pointer (path : AllocPath) (m : BaseMemory) (offset : ℕ) : ℕ :=
  match path with
  | localAlloc => wrap64 (m.buffer + offset + RDMA_UD_OFFSET)
  | localMalloc => wrap64 (m.buffer + offset)

/-- **The bytes of a request for `n` bytes at `ptr`**, with those of the
header, lie in the segment. The first of them is the one the request
names. -/
def Inside (m : BaseMemory) (seg : RdmaMem) (ptr n : ℕ) : Prop :=
  m.buffer + seg.offset ≤ (UnreliableRDMA.recvWr 0 ptr n).addr ∧
    (UnreliableRDMA.recvWr 0 ptr n).addr + (n + RDMA_UD_OFFSET) ≤ m.buffer + seg.offset + seg.size

/-- They lie in the buffer and in no other live segment. -/
def Alone (m : BaseMemory) (seg : RdmaMem) (ptr n : ℕ) : Prop :=
  m.buffer ≤ (UnreliableRDMA.recvWr 0 ptr n).addr ∧
    (UnreliableRDMA.recvWr 0 ptr n).addr + (n + RDMA_UD_OFFSET) ≤ m.buffer + m.memSize ∧
    ∀ k other, m.usedRdmaMem.lookup k = some other → k ≠ seg.offset →
      m.buffer + k + other.size ≤ (UnreliableRDMA.recvWr 0 ptr n).addr ∨
        (UnreliableRDMA.recvWr 0 ptr n).addr + (n + RDMA_UD_OFFSET) ≤ m.buffer + k

variable {path : AllocPath} {m m' : BaseMemory} {seg : RdmaMem} {size ptr n : ℕ}

/-- The pointer a call returns, and where the request for it starts. -/
theorem call_cases (hreach : (locals .unreliable).Reachable m)
    (hseg : (internalAlloc (path.asks size) m).1 = .ok seg)
    (hcall : path.call size m = (.ok ptr, m')) :
    ∃ pre a post, m.rdmaMem = pre ++ a :: post ∧ path.asks size ≤ a.size ∧
      m' = m.take (path.asks size) pre a post ∧ seg = RdmaMem.init (path.asks size) false a.offset ∧
      ptr = path.pointer m a.offset := by
  have hcalls := RdmaKind.calls_reachable hreach
  have htight := tight_of_reachable hcalls
  have hbuffer := (memSize_pos_of_reachable hcalls).2
  rcases internalAlloc_cases htight.toSound (path.asks size) with
    ⟨pre, a, post, hsplit, hsize, -, halloc⟩ | ⟨-, hnull⟩
  · rw [halloc] at hseg
    refine ⟨pre, a, post, hsplit, hsize, ?_⟩
    cases path with
    | localAlloc =>
        have hlocal := RdmaKind.localAlloc_of_some .unreliable halloc rfl
        obtain ⟨hptr, hm'⟩ := Prod.mk.inj (hlocal.symm.trans hcall)
        exact ⟨hm'.symm, (Except.ok.inj hseg).symm, (Except.ok.inj hptr).symm⟩
    | localMalloc =>
        have ha : a.offset < 2 ^ 64 := by
          have hstop := htight.unwrapped.stop a (by simp [hsplit])
          omega
        have hlocal : BaseRDMA.localMalloc size m = (.ok ptr, m') := hcall
        have hgot : alloc size m = (.ok (wrap64 (m.buffer + a.offset)), m.take size pre a post) :=
          alloc_of_some rfl halloc
        rw [RdmaKind.localMalloc_eq, hgot] at hlocal
        obtain ⟨hptr, hm'⟩ := Prod.mk.inj hlocal
        have haddr := offsetOf_address m a.offset hbuffer ha
        refine ⟨hm'.symm, (Except.ok.inj hseg).symm, ?_⟩
        rw [← Except.ok.inj hptr]
        show wrap64 (m.buffer + m.offsetOf (wrap64 (m.buffer + a.offset))) = _
        rw [haddr]
        rfl
  · exfalso
    cases path with
    | localAlloc =>
        obtain ⟨e, herr⟩ := RdmaKind.localAlloc_of_null .unreliable hnull
        exact absurd (congrArg Prod.fst (herr.symm.trans hcall)) (by simp)
    | localMalloc =>
        have hlocal : BaseRDMA.localMalloc size m = (.ok ptr, m') := hcall
        have hnone : alloc size m =
            (.error (.runtimeError "Could not allocate local rdma memory"), m) := alloc_of_null hnull
        rw [RdmaKind.localMalloc_eq, hnone] at hlocal
        exact absurd (congrArg Prod.fst hlocal) (by simp)

/-- **A datagram stays inside its block**, and so away from every other one,
exactly if the block is from `localAlloc` and its size with the header is
less than `2 ^ 64`. -/
theorem datagram_inside_iff (hreach : (locals .unreliable).Reachable m)
    (hmem : m.buffer + m.memSize < 2 ^ 64) (hsize : size < 2 ^ 64) (hn : n ≤ size)
    (hseg : (internalAlloc (path.asks size) m).1 = .ok seg)
    (hcall : path.call size m = (.ok ptr, m')) :
    Inside m' seg ptr n ∧ Alone m' seg ptr n ↔
      path = .localAlloc ∧ size + RDMA_UD_OFFSET < 2 ^ 64 := by
  have htight := tight_of_reachable (RdmaKind.calls_reachable hreach)
  obtain ⟨pre, a, post, hsplit, hfits, rfl, rfl, hptr⟩ := call_cases hreach hseg hcall
  have ha : a ∈ m.rdmaMem := by simp [hsplit]
  have hstop := htight.stop_le (mem_segments_of_free ha) (htight.gapped.len_pos a ha)
  have hlt := htight.lt
  cases path with
  | localMalloc =>
      refine iff_of_false (fun h => ?_) (by simp)
      obtain ⟨hlo, hhi⟩ := h.1
      simp only [UnreliableRDMA.recvWr, RdmaMem.init, BaseMemory.take, hptr, asks, pointer,
        wrap64, RDMA_UD_OFFSET] at hlo hhi hfits
      omega
  | localAlloc =>
      have hstart : (UnreliableRDMA.recvWr 0 ptr n).addr = m.buffer + a.offset := by
        simp only [UnreliableRDMA.recvWr, hptr, pointer, wrap64, RDMA_UD_OFFSET]
        omega
      unfold Inside Alone
      rw [hstart]
      simp only [RdmaMem.init, BaseMemory.take, asks, wrap64, RDMA_UD_OFFSET, true_and] at hfits ⊢
      constructor
      · rintro ⟨⟨-, hinside⟩, -⟩
        omega
      · intro hroom
        have hpos : 0 < asks .localAlloc size := by
          simp only [asks, wrap64, RDMA_UD_OFFSET]
          omega
        have hafter := (htight.take hpos hsplit hfits).toSound
        refine ⟨⟨le_rfl, by omega⟩, by omega, by omega, fun k other hk hne => ?_⟩
        -- two live segments lie one after the other
        have hsep := hafter.used_used hne hk (Finmap.lookup_insert _)
        simp only [RdmaMem.init, asks, wrap64, RDMA_UD_OFFSET] at hsep
        omega

theorem datagram_inside_iff_oneBlock :
    (Inside (call .localAlloc 8 RdmaKind.smallBuffer).2 (RdmaMem.init 48 false 0) 4136 8 ∧
        Alone (call .localAlloc 8 RdmaKind.smallBuffer).2 (RdmaMem.init 48 false 0) 4136 8) ∧
      ¬ (Inside (call .localMalloc 8 RdmaKind.smallBuffer).2 (RdmaMem.init 8 false 0) 4096 0 ∧
        Alone (call .localMalloc 8 RdmaKind.smallBuffer).2 (RdmaMem.init 8 false 0) 4096 0) := by
  have hfresh : (locals .unreliable).Reachable RdmaKind.smallBuffer :=
    .init ⟨4096, 128, by omega, by omega, by omega, rfl⟩
  have hmem : RdmaKind.smallBuffer.buffer + RdmaKind.smallBuffer.memSize < 2 ^ 64 := by decide
  have halloc : call .localAlloc 8 RdmaKind.smallBuffer =
      (.ok 4136, (call .localAlloc 8 RdmaKind.smallBuffer).2) := Prod.ext (by decide) rfl
  have hmalloc : call .localMalloc 8 RdmaKind.smallBuffer =
      (.ok 4096, (call .localMalloc 8 RdmaKind.smallBuffer).2) := Prod.ext (by decide) rfl
  refine ⟨(datagram_inside_iff hfresh hmem (by omega) (by omega) (by decide) halloc).mpr
    (by decide), fun h => ?_⟩
  have hpath := (datagram_inside_iff hfresh hmem (by omega) (by omega) (by decide) hmalloc).mp h
  exact absurd hpath.1 (by simp)

/-- The header of a datagram for the second stub goes into the block of the
first. -/
theorem stub_header_outside :
    let m := (call .localMalloc 64 RdmaKind.smallBuffer).2
    (locals .unreliable).Reachable m ∧ (call .localMalloc 8 m).1 = .ok 4160 ∧
      (UnreliableRDMA.recvWr 1 4160 8).addr = 4120 ∧
      ¬ Inside (call .localMalloc 8 m).2 (RdmaMem.init 8 false 64) 4160 8 := by
  have hfresh : (locals .unreliable).Reachable RdmaKind.smallBuffer :=
    .init ⟨4096, 128, by omega, by omega, by omega, rfl⟩
  refine ⟨hfresh.step (l := .localMalloc 64) ⟨show 0 < 64 by omega, rfl⟩, by decide, by decide, ?_⟩
  exact fun h => absurd h.1 (by decide)

end AllocPath

end RdmaManager
