import RdmaManager.Common.Cpp
import RdmaManager.Common.Extent
/-!
# `BaseMemory`: the sub-allocator of the registered buffer

The free segments are a list (`m_rdmaMem`), the used ones a map from
their offset (`m_usedRdmaMem`). Every member function runs under
`m_lockMem`, which is recursive, so a run of calls from any number of
threads is a sequence of them. A list iterator is a split of the list at
the element it points to.
-/

namespace RdmaManager

/-- `rdma_mem_t`: a segment of the buffer. -/
structure RdmaMem where
  size : ℕ
  free : Bool
  offset : ℕ
  isnull : Bool
  deriving DecidableEq, Repr

namespace RdmaMem

/-- `rdma_mem_t(initSize, initFree, initOffset)`. -/
def init (initSize : ℕ) (initFree : Bool) (initOffset : ℕ) : RdmaMem :=
  ⟨initSize, initFree, initOffset, false⟩

/-- `rdma_mem_t()`. -/
def null : RdmaMem := ⟨0, false, 0, true⟩

instance : Extent RdmaMem where
  start := RdmaMem.offset
  len := RdmaMem.size

@[simp] theorem start_eq (a : RdmaMem) : Extent.start a = a.offset := rfl

@[simp] theorem len_eq (a : RdmaMem) : Extent.len a = a.size := rfl

@[simp] theorem stop_eq (a : RdmaMem) : Extent.stop a = a.offset + a.size := rfl

end RdmaMem

/-- The fields of `BaseMemory` the allocator reads and writes: the buffer
it parcels out, its free segments and its used ones by offset. -/
structure BaseMemory where
  buffer : ℕ
  memSize : ℕ
  rdmaMem : List RdmaMem
  usedRdmaMem : Finmap fun _ : ℕ => RdmaMem

namespace BaseMemory

/-- The constructor: one free segment, the whole buffer. -/
def new (buffer memSize : ℕ) : BaseMemory where
  buffer := buffer
  memSize := memSize
  rdmaMem := [RdmaMem.init memSize true 0]
  usedRdmaMem := ∅

/-- The first half of `mergeFreeMem`: extend the element before the
handed-in one where the two touch. Returned are the elements before the
iterator, the element it then points to, and `freeSpace`. The elements
before the iterator are listed nearest first. -/
def mergePrev (before : List RdmaMem) (el : RdmaMem) : List RdmaMem × RdmaMem × ℕ :=
  match before with
  | [] => ([], el, el.size)
  | prev :: rest =>
      if wrap64 (prev.offset + prev.size) = el.offset then
        (rest, { prev with size := wrap64 (el.size + prev.size) }, wrap64 (el.size + prev.size))
      else (prev :: rest, el, el.size)

/-- The second half: absorb the element after the iterator where it
touches the handed-in one, whose `offset` and `size` are the ones read
on entry. -/
def mergeNext (offset size : ℕ) (cur : RdmaMem) (freeSpace : ℕ) (after : List RdmaMem) :
    List RdmaMem :=
  match after with
  | [] => [cur]
  | next :: rest =>
      if wrap64 (offset + size) = next.offset then
        { cur with size := wrap64 (freeSpace + next.size) } :: rest
      else cur :: next :: rest

/-- `BaseMemory::mergeFreeMem`, of the list that has `el` between
`before` (nearest first) and `after`. -/
def mergeFreeMem (before : List RdmaMem) (el : RdmaMem) (after : List RdmaMem) : List RdmaMem :=
  let (before', cur, freeSpace) := mergePrev before el
  before'.reverse ++ mergeNext el.offset el.size cur freeSpace after

/-- The loop of `internalAlloc`: the first free segment of at least
`size`, and the list with its head `size` bytes taken off. -/
def allocScan (size : ℕ) : List RdmaMem → Option (RdmaMem × List RdmaMem)
  | [] => none
  | memRes :: rest =>
      if memRes.free ∧ size ≤ memRes.size then
        if size < memRes.size then
          some (memRes,
            RdmaMem.init (memRes.size - size) true (wrap64 (memRes.offset + size)) :: rest)
        else some (memRes, rest)
      else (allocScan size rest).map fun found => (found.1, memRes :: found.2)

/-- `BaseMemory::internalAlloc`. -/
def internalAlloc (size : ℕ) : Act BaseMemory RdmaMem := fun m =>
  match allocScan size m.rdmaMem with
  | some (memRes, rdmaMem) =>
      let memResUsed := RdmaMem.init size false memRes.offset
      (.ok memResUsed,
        { m with rdmaMem, usedRdmaMem := m.usedRdmaMem.insert memRes.offset memResUsed })
  | none => (.ok RdmaMem.null, m)

/-- `BaseMemory::alloc`: the segment as a pointer. -/
def alloc (size : ℕ) : Act BaseMemory ℕ := do
  let memRes ← internalAlloc size
  if memRes.isnull then
    throw (.runtimeError "Could not allocate local rdma memory")
  else
    let m ← Act.get
    return wrap64 (m.buffer + memRes.offset)

/-- The loop of `free`, at an iterator with `before` behind it (nearest
first): the list with `memResFree` put in at the first place whose
running sum of sizes is at most `offset` and whose element lies past it,
or at the end. `none` is the fall through to the final `throw`. -/
def freeScan (offset : ℕ) (memResFree : RdmaMem) :
    List RdmaMem → ℕ → List RdmaMem → Option (List RdmaMem)
  | before, lastOffset, [] =>
      if lastOffset ≤ offset then some (mergeFreeMem before memResFree []) else none
  | before, lastOffset, memRes :: rest =>
      if lastOffset ≤ offset ∧ offset < memRes.offset then
        some (mergeFreeMem before memResFree (memRes :: rest))
      else freeScan offset memResFree (memRes :: before) (wrap64 (lastOffset + memRes.size)) rest

/-- `BaseMemory::free(const size_t &offset)`. An offset with no entry
reads as a default-constructed segment. -/
def free (offset : ℕ) : Act BaseMemory Unit := fun m =>
  let (found, used) := subscript RdmaMem.null offset m.usedRdmaMem
  let memResFree := { found with free := true }
  let usedRdmaMem := used.erase offset
  match m.rdmaMem with
  | [] => (.ok (), { m with rdmaMem := [memResFree], usedRdmaMem })
  | _ :: _ =>
      match freeScan offset memResFree [] 0 m.rdmaMem with
      | some rdmaMem => (.ok (), { m with rdmaMem, usedRdmaMem })
      | none =>
          (.error (.runtimeError "Did not free any internal memory!"), { m with usedRdmaMem })

/-- The offset a pointer into the buffer stands for. -/
def offsetOf (m : BaseMemory) (ptr : ℕ) : ℕ := wrap64 (ptr + 2 ^ 64 - m.buffer)

/-- `BaseMemory::free(const void *ptr)`. -/
def freePtr (ptr : ℕ) : Act BaseMemory Unit := fun m => free (m.offsetOf ptr) m

/-! ## The segments of a state -/

/-- The used segments. -/
def usedSegments (m : BaseMemory) : Multiset RdmaMem := m.usedRdmaMem.entries.map Sigma.snd

/-- The free segments and the used ones. -/
def segments (m : BaseMemory) : Multiset RdmaMem := (m.rdmaMem : Multiset RdmaMem) + m.usedSegments

theorem mem_usedSegments {m : BaseMemory} {k : ℕ} {seg : RdmaMem}
    (h : m.usedRdmaMem.lookup k = some seg) : seg ∈ m.usedSegments :=
  Multiset.mem_map.mpr ⟨⟨k, seg⟩, Finmap.lookup_eq_some_iff.mp h, rfl⟩

theorem exists_lookup_of_mem_usedSegments {m : BaseMemory} {seg : RdmaMem}
    (h : seg ∈ m.usedSegments) : ∃ k, m.usedRdmaMem.lookup k = some seg := by
  obtain ⟨⟨k, seg'⟩, hmem, rfl⟩ := Multiset.mem_map.mp h
  exact ⟨k, Finmap.lookup_eq_some_iff.mpr hmem⟩

end BaseMemory

end RdmaManager
