import Mathlib.Order.Bounds.Basic
import RdmaManager.Common.System
import RdmaManager.Memory.Calls
/-!
# `BaseMemory`: runs that free only what is live

The callers of the sub-allocator ask for nonempty blocks and free live
ones. Over every such run the free and the used segments tile the buffer
(`tiling`), and `internalAlloc` serves a request exactly when the live
blocks leave a hole for it, at the least offset there is
(`internalAlloc_least`).
-/

namespace RdmaManager

namespace BaseMemory

open Extent

variable {m : BaseMemory} {seg : RdmaMem} {k offset size : ℕ}

/-- The calls of the sub-allocator. -/
inductive Call
  | internalAlloc (size : ℕ)
  | alloc (size : ℕ)
  | free (offset : ℕ)
  | freePtr (ptr : ℕ)
  deriving DecidableEq, Repr

namespace Call

/-- The object after the call, whatever it returned or threw. -/
def exec (m : BaseMemory) : Call → BaseMemory
  | internalAlloc size => (BaseMemory.internalAlloc size m).2
  | alloc size => (BaseMemory.alloc size m).2
  | free offset => (BaseMemory.free offset m).2
  | freePtr ptr => (BaseMemory.freePtr ptr m).2

/-- What a careful caller asks for: a nonempty block, or the end of a
live one. -/
def Proper (m : BaseMemory) : Call → Prop
  | internalAlloc size => 0 < size
  | alloc size => 0 < size
  | free offset => offset ∈ m.usedRdmaMem
  | freePtr ptr => m.offsetOf ptr ∈ m.usedRdmaMem

instance (m : BaseMemory) : DecidablePred (Proper m)
  | internalAlloc size => inferInstanceAs (Decidable (0 < size))
  | alloc size => inferInstanceAs (Decidable (0 < size))
  | free offset => inferInstanceAs (Decidable (offset ∈ m.usedRdmaMem))
  | freePtr ptr => inferInstanceAs (Decidable (m.offsetOf ptr ∈ m.usedRdmaMem))

/-- The callers' own books: the size asked for each block they were
handed and have not freed, by its offset. -/
def book (m : BaseMemory) (asked : ℕ → Option ℕ) : Call → ℕ → Option ℕ
  | internalAlloc size =>
      match (BaseMemory.internalAlloc size m).1 with
      | .ok seg => if seg.isnull then asked else Function.update asked seg.offset (some size)
      | .error _ => asked
  | alloc size =>
      match (BaseMemory.alloc size m).1 with
      | .ok ptr => Function.update asked (m.offsetOf ptr) (some size)
      | .error _ => asked
  | free offset => Function.update asked offset none
  | freePtr ptr => Function.update asked (m.offsetOf ptr) none

end Call

/-- A newly constructed object over a nonempty buffer. -/
def Fresh (m : BaseMemory) : Prop :=
  ∃ buffer memSize, buffer < 2 ^ 64 ∧ 0 < memSize ∧ memSize < 2 ^ 64 ∧ m = new buffer memSize

/-- **The runs of careful callers.** -/
def calls : System BaseMemory Call where
  Init := Fresh
  Step m call m' := call.Proper m ∧ m' = call.exec m

/-- Those runs with the callers' books kept. -/
def bookedCalls : System (BaseMemory × (ℕ → Option ℕ)) Call :=
  calls.record (fun _ _ => none) fun m call _ asked => call.book m asked

theorem reachable_exec (h : calls.Reachable m) (call : Call) (hproper : call.Proper m) :
    calls.Reachable (call.exec m) :=
  h.step (l := call) ⟨hproper, rfl⟩

theorem reachable_book {asked : ℕ → Option ℕ} (h : bookedCalls.Reachable (m, asked)) (call : Call)
    (hproper : call.Proper m) : bookedCalls.Reachable (call.exec m, call.book m asked) :=
  h.step (l := call) ⟨⟨hproper, rfl⟩, rfl⟩

/-- The books agree with the map of used segments. -/
def Booked (m : BaseMemory) (asked : ℕ → Option ℕ) : Prop :=
  ∀ k, asked k = (m.usedRdmaMem.lookup k).map RdmaMem.size

/-! ## One call -/

/-- Where `internalAlloc` returns a segment, `alloc` returns its address. -/
theorem alloc_of_some {m' : BaseMemory} {seg : RdmaMem} (hnull : seg.isnull = false)
    (h : internalAlloc size m = (.ok seg, m')) :
    alloc size m = (.ok (wrap64 (m'.buffer + seg.offset)), m') := by
  rw [alloc, Act.bind_of_ok h, hnull]
  rfl

theorem alloc_of_null (h : internalAlloc size m = (.ok RdmaMem.null, m)) :
    alloc size m = (.error (.runtimeError "Could not allocate local rdma memory"), m) := by
  rw [alloc, Act.bind_of_ok h]
  rfl

/-- The address of an offset stands for that offset. -/
theorem offsetOf_address (m : BaseMemory) (offset : ℕ) (hbuffer : m.buffer < 2 ^ 64)
    (hoffset : offset < 2 ^ 64) :
    m.offsetOf (wrap64 (m.buffer + offset)) = offset := by
  simp only [offsetOf, wrap64]
  omega

theorem Booked.insert {asked : ℕ → Option ℕ} (h : Booked m asked) {m' : BaseMemory}
    (hm' : m'.usedRdmaMem = m.usedRdmaMem.insert k (RdmaMem.init size false k)) :
    Booked m' (Function.update asked k (some size)) := by
  intro j
  rw [hm']
  rcases eq_or_ne j k with rfl | hne
  · rw [Function.update_self, Finmap.lookup_insert]
    rfl
  · rw [Function.update_of_ne hne, Finmap.lookup_insert_of_ne _ hne, h j]

theorem Booked.erase {asked : ℕ → Option ℕ} (h : Booked m asked) {m' : BaseMemory}
    (hm' : m'.usedRdmaMem = m.usedRdmaMem.erase k) :
    Booked m' (Function.update asked k none) := by
  intro j
  rw [hm']
  rcases eq_or_ne j k with rfl | hne
  · rw [Function.update_self, Finmap.lookup_erase]
    rfl
  · rw [Function.update_of_ne hne, Finmap.lookup_erase_ne hne, h j]

/-- What a run of careful callers keeps of the object and of the books. -/
structure Kept (m : BaseMemory) (asked : ℕ → Option ℕ) : Prop where
  tight : m.Tight
  booked : Booked m asked
  buffer : m.buffer < 2 ^ 64

/-- Both allocating calls. -/
theorem Kept.allocating {asked : ℕ → Option ℕ} (h : Kept m asked) (hpos : 0 < size) :
    Kept (internalAlloc size m).2 (Call.book m asked (.internalAlloc size)) ∧
      Kept (alloc size m).2 (Call.book m asked (.alloc size)) := by
  rcases internalAlloc_cases h.tight.toSound size with
    ⟨pre, a, post, hsplit, hsize, -, hcall⟩ | ⟨-, hcall⟩
  · have hstop := h.tight.unwrapped.stop a (by simp [hsplit])
    have halloc := alloc_of_some rfl hcall
    have hkept : Kept (m.take size pre a post) (Function.update asked a.offset (some size)) :=
      ⟨h.tight.take hpos hsplit hsize, h.booked.insert rfl, h.buffer⟩
    refine ⟨?_, ?_⟩
    · simp only [Call.book, hcall]
      exact hkept
    · have haddr := offsetOf_address m a.offset h.buffer (by omega)
      simp only [Call.book, halloc]
      change Kept _ (Function.update asked (m.offsetOf (wrap64 (m.buffer + a.offset))) _)
      rw [haddr]
      exact hkept
  · simp only [Call.book, hcall, alloc_of_null hcall]
    exact ⟨h, h⟩

/-- The freeing calls. -/
theorem Kept.freeing {asked : ℕ → Option ℕ} (h : Kept m asked) (hmem : offset ∈ m.usedRdmaMem) :
    Kept (free offset m).2 (Function.update asked offset none) := by
  obtain ⟨seg, hk⟩ := Finmap.mem_iff.mp hmem
  obtain ⟨pre, post, hsplit, hfree, hpre, hpost⟩ := free_live h.tight.toSound hk
  rw [hfree]
  exact ⟨h.tight.putBack hk hsplit hpre hpost, h.booked.erase rfl, h.buffer⟩

/-- **Every run of careful callers keeps the free list gapped and the
books right.** -/
theorem kept_invariant : bookedCalls.Invariant fun p => Kept p.1 p.2 where
  init p h := by
    obtain ⟨⟨buffer, memSize, hbuffer, hpos, hlt, hm⟩, hasked⟩ := h
    rw [hm, hasked]
    exact ⟨tight_new buffer memSize hpos hlt, fun k => by simp [new], hbuffer⟩
  step p call q _ hkept hstep := by
    obtain ⟨⟨hproper, hm⟩, hasked⟩ := hstep
    rw [hm, hasked]
    cases call with
    | internalAlloc size => exact (hkept.allocating hproper).1
    | alloc size => exact (hkept.allocating hproper).2
    | free offset => exact hkept.freeing hproper
    | freePtr ptr => exact hkept.freeing hproper

theorem tight_of_reachable (h : calls.Reachable m) : m.Tight := by
  obtain ⟨asked, hbooked⟩ := h.record (fun _ _ => none) fun m call _ asked => call.book m asked
  exact (kept_invariant.reachable hbooked).tight

/-- **The free and the used segments tile the buffer.** -/
theorem tiling {p : BaseMemory × (ℕ → Option ℕ)} (h : bookedCalls.Reachable p) :
    p.1.rdmaMem.Pairwise (fun a b => a.offset < b.offset) ∧
      (∀ a ∈ p.1.rdmaMem, 0 < a.size) ∧
      p.1.rdmaMem.IsChain (fun a b => a.offset + a.size < b.offset) ∧
      (∀ k seg, p.1.usedRdmaMem.lookup k = some seg → seg.offset = k ∧ p.2 k = some seg.size) ∧
      (∀ q, cover p.1.segments q = if q < p.1.memSize then 1 else 0) ∧
      ∀ k ∈ p.1.usedRdmaMem, (free k p.1).1 = .ok () := by
  have hkept := kept_invariant.reachable h
  have hgap := hkept.tight.gapped.gap
  simp only [RdmaMem.stop_eq, RdmaMem.start_eq] at hgap
  refine ⟨hgap.imp fun hab => by omega, hkept.tight.gapped.len_pos, hgap.isChain,
    fun k seg hk => ⟨(hkept.tight.used k seg hk).1, ?_⟩, hkept.tight.cover, fun k hmem => ?_⟩
  · rw [hkept.booked k, hk]
    rfl
  · obtain ⟨seg, hk⟩ := Finmap.mem_iff.mp hmem
    obtain ⟨pre, post, -, hfree, -⟩ := free_live hkept.tight.toSound hk
    rw [hfree]

/-- Two blocks handed out and the first of them freed: the second can
still be freed. -/
theorem tiling_after_three_calls :
    (free 8 (Call.exec (Call.exec (Call.exec (new 4096 64) (.alloc 8)) (.alloc 8)) (.free 0))).1 =
      .ok () := by
  have hfresh : bookedCalls.Reachable (new 4096 64, fun _ => none) :=
    .init ⟨⟨4096, 64, by omega, by omega, by omega, rfl⟩, rfl⟩
  have hfirst := reachable_book hfresh (.alloc 8) (by decide)
  have hsecond := reachable_book hfirst (.alloc 8) (by decide)
  have hthird := reachable_book hsecond (.free 0) (by decide)
  exact (tiling hthird).2.2.2.2.2 8 (by decide)

/-! ## First fit is lowest fit -/

/-- The block of `size` bytes at the offset lies in the buffer and off
every used segment. -/
def Hole (m : BaseMemory) (size offset : ℕ) : Prop :=
  offset + size ≤ m.memSize ∧ ∀ k seg, m.usedRdmaMem.lookup k = some seg →
    offset + size ≤ seg.offset ∨ seg.offset + seg.size ≤ offset

/-- The front of a free segment is a hole. -/
theorem Sound.hole_of_free (h : m.Sound) {a : RdmaMem} (ha : a ∈ m.rdmaMem) (hpos : 0 < size)
    (hsize : size ≤ a.size) : m.Hole size a.offset := by
  have hstop := h.stop_le (mem_segments_of_free ha) (by omega)
  refine ⟨by omega, fun k seg hk => ?_⟩
  obtain ⟨rfl, -⟩ := h.used k seg hk
  rcases h.free_used ha (by omega) hk with hsep | hsep <;> omega

/-- **A hole lies in one free segment**, since the free list is gapped. -/
theorem Tight.exists_of_hole (h : m.Tight) (hpos : 0 < size) (hhole : m.Hole size offset) :
    ∃ a ∈ m.rdmaMem, a.offset ≤ offset ∧ offset + size ≤ a.offset + a.size := by
  refine h.gapped.exists_of_cover hpos fun q hlo hhi => ?_
  have hcover := h.cover q
  rw [if_pos (by have := hhole.1; omega), segments, cover_add] at hcover
  have hunused : cover m.usedSegments q = 0 := by
    by_contra hc
    obtain ⟨seg, hmem, hin⟩ := cover_pos.mp (Nat.pos_of_ne_zero hc)
    obtain ⟨k, hk⟩ := exists_lookup_of_mem_usedSegments hmem
    simp only [Holds, RdmaMem.start_eq, RdmaMem.stop_eq] at hin
    rcases hhole.2 k seg hk with hsep | hsep <;> omega
  omega

/-- **Allocation is complete and lowest-address.** -/
theorem internalAlloc_least (h : calls.Reachable m) (hpos : 0 < size) :
    ∃ seg m', internalAlloc size m = (.ok seg, m') ∧
      (seg.isnull = false ↔ ∃ o, m.Hole size o) ∧
      (seg.isnull = false → IsLeast {o | m.Hole size o} seg.offset ∧ seg.size = size ∧
        seg.offset ∉ m.usedRdmaMem ∧
        m'.usedRdmaMem = m.usedRdmaMem.insert seg.offset seg) ∧
      (seg.isnull = true → m'.rdmaMem = m.rdmaMem ∧ m'.usedRdmaMem = m.usedRdmaMem) := by
  have htight := tight_of_reachable h
  rcases internalAlloc_cases htight.toSound size with
    ⟨pre, a, post, hsplit, hsize, hfirst, hcall⟩ | ⟨hsmall, hcall⟩
  · have ha : a ∈ m.rdmaMem := by simp [hsplit]
    have hhole := htight.hole_of_free ha hpos hsize
    refine ⟨_, _, hcall, ⟨fun _ => ⟨a.offset, hhole⟩, fun _ => rfl⟩, fun _ => ?_, by
      simp [RdmaMem.init]⟩
    have hnot : a.offset ∉ m.usedRdmaMem := htight.offset_notMem ha (by omega)
    refine ⟨⟨hhole, fun o ho => ?_⟩, rfl, hnot, rfl⟩
    -- a lower hole would lie in a free segment before the one taken
    obtain ⟨b, hb, hlo, hhi⟩ := htight.exists_of_hole hpos ho
    rw [hsplit] at hb
    have hgap := htight.gapped.gap
    rw [hsplit, List.pairwise_append, List.pairwise_cons] at hgap
    change a.offset ≤ o
    rcases List.mem_append.mp hb with hb | hb
    · have := hfirst b hb
      omega
    · rcases List.mem_cons.mp hb with rfl | hb
      · exact hlo
      · have := hgap.2.1.1 b hb
        simp only [RdmaMem.stop_eq, RdmaMem.start_eq] at this
        omega
  · refine ⟨_, _, hcall, ⟨by simp [RdmaMem.null], ?_⟩, by simp [RdmaMem.null], fun _ => ⟨rfl, rfl⟩⟩
    rintro ⟨o, ho⟩
    obtain ⟨b, hb, hlo, hhi⟩ := htight.exists_of_hole hpos ho
    have := hsmall b hb
    omega

/-- In the second block's place there is no hole of nine bytes below it. -/
theorem internalAlloc_least_after_alloc :
    ∃ seg m', internalAlloc 9 (Call.exec (new 4096 64) (.alloc 8)) = (.ok seg, m') ∧
      (seg.isnull = false ↔ ∃ o, (Call.exec (new 4096 64) (.alloc 8)).Hole 9 o) ∧
      (seg.isnull = false →
        IsLeast {o | (Call.exec (new 4096 64) (.alloc 8)).Hole 9 o} seg.offset ∧ seg.size = 9 ∧
          seg.offset ∉ (Call.exec (new 4096 64) (.alloc 8)).usedRdmaMem ∧
          m'.usedRdmaMem =
            (Call.exec (new 4096 64) (.alloc 8)).usedRdmaMem.insert seg.offset seg) ∧
      (seg.isnull = true → m'.rdmaMem = (Call.exec (new 4096 64) (.alloc 8)).rdmaMem ∧
        m'.usedRdmaMem = (Call.exec (new 4096 64) (.alloc 8)).usedRdmaMem) := by
  have hfresh : calls.Reachable (new 4096 64) :=
    .init ⟨4096, 64, by omega, by omega, by omega, rfl⟩
  have hfirst := reachable_exec hfresh (.alloc 8) (by decide)
  exact internalAlloc_least hfirst (by decide)

end BaseMemory

end RdmaManager
