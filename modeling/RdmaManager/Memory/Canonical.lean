import RdmaManager.Memory.Tiling
/-!
# `BaseMemory`: the free list and the live blocks

As long as callers ask for nonempty blocks and free live ones, the free
list is gapped, and so it is determined by the bytes that are not live.
Whatever calls have led there, the same live blocks leave the same free
segments (`layout_determined`).
-/

namespace RdmaManager

namespace BaseMemory

open Extent

variable {m m' : BaseMemory} {seg : RdmaMem} {j k size : ℕ} {ks : List ℕ}

/-- The free segments, as offsets and sizes. -/
def layout (m : BaseMemory) : List (ℕ × ℕ) := m.rdmaMem.map fun a => (a.offset, a.size)

/-- **The live blocks**: the size of each, by its offset. -/
def live (m : BaseMemory) (k : ℕ) : Option ℕ := (m.usedRdmaMem.lookup k).map RdmaMem.size

/-- The object after `free` of offsets, one after the other. -/
def freeAll (m : BaseMemory) (ks : List ℕ) : BaseMemory :=
  ks.foldl (fun m k => (free k m).2) m

theorem live_ne_none : m.live k ≠ none ↔ k ∈ m.usedRdmaMem := by
  unfold live
  rw [ne_eq, Option.map_eq_none_iff, Finmap.lookup_eq_none, not_not]

theorem live_eq_none : m.live k = none ↔ k ∉ m.usedRdmaMem := by
  rw [← live_ne_none, not_not]

/-! ## The free list -/

/-- **A byte is free** exactly when no live block holds it. -/
theorem Sound.cover_free (h : m.Sound) (p : ℕ) : Extent.cover (m.rdmaMem : Multiset RdmaMem) p ≤ 1 ∧
    (0 < Extent.cover (m.rdmaMem : Multiset RdmaMem) p ↔
      p < m.memSize ∧ ∀ k n, m.live k = some n → ¬ (k ≤ p ∧ p < k + n)) := by
  have hcover := h.cover p
  rw [segments, cover_add] at hcover
  have hused : 0 < Extent.cover m.usedSegments p ↔
      ∃ k n, m.live k = some n ∧ k ≤ p ∧ p < k + n := by
    rw [cover_pos]
    constructor
    · rintro ⟨seg, hmem, hin⟩
      obtain ⟨k, hk⟩ := exists_lookup_of_mem_usedSegments hmem
      obtain ⟨hoff, -⟩ := h.used k seg hk
      refine ⟨k, seg.size, ?_, ?_⟩
      · unfold live
        rw [hk]
        rfl
      · rw [← hoff]
        exact hin
    · rintro ⟨k, n, hk, hin⟩
      obtain ⟨seg, hseg, rfl⟩ := Option.map_eq_some_iff.mp hk
      obtain ⟨hoff, -⟩ := h.used k seg hseg
      rw [← hoff] at hin
      exact ⟨seg, mem_usedSegments hseg, hin⟩
  refine ⟨by split_ifs at hcover <;> omega, fun hpos => ?_, ?_⟩
  · refine ⟨by split_ifs at hcover <;> omega, fun k n hk hin => ?_⟩
    have hbusy := hused.mpr ⟨k, n, hk, hin⟩
    split_ifs at hcover <;> omega
  · rintro ⟨hlt, hnone⟩
    have hzero : Extent.cover m.usedSegments p = 0 := by
      by_contra hc
      obtain ⟨k, n, hk, hin⟩ := hused.mp (Nat.pos_of_ne_zero hc)
      exact hnone k n hk hin
    rw [if_pos hlt] at hcover
    omega

/-- **The same live blocks leave the same free segments.** -/
theorem Tight.layout_eq (h : m.Tight) (h' : m'.Tight) (hsize : m.memSize = m'.memSize)
    (hlive : m.live = m'.live) : m.layout = m'.layout := by
  refine h.gapped.eq_of_cover h'.gapped fun p => ?_
  obtain ⟨hle, hpos⟩ := h.cover_free p
  obtain ⟨hle', hpos'⟩ := h'.cover_free p
  rw [hsize, hlive, ← hpos'] at hpos
  omega

/-! ## The calls -/

theorem Call.exec_memSize (m : BaseMemory) (call : Call) : (call.exec m).memSize = m.memSize := by
  have halloc : ∀ size, (BaseMemory.internalAlloc size m).2.memSize = m.memSize := by
    intro size
    unfold BaseMemory.internalAlloc
    split <;> rfl
  have hfree : ∀ offset, (BaseMemory.free offset m).2.memSize = m.memSize := by
    intro offset
    unfold BaseMemory.free
    dsimp only
    split
    · rfl
    · split <;> rfl
  cases call with
  | internalAlloc size => exact halloc size
  | alloc size =>
      refine Eq.trans ?_ (halloc size)
      show (BaseMemory.alloc size m).2.memSize = _
      unfold BaseMemory.alloc
      rcases hcall : BaseMemory.internalAlloc size m with ⟨e | seg, m'⟩
      · rw [Act.bind_of_error hcall]
      · rw [Act.bind_of_ok hcall]
        cases seg.isnull <;> rfl
  | free offset => exact hfree offset
  | freePtr ptr => exact hfree _

/-- What no call of a run changes. -/
theorem memSize_pos_of_reachable (h : calls.Reachable m) : 0 < m.memSize ∧ m.buffer < 2 ^ 64 := by
  obtain ⟨asked, hbooked⟩ := h.record (fun _ _ => none) fun m call _ asked => call.book m asked
  refine ⟨?_, (kept_invariant.reachable hbooked).buffer⟩
  have hpos : calls.Invariant fun m => 0 < m.memSize := by
    refine ⟨?_, ?_⟩
    · rintro _ ⟨buffer, memSize, -, hpos, -, rfl⟩
      exact hpos
    · rintro m call _ - hpos ⟨-, rfl⟩
      rw [Call.exec_memSize]
      exact hpos
  exact hpos.reachable h

/-- A live block is freed. -/
theorem live_free (h : calls.Reachable m) (hk : k ∈ m.usedRdmaMem) :
    calls.Reachable (free k m).2 ∧ (free k m).2.live = Function.update m.live k none := by
  refine ⟨reachable_exec h (.free k) hk, ?_⟩
  obtain ⟨seg, hseg⟩ := Finmap.mem_iff.mp hk
  obtain ⟨pre, post, -, hfree, -⟩ := free_live (tight_of_reachable h).toSound hseg
  rw [hfree]
  funext i
  show ((m.usedRdmaMem.erase k).lookup i).map RdmaMem.size = _
  rcases eq_or_ne i k with rfl | hne
  · rw [Finmap.lookup_erase, Function.update_self]
    rfl
  · rw [Finmap.lookup_erase_ne hne, Function.update_of_ne hne]
    rfl

/-- A block is allocated. -/
theorem live_internalAlloc (h : calls.Reachable m) (hpos : 0 < size)
    (hcall : internalAlloc size m = (.ok seg, m')) (hnull : seg.isnull = false) :
    calls.Reachable m' ∧ m.live seg.offset = none ∧
      m'.live = Function.update m.live seg.offset (some size) := by
  have hreach := reachable_exec h (.internalAlloc size) hpos
  unfold Call.exec at hreach
  dsimp only at hreach
  obtain ⟨seg', m₁, hcall', -, hsome, -⟩ := internalAlloc_least h hpos
  rw [hcall] at hreach hcall'
  obtain ⟨rfl, rfl⟩ : seg = seg' ∧ m' = m₁ := by simpa using hcall'
  obtain ⟨-, hsize, hnot, hused⟩ := hsome hnull
  refine ⟨hreach, live_eq_none.mpr hnot, ?_⟩
  funext i
  unfold live
  rw [hused]
  rcases eq_or_ne i seg.offset with rfl | hne
  · rw [Finmap.lookup_insert, Function.update_self, Option.map_some, hsize]
  · rw [Finmap.lookup_insert_of_ne _ hne, Function.update_of_ne hne]

/-- Live blocks are freed, one after the other. -/
theorem live_freeAll (h : calls.Reachable m) (hnodup : ks.Nodup) (hks : ∀ k ∈ ks, k ∈ m.usedRdmaMem) :
    calls.Reachable (m.freeAll ks) ∧ (m.freeAll ks).memSize = m.memSize ∧
      ∀ k, (m.freeAll ks).live k = if k ∈ ks then none else m.live k := by
  induction ks generalizing m with
  | nil => exact ⟨h, rfl, fun k => by rw [if_neg List.not_mem_nil]; rfl⟩
  | cons k ks ih =>
      obtain ⟨hout, hnodup⟩ := List.nodup_cons.mp hnodup
      obtain ⟨hreach, hlive⟩ := live_free h (hks k List.mem_cons_self)
      have hks' : ∀ i ∈ ks, i ∈ (free k m).2.usedRdmaMem := by
        intro i hi
        rw [← live_ne_none, hlive, Function.update_of_ne]
        · exact live_ne_none.mpr (hks i (List.mem_cons_of_mem k hi))
        · rintro rfl
          exact hout hi
      obtain ⟨hdone, hsize, hlive'⟩ := ih hreach hnodup hks'
      refine ⟨hdone, hsize.trans (Call.exec_memSize m (.free k)), fun i => ?_⟩
      show ((free k m).2.freeAll ks).live i = _
      rw [hlive', hlive]
      rcases eq_or_ne i k with rfl | hne
      · rw [if_pos List.mem_cons_self, Function.update_self, ite_self]
      · rw [Function.update_of_ne hne]
        exact if_congr ⟨List.mem_cons_of_mem k, fun hi => (List.mem_cons.mp hi).resolve_left hne⟩
          rfl rfl

theorem layout_eq_of_live (h : calls.Reachable m) (h' : calls.Reachable m')
    (hsize : m.memSize = m'.memSize) (hlive : m.live = m'.live) : m.layout = m'.layout :=
  (tight_of_reachable h).layout_eq (tight_of_reachable h') hsize hlive

/-- Two live blocks are freed in either order: the same blocks are live then. -/
theorem layout_freeAll_comm (h : calls.Reachable m) (hj : j ∈ m.usedRdmaMem)
    (hk : k ∈ m.usedRdmaMem) : (m.freeAll [j, k]).layout = (m.freeAll [k, j]).layout := by
  rcases eq_or_ne j k with rfl | hne
  · rfl
  · have hpair : ∀ {i l : ℕ}, i ≠ l → i ∈ m.usedRdmaMem → l ∈ m.usedRdmaMem →
        calls.Reachable (m.freeAll [i, l]) ∧ (m.freeAll [i, l]).memSize = m.memSize ∧
          ∀ q, (m.freeAll [i, l]).live q = if q ∈ [i, l] then none else m.live q := by
      intro i l hil hi hl
      refine live_freeAll h (List.nodup_cons.mpr ⟨by simpa using hil, List.nodup_singleton l⟩) ?_
      intro q hq
      rcases List.mem_cons.mp hq with rfl | hq
      · exact hi
      · rwa [List.mem_singleton.mp hq]
    obtain ⟨hreach, hsize, hlive⟩ := hpair hne hj hk
    obtain ⟨hreach', hsize', hlive'⟩ := hpair hne.symm hk hj
    refine layout_eq_of_live hreach hreach' (hsize.trans hsize'.symm) (funext fun q => ?_)
    rw [hlive, hlive']
    refine if_congr ?_ rfl rfl
    rw [List.mem_pair, List.mem_pair, or_comm]

/-- A block that was allocated and is freed is live no more. -/
theorem layout_free_allocated (h : calls.Reachable m) (hpos : 0 < size)
    (hcall : internalAlloc size m = (.ok seg, m')) (hnull : seg.isnull = false) :
    (m'.freeAll [seg.offset]).layout = m.layout := by
  obtain ⟨hreach, hnone, hlive⟩ := live_internalAlloc h hpos hcall hnull
  have hmem : seg.offset ∈ m'.usedRdmaMem := by
    rw [← live_ne_none, hlive, Function.update_self]
    exact Option.some_ne_none _
  obtain ⟨hfreed, hlive'⟩ := live_free hreach hmem
  refine layout_eq_of_live hfreed h ?_ ?_
  · have hsize := Call.exec_memSize m (.internalAlloc size)
    unfold Call.exec at hsize
    dsimp only at hsize
    rw [hcall] at hsize
    exact (Call.exec_memSize m' (.free seg.offset)).trans hsize
  · show (free seg.offset m').2.live = _
    rw [hlive', hlive, Function.update_idem, ← hnone, Function.update_eq_self]

/-- Once no block is live, the buffer is as it was when it was new. -/
theorem layout_freeAll_live (h : calls.Reachable m) (hnodup : ks.Nodup)
    (hks : ∀ k, k ∈ ks ↔ k ∈ m.usedRdmaMem) : (m.freeAll ks).layout = [(0, m.memSize)] := by
  obtain ⟨hreach, hsize, hlive⟩ := live_freeAll h hnodup fun k hk => (hks k).mp hk
  obtain ⟨hpos, hbuffer⟩ := memSize_pos_of_reachable h
  have hfresh : calls.Reachable (new m.buffer m.memSize) :=
    .init ⟨m.buffer, m.memSize, hbuffer, hpos, (tight_of_reachable h).lt, rfl⟩
  refine layout_eq_of_live hreach hfresh hsize (funext fun k => ?_)
  rw [hlive]
  split_ifs with hk
  · rfl
  · exact live_eq_none.mpr fun hbad => hk ((hks k).mpr hbad)

/-- **The free list is determined by the live blocks**: two live blocks
may be freed in either order, a block that is freed again leaves no
trace, and what is left once no block is live is the buffer. -/
theorem layout_determined :
    (∀ m m', calls.Reachable m → calls.Reachable m' → m.memSize = m'.memSize → m.live = m'.live →
      m.layout = m'.layout) ∧
    ∀ m, calls.Reachable m →
      (∀ j ∈ m.usedRdmaMem, ∀ k ∈ m.usedRdmaMem, (m.freeAll [j, k]).layout = (m.freeAll [k, j]).layout) ∧
      (∀ size seg m', 0 < size → internalAlloc size m = (.ok seg, m') → seg.isnull = false →
        (m'.freeAll [seg.offset]).layout = m.layout) ∧
      ∀ ks : List ℕ, ks.Nodup → (∀ k, k ∈ ks ↔ k ∈ m.usedRdmaMem) →
        (m.freeAll ks).layout = [(0, m.memSize)] := by
  refine ⟨fun m m' => layout_eq_of_live, fun m h => ⟨fun j hj k hk => ?_, ?_, ?_⟩⟩
  · exact layout_freeAll_comm h hj hk
  · exact fun size seg m' => layout_free_allocated h
  · exact fun ks => layout_freeAll_live h

/-- Three blocks of eight bytes. -/
def threeBlocks : BaseMemory :=
  [Call.alloc 8, Call.alloc 8, Call.alloc 8].foldl Call.exec (new 4096 64)

theorem layout_determined_threeBlocks :
    (threeBlocks.freeAll [0, 16]).layout = (threeBlocks.freeAll [16, 0]).layout ∧
      (threeBlocks.freeAll [8, 0, 16]).layout = [(0, 64)] := by
  have hreach : calls.Reachable threeBlocks := by
    refine reachable_exec (reachable_exec (reachable_exec ?_ (.alloc 8) ?_) (.alloc 8) ?_) (.alloc 8) ?_
    · exact .init ⟨4096, 64, by omega, by omega, by omega, rfl⟩
    all_goals decide
  obtain ⟨hcommutes, -, hall⟩ := layout_determined.2 threeBlocks hreach
  refine ⟨hcommutes 0 ?_ 16 ?_, hall [8, 0, 16] ?_ fun k => ?_⟩
  · decide
  · decide
  · decide
  · have hkeys : threeBlocks.usedRdmaMem.keys = {8, 0, 16} := by decide
    rw [← Finmap.mem_keys, hkeys]
    simp

end BaseMemory

end RdmaManager
