import RdmaManager.Common.Custody
import RdmaManager.Memory.Canonical
/-!
# `BaseMemory`: blocks that come and go

What a call changes, in terms of the live blocks only: `Took` of an
allocation, `Gave` of a release.
-/

namespace RdmaManager

namespace BaseMemory

variable {m m' : BaseMemory} {j k n size : ℕ}

/-- **A block was allocated**: `n` bytes at the offset `k`, which were free. -/
structure Took (m : BaseMemory) (k n : ℕ) (m' : BaseMemory) : Prop where
  tight : m'.Tight
  hole : m.Hole n k
  least : ∀ o, m.Hole n o → k ≤ o
  free : m.live k = none
  live : m'.live = Function.update m.live k (some n)
  buffer : m'.buffer = m.buffer
  memSize : m'.memSize = m.memSize

/-- **A block was released.** -/
structure Gave (m : BaseMemory) (k : ℕ) (m' : BaseMemory) : Prop where
  tight : m'.Tight
  live : m'.live = Function.update m.live k none
  buffer : m'.buffer = m.buffer
  memSize : m'.memSize = m.memSize

/-- The first free segment that is large enough begins the lowest hole. -/
theorem Tight.least_of_first (h : m.Tight) (hpos : 0 < size) {pre post : List RdmaMem} {a : RdmaMem}
    (hsplit : m.rdmaMem = pre ++ a :: post) (hfirst : ∀ b ∈ pre, b.size < size) {o : ℕ}
    (ho : m.Hole size o) : a.offset ≤ o := by
  obtain ⟨b, hb, hlo, hhi⟩ := h.exists_of_hole hpos ho
  have hgap := h.gapped.gap
  rw [hsplit] at hb hgap
  rw [List.pairwise_append, List.pairwise_cons] at hgap
  rcases List.mem_append.mp hb with hb | hb
  · have := hfirst b hb
    omega
  · rcases List.mem_cons.mp hb with rfl | hb
    · exact hlo
    · have hafter := hgap.2.1.1 b hb
      simp only [RdmaMem.stop_eq, RdmaMem.start_eq] at hafter
      omega

/-- **An allocation takes a block**, or there is no place for one. -/
theorem Tight.allocates (h : m.Tight) (hpos : 0 < size) :
    (∃ k m', BaseMemory.internalAlloc size m = (.ok (RdmaMem.init size false k), m') ∧
        Took m k size m') ∨
      (BaseMemory.internalAlloc size m = (.ok RdmaMem.null, m) ∧ ∀ o, ¬ m.Hole size o) := by
  rcases internalAlloc_cases h.toSound size with
    ⟨pre, a, post, hsplit, hsize, hfirst, hcall⟩ | ⟨hsmall, hcall⟩
  · have ha : a ∈ m.rdmaMem := by simp [hsplit]
    refine Or.inl ⟨a.offset, _, hcall, h.take hpos hsplit hsize, h.hole_of_free ha hpos hsize,
      fun o ho => h.least_of_first hpos hsplit hfirst ho,
      live_eq_none.mpr (h.offset_notMem ha (by omega)), ?_, rfl, rfl⟩
    funext i
    show ((m.usedRdmaMem.insert a.offset (RdmaMem.init size false a.offset)).lookup i).map _ = _
    rcases eq_or_ne i a.offset with rfl | hne
    · rw [Finmap.lookup_insert, Function.update_self]
      rfl
    · rw [Finmap.lookup_insert_of_ne _ hne, Function.update_of_ne hne]
      rfl
  · refine Or.inr ⟨hcall, fun o ho => ?_⟩
    obtain ⟨b, hb, hlo, hhi⟩ := h.exists_of_hole hpos ho
    have := hsmall b hb
    omega

/-- **A release of a live block** succeeds. -/
theorem Tight.releases (h : m.Tight) (hk : m.live k = some n) :
    ∃ m', BaseMemory.free k m = (.ok (), m') ∧ Gave m k m' := by
  obtain ⟨seg, hseg, -⟩ := Option.map_eq_some_iff.mp hk
  obtain ⟨pre, post, hsplit, hfree, hpre, hpost⟩ := free_live h.toSound hseg
  refine ⟨_, hfree, h.putBack hseg hsplit hpre hpost, ?_, rfl, rfl⟩
  funext i
  show ((m.usedRdmaMem.erase k).lookup i).map RdmaMem.size = _
  rcases eq_or_ne i k with rfl | hne
  · rw [Finmap.lookup_erase, Function.update_self]
    rfl
  · rw [Finmap.lookup_erase_ne hne, Function.update_of_ne hne]
    rfl

/-- The live blocks are those from before and the new one. -/
theorem Took.live_iff (h : Took m k n m') (b : ℕ × ℕ) :
    m'.live b.1 = some b.2 ↔ b = (k, n) ∨ m.live b.1 = some b.2 := by
  rw [h.live]
  exact update_some_iff h.free b

/-- The new block is apart from those that were live. -/
theorem Took.apart (h : Took m k n m') {a : ℕ} (hj : m.live j = some a) (hm : m.Tight) :
    k + n ≤ j ∨ j + a ≤ k := by
  obtain ⟨seg, hseg, rfl⟩ := Option.map_eq_some_iff.mp hj
  have hapart := h.hole.2 j seg hseg
  rwa [(hm.used j seg hseg).1] at hapart

theorem Gave.live_iff (h : Gave m k m') (hk : m.live k = some n) (b : ℕ × ℕ) :
    m'.live b.1 = some b.2 ↔ m.live b.1 = some b.2 ∧ b ≠ (k, n) := by
  rw [h.live]
  exact update_none_iff hk b

theorem Tight.live_bounds (h : m.Tight) (hk : m.live k = some n) : 0 < n ∧ k + n ≤ m.memSize := by
  obtain ⟨seg, hseg, rfl⟩ := Option.map_eq_some_iff.mp hk
  obtain ⟨hoffset, hpos⟩ := h.used k seg hseg
  have hstop := h.stop_le (mem_segments_of_used hseg) hpos
  rw [hoffset] at hstop
  exact ⟨hpos, hstop⟩

/-- Live blocks lie one after the other. -/
theorem Tight.live_apart (h : m.Tight) {a b : ℕ} (hne : j ≠ k) (hj : m.live j = some a)
    (hk : m.live k = some b) : j + a ≤ k ∨ k + b ≤ j := by
  obtain ⟨seg, hseg, rfl⟩ := Option.map_eq_some_iff.mp hj
  obtain ⟨seg', hseg', rfl⟩ := Option.map_eq_some_iff.mp hk
  exact h.used_used hne hseg hseg'

/-! ## Blocks in a row -/

/-- The live blocks are the first `a` ones of `n` bytes each. -/
def Row (m : BaseMemory) (n a : ℕ) : Prop :=
  ∀ b : ℕ × ℕ, m.live b.1 = some b.2 ↔ b.2 = n ∧ ∃ j < a, b.1 = j * n

variable {a : ℕ}

/-- The rest of the buffer is a hole. -/
theorem Row.hole (h : m.Row n a) (hm : m.Tight) (hfits : a * n + n ≤ m.memSize) : m.Hole n (a * n) := by
  refine ⟨hfits, fun k seg hk => Or.inr ?_⟩
  have hlive : m.live k = some seg.size := Option.map_eq_some_iff.mpr ⟨seg, hk, rfl⟩
  obtain ⟨hsize, j, hj, hoffset⟩ := (h (k, seg.size)).mp hlive
  simp only at hsize hoffset
  rw [(hm.used k seg hk).1, hsize, hoffset, ← Nat.succ_mul]
  exact Nat.mul_le_mul_right n hj

/-- **The next block** of an allocation. -/
theorem Took.row (h : Took m k n m') (hrow : m.Row n a) (hm : m.Tight) (hpos : 0 < n) :
    k = a * n ∧ m'.Row n (a + 1) := by
  have hge : a * n ≤ k := by
    by_contra hlt
    -- the block that `k` would lie in
    have hj : k / n < a := Nat.div_lt_of_lt_mul (by rw [Nat.mul_comm]; omega)
    have hlive : m.live (k / n * n) = some n := (hrow (k / n * n, n)).mpr ⟨rfl, k / n, hj, rfl⟩
    have hapart := h.apart hlive hm
    have hdiv := Nat.div_add_mod k n
    have hmod := Nat.mod_lt k hpos
    rw [Nat.mul_comm] at hdiv
    omega
  have hfits := h.hole.1
  have hle : k ≤ a * n := h.least _ (hrow.hole hm (by omega))
  have hk : k = a * n := by omega
  refine ⟨hk, fun b => ?_⟩
  rw [h.live_iff, hrow]
  constructor
  · rintro (rfl | ⟨hn, j, hj, hb⟩)
    · exact ⟨rfl, a, Nat.lt_succ_self a, hk⟩
    · exact ⟨hn, j, Nat.lt_succ_of_lt hj, hb⟩
  · rintro ⟨hn, j, hj, hb⟩
    rcases Nat.lt_succ_iff_lt_or_eq.mp hj with hj | rfl
    · exact Or.inr ⟨hn, j, hj, hb⟩
    · exact Or.inl (Prod.ext (hb.trans hk.symm) hn)

/-- **Without a live block the whole buffer is one free segment.** -/
theorem Tight.layout_of_none (h : m.Tight) (hpos : 0 < m.memSize) (hnone : ∀ k, m.live k = none) :
    m.layout = [(0, m.memSize)] := by
  refine h.layout_eq (tight_new m.buffer m.memSize hpos h.lt) rfl (funext fun k => ?_)
  rw [hnone]
  rfl

end BaseMemory

end RdmaManager
