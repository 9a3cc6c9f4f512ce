import RdmaManager.Memory.FreeList
/-!
# `BaseMemory`: the invariant of the sub-allocator

`Sound` is what every call keeps, whatever offset a caller frees: the
free and the used segments together hold every byte of the buffer once
and no other byte, and the nonempty free segments ascend. An offset that
was never handed out can leave empty segments at offset `0` in the free
list, in any number and anywhere, and `Sound` allows them. `Tight` adds
that the free list is gapped, which holds as long as only live offsets
are freed.
-/

namespace RdmaManager

namespace BaseMemory

open Extent

variable {m : BaseMemory} {l pre post : List RdmaMem} {a el seg : RdmaMem} {k offset size : ℕ}

/-- **The invariant of the sub-allocator**, under any calls. -/
structure Sound (m : BaseMemory) : Prop where
  lt : m.memSize < 2 ^ 64
  cover : ∀ p, cover m.segments p = if p < m.memSize then 1 else 0
  total : total m.segments = m.memSize
  ordered : Ordered m.rdmaMem
  free : ∀ a ∈ m.rdmaMem, a.free = true
  empty : ∀ a ∈ m.rdmaMem, a.size = 0 → a.offset = 0
  used : ∀ k seg, m.usedRdmaMem.lookup k = some seg → seg.offset = k ∧ 0 < seg.size

/-- The free list is the maximal decomposition of the free bytes. -/
structure Tight (m : BaseMemory) : Prop extends Sound m where
  gapped : Gapped m.rdmaMem

theorem tight_new (buffer memSize : ℕ) (hpos : 0 < memSize) (hlt : memSize < 2 ^ 64) :
    (new buffer memSize).Tight where
  lt := hlt
  cover p := by
    change cover ({RdmaMem.init memSize true 0} + 0 : Multiset RdmaMem) p = _
    rw [Multiset.add_zero, cover_singleton]
    refine if_congr ?_ rfl rfl
    simp [Holds, RdmaMem.init, new]
  total := by
    change Extent.total ({RdmaMem.init memSize true 0} + 0 : Multiset RdmaMem) = _
    simp [RdmaMem.init, new]
  ordered := List.pairwise_singleton _ _
  free a ha := by simp_all [new, RdmaMem.init]
  empty a ha := by simp_all [new, RdmaMem.init]
  used k seg h := by simp [new] at h
  gapped := gapped_cons.mpr ⟨⟨by simp, List.Pairwise.nil⟩, hpos, by simp⟩

/-! ## What the invariant says of two segments -/

theorem mem_segments_of_free (h : a ∈ m.rdmaMem) : a ∈ m.segments :=
  Multiset.mem_add.mpr (Or.inl (Multiset.mem_coe.mpr h))

theorem mem_segments_of_used (h : m.usedRdmaMem.lookup k = some seg) : seg ∈ m.segments :=
  Multiset.mem_add.mpr (Or.inr (mem_usedSegments h))

/-- A nonempty segment lies in the buffer: its last byte is covered. -/
theorem Sound.stop_le (h : m.Sound) (ha : a ∈ m.segments) (hpos : 0 < a.size) :
    a.offset + a.size ≤ m.memSize := by
  have hcov : 0 < Extent.cover m.segments (a.offset + a.size - 1) := by
    refine cover_pos.mpr ⟨a, ha, ?_⟩
    simp only [Holds, RdmaMem.stop_eq, RdmaMem.start_eq]
    omega
  rw [h.cover] at hcov
  split_ifs at hcov <;> omega

theorem Sound.total_free_le (h : m.Sound) :
    Extent.total (m.rdmaMem : Multiset RdmaMem) + Extent.total m.usedSegments = m.memSize := by
  rw [← h.total, segments, total_add]

/-- No sum over the free list wraps. -/
theorem Sound.unwrapped (h : m.Sound) : Unwrapped m.rdmaMem where
  total := by
    have := h.total_free_le
    have := h.lt
    omega
  stop a ha := by
    have hlt := h.lt
    rcases Nat.eq_zero_or_pos a.size with hz | hpos
    · rw [h.empty a ha hz, hz]
      omega
    · have := h.stop_le (mem_segments_of_free ha) hpos
      omega

/-- A free segment and a used one lie one after the other. -/
theorem Sound.free_used (h : m.Sound) (ha : a ∈ m.rdmaMem) (hpos : 0 < a.size)
    (hk : m.usedRdmaMem.lookup k = some seg) :
    a.offset + a.size ≤ k ∨ k + seg.size ≤ a.offset := by
  obtain ⟨rfl, hseg⟩ := h.used k seg hk
  refine stop_le_or_stop_le (a := a) (b := seg) hpos hseg fun p hp => ?_
  have h1 : 0 < Extent.cover (m.rdmaMem : Multiset RdmaMem) p :=
    cover_pos.mpr ⟨a, Multiset.mem_coe.mpr ha, hp.1⟩
  have h2 : 0 < Extent.cover m.usedSegments p := cover_pos.mpr ⟨seg, mem_usedSegments hk, hp.2⟩
  have hcov := h.cover p
  rw [segments, cover_add] at hcov
  split_ifs at hcov <;> omega

/-- Two used segments lie one after the other. -/
theorem Sound.used_used (h : m.Sound) {k₁ k₂ : ℕ} {seg₁ seg₂ : RdmaMem} (hne : k₁ ≠ k₂)
    (h₁ : m.usedRdmaMem.lookup k₁ = some seg₁) (h₂ : m.usedRdmaMem.lookup k₂ = some seg₂) :
    k₁ + seg₁.size ≤ k₂ ∨ k₂ + seg₂.size ≤ k₁ := by
  obtain ⟨hoff₁, hpos₁⟩ := h.used k₁ seg₁ h₁
  obtain ⟨hoff₂, hpos₂⟩ := h.used k₂ seg₂ h₂
  have hsep : stop seg₁ ≤ start seg₂ ∨ stop seg₂ ≤ start seg₁ := by
    refine stop_le_or_stop_le hpos₁ hpos₂ fun p hp => ?_
    have h2 : seg₂ ∈ (m.usedRdmaMem.erase k₁).entries.map Sigma.snd := by
      refine Multiset.mem_map.mpr ⟨⟨k₂, seg₂⟩, ?_, rfl⟩
      rw [← Finmap.lookup_eq_some_iff, Finmap.lookup_erase_ne hne.symm, h₂]
    have hcov := h.cover p
    rw [segments, cover_add, usedSegments, entries_eq_cons_erase h₁, Multiset.map_cons,
      cover_cons, if_pos hp.1] at hcov
    have : 0 < Extent.cover ((m.usedRdmaMem.erase k₁).entries.map Sigma.snd) p :=
      cover_pos.mpr ⟨seg₂, h2, hp.2⟩
    split_ifs at hcov
    all_goals omega
  simp only [RdmaMem.stop_eq, RdmaMem.start_eq] at hsep
  omega

end BaseMemory

end RdmaManager
