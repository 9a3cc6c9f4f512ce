import Mathlib.Data.List.TakeWhile
import RdmaManager.Memory.Sound
/-!
# `BaseMemory`: what a call does to a sound state

`internalAlloc_cases` and `free_cases` say everything a call can do.
The rest follows from them: every call keeps the state `Sound`, a call
that frees a live offset succeeds, and as long as no other offset is
freed the calls keep the state `Tight`.
-/

namespace RdmaManager

namespace BaseMemory

open Extent

variable {m : BaseMemory} {pre post : List RdmaMem} {a el seg : RdmaMem} {k offset size : ℕ}

/-! ## `internalAlloc` -/

/-- What is left of a free segment with `size` bytes taken off its front. -/
def remainder (size : ℕ) (a : RdmaMem) : List RdmaMem :=
  if size < a.size then [RdmaMem.init (a.size - size) true (a.offset + size)] else []

/-- The state with `size` bytes of the free segment `a` in use. -/
def take (m : BaseMemory) (size : ℕ) (pre : List RdmaMem) (a : RdmaMem) (post : List RdmaMem) :
    BaseMemory :=
  { m with
    rdmaMem := pre ++ (remainder size a ++ post)
    usedRdmaMem := m.usedRdmaMem.insert a.offset (RdmaMem.init size false a.offset) }

/-- **`internalAlloc` is first fit**: it takes the first free segment that
is large enough, and without one it changes nothing. -/
theorem internalAlloc_firstFit (hfree : ∀ a ∈ m.rdmaMem, a.free = true)
    (hstop : ∀ a ∈ m.rdmaMem, a.offset + a.size < 2 ^ 64) (size : ℕ) :
    (∃ pre a post, m.rdmaMem = pre ++ a :: post ∧ size ≤ a.size ∧ (∀ b ∈ pre, b.size < size) ∧
        internalAlloc size m = (.ok (RdmaMem.init size false a.offset), m.take size pre a post)) ∨
      ((∀ a ∈ m.rdmaMem, a.size < size) ∧ internalAlloc size m = (.ok RdmaMem.null, m)) := by
  rcases hscan : allocScan size m.rdmaMem with - | ⟨a, r⟩
  · refine Or.inr ⟨fun a ha => allocScan_none hscan a ha (hfree a ha), ?_⟩
    rw [internalAlloc, hscan]
  · obtain ⟨pre, post, hsplit, -, hsize, hfirst, hr⟩ := allocScan_some hscan
    have ha : a ∈ m.rdmaMem := by simp [hsplit]
    refine Or.inl ⟨pre, a, post, hsplit, hsize, fun b hb => ?_, ?_⟩
    · exact hfirst b hb (hfree b (by simp [hsplit, hb]))
    · have hlt := hstop a ha
      rw [wrap64_of_lt (by omega)] at hr
      rw [internalAlloc, hscan, hr, take, remainder]
      split_ifs <;> rfl

theorem internalAlloc_cases (h : m.Sound) (size : ℕ) :
    (∃ pre a post, m.rdmaMem = pre ++ a :: post ∧ size ≤ a.size ∧ (∀ b ∈ pre, b.size < size) ∧
        internalAlloc size m = (.ok (RdmaMem.init size false a.offset), m.take size pre a post)) ∨
      ((∀ a ∈ m.rdmaMem, a.size < size) ∧ internalAlloc size m = (.ok RdmaMem.null, m)) :=
  internalAlloc_firstFit h.free h.unwrapped.stop size

/-- The segment handed out and what is left of the free one are the two
parts of the free one. -/
theorem take_measure (hsize : size ≤ a.size) :
    (∀ p, cover (remainder size a : Multiset RdmaMem) p +
        cover ({RdmaMem.init size false a.offset} : Multiset RdmaMem) p =
          cover ({a} : Multiset RdmaMem) p) ∧
      total (remainder size a : Multiset RdmaMem) + size = a.size := by
  unfold remainder
  split_ifs with hlt
  · refine ⟨fun p => ?_, by simp [RdmaMem.init]; omega⟩
    rw [Nat.add_comm]
    refine cover_split (a := a) rfl rfl ?_
    simp only [RdmaMem.stop_eq, RdmaMem.init]
    omega
  · have heq : size = a.size := by omega
    refine ⟨fun p => ?_, by simp [heq]⟩
    rw [Multiset.coe_nil, cover_zero, Nat.zero_add, cover_singleton, cover_singleton, heq]
    rfl

/-- A free segment starts at no used offset. -/
theorem Sound.offset_notMem (h : m.Sound) (ha : a ∈ m.rdmaMem) (hpos : 0 < a.size) :
    a.offset ∉ m.usedRdmaMem := by
  intro hmem
  obtain ⟨seg, hk⟩ := Finmap.mem_iff.mp hmem
  have hsep := h.free_used ha hpos hk
  have := (h.used _ seg hk).2
  omega

theorem remainder_mem (ha : el ∈ remainder size a) :
    el = RdmaMem.init (a.size - size) true (a.offset + size) ∧ size < a.size := by
  unfold remainder at ha
  split_ifs at ha with hlt
  · exact ⟨List.mem_singleton.mp ha, hlt⟩
  · simp at ha

/-- **Taking from a free segment keeps the invariant.** -/
theorem Sound.take (h : m.Sound) (hpos : 0 < size) (hsplit : m.rdmaMem = pre ++ a :: post)
    (hsize : size ≤ a.size) : (m.take size pre a post).Sound := by
  have ha : a ∈ m.rdmaMem := by simp [hsplit]
  have hnot : a.offset ∉ m.usedRdmaMem := h.offset_notMem ha (by omega)
  obtain ⟨hcover, htotal⟩ := take_measure hsize
  have hused : (m.take size pre a post).usedSegments =
      RdmaMem.init size false a.offset ::ₘ m.usedSegments := by
    rw [usedSegments, BaseMemory.take, Finmap.entries_insert_of_notMem hnot, Multiset.map_cons]
    rfl
  refine ⟨h.lt, fun p => ?_, ?_, ?_, fun b hb => ?_, fun b hb hz => ?_, fun k seg hk => ?_⟩
  · have hold := h.cover p
    have hpart := hcover p
    rw [segments, hused]
    simp only [segments, hsplit, BaseMemory.take, ← Multiset.coe_add, ← Multiset.cons_coe,
      ← Multiset.singleton_add, cover_add] at hold ⊢
    refine Eq.trans ?_ hold
    omega
  · have hold := h.total
    rw [segments, hused]
    simp only [segments, hsplit, BaseMemory.take, ← Multiset.coe_add, ← Multiset.cons_coe,
      total_add, total_cons, RdmaMem.len_eq, RdmaMem.init] at hold ⊢
    omega
  · have hold := h.ordered
    simp only [Ordered, hsplit, BaseMemory.take, List.pairwise_append, List.pairwise_cons,
      List.mem_append, List.mem_cons, RdmaMem.len_eq, RdmaMem.stop_eq, RdmaMem.start_eq] at hold ⊢
    obtain ⟨hpre, ⟨hafter, hpost⟩, hcross⟩ := hold
    refine ⟨hpre, ⟨?_, hpost, fun x hx b hb _ hbpos => ?_⟩, fun c hc x hx hcpos hxpos => ?_⟩
    · unfold remainder
      split_ifs
      · exact List.pairwise_singleton _ _
      · exact List.Pairwise.nil
    · obtain ⟨rfl, hlt⟩ := remainder_mem hx
      have := hafter b hb (by omega) hbpos
      simp only [RdmaMem.init]
      omega
    · rcases hx with hx | hx
      · obtain ⟨rfl, hlt⟩ := remainder_mem hx
        have := hcross c hc a (Or.inl rfl) hcpos (by omega)
        simp only [RdmaMem.init]
        omega
      · exact hcross c hc x (Or.inr hx) hcpos hxpos
  · simp only [BaseMemory.take, List.mem_append] at hb
    rcases hb with hb | hb | hb
    · exact h.free b (by simp [hsplit, hb])
    · rw [(remainder_mem hb).1]
      rfl
    · exact h.free b (by simp [hsplit, hb])
  · simp only [BaseMemory.take, List.mem_append] at hb
    rcases hb with hb | hb | hb
    · exact h.empty b (by simp [hsplit, hb]) hz
    · obtain ⟨rfl, hlt⟩ := remainder_mem hb
      simp only [RdmaMem.init] at hz
      omega
    · exact h.empty b (by simp [hsplit, hb]) hz
  · rcases eq_or_ne k a.offset with rfl | hne
    · rw [BaseMemory.take, Finmap.lookup_insert, Option.some.injEq] at hk
      subst hk
      exact ⟨rfl, hpos⟩
    · rw [BaseMemory.take, Finmap.lookup_insert_of_ne _ hne] at hk
      exact h.used k seg hk

theorem Tight.take (h : m.Tight) (hpos : 0 < size) (hsplit : m.rdmaMem = pre ++ a :: post)
    (hsize : size ≤ a.size) : (m.take size pre a post).Tight where
  toSound := h.toSound.take hpos hsplit hsize
  gapped := by
    have hold := h.gapped
    rw [hsplit] at hold
    obtain ⟨hpre, hpost, -, hbelow, habove⟩ := gapped_append_cons.mp hold
    simp only [RdmaMem.stop_eq, RdmaMem.start_eq] at hbelow habove
    change Gapped (pre ++ (remainder size a ++ post))
    unfold remainder
    split_ifs with hlt
    · refine gapped_append_cons.mpr ⟨hpre, hpost, ?_, fun b hb => ?_, fun b hb => ?_⟩
      · simp only [RdmaMem.init, RdmaMem.len_eq]
        omega
      · have := hbelow b hb
        simp only [RdmaMem.init, RdmaMem.stop_eq, RdmaMem.start_eq]
        omega
      · have := habove b hb
        simp only [RdmaMem.init, RdmaMem.stop_eq, RdmaMem.start_eq]
        omega
    · refine ⟨fun b hb => hold.len_pos b ?_, hold.gap.sublist ?_⟩
      · simp only [List.nil_append, List.mem_append] at hb
        rcases hb with hb | hb <;> simp [hb]
      · simp

/-! ## `free` -/

/-- The segment `free` puts back: the one recorded for the offset, or a
default-constructed one. -/
def released (m : BaseMemory) (offset : ℕ) : RdmaMem :=
  { (m.usedRdmaMem.lookup offset).getD RdmaMem.null with free := true }

/-- The state with that segment put in between two parts of the free
list, and the entry gone. -/
def putBack (m : BaseMemory) (offset : ℕ) (pre post : List RdmaMem) : BaseMemory :=
  { m with
    rdmaMem := mergeFreeMem pre.reverse (m.released offset) post
    usedRdmaMem := m.usedRdmaMem.erase offset }

/-- **`free` puts back at the first place that `Stops` allows**, and
throws exactly where there is none. The entry of the offset is gone in
either case. -/
theorem free_firstPlace (htotal : total (m.rdmaMem : Multiset RdmaMem) < 2 ^ 64) (offset : ℕ) :
    (∃ pre post, m.rdmaMem = pre ++ post ∧ Stops offset pre post ∧
        (∀ a ∈ pre, a.offset ≤ offset) ∧ free offset m = (.ok (), m.putBack offset pre post)) ∨
      ((∀ pre post, m.rdmaMem = pre ++ post → ¬ Stops offset pre post) ∧
        free offset m = (.error (.runtimeError "Did not free any internal memory!"),
          { m with usedRdmaMem := m.usedRdmaMem.erase offset })) := by
  rcases hlist : m.rdmaMem with - | ⟨head, rest⟩
  · refine Or.inl ⟨[], [], rfl, ⟨by simp, by simp⟩, by simp, ?_⟩
    unfold free
    simp only [subscript_fst, erase_subscript_snd, hlist]
    rfl
  · rw [hlist] at htotal
    rcases freeScan_cases offset (m.released offset) htotal with
      ⟨pre, post, hsplit, hstops, hfirst, hscan⟩ | ⟨hnone, hscan⟩
    · refine Or.inl ⟨pre, post, hsplit, hstops, fun a ha => ?_, ?_⟩
      · obtain ⟨pre₁, pre₂, rfl⟩ := List.append_of_mem ha
        refine hfirst pre₁ a pre₂ rfl (le_trans ?_ hstops.1)
        rw [← Multiset.coe_add, total_add]
        exact Nat.le_add_right _ _
      · rw [released] at hscan
        unfold free
        simp only [subscript_fst, erase_subscript_snd, hlist, hscan]
        rfl
    · refine Or.inr ⟨hnone, ?_⟩
      rw [released] at hscan
      unfold free
      simp only [subscript_fst, erase_subscript_snd, hlist, hscan]

theorem free_cases (h : m.Sound) (offset : ℕ) :
    (∃ pre post, m.rdmaMem = pre ++ post ∧ Stops offset pre post ∧
        (∀ a ∈ pre, a.offset ≤ offset) ∧ free offset m = (.ok (), m.putBack offset pre post)) ∨
      ((∀ pre post, m.rdmaMem = pre ++ post → ¬ Stops offset pre post) ∧
        free offset m = (.error (.runtimeError "Did not free any internal memory!"),
          { m with usedRdmaMem := m.usedRdmaMem.erase offset })) :=
  free_firstPlace h.unwrapped.total offset

/-- What `free` does to the entries, whether it throws or not. -/
theorem free_frame (k : ℕ) (m : BaseMemory) :
    (free k m).2.usedRdmaMem = m.usedRdmaMem.erase k ∧ (free k m).2.buffer = m.buffer := by
  unfold free
  simp only [erase_subscript_snd]
  cases m.rdmaMem with
  | nil => exact ⟨rfl, rfl⟩
  | cons a rest =>
      dsimp only
      split <;> exact ⟨rfl, rfl⟩

/-- The segment put back holds what the entry held, and nothing when
there is no entry. -/
theorem released_measure (m : BaseMemory) (offset : ℕ) :
    (∀ p, cover ({m.released offset} : Multiset RdmaMem) p +
        cover ((m.usedRdmaMem.erase offset).entries.map Sigma.snd) p = cover m.usedSegments p) ∧
      (m.released offset).size + total ((m.usedRdmaMem.erase offset).entries.map Sigma.snd) =
        total m.usedSegments := by
  rcases hk : m.usedRdmaMem.lookup offset with - | seg
  · have herase : m.usedRdmaMem.erase offset = m.usedRdmaMem := erase_of_lookup_none hk
    have hempty : (m.released offset).size = 0 := by simp [released, hk, RdmaMem.null]
    rw [herase, hempty, Nat.zero_add]
    refine ⟨fun p => ?_, rfl⟩
    rw [cover_singleton_of_empty hempty, Nat.zero_add]
    rfl
  · have hrel : m.released offset = { seg with free := true } := by simp [released, hk]
    have hused : m.usedSegments =
        seg ::ₘ (m.usedRdmaMem.erase offset).entries.map Sigma.snd := by
      rw [usedSegments, entries_eq_cons_erase hk, Multiset.map_cons]
    rw [hrel, hused]
    refine ⟨fun p => ?_, by simp⟩
    rw [cover_cons, cover_singleton, Nat.add_comm]
    rfl

/-- **Putting a segment back in order keeps the invariant.** -/
theorem Sound.putBack (h : m.Sound) (hsplit : m.rdmaMem = pre ++ post)
    (hord : Ordered (pre ++ m.released offset :: post)) : (m.putBack offset pre post).Sound ∧
      Unwrapped (pre ++ m.released offset :: post) := by
  obtain ⟨hcover, htotal⟩ := released_measure m offset
  have hunwrapped := h.unwrapped
  have hin : ∀ a ∈ pre ++ m.released offset :: post, a ∈ m.rdmaMem ∨ a = m.released offset := by
    intro a ha
    rw [hsplit]
    simp only [List.mem_append, List.mem_cons] at ha ⊢
    tauto
  have hel : (m.released offset).free = true ∧
      ((m.released offset).size = 0 → (m.released offset).offset = 0) ∧
      (m.released offset).offset + (m.released offset).size ≤ m.memSize := by
    rcases hk : m.usedRdmaMem.lookup offset with - | seg
    · simp [released, hk, RdmaMem.null]
    · have hseg := h.used offset seg hk
      have := h.stop_le (mem_segments_of_used hk) hseg.2
      simp only [released, hk, Option.getD_some]
      exact ⟨trivial, by omega, this⟩
  have hsum := h.total_free_le
  have hlt := h.lt
  have hunw : Unwrapped (pre ++ m.released offset :: post) := by
    refine ⟨?_, fun a ha => ?_⟩
    · simp only [hsplit, ← Multiset.coe_add, ← Multiset.cons_coe, total_add, total_cons,
        RdmaMem.len_eq] at hsum ⊢
      omega
    · rcases hin a ha with ha | rfl
      · exact hunwrapped.stop a ha
      · omega
  rw [← List.reverse_reverse pre] at hunw
  obtain ⟨hjoins, hgrown, -⟩ := mergeFreeMem_spec hunw
  rw [List.reverse_reverse] at hjoins hgrown hunw
  obtain ⟨hcov, htot⟩ := hjoins.measure
  refine ⟨⟨h.lt, fun p => ?_, ?_, hjoins.ordered hord, fun x hx => ?_, fun x hx hz => ?_,
    fun k seg hk => ?_⟩, hunw⟩
  · have hold := h.cover p
    have hpart := hcover p
    have hnew : Extent.cover (m.putBack offset pre post).segments p =
        Extent.cover ((pre ++ m.released offset :: post : List RdmaMem) : Multiset RdmaMem) p +
          Extent.cover ((m.usedRdmaMem.erase offset).entries.map Sigma.snd) p := by
      rw [segments, cover_add, ← hcov p]
      rfl
    rw [hnew]
    refine Eq.trans ?_ hold
    simp only [segments, hsplit, ← Multiset.coe_add, ← Multiset.cons_coe,
      ← Multiset.singleton_add, cover_add]
    omega
  · have hnew : Extent.total (m.putBack offset pre post).segments =
        Extent.total ((pre ++ m.released offset :: post : List RdmaMem) : Multiset RdmaMem) +
          Extent.total ((m.usedRdmaMem.erase offset).entries.map Sigma.snd) := by
      rw [segments, total_add, ← htot]
      rfl
    rw [hnew]
    refine Eq.trans ?_ hsum
    simp only [hsplit, ← Multiset.coe_add, ← Multiset.cons_coe, total_add, total_cons,
      RdmaMem.len_eq]
    omega
  · obtain ⟨a, ha, hfree, -, -⟩ := hgrown x hx
    rw [hfree]
    rcases hin a ha with ha | rfl
    · exact h.free a ha
    · exact hel.1
  · obtain ⟨a, ha, -, hoff, hle⟩ := hgrown x hx
    rw [hoff]
    rcases hin a ha with ha | rfl
    · exact h.empty a ha (by omega)
    · exact hel.2.1 (by omega)
  · change (m.usedRdmaMem.erase offset).lookup k = some seg at hk
    rcases eq_or_ne k offset with rfl | hne
    · rw [Finmap.lookup_erase] at hk
      simp at hk
    · rw [Finmap.lookup_erase_ne hne] at hk
      exact h.used k seg hk

/-- An unknown offset puts back an empty segment, which no order minds. -/
theorem Sound.ordered_of_unknown (h : m.Sound) (hk : m.usedRdmaMem.lookup offset = none)
    (hsplit : m.rdmaMem = pre ++ post) : Ordered (pre ++ m.released offset :: post) := by
  have hempty : (m.released offset).size = 0 := by simp [released, hk, RdmaMem.null]
  have hold := h.ordered
  rw [hsplit, Ordered, List.pairwise_append] at hold
  refine List.pairwise_append.mpr ⟨hold.1, List.pairwise_cons.mpr ⟨?_, hold.2.1⟩, ?_⟩
  · intro b _ hpos
    rw [RdmaMem.len_eq] at hpos
    omega
  · intro a ha b hb hapos hbpos
    rcases List.mem_cons.mp hb with rfl | hb
    · rw [RdmaMem.len_eq] at hbpos
      omega
    · exact hold.2.2 a ha b hb hapos hbpos

/-- A free segment that starts at or before a live offset stops at or
before it. -/
theorem Sound.stop_le_of_live (h : m.Sound) (hk : m.usedRdmaMem.lookup offset = some seg)
    (ha : a ∈ m.rdmaMem) (hpos : 0 < a.size) (hle : a.offset ≤ offset) :
    a.offset + a.size ≤ offset := by
  have hseg := (h.used offset seg hk).2
  rcases h.free_used ha hpos hk with hstop | hstop <;> omega

/-- Past a place that `Stops` allows for a live offset the free segments
start at or past the end of its block. -/
theorem Sound.stop_le_of_stops (h : m.Sound) (hk : m.usedRdmaMem.lookup offset = some seg)
    (hsplit : m.rdmaMem = pre ++ post) (hstops : ∀ a ∈ post.head?, offset < a.offset)
    (ha : a ∈ post) (hpos : 0 < a.size) : offset + seg.size ≤ a.offset := by
  rcases post with - | ⟨b, rest⟩
  · simp at ha
  have hb := hstops b rfl
  have hbmem : b ∈ m.rdmaMem := by simp [hsplit]
  -- the element the loop stops at starts past the offset, so it is not an empty one
  have hbpos : 0 < b.size := by
    by_contra hz
    have := h.empty b hbmem (by omega)
    omega
  have hbstart : offset + seg.size ≤ b.offset := by
    rcases h.free_used hbmem hbpos hk with hstop | hstop <;> omega
  rcases List.mem_cons.mp ha with rfl | ha
  · exact hbstart
  · have hold := h.ordered
    rw [hsplit, Ordered, List.pairwise_append, List.pairwise_cons] at hold
    have := hold.2.1.1 a ha hbpos hpos
    simp only [RdmaMem.stop_eq, RdmaMem.start_eq] at this
    omega

/-- **Freeing a live offset succeeds**, at a place where the block fits
into the order of the free list. -/
theorem free_live (h : m.Sound) (hk : m.usedRdmaMem.lookup offset = some seg) :
    ∃ pre post, m.rdmaMem = pre ++ post ∧ free offset m = (.ok (), m.putBack offset pre post) ∧
      (∀ a ∈ pre, 0 < a.size → a.offset + a.size ≤ offset) ∧
      ∀ a ∈ post, 0 < a.size → offset + seg.size ≤ a.offset := by
  rcases free_cases h offset with ⟨pre, post, hsplit, hstops, hle, hfree⟩ | ⟨hnone, -⟩
  · refine ⟨pre, post, hsplit, hfree, fun a ha hpos => ?_, fun a ha hpos => ?_⟩
    · exact h.stop_le_of_live hk (by simp [hsplit, ha]) hpos (hle a ha)
    · exact h.stop_le_of_stops hk hsplit hstops.2 ha hpos
  · -- the elements that start at or before the offset are a place to insert after
    have hsplit := (List.takeWhile_append_dropWhile (p := fun a : RdmaMem => decide (a.offset ≤ offset))
      (l := m.rdmaMem)).symm
    refine absurd (stops_takeWhile ?_) (hnone _ _ hsplit)
    have hord := h.ordered
    rw [hsplit] at hord
    refine total_le_of_stop_le (List.pairwise_append.mp hord).1 fun a ha hpos => ?_
    have hle : a.offset ≤ offset := by simpa using List.mem_takeWhile_imp ha
    exact h.stop_le_of_live hk (List.takeWhile_subset _ ha) hpos hle

/-- The block put back fits into the order of the free list. -/
theorem Sound.ordered_of_live (h : m.Sound) (hk : m.usedRdmaMem.lookup offset = some seg)
    (hsplit : m.rdmaMem = pre ++ post)
    (hpre : ∀ a ∈ pre, 0 < a.size → a.offset + a.size ≤ offset)
    (hpost : ∀ a ∈ post, 0 < a.size → offset + seg.size ≤ a.offset) :
    Ordered (pre ++ m.released offset :: post) := by
  have hrel : m.released offset = { seg with free := true } := by simp [released, hk]
  have hoff := (h.used offset seg hk).1
  have hold := h.ordered
  rw [hsplit, Ordered, List.pairwise_append] at hold
  rw [hrel]
  refine List.pairwise_append.mpr ⟨hold.1, List.pairwise_cons.mpr ⟨?_, hold.2.1⟩, ?_⟩
  · intro b hb _ hbpos
    have := hpost b hb hbpos
    simp only [RdmaMem.stop_eq, RdmaMem.start_eq]
    omega
  · intro a ha b hb hapos hbpos
    rcases List.mem_cons.mp hb with rfl | hb
    · have := hpre a ha hapos
      simp only [RdmaMem.stop_eq, RdmaMem.start_eq]
      omega
    · exact hold.2.2 a ha b hb hapos hbpos

/-- **Freeing a live offset keeps a tight state tight.** -/
theorem Tight.putBack (h : m.Tight) (hk : m.usedRdmaMem.lookup offset = some seg)
    (hsplit : m.rdmaMem = pre ++ post)
    (hpre : ∀ a ∈ pre, 0 < a.size → a.offset + a.size ≤ offset)
    (hpost : ∀ a ∈ post, 0 < a.size → offset + seg.size ≤ a.offset) :
    (m.putBack offset pre post).Tight := by
  have hrel : m.released offset = { seg with free := true } := by simp [released, hk]
  obtain ⟨hoff, hpos⟩ := h.used offset seg hk
  obtain ⟨hsound, hunw⟩ :=
    h.toSound.putBack hsplit (h.toSound.ordered_of_live hk hsplit hpre hpost)
  refine ⟨hsound, ?_⟩
  rw [← List.reverse_reverse pre] at hunw
  obtain ⟨-, -, hgapped⟩ := mergeFreeMem_spec hunw
  have hold := h.gapped
  rw [hsplit] at hold
  have hpreGap : Gapped pre :=
    ⟨fun a ha => hold.len_pos a (List.mem_append_left _ ha), (List.pairwise_append.mp hold.gap).1⟩
  have hpostGap : Gapped post :=
    ⟨fun a ha => hold.len_pos a (List.mem_append_right _ ha),
      (List.pairwise_append.mp hold.gap).2.1⟩
  refine hgapped ?_ hpostGap ?_ (fun a ha => ?_) fun a ha => ?_
  · rwa [List.reverse_reverse]
  · rw [hrel]
    exact hpos
  · have ha := List.mem_reverse.mp ha
    rw [hrel]
    have := hpre a ha (hpreGap.len_pos a ha)
    simp only
    omega
  · rw [hrel]
    have := hpost a ha (hpostGap.len_pos a ha)
    simp only
    omega

end BaseMemory

end RdmaManager
