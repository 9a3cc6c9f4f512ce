import RdmaManager.Memory.Canonical
/-!
# `BaseMemory`: who holds what

The used segments are kept by their offsets, and a request for no bytes
is served without taking any. So a handle of no bytes may begin where
another one does, and then the record of one is that of the other
(`zero_handles_clash`). `Apart` says of a call that this does not happen,
and it is what every call needs (`exclusive_iff_apart`). Callers that ask
for at least one byte never come near it (`apart_of_positive`).
-/

namespace RdmaManager

/-- **The sub-allocator and its holders**: every handle that was handed out
and not freed. -/
structure Holding where
  memory : BaseMemory
  held : Multiset RdmaMem

/-- A request for memory, or the end of a handle. -/
inductive HandleCall
  | internalAlloc (size : ℕ)
  | free (handle : RdmaMem)

namespace Holding

open Extent BaseMemory

variable {s s' : Holding} {m : BaseMemory} {handle seg : RdmaMem} {call : HandleCall} {size : ℕ}

/-- What a call does. -/
def exec (s : Holding) : HandleCall → Holding
  | .internalAlloc size =>
      match internalAlloc size s.memory with
      | (.ok seg, memory) => ⟨memory, if seg.isnull then s.held else seg ::ₘ s.held⟩
      | (.error _, memory) => { s with memory }
  | .free handle => ⟨(free handle.offset s.memory).2, s.held.erase handle⟩

/-- Holders free what they hold. -/
def Enabled (s : Holding) : HandleCall → Prop
  | .internalAlloc _ => True
  | .free handle => handle ∈ s.held

/-- **The runs of holders.** -/
def handles : System Holding HandleCall where
  Init s := Fresh s.memory ∧ s.held = 0
  Step s call s' := s.Enabled call ∧ s' = s.exec call

/-- **Handles are exclusive**: a new one begins where none that is held
does and leaves the records of those alone, and one that is freed gives
back its own bytes. -/
def Exclusive (s : Holding) : HandleCall → Prop
  | .internalAlloc size => ∀ seg m, internalAlloc size s.memory = (.ok seg, m) → seg.isnull = false →
      ∀ h ∈ s.held, h.offset ≠ seg.offset ∧
        m.usedRdmaMem.lookup h.offset = s.memory.usedRdmaMem.lookup h.offset
  | .free handle => (free handle.offset s.memory).1 = .ok () ∧
      ∀ p, cover ((free handle.offset s.memory).2.rdmaMem : Multiset RdmaMem) p =
          cover (s.memory.rdmaMem : Multiset RdmaMem) p + (if Holds handle p then 1 else 0) ∧
        ∀ h ∈ s.held.erase handle, ¬ (Holds handle p ∧ Holds h p)

/-- The first free segment that is large enough begins where no handle
does; the free segments up to a handle hold no more bytes than lie before
it. -/
def Apart (s : Holding) : HandleCall → Prop
  | .internalAlloc size =>
      ∀ a ∈ s.memory.rdmaMem.find? fun a => decide (size ≤ a.size), ∀ h ∈ s.held, h.offset ≠ a.offset
  | .free handle =>
      total (s.memory.rdmaMem.takeWhile fun a => decide (a.offset ≤ handle.offset) : Multiset RdmaMem) ≤
        handle.offset

/-- No bytes are asked for. -/
def Positive (_ : Holding) : HandleCall → Prop
  | .internalAlloc size => 0 < size
  | .free _ => True

/-! ## What a run keeps -/

/-- **What is kept as long as every call is `Apart`.** -/
structure Kept (s : Holding) : Prop where
  lt : s.memory.memSize < 2 ^ 64
  cover : ∀ p, cover ((s.memory.rdmaMem : Multiset RdmaMem) + s.held) p =
    if p < s.memory.memSize then 1 else 0
  total : total ((s.memory.rdmaMem : Multiset RdmaMem) + s.held) = s.memory.memSize
  rising : Rising s.memory.rdmaMem
  free : ∀ a ∈ s.memory.rdmaMem, a.free = true
  within : ∀ a ∈ (s.memory.rdmaMem : Multiset RdmaMem) + s.held,
    a.offset + a.size ≤ s.memory.memSize
  recorded : ∀ h ∈ s.held, s.memory.usedRdmaMem.lookup h.offset = some h
  distinct : (s.held.map RdmaMem.offset).Nodup

theorem kept_init (h : handles.Init s) : Kept s := by
  obtain ⟨m, held⟩ := s
  obtain ⟨⟨buffer, memSize, -, hpos, hlt, hm⟩, hheld⟩ := h
  obtain rfl : m = new buffer memSize := hm
  obtain rfl : held = 0 := hheld
  have htight := tight_new buffer memSize hpos hlt
  refine ⟨hlt, htight.cover, htight.total, List.pairwise_singleton _ _, htight.free, ?_, ?_, ?_⟩
  · intro a ha
    rw [Multiset.add_zero, Multiset.mem_coe] at ha
    obtain rfl := List.mem_singleton.mp ha
    exact le_of_eq (Nat.zero_add _)
  · exact fun h hh => absurd hh (Multiset.notMem_zero h)
  · exact Multiset.nodup_zero

theorem Kept.mem_free (hkept : Kept s) {a : RdmaMem} (ha : a ∈ s.memory.rdmaMem) :
    a.offset + a.size ≤ s.memory.memSize :=
  hkept.within a (Multiset.mem_add.mpr (Or.inl (Multiset.mem_coe.mpr ha)))

theorem Kept.mem_held (hkept : Kept s) (hheld : handle ∈ s.held) :
    handle.offset + handle.size ≤ s.memory.memSize :=
  hkept.within handle (Multiset.mem_add.mpr (Or.inr hheld))

theorem Kept.total_lt (hkept : Kept s) :
    Extent.total (s.memory.rdmaMem : Multiset RdmaMem) < 2 ^ 64 := by
  have htotal := hkept.total
  rw [total_add] at htotal
  have hlt := hkept.lt
  omega

/-- A free segment and a handle hold no byte together. -/
theorem Kept.free_held (hkept : Kept s) {a : RdmaMem} (ha : a ∈ s.memory.rdmaMem)
    (hheld : handle ∈ s.held) (p : ℕ) : ¬ (Holds a p ∧ Holds handle p) := by
  rintro ⟨hin, hin'⟩
  have hfree : 0 < Extent.cover (s.memory.rdmaMem : Multiset RdmaMem) p :=
    cover_pos.mpr ⟨a, Multiset.mem_coe.mpr ha, hin⟩
  have hused : 0 < Extent.cover s.held p := cover_pos.mpr ⟨handle, hheld, hin'⟩
  have hcover := hkept.cover p
  rw [cover_add] at hcover
  split_ifs at hcover <;> omega

/-- Nor do two handles. -/
theorem Kept.held_held (hkept : Kept s) (hheld : handle ∈ s.held) {h : RdmaMem}
    (hh : h ∈ s.held.erase handle) (p : ℕ) : ¬ (Holds handle p ∧ Holds h p) := by
  rintro ⟨hin, hin'⟩
  have hcover := hkept.cover p
  rw [cover_add, ← Multiset.cons_erase hheld, cover_cons, if_pos hin] at hcover
  have hother : 0 < Extent.cover (s.held.erase handle) p := cover_pos.mpr ⟨h, hh, hin'⟩
  split_ifs at hcover
  all_goals omega

/-- A free segment that begins at or before a handle stops before it. -/
theorem Kept.stop_le (hkept : Kept s) {a : RdmaMem} (ha : a ∈ s.memory.rdmaMem)
    (hheld : handle ∈ s.held) (hpos : 0 < handle.size) (hle : a.offset ≤ handle.offset) :
    a.offset + a.size ≤ handle.offset := by
  rcases Nat.eq_zero_or_pos a.size with hz | hapos
  · omega
  · rcases stop_le_or_stop_le hapos hpos (hkept.free_held ha hheld) with hstop | hstop
    · exact hstop
    · simp only [RdmaMem.stop_eq, RdmaMem.start_eq] at hstop
      omega

/-- Nor do two handles begin at one offset. -/
theorem Kept.offset_ne (hkept : Kept s) (hheld : handle ∈ s.held) {h : RdmaMem}
    (hh : h ∈ s.held.erase handle) : h.offset ≠ handle.offset := by
  intro hbad
  have hdistinct := hkept.distinct
  rw [← Multiset.cons_erase hheld, Multiset.map_cons, Multiset.nodup_cons] at hdistinct
  exact hdistinct.1 (Multiset.mem_map.mpr ⟨h, hh, hbad⟩)

/-! ## A request -/

/-- What a request does. -/
theorem Kept.internalAlloc_cases (hkept : Kept s) (size : ℕ) :
    (∃ pre a post, s.memory.rdmaMem = pre ++ a :: post ∧ size ≤ a.size ∧
        (s.memory.rdmaMem.find? fun a => decide (size ≤ a.size)) = some a ∧
        internalAlloc size s.memory =
          (.ok (RdmaMem.init size false a.offset), s.memory.take size pre a post)) ∨
      ((s.memory.rdmaMem.find? fun a => decide (size ≤ a.size)) = none ∧
        internalAlloc size s.memory = (.ok RdmaMem.null, s.memory)) := by
  have hstop : ∀ a ∈ s.memory.rdmaMem, a.offset + a.size < 2 ^ 64 := fun a ha =>
    lt_of_le_of_lt (hkept.mem_free ha) hkept.lt
  rcases internalAlloc_firstFit hkept.free hstop size with
    ⟨pre, a, post, hsplit, hsize, hfirst, hcall⟩ | ⟨hsmall, hcall⟩
  · refine Or.inl ⟨pre, a, post, hsplit, hsize, ?_, hcall⟩
    rw [hsplit, List.find?_eq_some_iff_append]
    refine ⟨decide_eq_true hsize, pre, post, rfl, fun b hb => ?_⟩
    have hlt := hfirst b hb
    simpa using hlt
  · refine Or.inr ⟨List.find?_eq_none.mpr fun a ha => ?_, hcall⟩
    have hlt := hsmall a ha
    simpa using hlt

/-- **A new handle begins where none does.** -/
theorem Kept.take {pre post : List RdmaMem} {a : RdmaMem} (hkept : Kept s)
    (hsplit : s.memory.rdmaMem = pre ++ a :: post) (hsize : size ≤ a.size)
    (hapart : ∀ h ∈ s.held, h.offset ≠ a.offset) :
    Kept ⟨s.memory.take size pre a post, RdmaMem.init size false a.offset ::ₘ s.held⟩ := by
  obtain ⟨hcover, htotal⟩ := take_measure hsize
  have hstop := hkept.mem_free (a := a) (by simp [hsplit])
  have hmem : ∀ b ∈ pre ++ (remainder size a ++ post), b ∈ s.memory.rdmaMem ∨
      (b = RdmaMem.init (a.size - size) true (a.offset + size) ∧ size < a.size) := by
    intro b hb
    rw [hsplit]
    simp only [List.mem_append, List.mem_cons] at hb ⊢
    rcases hb with hb | hb | hb
    · exact Or.inl (Or.inl hb)
    · exact Or.inr (remainder_mem hb)
    · exact Or.inl (Or.inr (Or.inr hb))
  refine ⟨hkept.lt, fun p => ?_, ?_, ?_, fun b hb => ?_, fun b hb => ?_, fun h hh => ?_, ?_⟩
  · have hold := hkept.cover p
    have hpart := hcover p
    simp only [hsplit, BaseMemory.take, ← Multiset.coe_add, ← Multiset.cons_coe,
      ← Multiset.singleton_add, cover_add] at hold ⊢
    refine Eq.trans ?_ hold
    omega
  · have hold := hkept.total
    simp only [hsplit, BaseMemory.take, ← Multiset.coe_add, ← Multiset.cons_coe, total_add,
      total_cons, RdmaMem.len_eq, RdmaMem.init] at hold ⊢
    omega
  · have hold := hkept.rising
    simp only [Rising, hsplit, BaseMemory.take, List.pairwise_append, List.pairwise_cons,
      List.mem_append, List.mem_cons, RdmaMem.len_eq, RdmaMem.stop_eq, RdmaMem.start_eq] at hold ⊢
    obtain ⟨hpre, ⟨hafter, hpost⟩, hcross⟩ := hold
    refine ⟨hpre, ⟨?_, hpost, fun x hx b hb hbpos => ?_⟩, fun c hc x hx hxpos => ?_⟩
    · -- at most one segment is left over
      unfold remainder
      split_ifs
      · exact List.pairwise_singleton _ _
      · exact List.Pairwise.nil
    · obtain ⟨rfl, hlt⟩ := remainder_mem hx
      have hb := hafter b hb hbpos
      simp only [RdmaMem.init]
      omega
    · rcases hx with hx | hx
      · obtain ⟨rfl, hlt⟩ := remainder_mem hx
        have hc := hcross c hc a (Or.inl rfl) (by omega)
        simp only [RdmaMem.init]
        omega
      · exact hcross c hc x (Or.inr hx) hxpos
  · rcases hmem b hb with hb | ⟨rfl, -⟩
    · exact hkept.free b hb
    · rfl
  · rcases Multiset.mem_add.mp hb with hb | hb
    · rcases hmem b (Multiset.mem_coe.mp hb) with hb | ⟨rfl, hlt⟩
      · exact hkept.mem_free hb
      · show a.offset + size + (a.size - size) ≤ s.memory.memSize
        omega
    · rcases Multiset.mem_cons.mp hb with rfl | hb
      · show a.offset + size ≤ s.memory.memSize
        omega
      · exact hkept.mem_held hb
  · show (s.memory.usedRdmaMem.insert a.offset _).lookup h.offset = some h
    rcases Multiset.mem_cons.mp hh with rfl | hh
    · exact Finmap.lookup_insert _
    · rw [Finmap.lookup_insert_of_ne _ (hapart h hh)]
      exact hkept.recorded h hh
  · rw [Multiset.map_cons, Multiset.nodup_cons]
    refine ⟨fun hbad => ?_, hkept.distinct⟩
    obtain ⟨h, hh, hoff⟩ := Multiset.mem_map.mp hbad
    exact hapart h hh hoff

/-! ## The end of a handle -/

theorem takeWhile_append_sublist {p : RdmaMem → Bool} {pre post : List RdmaMem}
    (h : ∀ a ∈ post.head?, p a = false) : ((pre ++ post).takeWhile p).Sublist pre := by
  induction pre with
  | nil =>
      cases post with
      | nil => exact List.Sublist.refl _
      | cons a post =>
          rw [List.nil_append, List.takeWhile_cons_of_neg]
          rw [h a rfl]
          exact Bool.false_ne_true
  | cons a pre ih =>
      rw [List.cons_append]
      by_cases ha : p a = true
      · rw [List.takeWhile_cons_of_pos ha]
        exact ih.cons_cons a
      · rw [List.takeWhile_cons_of_neg ha]
        exact List.nil_sublist _

/-- **There is a place in the free list** for a handle that is freed. -/
theorem Kept.exists_place (hkept : Kept s) (hapart : Apart s (.free handle)) :
    ∃ pre post, s.memory.rdmaMem = pre ++ post ∧ (∀ a ∈ pre, a.offset ≤ handle.offset) ∧
      (∀ a ∈ post.head?, handle.offset < a.offset) ∧
      BaseMemory.free handle.offset s.memory =
        (.ok (), s.memory.putBack handle.offset pre post) := by
  rcases free_firstPlace hkept.total_lt handle.offset with
    ⟨pre, post, hsplit, hstops, hle, hfree⟩ | ⟨hnone, -⟩
  · exact ⟨pre, post, hsplit, hle, hstops.2, hfree⟩
  · exact absurd (stops_takeWhile hapart) (hnone _ _ List.takeWhile_append_dropWhile.symm)

/-- The handle fits in where the free list is split at its offset. -/
theorem Kept.rising_insert {pre post : List RdmaMem} (hkept : Kept s) (hheld : handle ∈ s.held)
    (hsplit : s.memory.rdmaMem = pre ++ post) (hpre : ∀ a ∈ pre, a.offset ≤ handle.offset)
    (hpost : ∀ a ∈ post.head?, handle.offset < a.offset) :
    Rising (pre ++ { handle with free := true } :: post) := by
  have hold := hkept.rising
  rw [hsplit, Rising, List.pairwise_append] at hold
  -- what comes after the place begins past the offset
  have hafter : ∀ b ∈ post, 0 < b.size → handle.offset < b.offset := by
    intro b hb hbpos
    cases post with
    | nil => exact absurd hb List.not_mem_nil
    | cons c rest =>
        have hc := hpost c rfl
        rcases List.mem_cons.mp hb with rfl | hb
        · exact hc
        · have hle := (List.pairwise_cons.mp hold.2.1).1 b hb hbpos
          simp only [RdmaMem.stop_eq, RdmaMem.start_eq] at hle
          omega
  refine List.pairwise_append.mpr ⟨hold.1, List.pairwise_cons.mpr ⟨fun b hb hbpos => ?_, hold.2.1⟩,
    fun a ha b hb hbpos => ?_⟩
  · have hlt := hafter b hb hbpos
    show handle.offset + handle.size ≤ b.offset
    rcases Nat.eq_zero_or_pos handle.size with hz | hpos
    · omega
    · have hb' : b ∈ s.memory.rdmaMem := by simp [hsplit, hb]
      rcases stop_le_or_stop_le hbpos hpos (hkept.free_held hb' hheld) with hstop | hstop
      · simp only [RdmaMem.stop_eq, RdmaMem.start_eq] at hstop
        omega
      · exact hstop
  · rcases List.mem_cons.mp hb with rfl | hb
    · show a.offset + a.size ≤ handle.offset
      exact hkept.stop_le (by simp [hsplit, ha]) hheld hbpos (hpre a ha)
    · exact hold.2.2 a ha b hb hbpos

theorem Kept.released (hkept : Kept s) (hheld : handle ∈ s.held) :
    s.memory.released handle.offset = { handle with free := true } := by
  unfold BaseMemory.released
  rw [hkept.recorded handle hheld]
  rfl

theorem Kept.mem_insert {pre post : List RdmaMem} (hkept : Kept s) (hheld : handle ∈ s.held)
    (hsplit : s.memory.rdmaMem = pre ++ post) {a : RdmaMem}
    (ha : a ∈ pre ++ { handle with free := true } :: post) :
    a.free = true ∧ a.offset + a.size ≤ s.memory.memSize := by
  have hin : a ∈ s.memory.rdmaMem ∨ a = { handle with free := true } := by
    rw [hsplit]
    simp only [List.mem_append, List.mem_cons] at ha ⊢
    tauto
  rcases hin with hfree | rfl
  · exact ⟨hkept.free a hfree, hkept.mem_free hfree⟩
  · refine ⟨rfl, ?_⟩
    show handle.offset + handle.size ≤ s.memory.memSize
    exact hkept.mem_held hheld

theorem Kept.total_insert {pre post : List RdmaMem} (hkept : Kept s) (hheld : handle ∈ s.held)
    (hsplit : s.memory.rdmaMem = pre ++ post) :
    Extent.total ((pre ++ { handle with free := true } :: post : List RdmaMem) : Multiset RdmaMem) +
      Extent.total (s.held.erase handle) = s.memory.memSize := by
  have htotal := hkept.total
  rw [← Multiset.cons_erase hheld] at htotal
  simp only [hsplit, ← Multiset.coe_add, ← Multiset.cons_coe, total_add, total_cons,
    RdmaMem.len_eq] at htotal ⊢
  omega

/-- No size of the list wraps. -/
theorem Kept.unwrapped_insert {pre post : List RdmaMem} (hkept : Kept s) (hheld : handle ∈ s.held)
    (hsplit : s.memory.rdmaMem = pre ++ post) :
    Unwrapped (pre ++ { handle with free := true } :: post) := by
  have hlt := hkept.lt
  refine ⟨?_, fun a ha => ?_⟩
  · have htotal := hkept.total_insert hheld hsplit
    omega
  · exact lt_of_le_of_lt (hkept.mem_insert hheld hsplit ha).2 hlt

/-- What `free` leaves is the list with the handle, its neighbours joined. -/
theorem Kept.joins {pre post : List RdmaMem} (hkept : Kept s) (hheld : handle ∈ s.held)
    (hsplit : s.memory.rdmaMem = pre ++ post) :
    Joins (pre ++ { handle with free := true } :: post)
        (s.memory.putBack handle.offset pre post).rdmaMem ∧
      ∀ x ∈ (s.memory.putBack handle.offset pre post).rdmaMem,
        ∃ a ∈ pre ++ { handle with free := true } :: post,
          x.free = a.free ∧ x.offset = a.offset ∧ a.size ≤ x.size := by
  have hlist : (s.memory.putBack handle.offset pre post).rdmaMem =
      mergeFreeMem pre.reverse { handle with free := true } post := by
    rw [← hkept.released hheld]
    rfl
  have hunwrapped := hkept.unwrapped_insert hheld hsplit
  rw [← List.reverse_reverse pre] at hunwrapped
  obtain ⟨hjoins, hgrown, -⟩ := mergeFreeMem_spec hunwrapped
  rw [List.reverse_reverse] at hjoins hgrown
  rw [hlist]
  exact ⟨hjoins, hgrown⟩

/-- **A handle that is freed gives back its bytes.** -/
theorem Kept.cover_putBack {pre post : List RdmaMem} (hkept : Kept s) (hheld : handle ∈ s.held)
    (hsplit : s.memory.rdmaMem = pre ++ post) (p : ℕ) :
    Extent.cover ((s.memory.putBack handle.offset pre post).rdmaMem : Multiset RdmaMem) p =
      Extent.cover (s.memory.rdmaMem : Multiset RdmaMem) p + if Holds handle p then 1 else 0 := by
  rw [(hkept.joins hheld hsplit).1.measure.1 p, hsplit]
  simp only [← Multiset.coe_add, ← Multiset.cons_coe, cover_add, cover_cons]
  rw [Nat.add_assoc]
  rfl

/-- And is none of the handles that are left. -/
theorem Kept.putBack {pre post : List RdmaMem} (hkept : Kept s) (hheld : handle ∈ s.held)
    (hsplit : s.memory.rdmaMem = pre ++ post) (hpre : ∀ a ∈ pre, a.offset ≤ handle.offset)
    (hpost : ∀ a ∈ post.head?, handle.offset < a.offset) :
    Kept ⟨s.memory.putBack handle.offset pre post, s.held.erase handle⟩ := by
  obtain ⟨hjoins, hgrown⟩ := hkept.joins hheld hsplit
  have hnew : ∀ p, Extent.cover (((s.memory.putBack handle.offset pre post).rdmaMem :
      Multiset RdmaMem) + s.held.erase handle) p = if p < s.memory.memSize then 1 else 0 := by
    intro p
    have hold := hkept.cover p
    rw [cover_add, ← Multiset.cons_erase hheld, cover_cons] at hold
    rw [cover_add, hkept.cover_putBack hheld hsplit]
    refine Eq.trans ?_ hold
    omega
  refine ⟨hkept.lt, hnew, ?_, ?_, fun x hx => ?_, fun x hx => ?_, fun h hh => ?_, ?_⟩
  · rw [total_add, hjoins.measure.2]
    exact hkept.total_insert hheld hsplit
  · exact hjoins.rising (hkept.rising_insert hheld hsplit hpre hpost)
  · obtain ⟨a, ha, hfree, -⟩ := hgrown x hx
    rw [hfree]
    exact (hkept.mem_insert hheld hsplit ha).1
  · rcases Multiset.mem_add.mp hx with hfree | hheld'
    · show x.offset + x.size ≤ s.memory.memSize
      rcases Nat.eq_zero_or_pos x.size with hz | hpos
      · -- an empty segment is where one was before
        obtain ⟨a, ha, -, hoff, hle⟩ := hgrown x (Multiset.mem_coe.mp hfree)
        have hin := (hkept.mem_insert hheld hsplit ha).2
        omega
      · -- the last byte of the others is a byte of the buffer
        have hlast : 0 < Extent.cover (((s.memory.putBack handle.offset pre post).rdmaMem :
            Multiset RdmaMem) + s.held.erase handle) (x.offset + x.size - 1) := by
          refine cover_pos.mpr ⟨x, hx, ?_⟩
          simp only [Holds, RdmaMem.stop_eq, RdmaMem.start_eq]
          omega
        rw [hnew] at hlast
        split_ifs at hlast <;> omega
    · exact hkept.mem_held (Multiset.mem_of_mem_erase hheld')
  · show (s.memory.usedRdmaMem.erase handle.offset).lookup h.offset = some h
    rw [Finmap.lookup_erase_ne (hkept.offset_ne hheld hh)]
    exact hkept.recorded h (Multiset.mem_of_mem_erase hh)
  · have hdistinct := hkept.distinct
    rw [← Multiset.cons_erase hheld, Multiset.map_cons, Multiset.nodup_cons] at hdistinct
    exact hdistinct.2

/-! ## Runs -/

/-- **A call that is `Apart`** keeps what is kept. -/
theorem Kept.step (hkept : Kept s) (henabled : s.Enabled call) (hapart : s.Apart call) :
    Kept (s.exec call) := by
  cases call with
  | internalAlloc size =>
      rcases hkept.internalAlloc_cases size with ⟨pre, a, post, hsplit, hsize, hfind, hcall⟩ | ⟨-, hcall⟩
      · unfold exec
        dsimp only
        rw [hcall]
        exact hkept.take hsplit hsize (hapart a hfind)
      · unfold exec
        dsimp only
        rw [hcall]
        exact hkept
  | free handle =>
      obtain ⟨pre, post, hsplit, hpre, hpost, hfree⟩ := hkept.exists_place hapart
      unfold exec
      dsimp only
      rw [hfree]
      exact hkept.putBack henabled hsplit hpre hpost

/-- **Handles are exclusive exactly where a call is `Apart`.** -/
theorem Kept.exclusive_iff (hkept : Kept s) (henabled : s.Enabled call) :
    s.Exclusive call ↔ s.Apart call := by
  cases call with
  | internalAlloc size =>
      rcases hkept.internalAlloc_cases size with ⟨pre, a, post, hsplit, hsize, hfind, hcall⟩ | ⟨hnone, hcall⟩
      · unfold Exclusive Apart
        dsimp only
        rw [hfind, hcall]
        constructor
        · intro hexclusive b hb h hh
          obtain rfl := Option.some.inj hb
          exact (hexclusive _ _ rfl rfl h hh).1
        · rintro hapart seg m heq - h hh
          obtain ⟨rfl, rfl⟩ : RdmaMem.init size false a.offset = seg ∧
              s.memory.take size pre a post = m := by simpa using heq
          exact ⟨hapart a rfl h hh, Finmap.lookup_insert_of_ne _ (hapart a rfl h hh)⟩
      · unfold Exclusive Apart
        dsimp only
        rw [hnone, hcall]
        refine ⟨fun _ b hb => absurd hb (by simp), fun _ seg m heq hnull => ?_⟩
        obtain ⟨rfl, -⟩ : RdmaMem.null = seg ∧ s.memory = m := by simpa using heq
        exact absurd hnull (by decide)
  | free handle =>
      constructor
      · -- a `free` that returns has found a place
        rintro ⟨hok, -⟩
        rcases free_firstPlace hkept.total_lt handle.offset with
          ⟨pre, post, hsplit, ⟨hle, hhead⟩, -, -⟩ | ⟨-, hfree⟩
        · refine le_trans (total_le_total ?_) hle
          rw [hsplit, Multiset.coe_le]
          refine (takeWhile_append_sublist fun a ha => ?_).subperm
          have hlt := hhead a ha
          simpa using hlt
        · rw [hfree] at hok
          exact absurd hok (by simp)
      · intro hapart
        obtain ⟨pre, post, hsplit, hpre, hpost, hfree⟩ := hkept.exists_place hapart
        unfold Exclusive
        dsimp only
        rw [hfree]
        refine ⟨rfl, fun p => ⟨hkept.cover_putBack henabled hsplit p, fun h hh => ?_⟩⟩
        exact hkept.held_held henabled hh p

/-- Callers that ask for at least one byte. -/
theorem Kept.apart_of_positive (hkept : Kept s) (hheld : ∀ h ∈ s.held, 0 < h.size)
    (henabled : s.Enabled call) (hpositive : s.Positive call) : s.Apart call := by
  cases call with
  | internalAlloc size =>
      intro a ha h hh hbad
      have hmem := List.mem_of_find?_eq_some ha
      have hsize : size ≤ a.size := by simpa using List.find?_some ha
      have hpos : 0 < size := hpositive
      have hhpos := hheld h hh
      -- the first byte of the handle would be free too
      refine hkept.free_held hmem hh a.offset ⟨⟨le_rfl, ?_⟩, ⟨?_, ?_⟩⟩
      · show a.offset < a.offset + a.size
        omega
      · show h.offset ≤ a.offset
        omega
      · show a.offset < h.offset + h.size
        omega
  | free handle =>
      have hin : handle ∈ s.held := henabled
      have hord := hkept.rising.ordered
      rw [← List.takeWhile_append_dropWhile (p := fun a : RdmaMem => decide (a.offset ≤ handle.offset))
        (l := s.memory.rdmaMem)] at hord
      refine total_le_of_stop_le (List.pairwise_append.mp hord).1 fun a ha _ => ?_
      have hle : a.offset ≤ handle.offset := by simpa using List.mem_takeWhile_imp ha
      exact hkept.stop_le (List.takeWhile_subset _ ha) hin (hheld handle hin) hle

theorem kept_invariant : (handles.restrict Apart).Invariant Kept where
  init _ hinit := kept_init hinit
  step s call s' _ hkept hstep := by
    obtain ⟨hapart, henabled, rfl⟩ := hstep
    exact hkept.step henabled hapart

theorem positive_invariant :
    (handles.restrict Positive).Invariant fun s => Kept s ∧ ∀ h ∈ s.held, 0 < h.size where
  init s hinit := by
    refine ⟨kept_init hinit, fun h hh => ?_⟩
    rw [hinit.2] at hh
    exact absurd hh (Multiset.notMem_zero h)
  step s call s' _ hinv hstep := by
    obtain ⟨hkept, hheld⟩ := hinv
    obtain ⟨hpositive, henabled, rfl⟩ := hstep
    refine ⟨hkept.step henabled (hkept.apart_of_positive hheld henabled hpositive), fun h hh => ?_⟩
    cases call with
    | internalAlloc size =>
        unfold exec at hh
        dsimp only at hh
        rcases hkept.internalAlloc_cases size with ⟨pre, a, post, -, -, -, hcall⟩ | ⟨-, hcall⟩
        · rw [hcall] at hh
          rcases Multiset.mem_cons.mp hh with rfl | hh
          · exact hpositive
          · exact hheld h hh
        · rw [hcall] at hh
          exact hheld h hh
    | free handle => exact hheld h (Multiset.mem_of_mem_erase hh)

/-- **Handles are exclusive exactly in the runs whose calls are `Apart`**,
which are all calls of callers that ask for at least one byte. -/
theorem exclusive_iff_apart (s : Holding) (call : HandleCall) (henabled : s.Enabled call) :
    ((handles.restrict Apart).Reachable s → (s.Exclusive call ↔ s.Apart call)) ∧
      ((handles.restrict Positive).Reachable s → s.Positive call →
        s.Apart call ∧ s.Exclusive call) := by
  refine ⟨fun hreach => (kept_invariant.reachable hreach).exclusive_iff henabled,
    fun hreach hpositive => ?_⟩
  obtain ⟨hkept, hheld⟩ := positive_invariant.reachable hreach
  have hapart := hkept.apart_of_positive hheld henabled hpositive
  exact ⟨hapart, (hkept.exclusive_iff henabled).mpr hapart⟩

/-- A handle of no bytes at the start of a buffer. -/
def zeroHandle : RdmaMem := RdmaMem.init 0 false 0

/-- Calls on a buffer of 64 bytes. -/
def after (calls : List HandleCall) : Holding := calls.foldl exec ⟨new 4096 64, 0⟩

theorem after_reachable {calls : List HandleCall}
    (h : System.MeetsAlong (fun s call => s.Positive call ∧ s.Enabled call) exec ⟨new 4096 64, 0⟩ calls) :
    (handles.restrict Positive).Reachable (after calls) := by
  refine System.Reachable.along (.init ⟨⟨4096, 64, by omega, by omega, by omega, rfl⟩, rfl⟩) (h.steps ?_)
  intro s call hmeets
  exact ⟨hmeets.1, hmeets.2, rfl⟩

/-- Two handles of eight bytes: the first may be freed. -/
theorem exclusive_iff_apart_after_two_calls :
    (after [.internalAlloc 8, .internalAlloc 8]).Exclusive (.free (RdmaMem.init 8 false 0)) := by
  have hreach : (handles.restrict Positive).Reachable (after [.internalAlloc 8, .internalAlloc 8]) :=
    after_reachable ⟨⟨Nat.succ_pos 7, trivial⟩, ⟨Nat.succ_pos 7, trivial⟩, trivial⟩
  have hheld : RdmaMem.init 8 false 0 ∈ (after [.internalAlloc 8, .internalAlloc 8]).held := by
    decide +kernel
  exact ((exclusive_iff_apart _ (.free (RdmaMem.init 8 false 0)) hheld).2 hreach trivial).2

/-- **A handle of no bytes is not exclusive**: it cannot be freed, the next
request is served at its offset, and then its end is the end of the other
one. -/
theorem zero_handles_clash :
    handles.Reachable (after [.internalAlloc 0]) ∧
      (after [.internalAlloc 0]).held = {zeroHandle} ∧
      ¬ (after [.internalAlloc 0]).Exclusive (.free zeroHandle) ∧
      ¬ (after [.internalAlloc 0]).Exclusive (.internalAlloc 8) ∧
      (after [.internalAlloc 0, .internalAlloc 8, .free zeroHandle]).memory.layout = [(0, 64)] ∧
      (after [.internalAlloc 0, .internalAlloc 8, .free zeroHandle]).held =
        {RdmaMem.init 8 false 0} := by
  have hfresh : handles.Reachable ⟨new 4096 64, 0⟩ :=
    .init ⟨⟨4096, 64, by omega, by omega, by omega, rfl⟩, rfl⟩
  refine ⟨hfresh.step (l := .internalAlloc 0) ⟨trivial, rfl⟩, by decide +kernel, ?_, ?_,
    by decide +kernel, by decide +kernel⟩
  · rintro ⟨hok, -⟩
    have hthrows : (free zeroHandle.offset (after [.internalAlloc 0]).memory).1 =
        .error (.runtimeError "Did not free any internal memory!") := by rfl
    rw [hthrows] at hok
    exact absurd hok (by simp)
  · intro hexclusive
    have hheld : zeroHandle ∈ (after [.internalAlloc 0]).held := by decide +kernel
    exact (hexclusive (RdmaMem.init 8 false 0) _ rfl rfl zeroHandle hheld).1 rfl

end Holding

end RdmaManager
