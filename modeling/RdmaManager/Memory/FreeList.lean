import RdmaManager.Memory.BaseMemory
/-!
# `BaseMemory`: what the loops over the free list compute

One lemma for each loop. `mergeFreeMem` joins the handed-in element with
the neighbours it touches and no others; `freeScan` inserts at the first
place that `Stops` allows; `allocScan` splits the first element that is
large enough. All three are stated for lists whose sizes add up to less
than `2 ^ 64`, where no sum the source forms wraps.
-/

namespace RdmaManager

namespace BaseMemory

open Extent

variable {before pre post l r : List RdmaMem} {el prev next cur a : RdmaMem} {offset last fs size : ℕ}

/-! ## `mergeFreeMem` -/

theorem mergePrev_of_touch (h : prev.offset + prev.size = el.offset) (hel : el.offset < 2 ^ 64)
    (hsize : el.size + prev.size < 2 ^ 64) :
    mergePrev (prev :: before) el =
      (before, { prev with size := el.size + prev.size }, el.size + prev.size) := by
  rw [mergePrev, wrap64_of_lt (by omega), if_pos h, wrap64_of_lt hsize]

theorem mergePrev_of_apart (h : prev.offset + prev.size ≠ el.offset)
    (hprev : prev.offset + prev.size < 2 ^ 64) :
    mergePrev (prev :: before) el = (prev :: before, el, el.size) := by
  rw [mergePrev, wrap64_of_lt hprev, if_neg h]

theorem mergeNext_of_touch (h : el.offset + el.size = next.offset) (hnext : next.offset < 2 ^ 64)
    (hsize : fs + next.size < 2 ^ 64) :
    mergeNext el.offset el.size cur fs (next :: post) =
      { cur with size := fs + next.size } :: post := by
  rw [mergeNext, wrap64_of_lt (by omega), if_pos h, wrap64_of_lt hsize]

theorem mergeNext_of_apart (h : el.offset + el.size ≠ next.offset)
    (hel : el.offset + el.size < 2 ^ 64) :
    mergeNext el.offset el.size cur fs (next :: post) = cur :: next :: post := by
  rw [mergeNext, wrap64_of_lt hel, if_neg h]

/-- What the first half leaves: the iterator's element still stops where
the handed-in one does, and `freeSpace` is its size. -/
structure PrevMerged (before : List RdmaMem) (el : RdmaMem) (after before' : List RdmaMem)
    (cur : RdmaMem) (fs : ℕ) : Prop where
  joins : Joins (before.reverse ++ el :: after) (before'.reverse ++ cur :: after)
  space : fs = cur.size
  stop : cur.offset + cur.size = el.offset + el.size
  sub : ∀ a ∈ before', a ∈ before
  grown : ∃ a ∈ el :: before, cur.free = a.free ∧ cur.offset = a.offset ∧ a.size ≤ cur.size
  gapped : Gapped before.reverse → (∀ a ∈ before, a.offset + a.size ≤ el.offset) → 0 < el.size →
    Gapped before'.reverse ∧ 0 < cur.size ∧ ∀ a ∈ before', a.offset + a.size < cur.offset

theorem mergePrev_spec (after : List RdmaMem) (hel : el.offset + el.size < 2 ^ 64)
    (hbefore : ∀ a ∈ before, a.offset + a.size < 2 ^ 64)
    (hsize : ∀ a ∈ before, el.size + a.size < 2 ^ 64) {before' : List RdmaMem}
    (h : mergePrev before el = (before', cur, fs)) : PrevMerged before el after before' cur fs := by
  rcases before with - | ⟨prev, rest⟩
  · obtain ⟨rfl, rfl, rfl⟩ : [] = before' ∧ el = cur ∧ el.size = fs := by
      simpa [mergePrev] using h
    exact ⟨Joins.refl _, rfl, rfl, fun a ha => ha, ⟨el, by simp, rfl, rfl, le_rfl⟩,
      fun hgap _ hpos => ⟨hgap, hpos, by simp⟩⟩
  by_cases htouch : prev.offset + prev.size = el.offset
  · rw [mergePrev_of_touch htouch (by omega) (hsize prev List.mem_cons_self)] at h
    obtain ⟨rfl, rfl, rfl⟩ : rest = before' ∧ { prev with size := el.size + prev.size } = cur ∧
        el.size + prev.size = fs := by simpa using h
    refine ⟨?_, rfl, ?_, fun a ha => List.mem_cons_of_mem _ ha, ⟨prev, by simp, rfl, rfl, ?_⟩, ?_⟩
    · rw [List.reverse_cons, List.append_assoc, List.singleton_append]
      refine Joins.pair rest.reverse after ?_ rfl ?_
      · exact htouch.symm
      · simp only [RdmaMem.stop_eq]
        omega
    · simp only
      omega
    · simp only
      omega
    · intro hgap _ hpos
      rw [List.reverse_cons] at hgap
      obtain ⟨hrest, -, -, hbelow, -⟩ := gapped_append_cons.mp hgap
      refine ⟨hrest, by simp only; omega, fun a ha => ?_⟩
      exact hbelow a (List.mem_reverse.mpr ha)
  · rw [mergePrev_of_apart htouch (hbefore prev List.mem_cons_self)] at h
    obtain ⟨rfl, rfl, rfl⟩ : prev :: rest = before' ∧ el = cur ∧ el.size = fs := by simpa using h
    refine ⟨Joins.refl _, rfl, rfl, fun a ha => ha, ⟨el, by simp, rfl, rfl, le_rfl⟩, ?_⟩
    intro hgap hle hpos
    refine ⟨hgap, hpos, fun a ha => ?_⟩
    have hprev := hle prev List.mem_cons_self
    rcases List.mem_cons.mp ha with rfl | ha
    · omega
    · rw [List.reverse_cons] at hgap
      obtain ⟨-, -, hlen, hbelow, -⟩ := gapped_append_cons.mp hgap
      have := hbelow a (List.mem_reverse.mpr ha)
      simp only [RdmaMem.stop_eq, RdmaMem.start_eq, RdmaMem.len_eq] at this hlen
      omega

/-- What the second half leaves of an element that stops where the
handed-in one does. -/
theorem mergeNext_spec (hel : el.offset + el.size < 2 ^ 64)
    (hafter : ∀ a ∈ post, a.offset < 2 ^ 64 ∧ cur.size + a.size < 2 ^ 64)
    (hstop : cur.offset + cur.size = el.offset + el.size) :
    Joins (cur :: post) (mergeNext el.offset el.size cur cur.size post) ∧
      (∀ x ∈ mergeNext el.offset el.size cur cur.size post,
        ∃ a ∈ cur :: post, x.free = a.free ∧ x.offset = a.offset ∧ a.size ≤ x.size) ∧
      (Gapped post → (∀ a ∈ post, el.offset + el.size ≤ a.offset) → 0 < cur.size →
        Gapped (mergeNext el.offset el.size cur cur.size post) ∧
          ∀ x ∈ mergeNext el.offset el.size cur cur.size post, cur.offset ≤ x.offset) := by
  rcases post with - | ⟨next, rest⟩
  · refine ⟨Joins.refl _, fun x hx => ⟨x, hx, rfl, rfl, le_rfl⟩, fun _ _ hpos => ?_⟩
    exact ⟨gapped_cons.mpr ⟨⟨by simp, List.Pairwise.nil⟩, hpos, by simp⟩, by simp [mergeNext]⟩
  have hnext := hafter next List.mem_cons_self
  by_cases htouch : el.offset + el.size = next.offset
  · rw [mergeNext_of_touch htouch hnext.1 hnext.2]
    refine ⟨?_, fun x hx => ?_, fun hgap hle hpos => ?_⟩
    · refine Joins.pair [] rest ?_ rfl ?_
      · simp only [RdmaMem.stop_eq, RdmaMem.start_eq]
        omega
      · simp only [RdmaMem.stop_eq]
        omega
    · rcases List.mem_cons.mp hx with rfl | hx
      · exact ⟨cur, List.mem_cons_self, rfl, rfl, Nat.le_add_right _ _⟩
      · exact ⟨x, List.mem_cons_of_mem _ (List.mem_cons_of_mem _ hx), rfl, rfl, le_rfl⟩
    · obtain ⟨hrest, hlen, habove⟩ := gapped_cons.mp hgap
      simp only [RdmaMem.stop_eq, RdmaMem.start_eq, RdmaMem.len_eq] at habove hlen
      refine ⟨gapped_cons.mpr ⟨hrest, ?_, fun b hb => ?_⟩, ?_⟩
      · simp only [RdmaMem.len_eq]
        omega
      · have := habove b hb
        simp only [RdmaMem.stop_eq, RdmaMem.start_eq]
        omega
      · intro x hx
        rcases List.mem_cons.mp hx with rfl | hx
        · exact le_rfl
        · have := hle x (List.mem_cons_of_mem _ hx)
          omega
  · rw [mergeNext_of_apart htouch hel]
    refine ⟨Joins.refl _, fun x hx => ⟨x, hx, rfl, rfl, le_rfl⟩, fun hgap hle hpos => ?_⟩
    obtain ⟨-, hlen, habove⟩ := gapped_cons.mp hgap
    simp only [RdmaMem.stop_eq, RdmaMem.start_eq, RdmaMem.len_eq] at habove hlen
    have hfirst := hle next List.mem_cons_self
    refine ⟨gapped_cons.mpr ⟨hgap, hpos, fun b hb => ?_⟩, ?_⟩
    · simp only [RdmaMem.stop_eq, RdmaMem.start_eq]
      rcases List.mem_cons.mp hb with rfl | hb
      · omega
      · have := habove b hb
        omega
    · intro x hx
      rcases List.mem_cons.mp hx with rfl | hx
      · exact le_rfl
      · have := hle x hx
        omega

/-- No sum of the source over these segments wraps. -/
structure Unwrapped (l : List RdmaMem) : Prop where
  total : total (l : Multiset RdmaMem) < 2 ^ 64
  stop : ∀ a ∈ l, a.offset + a.size < 2 ^ 64

/-- **`mergeFreeMem` joins neighbours that touch**, every segment it
leaves is one it was given, grown, and between gapped lists it leaves a
gapped list. -/
theorem mergeFreeMem_spec (h : Unwrapped (before.reverse ++ el :: post)) :
    Joins (before.reverse ++ el :: post) (mergeFreeMem before el post) ∧
      (∀ x ∈ mergeFreeMem before el post, ∃ a ∈ before.reverse ++ el :: post,
        x.free = a.free ∧ x.offset = a.offset ∧ a.size ≤ x.size) ∧
      (Gapped before.reverse → Gapped post → 0 < el.size →
        (∀ a ∈ before, a.offset + a.size ≤ el.offset) →
        (∀ a ∈ post, el.offset + el.size ≤ a.offset) → Gapped (mergeFreeMem before el post)) := by
  obtain ⟨htotal, hstop⟩ := h
  have hmem : ∀ a, a ∈ before ∨ a = el ∨ a ∈ post → a.offset + a.size < 2 ^ 64 := by
    intro a ha
    refine hstop a ?_
    simpa using ha
  simp only [← Multiset.coe_add, ← Multiset.cons_coe, total_add, total_cons, RdmaMem.len_eq,
    Multiset.coe_reverse] at htotal
  rcases hprev : mergePrev before el with ⟨before', cur, fs⟩
  have hspec : PrevMerged before el post before' cur fs := by
    refine mergePrev_spec post (hmem el (Or.inr (Or.inl rfl))) (fun a ha => hmem a (Or.inl ha))
      (fun a ha => ?_) hprev
    have : a.size ≤ total (before : Multiset RdmaMem) :=
      len_le_total (Multiset.mem_coe.mpr ha)
    omega
  -- the iterator's element is one of the joined list, so it is no larger than the total
  have hcur : ∀ a ∈ post, cur.size + a.size < 2 ^ 64 := by
    intro a ha
    have hjoined := (hspec.joins).measure.2
    have : a.size ≤ total (post : Multiset RdmaMem) := len_le_total (Multiset.mem_coe.mpr ha)
    simp only [← Multiset.coe_add, ← Multiset.cons_coe, total_add, total_cons, RdmaMem.len_eq,
      Multiset.coe_reverse] at hjoined
    omega
  obtain ⟨hjoins, hgrown, hgapped⟩ := mergeNext_spec (hmem el (Or.inr (Or.inl rfl)))
    (fun a ha => ⟨lt_of_le_of_lt (Nat.le_add_right _ _) (hmem a (Or.inr (Or.inr ha))), hcur a ha⟩)
    hspec.stop
  have hresult : mergeFreeMem before el post =
      before'.reverse ++ mergeNext el.offset el.size cur cur.size post := by
    rw [mergeFreeMem, hprev, hspec.space]
  rw [hresult]
  refine ⟨hspec.joins.trans (hjoins.append_left _), fun x hx => ?_, ?_⟩
  · rcases List.mem_append.mp hx with hx | hx
    · refine ⟨x, ?_, rfl, rfl, le_rfl⟩
      exact List.mem_append_left _ (List.mem_reverse.mpr (hspec.sub x (List.mem_reverse.mp hx)))
    · obtain ⟨a, ha, hfree, hoff, hle⟩ := hgrown x hx
      rcases List.mem_cons.mp ha with rfl | ha
      · obtain ⟨b, hb, hfree', hoff', hle'⟩ := hspec.grown
        refine ⟨b, ?_, hfree.trans hfree', hoff.trans hoff', hle'.trans hle⟩
        simp only [List.mem_cons] at hb
        simp only [List.mem_append, List.mem_reverse, List.mem_cons]
        tauto
      · exact ⟨a, by simp [ha], hfree, hoff, hle⟩
  · intro hgbefore hgpost hpos hbelow habove
    obtain ⟨hg', hcurpos, hlt⟩ := hspec.gapped hgbefore hbelow hpos
    obtain ⟨hgnext, hge⟩ := hgapped hgpost habove hcurpos
    refine ⟨fun a ha => ?_, List.pairwise_append.mpr ⟨hg'.gap, hgnext.gap, fun a ha b hb => ?_⟩⟩
    · rcases List.mem_append.mp ha with ha | ha
      · exact hg'.len_pos a ha
      · exact hgnext.len_pos a ha
    · have h1 := hlt a (List.mem_reverse.mp ha)
      have h2 := hge b hb
      simp only [RdmaMem.stop_eq, RdmaMem.start_eq]
      omega

/-! ## `free`'s loop -/

/-- The place between `pre` and `post` is one the loop of `free` inserts
at: the sizes before it add up to at most the offset, and the element
after it, if there is one, starts past it. -/
def Stops (offset : ℕ) (pre post : List RdmaMem) : Prop :=
  total (pre : Multiset RdmaMem) ≤ offset ∧ ∀ a ∈ post.head?, offset < a.offset

/-- Where the elements that start at or before the offset end is a place, if
their sizes allow it. -/
theorem stops_takeWhile
    (h : total ((l.takeWhile fun a => decide (a.offset ≤ offset) : List RdmaMem) : Multiset RdmaMem) ≤
      offset) :
    Stops offset (l.takeWhile fun a => decide (a.offset ≤ offset))
      (l.dropWhile fun a => decide (a.offset ≤ offset)) := by
  refine ⟨h, fun a ha => ?_⟩
  have hnot := List.head?_dropWhile_not (fun a : RdmaMem => decide (a.offset ≤ offset)) l
  rw [Option.mem_def.mp ha] at hnot
  simpa using hnot

theorem freeScan_some (hlast : last + total (l : Multiset RdmaMem) < 2 ^ 64)
    (h : freeScan offset el before last l = some r) :
    ∃ pre post, l = pre ++ post ∧ r = mergeFreeMem (pre.reverse ++ before) el post ∧
      last + total (pre : Multiset RdmaMem) ≤ offset ∧ (∀ a ∈ post.head?, offset < a.offset) ∧
      ∀ (pre₁ : List RdmaMem) (a : RdmaMem) (pre₂ : List RdmaMem), pre = pre₁ ++ a :: pre₂ →
        last + total (pre₁ : Multiset RdmaMem) ≤ offset → a.offset ≤ offset := by
  induction l generalizing before last with
  | nil =>
      simp only [freeScan, Option.ite_none_right_eq_some, Option.some.injEq] at h
      exact ⟨[], [], rfl, h.2.symm, by simpa using h.1, by simp, by simp⟩
  | cons memRes rest ih =>
      rw [← Multiset.cons_coe, total_cons, RdmaMem.len_eq] at hlast
      rw [freeScan] at h
      split_ifs at h with hstop
      · simp only [Option.some.injEq] at h
        exact ⟨[], memRes :: rest, rfl, h.symm, by simpa using hstop.1, by simpa using hstop.2,
          by simp⟩
      · rw [wrap64_of_lt (by omega)] at h
        obtain ⟨pre, post, rfl, rfl, hle, hlt, hfirst⟩ := ih (by omega) h
        refine ⟨memRes :: pre, post, rfl, ?_, ?_, hlt, fun pre₁ a pre₂ hsplit hpre => ?_⟩
        · rw [List.reverse_cons, List.append_assoc, List.singleton_append]
        · rw [← Multiset.cons_coe, total_cons, RdmaMem.len_eq]
          omega
        · rcases pre₁ with - | ⟨c, pre₁⟩
          · obtain ⟨rfl, -⟩ := List.cons.inj hsplit
            by_contra hc
            exact hstop ⟨by simpa using hpre, by omega⟩
          · obtain ⟨rfl, hrest⟩ := List.cons.inj hsplit
            rw [← Multiset.cons_coe, total_cons, RdmaMem.len_eq] at hpre
            exact hfirst pre₁ a pre₂ hrest (by omega)

theorem freeScan_none (hlast : last + total (l : Multiset RdmaMem) < 2 ^ 64)
    (h : freeScan offset el before last l = none) :
    ∀ pre post, l = pre ++ post → last + total (pre : Multiset RdmaMem) ≤ offset →
      ¬ ∀ a ∈ post.head?, offset < a.offset := by
  induction l generalizing before last with
  | nil =>
      intro pre post hsplit hle
      obtain ⟨rfl, rfl⟩ := List.append_eq_nil_iff.mp hsplit.symm
      simp only [freeScan, ite_eq_right_iff, reduceCtorEq, imp_false, not_le] at h
      simp only [Multiset.coe_nil, total_zero, Nat.add_zero] at hle
      omega
  | cons memRes rest ih =>
      rw [← Multiset.cons_coe, total_cons, RdmaMem.len_eq] at hlast
      rw [freeScan] at h
      split_ifs at h with hstop
      rw [wrap64_of_lt (by omega)] at h
      intro pre post hsplit hle
      rcases pre with - | ⟨a, pre⟩
      · rw [List.nil_append] at hsplit
        subst hsplit
        intro hlt
        exact hstop ⟨by simpa using hle, hlt memRes rfl⟩
      · rw [List.cons_append] at hsplit
        obtain ⟨rfl, rfl⟩ := List.cons.inj hsplit
        rw [← Multiset.cons_coe, total_cons, RdmaMem.len_eq] at hle
        exact ih (by omega) h pre post rfl (by omega)

/-- **The loop of `free`** inserts at the first place that `Stops` allows,
and falls through exactly where there is none. -/
theorem freeScan_cases (offset : ℕ) (el : RdmaMem) (hl : total (l : Multiset RdmaMem) < 2 ^ 64) :
    (∃ pre post, l = pre ++ post ∧ Stops offset pre post ∧
        (∀ (pre₁ : List RdmaMem) (a : RdmaMem) (pre₂ : List RdmaMem), pre = pre₁ ++ a :: pre₂ →
          total (pre₁ : Multiset RdmaMem) ≤ offset → a.offset ≤ offset) ∧
        freeScan offset el [] 0 l = some (mergeFreeMem pre.reverse el post)) ∨
      ((∀ pre post, l = pre ++ post → ¬ Stops offset pre post) ∧
        freeScan offset el [] 0 l = none) := by
  cases h : freeScan offset el [] 0 l with
  | some r =>
      obtain ⟨pre, post, hsplit, hr, hle, hlt, hfirst⟩ := freeScan_some (by omega) h
      refine Or.inl ⟨pre, post, hsplit, ⟨by omega, hlt⟩, fun pre₁ a pre₂ hpre hle₁ => ?_, ?_⟩
      · exact hfirst pre₁ a pre₂ hpre (by omega)
      · rw [hr, List.append_nil]
  | none =>
      refine Or.inr ⟨fun pre post hsplit hstops => ?_, rfl⟩
      exact freeScan_none (by omega) h pre post hsplit (by have := hstops.1; omega) hstops.2

/-! ## `internalAlloc`'s loop -/

/-- **The loop of `internalAlloc`** takes the first free element that is
large enough, off its front. -/
theorem allocScan_some (h : allocScan size l = some (a, r)) :
    ∃ pre post, l = pre ++ a :: post ∧ a.free = true ∧ size ≤ a.size ∧
      (∀ b ∈ pre, b.free = true → b.size < size) ∧
      r = pre ++ if size < a.size then
        RdmaMem.init (a.size - size) true (wrap64 (a.offset + size)) :: post else post := by
  induction l generalizing r with
  | nil => simp [allocScan] at h
  | cons memRes rest ih =>
      rw [allocScan] at h
      by_cases hfit : memRes.free ∧ size ≤ memRes.size
      · have hhead : memRes = a ∧ r = if size < memRes.size then
            RdmaMem.init (memRes.size - size) true (wrap64 (memRes.offset + size)) :: rest
            else rest := by
          rw [if_pos hfit] at h
          split_ifs at h ⊢ with hlt <;> simp only [Option.some.injEq, Prod.mk.injEq] at h <;>
            exact ⟨h.1, h.2.symm⟩
        obtain ⟨rfl, rfl⟩ := hhead
        exact ⟨[], rest, rfl, hfit.1, hfit.2, by simp, rfl⟩
      · rw [if_neg hfit, Option.map_eq_some_iff] at h
        obtain ⟨⟨a', r'⟩, hrest, heq⟩ := h
        simp only [Prod.mk.injEq] at heq
        obtain ⟨rfl, rfl⟩ := heq
        obtain ⟨pre, post, rfl, hfree, hsize, hfirst, rfl⟩ := ih hrest
        refine ⟨memRes :: pre, post, rfl, hfree, hsize, fun b hb hbfree => ?_, rfl⟩
        rcases List.mem_cons.mp hb with rfl | hb
        · by_contra hc
          exact hfit ⟨hbfree, by omega⟩
        · exact hfirst b hb hbfree

theorem allocScan_none (h : allocScan size l = none) :
    ∀ a ∈ l, a.free = true → a.size < size := by
  induction l with
  | nil => simp
  | cons memRes rest ih =>
      rw [allocScan] at h
      by_cases hfit : memRes.free ∧ size ≤ memRes.size
      · rw [if_pos hfit] at h
        split_ifs at h
      · rw [if_neg hfit, Option.map_eq_none_iff] at h
        intro a ha hfree
        rcases List.mem_cons.mp ha with rfl | ha
        · by_contra hc
          exact hfit ⟨hfree, by omega⟩
        · exact ih h a ha hfree

end BaseMemory

end RdmaManager
