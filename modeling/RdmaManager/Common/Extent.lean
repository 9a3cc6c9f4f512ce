import Mathlib.Data.Multiset.Count
import Mathlib.Algebra.BigOperators.Group.Multiset.Defs
import Mathlib.Algebra.BigOperators.Group.Multiset.Basic
import Mathlib.Algebra.Order.BigOperators.Group.Multiset
import Mathlib.Algebra.Order.Group.Nat
import Mathlib.Data.List.Pairwise
/-!
# Extents of a line

An extent is a run of consecutive points of `ℕ`, given by where it
starts and how many points it holds. Two measures of a multiset of
extents carry every argument about tilings: `cover`, how many of them
hold a point, and `total`, how many points they hold together. Two
orders on a list do the rest: `Ordered`, in which the nonempty extents
ascend without overlap, and `Gapped`, in which in addition none is empty
and no two touch. A gapped list is the maximal decomposition of the
points it covers, and is determined by them (`exists_of_cover`, `eq_of_cover`).
-/

namespace RdmaManager

/-- **A type of extents.** -/
class Extent (α : Type*) where
  /-- The first point. -/
  start : α → ℕ
  /-- The number of points. -/
  len : α → ℕ

namespace Extent

variable {α : Type*} [Extent α] {a b x y : α} {s t : Multiset α} {l l₁ l₂ : List α} {p n : ℕ}

/-- The first point past the extent. -/
def stop (a : α) : ℕ := start a + len a

/-- The extent holds the point. -/
def Holds (a : α) (p : ℕ) : Prop := start a ≤ p ∧ p < stop a

instance (a : α) : DecidablePred (Holds a) := fun _ => inferInstanceAs (Decidable (_ ∧ _))

instance (p : ℕ) : DecidablePred fun a : α => Holds a p := fun _ => inferInstanceAs (Decidable (_ ∧ _))

/-- How many of the extents hold the point. -/
def cover (s : Multiset α) (p : ℕ) : ℕ := s.countP fun a => Holds a p

/-- How many points the extents hold, each counted as often as it is
held. -/
def total (s : Multiset α) : ℕ := (s.map len).sum

@[simp] theorem cover_zero : cover (0 : Multiset α) p = 0 := Multiset.countP_zero _

@[simp] theorem cover_add : cover (s + t) p = cover s p + cover t p := Multiset.countP_add _ _ _

theorem cover_cons : cover (a ::ₘ s) p = cover s p + if Holds a p then 1 else 0 :=
  Multiset.countP_cons _ _ _

theorem cover_singleton : cover ({a} : Multiset α) p = if Holds a p then 1 else 0 := by
  rw [← Multiset.cons_zero, cover_cons, cover_zero, Nat.zero_add]

@[simp] theorem total_zero : total (0 : Multiset α) = 0 := rfl

@[simp] theorem total_cons : total (a ::ₘ s) = len a + total s := by
  simp [total]

@[simp] theorem total_add : total (s + t) = total s + total t := by
  simp [total]

@[simp] theorem total_singleton : total ({a} : Multiset α) = len a := by
  simp [total]

theorem len_le_total (h : a ∈ s) : len a ≤ total s :=
  Multiset.single_le_sum (fun _ _ => Nat.zero_le _) _ (Multiset.mem_map_of_mem len h)

theorem total_le_total (h : s ≤ t) : total s ≤ total t := by
  obtain ⟨u, rfl⟩ := Multiset.le_iff_exists_add.mp h
  rw [total_add]
  exact Nat.le_add_right _ _

/-- Some extent holds the point exactly when the cover counts it. -/
theorem cover_pos : 0 < cover s p ↔ ∃ a ∈ s, Holds a p := Multiset.countP_pos

/-- An extent whose first part is one and whose second part is the other
covers what the two cover. -/
theorem cover_split (hstart : start x = start a) (hmid : start y = stop x) (hstop : stop y = stop a) :
    cover ({x} : Multiset α) p + cover ({y} : Multiset α) p = cover ({a} : Multiset α) p := by
  simp only [cover_singleton]
  by_cases hx : Holds x p <;> by_cases hy : Holds y p <;> by_cases ha : Holds a p <;>
    simp only [hx, hy, ha, if_true, if_false] <;> simp only [Holds, stop] at * <;> omega

/-- An empty extent covers nothing. -/
theorem cover_singleton_of_empty (h : len a = 0) : cover ({a} : Multiset α) p = 0 := by
  rw [cover_singleton, if_neg]
  simp only [Holds, stop]
  omega

/-- Two disjoint nonempty extents lie one after the other. -/
theorem stop_le_or_stop_le (ha : 0 < len a) (hb : 0 < len b)
    (h : ∀ p, ¬ (Holds a p ∧ Holds b p)) : stop a ≤ start b ∨ stop b ≤ start a := by
  by_contra hc
  refine h (max (start a) (start b)) ⟨⟨le_max_left _ _, ?_⟩, ⟨le_max_right _ _, ?_⟩⟩ <;>
    simp only [stop] at * <;> omega

/-! ## Ordered lists -/

/-- The nonempty extents of the list ascend without overlap. -/
def Ordered (l : List α) : Prop :=
  l.Pairwise fun a b => 0 < len a → 0 < len b → stop a ≤ start b

/-- **The points below a bound bound the total**: an ordered list whose
nonempty extents stop at or below `n` holds at most `n` points. -/
theorem total_le_of_stop_le (h : Ordered l) (hn : ∀ a ∈ l, 0 < len a → stop a ≤ n) :
    total (l : Multiset α) ≤ n := by
  suffices hsuff : ∀ (l : List α) (lo : ℕ), Ordered l → lo ≤ n →
      (∀ a ∈ l, 0 < len a → lo ≤ start a ∧ stop a ≤ n) → lo + total (l : Multiset α) ≤ n by
    have := hsuff l 0 h (Nat.zero_le n) fun a ha hlen => ⟨Nat.zero_le _, hn a ha hlen⟩
    omega
  intro l
  induction l with
  | nil => intro lo _ hlo _; simpa using hlo
  | cons a l ih =>
      intro lo hord hlo hin
      rw [Ordered, List.pairwise_cons] at hord
      rw [← Multiset.cons_coe, total_cons]
      rcases Nat.eq_zero_or_pos (len a) with hz | hpos
      · have := ih lo hord.2 hlo fun b hb => hin b (List.mem_cons_of_mem a hb)
        omega
      · have ha := hin a List.mem_cons_self hpos
        have := ih (stop a) hord.2 ha.2 fun b hb hlen =>
          ⟨hord.1 b hb hpos hlen, (hin b (List.mem_cons_of_mem a hb) hlen).2⟩
        simp only [stop] at *
        omega

/-! ## Joining neighbours -/

/-- `r` is `l` with neighbours that touch joined, in any number of steps. -/
inductive Joins : List α → List α → Prop
  | refl (l : List α) : Joins l l
  | join {l₁ l₂ r : List α} {a b x : α} (htouch : start b = stop a) (hstart : start x = start a)
      (hstop : stop x = stop b) (h : Joins (l₁ ++ x :: l₂) r) : Joins (l₁ ++ a :: b :: l₂) r

/-- One pair joined, between any two lists. -/
theorem Joins.pair (l₁ l₂ : List α) (htouch : start b = stop a) (hstart : start x = start a)
    (hstop : stop x = stop b) : Joins (l₁ ++ a :: b :: l₂) (l₁ ++ x :: l₂) :=
  Joins.join htouch hstart hstop (Joins.refl _)

theorem Joins.trans {r r' : List α} (h : Joins l r) (h' : Joins r r') : Joins l r' := by
  induction h with
  | refl => exact h'
  | join htouch hstart hstop _ ih => exact Joins.join htouch hstart hstop (ih h')

theorem Joins.append_left {r : List α} (h : Joins l r) (l₁ : List α) :
    Joins (l₁ ++ l) (l₁ ++ r) := by
  induction h with
  | refl => exact Joins.refl _
  | join htouch hstart hstop _ ih =>
      rw [← List.append_assoc] at ih ⊢
      exact Joins.join htouch hstart hstop ih

/-- Joining changes neither what is covered nor how much. -/
theorem Joins.measure {r : List α} (h : Joins l r) :
    (∀ p, cover (r : Multiset α) p = cover (l : Multiset α) p) ∧
      total (r : Multiset α) = total (l : Multiset α) := by
  induction h with
  | refl => exact ⟨fun _ => rfl, rfl⟩
  | @join l₁ l₂ r a b x htouch hstart hstop _ ih =>
      have hlen : len x = len a + len b := by
        simp only [stop] at *
        omega
      refine ⟨fun p => ?_, ?_⟩
      · have hsplit := cover_split (p := p) hstart.symm htouch hstop.symm
        rw [ih.1 p]
        simp only [← Multiset.coe_add, ← Multiset.cons_coe, ← Multiset.singleton_add, cover_add]
        omega
      · rw [ih.2]
        simp only [← Multiset.coe_add, ← Multiset.cons_coe, total_add, total_cons]
        omega

/-- Joining keeps an ordered list ordered. -/
theorem Joins.ordered {r : List α} (h : Joins l r) (hord : Ordered l) : Ordered r := by
  induction h with
  | refl => exact hord
  | @join l₁ l₂ r a b x htouch hstart hstop _ ih =>
      refine ih ?_
      simp only [Ordered, List.pairwise_append, List.pairwise_cons, List.mem_cons] at hord ⊢
      obtain ⟨h₁, ⟨ha, hb, h₂⟩, hcross⟩ := hord
      simp only [stop] at *
      -- the joined extent is bounded by whichever of the two is nonempty
      refine ⟨h₁, ⟨fun d hd hx hdpos => ?_, h₂⟩, fun c hc d hd hcpos hdpos => ?_⟩
      · rcases Nat.eq_zero_or_pos (len b) with hz | hpos
        · have := ha d (Or.inr hd) (by omega) hdpos
          omega
        · have := hb d hd hpos hdpos
          omega
      · rcases hd with rfl | hd
        · rcases Nat.eq_zero_or_pos (len a) with hz | hpos
          · have := hcross c hc b (Or.inr (Or.inl rfl)) hcpos (by omega)
            omega
          · have := hcross c hc a (Or.inl rfl) hcpos hpos
            omega
        · exact hcross c hc d (Or.inr (Or.inr hd)) hcpos hdpos

/-- An extent, empty or not, stops before the nonempty ones after it. -/
def Rising (l : List α) : Prop := l.Pairwise fun a b => 0 < len b → stop a ≤ start b

theorem Rising.ordered (h : Rising l) : Ordered l := h.imp fun hab _ hpos => hab hpos

/-- Joining keeps a rising list rising. -/
theorem Joins.rising {r : List α} (h : Joins l r) (hrise : Rising l) : Rising r := by
  induction h with
  | refl => exact hrise
  | @join l₁ l₂ r a b x htouch hstart hstop _ ih =>
      refine ih ?_
      simp only [Rising, List.pairwise_append, List.pairwise_cons, List.mem_cons] at hrise ⊢
      obtain ⟨h₁, ⟨ha, hb, h₂⟩, hcross⟩ := hrise
      simp only [stop] at *
      refine ⟨h₁, ⟨fun d hd hdpos => ?_, h₂⟩, fun c hc d hd hdpos => ?_⟩
      · have := hb d hd hdpos
        omega
      · rcases hd with rfl | hd
        · rcases Nat.eq_zero_or_pos (len a) with hz | hpos
          · have := hcross c hc b (Or.inr (Or.inl rfl)) (by omega)
            omega
          · have := hcross c hc a (Or.inl rfl) hpos
            omega
        · exact hcross c hc d (Or.inr (Or.inr hd)) hdpos

/-! ## Gapped lists -/

/-- **The nonempty, strictly separated lists**: no extent is empty, and
each stops strictly below the start of the next. -/
structure Gapped (l : List α) : Prop where
  len_pos : ∀ a ∈ l, 0 < len a
  gap : l.Pairwise fun a b => stop a < start b

theorem gapped_append_cons :
    Gapped (l₁ ++ x :: l₂) ↔ Gapped l₁ ∧ Gapped l₂ ∧ 0 < len x ∧
      (∀ a ∈ l₁, stop a < start x) ∧ ∀ b ∈ l₂, stop x < start b := by
  constructor
  · rintro ⟨hpos, hgap⟩
    simp only [List.pairwise_append, List.pairwise_cons, List.mem_cons, List.mem_append] at hpos hgap
    exact ⟨⟨fun a ha => hpos a (Or.inl ha), hgap.1⟩,
      ⟨fun a ha => hpos a (Or.inr (Or.inr ha)), hgap.2.1.2⟩, hpos x (Or.inr (Or.inl rfl)),
      fun a ha => hgap.2.2 a ha x (Or.inl rfl), hgap.2.1.1⟩
  · rintro ⟨h₁, h₂, hx, hbelow, habove⟩
    refine ⟨fun a ha => ?_, ?_⟩
    · rcases List.mem_append.mp ha with ha | ha
      · exact h₁.len_pos a ha
      · rcases List.mem_cons.mp ha with rfl | ha
        · exact hx
        · exact h₂.len_pos a ha
    · refine List.pairwise_append.mpr ⟨h₁.gap, List.pairwise_cons.mpr ⟨habove, h₂.gap⟩, ?_⟩
      intro a ha b hb
      rcases List.mem_cons.mp hb with rfl | hb
      · exact hbelow a ha
      · have h1 := hbelow a ha
        have h2 := habove b hb
        have : start x ≤ stop x := Nat.le_add_right _ _
        omega

theorem gapped_cons : Gapped (x :: l) ↔ Gapped l ∧ 0 < len x ∧ ∀ b ∈ l, stop x < start b := by
  rw [← List.nil_append (x :: l), gapped_append_cons]
  constructor
  · rintro ⟨-, hl, hx, -, habove⟩
    exact ⟨hl, hx, habove⟩
  · rintro ⟨hl, hx, habove⟩
    exact ⟨⟨by simp, List.Pairwise.nil⟩, hl, hx, by simp, habove⟩

/-- Two extents of a gapped list that come within one point of each
other are the same one. -/
theorem Gapped.eq_of_close (h : Gapped l) (ha : a ∈ l) (hb : b ∈ l)
    (hab : start a ≤ stop b) (hba : start b ≤ stop a) : a = b := by
  obtain ⟨i, hi, rfl⟩ := List.getElem_of_mem ha
  obtain ⟨j, hj, rfl⟩ := List.getElem_of_mem hb
  have hgap := List.pairwise_iff_getElem.mp h.gap
  rcases Nat.lt_trichotomy i j with hij | rfl | hij
  · have := hgap i j hi hj hij
    omega
  · rfl
  · have := hgap j i hj hi hij
    omega

/-- **A gapped list is maximal.** An interval all of whose points it
covers lies in one of its extents. -/
theorem Gapped.exists_of_cover (h : Gapped l) (hn : 0 < n)
    (hcov : ∀ q, p ≤ q → q < p + n → 0 < cover (l : Multiset α) q) :
    ∃ a ∈ l, start a ≤ p ∧ p + n ≤ stop a := by
  obtain ⟨a, ha, hlo, hhi⟩ := cover_pos.mp (hcov p le_rfl (by omega))
  refine ⟨a, ha, hlo, ?_⟩
  by_contra hc
  -- the first point past `a` is covered too, by an extent that touches `a`
  obtain ⟨b, hb, hblo, hbhi⟩ := cover_pos.mp (hcov (stop a) (by omega) (by omega))
  have hab : a = b := by
    refine h.eq_of_close ha hb (by omega) hblo
  subst hab
  omega

/-- A point next to an extent of a gapped list is not covered. -/
theorem Gapped.cover_stop (h : Gapped l) (ha : a ∈ l) : cover (l : Multiset α) (stop a) = 0 := by
  by_contra hc
  obtain ⟨b, hb, hlo, hhi⟩ := cover_pos.mp (Nat.pos_of_ne_zero hc)
  have hle : start a ≤ stop a := Nat.le_add_right _ _
  obtain rfl := h.eq_of_close ha hb (by omega) hlo
  omega

/-- The first extent of a gapped list starts first. -/
theorem Gapped.start_le_of_cover (h : Gapped (a :: l))
    (hp : 0 < cover ((a :: l : List α) : Multiset α) p) : start a ≤ p := by
  obtain ⟨b, hb, hlo, -⟩ := cover_pos.mp hp
  rcases List.mem_cons.mp hb with rfl | hb
  · exact hlo
  · have hlt := (gapped_cons.mp h).2.2 b hb
    have hle : start a ≤ stop a := Nat.le_add_right _ _
    omega

/-- The first extents of two gapped lists that cover the same points. -/
theorem Gapped.head_eq_of_cover (hl : Gapped (a :: l)) (hr : Gapped (b :: l₁))
    (h : ∀ p, cover ((a :: l : List α) : Multiset α) p = cover ((b :: l₁ : List α) : Multiset α) p) :
    start a = start b ∧ len a = len b := by
  have hcover : ∀ {c : α} {l : List α}, Gapped (c :: l) →
      0 < cover ((c :: l : List α) : Multiset α) (start c) := by
    intro c l hgap
    refine cover_pos.mpr ⟨c, List.mem_cons_self, le_rfl, ?_⟩
    have hpos := (gapped_cons.mp hgap).2.1
    unfold stop
    omega
  have hstart : start a = start b := by
    refine Nat.le_antisymm (hl.start_le_of_cover ?_) (hr.start_le_of_cover ?_)
    · rw [h]
      exact hcover hr
    · rw [← h]
      exact hcover hl
  refine ⟨hstart, ?_⟩
  -- the one that stops first leaves a point that the other one covers
  have hle : ∀ {c d : α} {l r : List α}, Gapped (c :: l) → Gapped (d :: r) → start c = start d →
      (∀ p, cover ((c :: l : List α) : Multiset α) p = cover ((d :: r : List α) : Multiset α) p) →
      len d ≤ len c := by
    intro c d l r hc hd hstart h
    by_contra hlt
    have hfree := hc.cover_stop List.mem_cons_self
    rw [h] at hfree
    refine absurd hfree (Nat.ne_of_gt (cover_pos.mpr ⟨d, List.mem_cons_self, ?_, ?_⟩)) <;>
      simp only [stop] <;> omega
  exact Nat.le_antisymm (hle hr hl hstart.symm fun p => (h p).symm) (hle hl hr hstart h)

/-- **A gapped list is determined by the points it covers.** -/
theorem Gapped.eq_of_cover {r : List α} (hl : Gapped l) (hr : Gapped r)
    (h : ∀ p, cover (l : Multiset α) p = cover (r : Multiset α) p) :
    l.map (fun a => (start a, len a)) = r.map fun a => (start a, len a) := by
  have hnil : ∀ {c : α} {l : List α}, Gapped (c :: l) →
      ¬ ∀ p, cover ((c :: l : List α) : Multiset α) p = 0 := by
    intro c l hgap hzero
    refine absurd (hzero (start c)) (Nat.ne_of_gt (cover_pos.mpr ⟨c, List.mem_cons_self, le_rfl, ?_⟩))
    have hpos := (gapped_cons.mp hgap).2.1
    unfold stop
    omega
  induction l generalizing r with
  | nil =>
      cases r with
      | nil => rfl
      | cons b r => exact absurd (fun p => (h p).symm) (hnil hr)
  | cons a l ih =>
      cases r with
      | nil => exact absurd h (hnil hl)
      | cons b r =>
          obtain ⟨hstart, hlen⟩ := hl.head_eq_of_cover hr h
          rw [List.map_cons, List.map_cons, hstart, hlen]
          congr 1
          refine ih (gapped_cons.mp hl).1 (gapped_cons.mp hr).1 fun p => ?_
          have hp := h p
          rw [← Multiset.cons_coe, ← Multiset.cons_coe, cover_cons, cover_cons] at hp
          have hholds : Holds a p ↔ Holds b p := by
            unfold Holds stop
            rw [hstart, hlen]
          by_cases hb : Holds b p
          · rw [if_pos hb, if_pos (hholds.mpr hb)] at hp
            omega
          · rw [if_neg hb, if_neg fun ha => hb (hholds.mp ha)] at hp
            exact hp

end Extent

end RdmaManager
