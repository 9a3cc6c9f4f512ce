import RdmaManager.Common.Text
import Mathlib.Algebra.BigOperators.Group.Finset.Basic
import Mathlib.Data.Finset.Max
import Mathlib.Data.List.GetD
import Mathlib.Order.Partition.Finpartition
/-!
# `CpuNumaUtils::get_cpu_numa_map`

The CPUs are visited one after the other. The siblings of a visited CPU are
read from a file and are known from then on; a known CPU is skipped. The
reader takes the numbers of the file and drops the one character behind
each, so that of a range `a-b` it knows `a` and `b` only.
-/

namespace RdmaManager

open Text

namespace CpuNumaUtils

/-- What the map is read from: libnuma, and the text of
`thread_siblings_list` of a CPU, where it can be opened. -/
structure Machine where
  ncpus : ℕ
  nnodes : ℕ
  nodeOfCpu : ℕ → ℕ
  siblingsList : ℕ → Option (List Char)

/-- `while(ss >> coreid) { …; ss.ignore(); }`. -/
def coreids (s : List Char) : List ℤ :=
  match _h : integer s with
  | none => []
  | some (z, rest) => if IsInt z then z :: coreids rest.tail else []
termination_by s.length
decreasing_by
  have hlt : rest.length < s.length := length_of_integer ‹integer s = some (z, rest)›
  rw [List.length_tail]
  omega

/-- The state of the loop over the CPUs. -/
structure Scan where
  knownSiblings : List ℤ
  cpuids : ℕ → List (List ℤ)

/-- One round of it. -/
def scanCpu (m : Machine) (cpu : ℕ) (st : Scan) : Scan :=
  if (cpu : ℤ) ∈ st.knownSiblings then st
  else
    let node := m.nodeOfCpu cpu
    match m.siblingsList cpu with
    | some siblings =>
        { knownSiblings := st.knownSiblings ++ coreids siblings
          cpuids := Function.update st.cpuids node (st.cpuids node ++ [coreids siblings]) }
    | none => { st with cpuids := Function.update st.cpuids node (st.cpuids node ++ [[(cpu : ℤ)]]) }

/-- The loop, up to a CPU. -/
def scan (m : Machine) : ℕ → Scan
  | 0 => { knownSiblings := [], cpuids := fun _ => [] }
  | cpu + 1 => scanCpu m cpu (scan m cpu)

/-- What `get_cpu_numa_map` returns and writes; an entry is `none` where it
is read from an empty vector. -/
structure CpuMap where
  cpuMap : List (List (Option ℤ))
  numCpus : ℕ
  numNodes : ℕ

/-- **`CpuNumaUtils::get_cpu_numa_map`.** -/
def getCpuNumaMap (m : Machine) : CpuMap where
  cpuMap := (List.range m.nnodes).map fun i => ((scan m m.ncpus).cpuids i).map List.head?
  numCpus := ((List.range m.nnodes).map fun i => ((scan m m.ncpus).cpuids i).length).sum
  numNodes := m.nnodes

/-! ## Topologies -/

/-- A CPU or a range of CPUs, as it is printed. -/
structure Item where
  first : List Char
  last : Option (List Char)
  deriving DecidableEq, Repr

namespace Item

/-- What is printed are numbers, in order. -/
structure Printed (i : Item) : Prop where
  first : Digits i.first
  last : ∀ l ∈ i.last, Digits l
  le : ∀ l ∈ i.last, decimal i.first ≤ decimal l

/-- The CPUs of an item. -/
def Mem (i : Item) (cpu : ℕ) : Prop :=
  match i.last with
  | none => cpu = decimal i.first
  | some l => decimal i.first ≤ cpu ∧ cpu ≤ decimal l

/-- The CPUs that are written down. -/
def ends (i : Item) : List ℕ := decimal i.first :: (i.last.map decimal).toList

def text (i : Item) : List Char :=
  match i.last with
  | none => i.first
  | some l => i.first ++ '-' :: l

end Item

/-- A comma-separated list. -/
def listText : List Item → List Char
  | [] => []
  | [i] => i.text
  | i :: items => i.text ++ ',' :: listText items

/-- **A topology**: the sibling sets of the CPUs, each on one node, and how
the set of each CPU is printed. -/
structure Topology where
  ncpus : ℕ
  ncpus_int : ncpus < 2 ^ 31
  nnodes : ℕ
  siblings : Finpartition (Finset.range ncpus)
  node : ℕ → ℕ
  node_lt : ∀ cpu < ncpus, node cpu < nnodes
  node_eq : ∀ set ∈ siblings.parts, ∀ cpu ∈ set, ∀ other ∈ set, node cpu = node other
  listing : ℕ → List Item
  printed : ∀ cpu < ncpus, ∀ i ∈ listing cpu, i.Printed
  mem_part : ∀ cpu < ncpus, ∀ other, other ∈ siblings.part cpu ↔ ∃ i ∈ listing cpu, i.Mem other
  newline : ℕ → List Char
  newline_blank : ∀ cpu, Blank (newline cpu)

/-- What is read of it. -/
def Topology.machine (T : Topology) : Machine where
  ncpus := T.ncpus
  nnodes := T.nnodes
  nodeOfCpu := T.node
  siblingsList cpu := some (listText (T.listing cpu) ++ T.newline cpu)

/-! ## Reading a list -/

variable {s t w : List Char} {i : Item} {items : List Item}

theorem coreids_of_none (h : integer s = none) : coreids s = [] := by
  unfold coreids
  split
  · rfl
  · next heq =>
      rw [h] at heq
      exact absurd heq (by simp)

theorem coreids_of_some {z : ℤ} {rest : List Char} (h : integer s = some (z, rest)) (hint : IsInt z) :
    coreids s = z :: coreids rest.tail := by
  rw [coreids]
  split
  · next heq =>
      rw [h] at heq
      exact absurd heq (by simp)
  · next heq =>
      rw [h, Option.some.injEq, Prod.mk.injEq] at heq
      rw [← heq.1, ← heq.2, if_pos hint]

theorem coreids_digits {ds : List Char} (hds : Digits ds) (ht : Ends t) (hint : decimal ds < 2 ^ 31) :
    coreids (ds ++ t) = (decimal ds : ℤ) :: coreids t.tail := by
  refine coreids_of_some (integer_digits (w := []) (by simp [Blank]) hds ht) ?_
  unfold IsInt
  omega

theorem coreids_blank (hw : Blank w) : coreids w = [] := by
  refine coreids_of_none ?_
  rw [← List.append_nil w, integer_blank_append hw]
  rfl

theorem coreids_item (h : i.Printed) (hint : ∀ n ∈ i.ends, n < 2 ^ 31) (ht : Ends t) :
    coreids (i.text ++ t) = i.ends.map (fun n : ℕ => (n : ℤ)) ++ coreids t.tail := by
  unfold Item.ends at hint
  unfold Item.text Item.ends
  rw [List.forall_mem_cons] at hint
  cases hlast : i.last with
  | none => exact coreids_digits h.first ht hint.1
  | some l =>
      rw [hlast] at hint
      have hl : decimal l < 2 ^ 31 := hint.2 _ (List.mem_singleton_self _)
      have hminus : Ends ('-' :: (l ++ t)) := by
        intro c hc
        rw [List.head?_cons, Option.mem_some_iff] at hc
        rw [← hc]
        rfl
      simp only
      rw [List.append_assoc, List.cons_append, coreids_digits h.first hminus hint.1, List.tail_cons,
        coreids_digits (h.last l hlast) ht hl]
      rfl

/-- **Of a list its written numbers are read.** -/
theorem coreids_listText (hprinted : ∀ i ∈ items, i.Printed)
    (hint : ∀ n ∈ items.flatMap Item.ends, n < 2 ^ 31) (hw : Blank w) :
    coreids (listText items ++ w) = (items.flatMap Item.ends).map fun n : ℕ => (n : ℤ) := by
  induction items with
  | nil => exact coreids_blank hw
  | cons i items ih =>
      rw [List.forall_mem_cons] at hprinted
      rw [List.flatMap_cons, List.forall_mem_append] at hint
      have hrest := ih hprinted.2 hint.2
      cases items with
      | nil =>
          show coreids (i.text ++ w) = _
          have htail : Blank w.tail := fun c hc => hw c (List.mem_of_mem_tail hc)
          rw [coreids_item hprinted.1 hint.1 hw.ends, coreids_blank htail]
          simp
      | cons j items =>
          show coreids ((i.text ++ ',' :: listText (j :: items)) ++ w) = _
          -- the comma ends the number before it, and is dropped
          have hcomma : Ends (',' :: (listText (j :: items) ++ w)) := by
            intro c hc
            rw [List.head?_cons, Option.mem_some_iff] at hc
            rw [← hc]
            rfl
          rw [List.append_assoc, List.cons_append, coreids_item hprinted.1 hint.1 hcomma,
            List.tail_cons, hrest]
          simp

/-! ## The visited CPUs -/

variable {T : Topology} {k cpu other n : ℕ} {set : Finset ℕ}

namespace Topology

/-- The numbers written down for a CPU. -/
def written (T : Topology) (cpu : ℕ) : List ℕ := (T.listing cpu).flatMap Item.ends

/-- The CPUs that are not skipped, up to one. -/
def visited (T : Topology) : ℕ → List ℕ
  | 0 => []
  | cpu + 1 =>
      if cpu ∈ (T.visited cpu).flatMap T.written then T.visited cpu else T.visited cpu ++ [cpu]

theorem visited_succ (T : Topology) (cpu : ℕ) :
    T.visited (cpu + 1) =
      if cpu ∈ (T.visited cpu).flatMap T.written then T.visited cpu else T.visited cpu ++ [cpu] := rfl

theorem mem_ends (hprinted : i.Printed) (h : n ∈ i.ends) : i.Mem n := by
  unfold Item.ends at h
  unfold Item.Mem
  have hle := hprinted.le
  cases hlast : i.last with
  | none =>
      rw [hlast] at h
      exact List.mem_singleton.mp h
  | some l =>
      rw [hlast] at h hle
      have hfl := hle l rfl
      rcases List.mem_cons.mp h with rfl | h
      · exact ⟨le_rfl, hfl⟩
      · rw [List.mem_singleton.mp h]
        exact ⟨hfl, le_rfl⟩

/-- What is written down for a CPU are siblings of it. -/
theorem mem_part_of_written (hcpu : cpu < T.ncpus) (h : other ∈ T.written cpu) :
    other ∈ T.siblings.part cpu := by
  obtain ⟨i, hi, hends⟩ := List.mem_flatMap.mp h
  exact (T.mem_part cpu hcpu other).mpr ⟨i, hi, mem_ends (T.printed cpu hcpu i hi) hends⟩

theorem lt_of_written (hcpu : cpu < T.ncpus) (h : other ∈ T.written cpu) : other < T.ncpus :=
  Finset.mem_range.mp (T.siblings.part_subset cpu (mem_part_of_written hcpu h))

theorem coreids_machine (hcpu : cpu < T.ncpus) :
    coreids (listText (T.listing cpu) ++ T.newline cpu) =
      (T.written cpu).map fun n : ℕ => (n : ℤ) := by
  refine coreids_listText (T.printed cpu hcpu) (fun n hn => ?_) (T.newline_blank cpu)
  exact (lt_of_written hcpu hn).trans T.ncpus_int

theorem lt_of_visited (h : cpu ∈ T.visited k) : cpu < k := by
  induction k with
  | zero => exact absurd h List.not_mem_nil
  | succ k ih =>
      rw [visited_succ] at h
      split_ifs at h with hknown
      · exact (ih h).trans (Nat.lt_succ_self k)
      · rcases List.mem_append.mp h with h | h
        · exact (ih h).trans (Nat.lt_succ_self k)
        · rw [List.mem_singleton.mp h]
          exact Nat.lt_succ_self k

/-- **A CPU is visited** unless it is written down for one visited before. -/
theorem mem_visited_iff :
    cpu ∈ T.visited k ↔ cpu < k ∧ cpu ∉ (T.visited cpu).flatMap T.written := by
  induction k with
  | zero => simp [visited]
  | succ k ih =>
      by_cases hlast : cpu = k
      · rw [hlast]
        have hnot : k ∉ T.visited k := fun h => absurd (lt_of_visited h) (lt_irrefl k)
        rw [visited_succ]
        split_ifs with hknown
        · exact iff_of_false hnot fun h => h.2 hknown
        · exact iff_of_true (List.mem_append_right _ (List.mem_singleton_self k))
            ⟨Nat.lt_succ_self k, hknown⟩
      · have hstep : cpu ∈ T.visited (k + 1) ↔ cpu ∈ T.visited k := by
          rw [visited_succ]
          split_ifs
          · rfl
          · rw [List.mem_append, List.mem_singleton]
            exact or_iff_left hlast
        rw [hstep, ih]
        exact and_congr_left fun _ => by omega

theorem nodup_visited (T : Topology) (k : ℕ) : (T.visited k).Nodup := by
  induction k with
  | zero => exact List.nodup_nil
  | succ k ih =>
      rw [visited_succ]
      split_ifs
      · exact ih
      · refine List.Nodup.append ih (List.nodup_singleton k) ?_
        rw [List.disjoint_singleton]
        exact fun h => absurd (lt_of_visited h) (lt_irrefl k)

/-- **The state of the loop** is told by the visited CPUs. -/
theorem scan_eq (hk : k ≤ T.ncpus) :
    (scan T.machine k).knownSiblings =
        ((T.visited k).flatMap T.written).map (fun n : ℕ => (n : ℤ)) ∧
      ∀ node, (scan T.machine k).cpuids node =
        ((T.visited k).filter (fun cpu => T.node cpu = node)).map fun cpu =>
          (T.written cpu).map fun n : ℕ => (n : ℤ) := by
  induction k with
  | zero => exact ⟨rfl, fun node => rfl⟩
  | succ k ih =>
      obtain ⟨hknown, hcpuids⟩ := ih (Nat.le_of_succ_le hk)
      have hmem : (k : ℤ) ∈ (scan T.machine k).knownSiblings ↔
          k ∈ (T.visited k).flatMap T.written := by
        rw [hknown]
        exact List.mem_map_of_injective fun _ _ => Int.ofNat_inj.mp
      have hids := coreids_machine (T := T) (Nat.lt_of_succ_le hk)
      show (scanCpu T.machine k (scan T.machine k)).knownSiblings = _ ∧
        ∀ node, (scanCpu T.machine k (scan T.machine k)).cpuids node = _
      unfold scanCpu
      rw [visited_succ]
      by_cases h : k ∈ (T.visited k).flatMap T.written
      · -- a known sibling is skipped
        rw [if_pos (hmem.mpr h), if_pos h]
        exact ⟨hknown, hcpuids⟩
      · rw [if_neg (mt hmem.mp h), if_neg h]
        refine ⟨?_, fun node => ?_⟩
        · show (scan T.machine k).knownSiblings ++ coreids _ = _
          rw [hknown, hids, List.flatMap_append, List.map_append, List.flatMap_singleton]
        · show Function.update (scan T.machine k).cpuids (T.node k)
            ((scan T.machine k).cpuids (T.node k) ++ [coreids _]) node = _
          rw [hids, List.filter_append, List.map_append]
          by_cases hnode : T.node k = node
          · rw [hnode, Function.update_self, hcpuids]
            simp [hnode]
          · rw [Function.update_of_ne (Ne.symm hnode), hcpuids]
            simp [hnode]

/-! ## The smallest of each set -/

/-- The CPUs that are the smallest of their set. -/
def smallest (T : Topology) : Finset ℕ :=
  (Finset.range T.ncpus).filter fun cpu => ∀ other ∈ T.siblings.part cpu, cpu ≤ other

theorem mem_smallest :
    cpu ∈ T.smallest ↔ cpu < T.ncpus ∧ ∀ other ∈ T.siblings.part cpu, cpu ≤ other := by
  unfold smallest
  rw [Finset.mem_filter, Finset.mem_range]

theorem mem_part_self (hcpu : cpu < T.ncpus) : cpu ∈ T.siblings.part cpu :=
  T.siblings.mem_part (Finset.mem_range.mpr hcpu)

theorem part_eq (h : other ∈ T.siblings.part cpu) :
    T.siblings.part other = T.siblings.part cpu := by
  have hparts : T.siblings.part cpu ∈ T.siblings.parts := by
    rw [T.siblings.part_mem]
    by_contra hout
    rw [T.siblings.part_eq_empty.mpr hout] at h
    exact absurd h (Finset.notMem_empty other)
  exact T.siblings.part_eq_of_mem hparts h

/-- Every set has its smallest. -/
theorem exists_smallest (hset : set ∈ T.siblings.parts) :
    ∃ cpu ∈ T.smallest, T.siblings.part cpu = set := by
  have hne := T.siblings.nonempty_of_mem_parts hset
  have hmem := set.min'_mem hne
  have hpart := T.siblings.part_eq_of_mem hset hmem
  refine ⟨set.min' hne, mem_smallest.mpr ⟨?_, fun other hother => ?_⟩, hpart⟩
  · exact Finset.mem_range.mp (T.siblings.subset hset hmem)
  · rw [hpart] at hother
    exact set.min'_le other hother

theorem smallest_unique (hcpu : cpu ∈ T.smallest) (hother : other ∈ T.smallest)
    (h : T.siblings.part cpu = T.siblings.part other) : cpu = other := by
  rw [mem_smallest] at hcpu hother
  refine le_antisymm (hcpu.2 other ?_) (hother.2 cpu ?_)
  · rw [h]
    exact mem_part_self hother.1
  · rw [← h]
    exact mem_part_self hcpu.1

/-- There are as many as there are sets. -/
theorem card_smallest (T : Topology) : T.smallest.card = T.siblings.parts.card := by
  refine Finset.card_bij (fun cpu _ => T.siblings.part cpu) (fun cpu hcpu => ?_)
    (fun cpu hcpu other hother h => smallest_unique hcpu hother h) fun set hset => ?_
  · rw [T.siblings.part_mem]
    exact Finset.mem_range.mpr (mem_smallest.mp hcpu).1
  · obtain ⟨cpu, hcpu, hpart⟩ := exists_smallest hset
    exact ⟨cpu, hcpu, hpart⟩

/-- **The smallest of a set is visited**: nothing before it is its sibling. -/
theorem visited_of_smallest (h : cpu ∈ T.smallest) : cpu ∈ T.visited T.ncpus := by
  rw [mem_smallest] at h
  refine mem_visited_iff.mpr ⟨h.1, fun hknown => ?_⟩
  obtain ⟨other, hother, hwritten⟩ := List.mem_flatMap.mp hknown
  have hlt := lt_of_visited hother
  have hpart := mem_part_of_written (hlt.trans h.1) hwritten
  have hle := h.2 other (by rw [part_eq hpart]; exact mem_part_self (hlt.trans h.1))
  omega

theorem smallest_subset (T : Topology) : T.smallest ⊆ (T.visited T.ncpus).toFinset :=
  fun _ hcpu => List.mem_toFinset.mpr (visited_of_smallest hcpu)

/-! ## The map -/

theorem length_cpuMap (T : Topology) : (getCpuNumaMap T.machine).cpuMap.length = T.nnodes := by
  unfold getCpuNumaMap
  rw [List.length_map, List.length_range]
  rfl

/-- The entries of a node. -/
theorem cpuMap_eq {node : ℕ} (hnode : node < T.nnodes) :
    (getCpuNumaMap T.machine).cpuMap.getD node [] =
      ((T.visited T.ncpus).filter fun cpu => T.node cpu = node).map fun cpu =>
        (T.written cpu).head?.map fun n : ℕ => (n : ℤ) := by
  have hmap : (getCpuNumaMap T.machine).cpuMap =
      (List.range T.nnodes).map fun i => ((scan T.machine T.ncpus).cpuids i).map List.head? := rfl
  have hlen : node < ((List.range T.nnodes).map fun i =>
      ((scan T.machine T.ncpus).cpuids i).map List.head?).length := by
    rwa [List.length_map, List.length_range]
  rw [hmap, List.getD_eq_getElem _ _ hlen, List.getElem_map, List.getElem_range,
    (scan_eq le_rfl).2, List.map_map]
  refine List.map_congr_left fun cpu _ => ?_
  exact List.head?_map

/-- All entries together are as many as the visited CPUs. -/
theorem numCpus_eq (T : Topology) :
    (getCpuNumaMap T.machine).numCpus = (T.visited T.ncpus).length := by
  have hmaps : ((T.visited T.ncpus).toFinset : Set ℕ).MapsTo T.node (Finset.range T.nnodes) := by
    intro cpu hcpu
    rw [Finset.mem_coe, List.mem_toFinset] at hcpu
    exact Finset.mem_coe.mpr (Finset.mem_range.mpr (T.node_lt cpu (lt_of_visited hcpu)))
  have hnodup := nodup_visited T T.ncpus
  rw [← List.toFinset_card_of_nodup hnodup, Finset.card_eq_sum_card_fiberwise hmaps]
  have hsum : (getCpuNumaMap T.machine).numCpus =
      ∑ node ∈ Finset.range T.nnodes, ((scan T.machine T.ncpus).cpuids node).length := rfl
  rw [hsum]
  refine Finset.sum_congr rfl fun node _ => ?_
  rw [(scan_eq le_rfl).2, List.length_map, ← List.toFinset_card_of_nodup (hnodup.filter _),
    List.toFinset_filter]
  simp only [decide_eq_true_eq]

/-- **The map names every sibling set once**: a node has one entry for each set
on it, the smallest CPU of the set, and the sets are counted. -/
structure NamesOnce (T : Topology) (map : CpuMap) : Prop where
  nodup : ∀ node, (map.cpuMap.getD node []).Nodup
  mem_iff : ∀ node e, e ∈ map.cpuMap.getD node [] ↔
    ∃ set ∈ T.siblings.parts, ∃ cpu ∈ set, (∀ other ∈ set, cpu ≤ other) ∧ T.node cpu = node ∧
      e = some (cpu : ℤ)
  numCpus : map.numCpus = T.siblings.parts.card
  numNodes : map.numNodes = T.nnodes

/-- The list of the smallest CPU of a set begins with it, and every sibling is
written down in it. -/
def Spelled (T : Topology) : Prop :=
  ∀ cpu ∈ T.smallest, (T.written cpu).head? = some cpu ∧
    ∀ other ∈ T.siblings.part cpu, other ∈ T.written cpu

/-- Where the siblings of the smallest are written down, nothing else is
visited. -/
theorem visited_iff_of_spelled (h : T.Spelled) :
    cpu ∈ T.visited T.ncpus ↔ cpu ∈ T.smallest := by
  refine ⟨fun hvisited => ?_, visited_of_smallest⟩
  by_contra hnot
  have hcpu := lt_of_visited hvisited
  have hset : T.siblings.part cpu ∈ T.siblings.parts := by
    rw [T.siblings.part_mem]
    exact Finset.mem_range.mpr hcpu
  obtain ⟨least, hleast, hpart⟩ := exists_smallest hset
  have hmem : cpu ∈ T.siblings.part least := by
    rw [hpart]
    exact mem_part_self hcpu
  -- the smallest comes first, and has it written down
  have hlt : least < cpu := by
    refine lt_of_le_of_ne ((mem_smallest.mp hleast).2 cpu hmem) ?_
    rintro rfl
    exact hnot hleast
  have hbefore : least ∈ T.visited cpu := by
    have hfull := mem_visited_iff.mp (visited_of_smallest hleast)
    exact mem_visited_iff.mpr ⟨hlt, hfull.2⟩
  refine (mem_visited_iff.mp hvisited).2 ?_
  exact List.mem_flatMap.mpr ⟨least, hbefore, (h least hleast).2 cpu hmem⟩

theorem mem_cpuMap_iff {node : ℕ} {e : Option ℤ} :
    e ∈ (getCpuNumaMap T.machine).cpuMap.getD node [] ↔
      ∃ cpu ∈ T.visited T.ncpus, T.node cpu = node ∧
        e = (T.written cpu).head?.map fun n : ℕ => (n : ℤ) := by
  by_cases hnode : node < T.nnodes
  · rw [cpuMap_eq hnode]
    simp only [List.mem_map, List.mem_filter, decide_eq_true_eq, and_assoc]
    refine exists_congr fun cpu => and_congr_right fun _ => and_congr_right fun _ => eq_comm
  · rw [List.getD_eq_default _ _ (by rw [length_cpuMap]; omega)]
    refine iff_of_false List.not_mem_nil ?_
    rintro ⟨cpu, hcpu, hon, -⟩
    have hlt := T.node_lt cpu (lt_of_visited hcpu)
    omega

/-- The smallest CPU of a set, said of the set. -/
theorem smallest_iff_of_part :
    (∃ set ∈ T.siblings.parts, cpu ∈ set ∧ ∀ other ∈ set, cpu ≤ other) ↔ cpu ∈ T.smallest := by
  rw [mem_smallest]
  constructor
  · rintro ⟨set, hset, hmem, hleast⟩
    refine ⟨Finset.mem_range.mp (T.siblings.subset hset hmem), ?_⟩
    rwa [T.siblings.part_eq_of_mem hset hmem]
  · rintro ⟨hcpu, hleast⟩
    refine ⟨T.siblings.part cpu, ?_, mem_part_self hcpu, hleast⟩
    rw [T.siblings.part_mem]
    exact Finset.mem_range.mpr hcpu

/-- What the map has to hold. -/
theorem exists_set_iff {node : ℕ} {e : Option ℤ} :
    (∃ set ∈ T.siblings.parts, ∃ cpu ∈ set, (∀ other ∈ set, cpu ≤ other) ∧ T.node cpu = node ∧
        e = some (cpu : ℤ)) ↔
      ∃ cpu ∈ T.smallest, T.node cpu = node ∧ e = some (cpu : ℤ) := by
  constructor
  · rintro ⟨set, hset, cpu, hmem, hleast, hrest⟩
    exact ⟨cpu, smallest_iff_of_part.mp ⟨set, hset, hmem, hleast⟩, hrest⟩
  · rintro ⟨cpu, hcpu, hrest⟩
    obtain ⟨set, hset, hmem, hleast⟩ := smallest_iff_of_part.mpr hcpu
    exact ⟨set, hset, cpu, hmem, hleast, hrest⟩

theorem namesOnce_of_spelled (h : T.Spelled) : NamesOnce T (getCpuNumaMap T.machine) where
  nodup node := by
    by_cases hnode : node < T.nnodes
    · rw [cpuMap_eq hnode]
      refine List.Nodup.map_on ?_ ((nodup_visited T T.ncpus).filter _)
      intro cpu hcpu other hother heq
      have hc := (h cpu ((visited_iff_of_spelled h).mp (List.mem_of_mem_filter hcpu))).1
      have ho := (h other ((visited_iff_of_spelled h).mp (List.mem_of_mem_filter hother))).1
      rw [hc, ho, Option.map_some, Option.map_some, Option.some.injEq] at heq
      exact Int.ofNat_inj.mp heq
    · rw [List.getD_eq_default _ _ (by rw [length_cpuMap]; omega)]
      exact List.nodup_nil
  mem_iff node e := by
    rw [mem_cpuMap_iff, exists_set_iff]
    refine exists_congr fun cpu => ?_
    rw [visited_iff_of_spelled h]
    refine and_congr_right fun hcpu => and_congr_right fun _ => ?_
    rw [(h cpu hcpu).1, Option.map_some]
  numCpus := by
    rw [numCpus_eq, ← List.toFinset_card_of_nodup (nodup_visited T T.ncpus), ← card_smallest]
    congr 1
    ext cpu
    rw [List.mem_toFinset]
    exact visited_iff_of_spelled h
  numNodes := rfl

/-- **Counted right, only the smallest are visited.** -/
theorem smallest_of_numCpus (h : (getCpuNumaMap T.machine).numCpus = T.siblings.parts.card)
    (hcpu : cpu ∈ T.visited T.ncpus) : cpu ∈ T.smallest := by
  have hcard : (T.visited T.ncpus).toFinset.card ≤ T.smallest.card := by
    rw [List.toFinset_card_of_nodup (nodup_visited T T.ncpus), ← numCpus_eq, h, card_smallest]
  rw [Finset.eq_of_subset_of_card_le (smallest_subset T) hcard]
  exact List.mem_toFinset.mpr hcpu

theorem spelled_of_namesOnce (h : NamesOnce T (getCpuNumaMap T.machine)) : T.Spelled := by
  intro cpu hcpu
  have hlt := (mem_smallest.mp hcpu).1
  -- the entry of a visited CPU is the smallest of some set, and that is its own
  have hhead : (T.written cpu).head? = some cpu := by
    have hentry := (h.mem_iff (T.node cpu) _).mp
      (mem_cpuMap_iff.mpr ⟨cpu, visited_of_smallest hcpu, rfl, rfl⟩)
    obtain ⟨least, hleast, -, heq⟩ := exists_set_iff.mp hentry
    obtain ⟨n, hn, hcast⟩ := Option.map_eq_some_iff.mp heq
    rw [Int.ofNat_inj.mp hcast] at hn
    have hpart := mem_part_of_written hlt (List.mem_of_mem_head? hn)
    rw [hn, smallest_unique hleast hcpu (part_eq hpart)]
  refine ⟨hhead, fun other hother => ?_⟩
  by_cases heq : other = cpu
  · rw [heq]
    exact List.mem_of_mem_head? hhead
  · -- a sibling that is not visited is written down for one that is
    have hotherLt := Finset.mem_range.mp (T.siblings.part_subset cpu hother)
    have hnot : other ∉ T.visited T.ncpus := fun hvisited =>
      heq (smallest_unique (smallest_of_numCpus h.numCpus hvisited) hcpu (part_eq hother))
    have hknown : other ∈ (T.visited other).flatMap T.written := by
      by_contra hunknown
      exact hnot (mem_visited_iff.mpr ⟨hotherLt, hunknown⟩)
    obtain ⟨first, hfirst, hwritten⟩ := List.mem_flatMap.mp hknown
    have hfirstLt := lt_of_visited hfirst
    have hvisited : first ∈ T.visited T.ncpus :=
      mem_visited_iff.mpr ⟨hfirstLt.trans hotherLt, (mem_visited_iff.mp hfirst).2⟩
    have hpart := part_eq (mem_part_of_written (hfirstLt.trans hotherLt) hwritten)
    have hsame := smallest_unique (smallest_of_numCpus h.numCpus hvisited) hcpu
      (hpart.symm.trans (part_eq hother))
    rw [← hsame]
    exact hwritten

/-- **The map names every sibling set once** if, and only if, the list of the
smallest CPU of each set begins with it and has every sibling written down,
none inside a range. -/
theorem getCpuNumaMap_iff (T : Topology) : NamesOnce T (getCpuNumaMap T.machine) ↔ T.Spelled :=
  ⟨spelled_of_namesOnce, namesOnce_of_spelled⟩

/-- Four threads of one core, printed as `0-3`. -/
def fourThreads : Topology where
  ncpus := 4
  ncpus_int := by decide
  nnodes := 1
  siblings := Finpartition.indiscrete (a := Finset.range 4) (by decide)
  node _ := 0
  node_lt _ _ := Nat.one_pos
  node_eq _ _ _ _ _ _ := rfl
  listing _ := [⟨['0'], some ['3']⟩]
  printed _ _ i hi := by
    rw [List.mem_singleton.mp hi]
    refine ⟨by decide, fun l hl => ?_, fun l hl => ?_⟩
    · rw [← Option.some.inj hl]
      decide
    · rw [← Option.some.inj hl]
      decide
  mem_part cpu hcpu other := by
    have hpart : (Finpartition.indiscrete (a := Finset.range 4) (by decide)).part cpu =
        Finset.range 4 :=
      Finpartition.part_eq_of_mem _ (Finset.mem_singleton_self _) (Finset.mem_range.mpr hcpu)
    rw [hpart, Finset.mem_range]
    refine ⟨fun h => ⟨_, List.mem_singleton_self _, Nat.zero_le other, ?_⟩, ?_⟩
    · exact Nat.lt_succ_iff.mp h
    · rintro ⟨i, hi, hmem⟩
      rw [List.mem_singleton.mp hi] at hmem
      exact Nat.lt_succ_iff.mpr hmem.2
  newline _ := ['\n']
  newline_blank _ c hc := by
    rw [List.mem_singleton.mp hc]
    decide

/-- The core is named three times: the threads inside the range are visited as
well. -/
theorem getCpuNumaMap_fourThreads :
    ¬ NamesOnce fourThreads (getCpuNumaMap fourThreads.machine) ∧
      (getCpuNumaMap fourThreads.machine).cpuMap.getD 0 [] = [some 0, some 0, some 0] ∧
      (getCpuNumaMap fourThreads.machine).numCpus = 3 ∧ fourThreads.siblings.parts.card = 1 := by
  have hentries : (getCpuNumaMap fourThreads.machine).cpuMap.getD 0 [] =
      [some 0, some 0, some 0] := by
    rw [cpuMap_eq (by decide)]
    decide
  have hcount : (getCpuNumaMap fourThreads.machine).numCpus = 3 := by
    rw [numCpus_eq]
    decide
  refine ⟨fun h => ?_, hentries, hcount, rfl⟩
  have hnodup := h.nodup 0
  rw [hentries] at hnodup
  exact absurd hnodup (by decide)

end Topology

end CpuNumaUtils

end RdmaManager
