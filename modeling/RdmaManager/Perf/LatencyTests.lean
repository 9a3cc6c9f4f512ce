import Mathlib.Data.Int.Notation
import Mathlib.Data.List.Basic
import Mathlib.Data.Nat.Notation
/-!
# The latency tests of a run

For each iteration count `main` goes through the write modes and through
the packet sizes, and creates a test for each pair. How many iterations a
thread makes is kept in a variable of the loop over the iteration counts:
a packet size that `maxtransfersize` cuts assigns it, and one that is not
cut finds what was assigned last.
-/

namespace RdmaManager

section Overwritten

variable {α β : Type} {w : α → Option β} {b c : β} {p q : α} {l : List α}

/-- **A variable through a loop**: it holds `b` before, some elements assign
it, and each element is listed with what it finds. -/
def overwritten (w : α → Option β) (b : β) : List α → List (α × β)
  | [] => []
  | p :: l => (p, (w p).getD b) :: overwritten w ((w p).getD b) l

/-- The element `q` assigns nothing, and nothing before it does. -/
def FindsFirst (w : α → Option β) (l : List α) (q : α) : Prop :=
  ∃ mid post, l = mid ++ q :: post ∧ (∀ m ∈ mid, w m = none) ∧ w q = none

/-- The element `q` assigns nothing, and the last before it that assigns
something assigns `c`. -/
def FindsOld (w : α → Option β) (l : List α) (c : β) (q : α) : Prop :=
  ∃ pre p rest, l = pre ++ p :: rest ∧ w p = some c ∧ FindsFirst w rest q

theorem FindsFirst.cons (h : FindsFirst w l q) (hp : w p = none) : FindsFirst w (p :: l) q := by
  obtain ⟨mid, post, rfl, hmid, hq⟩ := h
  refine ⟨p :: mid, post, rfl, ?_, hq⟩
  intro m hm
  rcases List.mem_cons.mp hm with rfl | hm
  · exact hp
  · exact hmid m hm

theorem FindsOld.cons (h : FindsOld w l c q) (p : α) : FindsOld w (p :: l) c q := by
  obtain ⟨pre, p', rest, rfl, hp', hfirst⟩ := h
  exact ⟨p :: pre, p', rest, rfl, hp', hfirst⟩

theorem FindsFirst.mem (h : FindsFirst w l q) (b : β) : (q, b) ∈ overwritten w b l := by
  obtain ⟨mid, post, rfl, hmid, hq⟩ := h
  induction mid with
  | nil =>
      rw [List.nil_append, overwritten, hq]
      exact List.mem_cons_self
  | cons m mid ih =>
      rw [List.cons_append, overwritten, hmid m List.mem_cons_self]
      exact List.mem_cons_of_mem _ (ih fun m' hm' => hmid m' (List.mem_cons_of_mem _ hm'))

theorem FindsOld.mem (h : FindsOld w l c q) (b : β) : (q, c) ∈ overwritten w b l := by
  obtain ⟨pre, p, rest, rfl, hp, hfirst⟩ := h
  induction pre generalizing b with
  | nil =>
      rw [List.nil_append, overwritten, hp]
      exact List.mem_cons_of_mem _ (hfirst.mem c)
  | cons p' pre ih => exact List.mem_cons_of_mem _ (ih _)

/-- An element finds what it assigns, what was there before the loop, or
what was assigned last. -/
theorem mem_overwritten {y : α × β} (hy : y ∈ overwritten w b l) :
    w y.1 = some y.2 ∨ y.2 = b ∧ FindsFirst w l y.1 ∨ FindsOld w l y.2 y.1 := by
  induction l generalizing b with
  | nil => exact absurd hy List.not_mem_nil
  | cons p l ih =>
      rw [overwritten, List.mem_cons] at hy
      rcases hy with rfl | hy
      · cases hp : w p with
        | some d => exact Or.inl (by simp)
        | none => exact Or.inr (Or.inl ⟨rfl, [], l, rfl, by simp, hp⟩)
      · rcases ih hy with hown | ⟨hfound, hfirst⟩ | hold
        · exact Or.inl hown
        · cases hp : w p with
          | some d =>
              rw [hp, Option.getD_some] at hfound
              exact Or.inr (Or.inr ⟨[], p, l, rfl, by rw [hp, hfound], hfirst⟩)
          | none =>
              rw [hp, Option.getD_none] at hfound
              exact Or.inr (Or.inl ⟨hfound, hfirst.cons hp⟩)
        · exact Or.inr (Or.inr (hold.cons p))

/-- **Each element finds its own value or the one from before the loop** if
and only if no element finds another old value. -/
theorem overwritten_own_iff (used : α → Prop) :
    (∀ y ∈ overwritten w b l, used y.1 → y.2 = (w y.1).getD b) ↔
      ∀ c q, FindsOld w l c q → used q → c = b := by
  constructor
  · intro h c q hold hused
    have hfound := h (q, c) (hold.mem b) hused
    obtain ⟨-, -, -, -, -, -, -, -, -, hq⟩ := hold
    rwa [hq, Option.getD_none] at hfound
  · intro h y hy hused
    rcases mem_overwritten hy with hown | ⟨hfound, hfirst⟩ | hold
    · rw [hown, Option.getD_some]
    · obtain ⟨-, -, -, -, hq⟩ := hfirst
      rw [hq, Option.getD_none, hfound]
    · have hb := h _ _ hold hused
      obtain ⟨-, -, -, -, -, -, -, -, -, hq⟩ := hold
      rw [hq, Option.getD_none, hb]

end Overwritten

/-- `WRITE_MODE_AUTO` and so on. -/
inductive WriteMode
  | auto
  | normal
  | immediate
  deriving DecidableEq, Repr

/-- `Config::GPUDIRECT_MINIMUM_MSG_SIZE`. -/
def GPUDIRECT_MINIMUM_MSG_SIZE : ℕ := 256

/-- `MEMORY_TYPE::MAIN`. -/
def MEMORY_TYPE_MAIN : ℤ := -3

/-- **The parsed flags** that the loops over latency tests read. `main` has
checked that no thread count is below `1` and no packet size below `4`. -/
structure PerfFlags where
  server : Bool
  localMemtypes : List ℤ
  remoteMemtypes : List ℤ
  threadCounts : List ℕ
  bufferslots : List ℕ
  iterationCounts : List ℕ
  writeModes : List WriteMode
  packetsizes : List ℕ
  maxtransfersize : ℤ
  /-- `(uint64_t)((long double)a / (long double)b + 0.5)`. -/
  round : ℤ → ℕ → ℕ

/-- What a `LatencyPerfTest` is created with, where tests differ, with the
iteration count it is for. -/
structure LatencyTest where
  iterations : ℕ
  localGpuIndex : ℤ
  remoteGpuIndex : ℤ
  threadCount : ℕ
  packetSize : ℕ
  bufferSlots : ℕ
  iterationsPerThread : ℕ
  writeMode : WriteMode
  deriving DecidableEq, Repr

namespace PerfFlags

variable (F : PerfFlags)

/-- `checkInvalidTestParams`. -/
def checkInvalidTestParams (packetSize : ℕ) (localGpuIndex remoteGpuIndex : ℤ) : Bool :=
  decide ((if F.server then remoteGpuIndex else localGpuIndex) > MEMORY_TYPE_MAIN) &&
    decide (packetSize < GPUDIRECT_MINIMUM_MSG_SIZE)

/-- `if(iterations_per_thread==0) iterations_per_thread = 1;` -/
def atLeastOne (iterationsPerThread : ℕ) : ℕ :=
  if iterationsPerThread = 0 then 1 else iterationsPerThread

/-- The loop variables that are fixed while a test is created. -/
structure Round where
  localGpuIndex : ℤ
  remoteGpuIndex : ℤ
  threadCount : ℕ
  bufferSlots : ℕ
  iterations : ℕ
  deriving DecidableEq, Repr

variable (r : Round)

/-- What a packet size assigns to `iterations_per_thread`. -/
def cut (packetSize : ℕ) : Option ℕ :=
  if 0 < F.maxtransfersize ∧ F.round F.maxtransfersize packetSize < r.iterations then
    some (atLeastOne (F.round F.maxtransfersize packetSize / r.threadCount))
  else none

/-- The test of a packet size. -/
def testOf (writeMode : WriteMode) (packetSize iterationsPerThread : ℕ) : LatencyTest where
  iterations := r.iterations
  localGpuIndex := r.localGpuIndex
  remoteGpuIndex := r.remoteGpuIndex
  threadCount := r.threadCount
  packetSize
  bufferSlots := r.bufferSlots
  iterationsPerThread
  writeMode

/-- The body of the loop over the packet sizes, with the variable and the
tests created so far. -/
def packetStep (writeMode : WriteMode) (s : ℕ × List LatencyTest) (packetSize : ℕ) :
    ℕ × List LatencyTest :=
  let iterationsPerThread := (F.cut r packetSize).getD s.1
  if F.checkInvalidTestParams packetSize r.localGpuIndex r.remoteGpuIndex then
    (iterationsPerThread, s.2)
  else (iterationsPerThread, s.2 ++ [testOf r writeMode packetSize iterationsPerThread])

/-- The body of the loop over the iteration counts. -/
def iterationTests : List LatencyTest :=
  (F.writeModes.foldl (fun s writeMode => F.packetsizes.foldl (F.packetStep r writeMode) s)
    (atLeastOne (r.iterations / r.threadCount), [])).2

/-- What the loops go through. -/
def rounds : List Round :=
  (List.range F.localMemtypes.length).flatMap fun gpui =>
    F.threadCounts.flatMap fun threadCount =>
      F.bufferslots.flatMap fun bufferSlots =>
        F.iterationCounts.map fun iterations =>
          { localGpuIndex := F.localMemtypes.getD gpui 0
            remoteGpuIndex := F.remoteMemtypes.getD (gpui % F.remoteMemtypes.length) 0
            threadCount
            bufferSlots
            iterations }

/-- **The latency tests that `main` creates.** -/
def latencyTests : List LatencyTest := F.rounds.flatMap F.iterationTests

/-- The iterations of a thread, by the parameters of the test alone. -/
def share (iterations threadCount packetSize : ℕ) : ℕ :=
  max 1 ((if 0 < F.maxtransfersize then min iterations (F.round F.maxtransfersize packetSize)
    else iterations) / threadCount)

/-- The pairs that a round goes through, in its order. -/
def pairs : List (WriteMode × ℕ) :=
  F.writeModes.flatMap fun writeMode => F.packetsizes.map fun packetSize => (writeMode, packetSize)

/-- **No cut is carried over**: where a packet size that is cut comes before
one that is not, with only such ones between, and a test is created for the
latter, the two shares are the same. -/
def NothingCarried : Prop :=
  ∀ r ∈ F.rounds, ∀ c q, FindsOld (fun p : WriteMode × ℕ => F.cut r p.2) F.pairs c q →
    F.checkInvalidTestParams q.2 r.localGpuIndex r.remoteGpuIndex = false →
    c = atLeastOne (r.iterations / r.threadCount)

variable {F r}

theorem atLeastOne_eq (n : ℕ) : atLeastOne n = max 1 n := by
  unfold atLeastOne
  split_ifs <;> omega

/-- A share is what the packet size assigns, or what the variable is
initialised with. -/
theorem share_eq (packetSize : ℕ) : F.share r.iterations r.threadCount packetSize =
    (F.cut r packetSize).getD (atLeastOne (r.iterations / r.threadCount)) := by
  unfold share cut
  by_cases hlimit : 0 < F.maxtransfersize
  · rcases Nat.lt_or_ge (F.round F.maxtransfersize packetSize) r.iterations with hcut | hall
    · rw [if_pos hlimit, if_pos ⟨hlimit, hcut⟩, Nat.min_eq_right (Nat.le_of_lt hcut),
        Option.getD_some, atLeastOne_eq]
    · rw [if_pos hlimit, if_neg fun h => absurd h.2 (by omega), Nat.min_eq_left hall, Option.getD_none,
        atLeastOne_eq]
  · rw [if_neg hlimit, if_neg fun h => hlimit h.1, Option.getD_none, atLeastOne_eq]

/-- The tests of a stretch of pairs. -/
theorem foldl_packetStep (l : List (WriteMode × ℕ)) (s : ℕ × List LatencyTest) :
    (l.foldl (fun s p => F.packetStep r p.1 s p.2) s).2 = s.2 ++
      ((overwritten (fun p : WriteMode × ℕ => F.cut r p.2) s.1 l).filter fun y =>
        !F.checkInvalidTestParams y.1.2 r.localGpuIndex r.remoteGpuIndex).map
          fun y => testOf r y.1.1 y.1.2 y.2 := by
  induction l generalizing s with
  | nil => exact (List.append_nil _).symm
  | cons p l ih =>
      rw [List.foldl_cons, ih, overwritten, List.filter_cons]
      -- the size assigns its cut also where no test is created for it
      unfold packetStep
      cases F.checkInvalidTestParams p.2 r.localGpuIndex r.remoteGpuIndex with
      | true => rfl
      | false => simp

/-- The two loops are one over the pairs. -/
theorem iterationTests_eq : F.iterationTests r =
    ((overwritten (fun p : WriteMode × ℕ => F.cut r p.2)
      (atLeastOne (r.iterations / r.threadCount)) F.pairs).filter fun y =>
        !F.checkInvalidTestParams y.1.2 r.localGpuIndex r.remoteGpuIndex).map
          fun y => testOf r y.1.1 y.1.2 y.2 := by
  have hloops : ∀ s, F.writeModes.foldl
      (fun s writeMode => F.packetsizes.foldl (F.packetStep r writeMode) s) s =
        F.pairs.foldl (fun s p => F.packetStep r p.1 s p.2) s := by
    intro s
    unfold pairs
    rw [List.foldl_flatMap]
    simp only [List.foldl_map]
  unfold iterationTests
  rw [hloops, foldl_packetStep, List.nil_append]

/-- A round's tests have their shares if and only if no cut is carried over
in it. -/
theorem iterationTests_share_iff :
    (∀ t ∈ F.iterationTests r,
      t.iterationsPerThread = F.share t.iterations t.threadCount t.packetSize) ↔
      ∀ c q, FindsOld (fun p : WriteMode × ℕ => F.cut r p.2) F.pairs c q →
        F.checkInvalidTestParams q.2 r.localGpuIndex r.remoteGpuIndex = false →
        c = atLeastOne (r.iterations / r.threadCount) := by
  rw [← overwritten_own_iff, iterationTests_eq]
  constructor
  · intro h y hy hvalid
    have hshare := h (testOf r y.1.1 y.1.2 y.2) (List.mem_map.mpr
      ⟨y, List.mem_filter.mpr ⟨hy, by rw [hvalid]; rfl⟩, rfl⟩)
    rwa [show F.share (testOf r y.1.1 y.1.2 y.2).iterations (testOf r y.1.1 y.1.2 y.2).threadCount
      (testOf r y.1.1 y.1.2 y.2).packetSize = _ from share_eq y.1.2] at hshare
  · intro h t ht
    obtain ⟨y, hy, rfl⟩ := List.mem_map.mp ht
    obtain ⟨hy, hvalid⟩ := List.mem_filter.mp hy
    exact (h y hy (by simpa using hvalid)).trans (share_eq y.1.2).symm

/-- **A test has the iterations of its own parameters, whatever ran before
it**, if and only if no cut is carried over. -/
theorem latencyTests_share_iff (F : PerfFlags) :
    (∀ t ∈ F.latencyTests,
      t.iterationsPerThread = F.share t.iterations t.threadCount t.packetSize) ↔
      F.NothingCarried := by
  have hrounds : (∀ t ∈ F.latencyTests,
      t.iterationsPerThread = F.share t.iterations t.threadCount t.packetSize) ↔
      ∀ r ∈ F.rounds, ∀ t ∈ F.iterationTests r,
        t.iterationsPerThread = F.share t.iterations t.threadCount t.packetSize := by
    unfold latencyTests
    constructor
    · intro h r hr t ht
      exact h t (List.mem_flatMap.mpr ⟨r, hr, ht⟩)
    · intro h t ht
      obtain ⟨r, hr, ht⟩ := List.mem_flatMap.mp ht
      exact h r hr t ht
  rw [hrounds]
  exact forall₂_congr fun r _ => iterationTests_share_iff

/-- The default limit and iteration count, with a large packet size before a
small one. -/
def largeFirst : PerfFlags where
  server := false
  localMemtypes := [MEMORY_TYPE_MAIN]
  remoteMemtypes := [-404]
  threadCounts := [1]
  bufferslots := [16]
  iterationCounts := [500000]
  writeModes := [.auto]
  packetsizes := [1048576, 4096]
  maxtransfersize := 24000000000
  round a b := (2 * a.toNat + b) / (2 * b)

/-- The small packets are sent as often as the large ones, and more often in
the other order. -/
theorem latencyTests_largeFirst :
    largeFirst.latencyTests.map (fun t => (t.packetSize, t.iterationsPerThread)) =
        [(1048576, 22888), (4096, 22888)] ∧
      largeFirst.share 500000 1 4096 = 500000 ∧
      ({ largeFirst with packetsizes := [4096, 1048576] } : PerfFlags).latencyTests.map
        (fun t => (t.packetSize, t.iterationsPerThread)) = [(4096, 500000), (1048576, 22888)] := by
  decide

end PerfFlags

end RdmaManager
