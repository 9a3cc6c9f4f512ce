import RdmaManager.Perf.LatencyTests
/-!
# The tests of a server and of a client

A server and the clients of the benchmarks run the same `main`, each with
its own flags, and every test is a meeting: the k-th test of the server is
measured by the k-th tests of the clients. `main` skips a test of small
packets if the memory of the clients is on a GPU. A client looks that up in
its `memtype`, and a server in its `remote_memtype`, which the help text calls
not essential.
-/

namespace RdmaManager

/-- The elements are listed in their order. -/
theorem overwritten_fst {α β : Type} (w : α → Option β) (b : β) (l : List α) :
    (overwritten w b l).map Prod.fst = l := by
  induction l generalizing b with
  | nil => rfl
  | cons p l ih => exact congrArg (List.cons p) (ih _)

/-- `TEST`. -/
inductive PerfTestKind
  | bandwidth
  | latency
  | operationsCount
  | atomicsBandwidth
  | atomicsLatency
  | atomicsOperationsCount
  deriving DecidableEq, Repr

namespace PerfTestKind

/-- A test that transfers a given amount of data. -/
def transfers : PerfTestKind → Bool
  | .bandwidth => true
  | .operationsCount => true
  | _ => false

/-- A test of atomics, which has neither packets nor a write mode. -/
def atomics : PerfTestKind → Bool
  | .atomicsBandwidth => true
  | .atomicsLatency => true
  | .atomicsOperationsCount => true
  | _ => false

end PerfTestKind

/-- **The parsed flags** that the loops over all tests read. -/
structure MainFlags extends PerfFlags where
  tests : List PerfTestKind
  testOperations : PerfTestKind → ℕ
  transfersizes : List ℕ
  maxiterations : ℤ

/-- What both sides of a test have to agree on, with the number of the memory
types it is for. -/
structure TestSetting where
  test : PerfTestKind
  testOperations : ℕ
  gpui : ℕ
  threadCount : ℕ
  bufferSlots : ℕ
  iterationsPerThread : ℕ
  /-- The packet size and the write mode. -/
  packets : Option (ℕ × WriteMode)
  deriving DecidableEq, Repr

/-- Its packets are too small for the memory of a GPU. -/
def TestSetting.Small (x : TestSetting) : Prop :=
  ∃ packetSize writeMode, x.packets = some (packetSize, writeMode) ∧
    packetSize < GPUDIRECT_MINIMUM_MSG_SIZE

/-- What a test is created with. -/
structure MainTest extends TestSetting where
  localGpuIndex : ℤ
  remoteGpuIndex : ℤ
  deriving DecidableEq, Repr

namespace MainFlags

variable (F : MainFlags) (t : PerfTestKind) (gpui threadCount bufferSlots : ℕ)

/-- What is fixed for the tests of some memory types. -/
def roundOf (iterations : ℕ) : PerfFlags.Round where
  localGpuIndex := F.localMemtypes.getD gpui 0
  remoteGpuIndex := F.remoteMemtypes.getD (gpui % F.remoteMemtypes.length) 0
  threadCount
  bufferSlots
  iterations

/-- The test with these parameters. -/
def testOf (iterationsPerThread : ℕ) (packets : Option (ℕ × WriteMode)) : MainTest where
  test := t
  testOperations := F.testOperations t
  gpui
  threadCount
  bufferSlots
  iterationsPerThread
  packets
  localGpuIndex := F.localMemtypes.getD gpui 0
  remoteGpuIndex := F.remoteMemtypes.getD (gpui % F.remoteMemtypes.length) 0

/-- The iterations of a thread that transfers a given amount of data. -/
def transferIterations (transfersize packetSize : ℕ) : ℕ :=
  let iterations := F.round transfersize packetSize
  let limited :=
    if 0 < F.maxiterations ∧ F.maxiterations < iterations then F.maxiterations.toNat else iterations
  PerfFlags.atLeastOne (F.round limited threadCount)

/-- A packet size is skipped for some memory types. -/
def skips (packetSize : ℕ) : Bool :=
  F.checkInvalidTestParams packetSize (F.localMemtypes.getD gpui 0)
    (F.remoteMemtypes.getD (gpui % F.remoteMemtypes.length) 0)

/-- The tests of an amount of data. -/
def transferTests (transfersize : ℕ) : List MainTest :=
  if t.transfers then
    F.writeModes.flatMap fun writeMode => F.packetsizes.filterMap fun packetSize =>
      if F.skips gpui packetSize then none
      else some (F.testOf t gpui threadCount bufferSlots
        (F.transferIterations threadCount transfersize packetSize) (some (packetSize, writeMode)))
  else []

/-- The tests of an iteration count. -/
def countTests (iterations : ℕ) : List MainTest :=
  if t.atomics then
    [F.testOf t gpui threadCount bufferSlots (PerfFlags.atLeastOne (iterations / threadCount)) none]
  else if t = .latency then
    (F.iterationTests (F.roundOf gpui threadCount bufferSlots iterations)).map fun l =>
      F.testOf t gpui threadCount bufferSlots l.iterationsPerThread (some (l.packetSize, l.writeMode))
  else []

/-- The tests of a kind, for some memory types. -/
def testsOf : List MainTest :=
  F.threadCounts.flatMap fun threadCount => F.bufferslots.flatMap fun bufferSlots =>
    F.transfersizes.flatMap (F.transferTests t gpui threadCount bufferSlots) ++
      F.iterationCounts.flatMap (F.countTests t gpui threadCount bufferSlots)

/-- **The tests that `main` executes.** -/
def mainTests : List MainTest :=
  F.tests.flatMap fun t => (List.range F.localMemtypes.length).flatMap (F.testsOf t)

/-- The `remote_memtypes` of a flag that may be empty. -/
def remoteTypes (remoteMemtypes : List ℤ) : List ℤ :=
  if remoteMemtypes = [] then [-404] else remoteMemtypes

/-- The flags of a server, with its memory types. -/
def asServer (memtypes remoteMemtypes : List ℤ) : MainFlags :=
  { F with server := true, localMemtypes := memtypes, remoteMemtypes := remoteTypes remoteMemtypes }

/-- The flags of a client, with its memory types. -/
def asClient (memtypes remoteMemtypes : List ℤ) : MainFlags :=
  { F with server := false, localMemtypes := memtypes, remoteMemtypes := remoteTypes remoteMemtypes }

/-- Packets are tested that are too small for the memory of a GPU. -/
def TestsSmall : Prop :=
  (∃ packetSize ∈ F.packetsizes, packetSize < GPUDIRECT_MINIMUM_MSG_SIZE) ∧
    F.writeModes ≠ [] ∧ F.threadCounts ≠ [] ∧ F.bufferslots ≠ [] ∧
    (.latency ∈ F.tests ∧ F.iterationCounts ≠ [] ∨
      (∃ t ∈ F.tests, t.transfers = true) ∧ F.transfersizes ≠ [])

/-! ## The tests without their memory types -/

/-- What both sides of a test agree on, but for the skipping. -/
def settingOf (iterationsPerThread : ℕ) (packets : Option (ℕ × WriteMode)) : TestSetting where
  test := t
  testOperations := F.testOperations t
  gpui
  threadCount
  bufferSlots
  iterationsPerThread
  packets

/-- Those of an amount of data. -/
def transferSettings (transfersize : ℕ) : List TestSetting :=
  if t.transfers then
    F.writeModes.flatMap fun writeMode => F.packetsizes.map fun packetSize =>
      F.settingOf t gpui threadCount bufferSlots
        (F.transferIterations threadCount transfersize packetSize) (some (packetSize, writeMode))
  else []

/-- Those of an iteration count. -/
def countSettings (iterations : ℕ) : List TestSetting :=
  if t.atomics then
    [F.settingOf t gpui threadCount bufferSlots (PerfFlags.atLeastOne (iterations / threadCount)) none]
  else if t = .latency then
    (overwritten (fun p : WriteMode × ℕ => F.cut ⟨0, 0, threadCount, bufferSlots, iterations⟩ p.2)
      (PerfFlags.atLeastOne (iterations / threadCount)) F.pairs).map fun y =>
        F.settingOf t gpui threadCount bufferSlots y.2 (some (y.1.2, y.1.1))
  else []

/-- **All tests**, of `n` memory types. -/
def settings (n : ℕ) : List TestSetting :=
  F.tests.flatMap fun t => (List.range n).flatMap fun gpui =>
    F.threadCounts.flatMap fun threadCount => F.bufferslots.flatMap fun bufferSlots =>
      F.transfersizes.flatMap (F.transferSettings t gpui threadCount bufferSlots) ++
        F.iterationCounts.flatMap (F.countSettings t gpui threadCount bufferSlots)

/-- The test is skipped. -/
def skipsTest (x : TestSetting) : Bool :=
  match x.packets with
  | some (packetSize, _) => F.skips x.gpui packetSize
  | none => false

variable {F t gpui threadCount bufferSlots}

theorem transferTests_setting (transfersize : ℕ) :
    (F.transferTests t gpui threadCount bufferSlots transfersize).map MainTest.toTestSetting =
      (F.transferSettings t gpui threadCount bufferSlots transfersize).filter
        fun x => !F.skipsTest x := by
  unfold transferTests transferSettings
  split_ifs
  · rw [List.map_flatMap, List.filter_flatMap]
    congr 1
    funext writeMode
    induction F.packetsizes with
    | nil => rfl
    | cons packetSize packetsizes ih =>
        rw [List.filterMap_cons, List.map_cons, List.filter_cons]
        show _ = if (!F.skips gpui packetSize) = true then _ else _
        cases F.skips gpui packetSize with
        | true => exact ih
        | false => exact congrArg (List.cons _) ih
  · rfl

theorem countTests_setting (iterations : ℕ) :
    (F.countTests t gpui threadCount bufferSlots iterations).map MainTest.toTestSetting =
      (F.countSettings t gpui threadCount bufferSlots iterations).filter fun x => !F.skipsTest x := by
  unfold countTests countSettings
  split_ifs
  · rfl
  · rw [PerfFlags.iterationTests_eq, List.map_map, List.map_map, List.filter_map]
    rfl
  · rfl

/-- **The tests that are executed** are those that are not skipped. -/
theorem mainTests_setting (F : MainFlags) : F.mainTests.map MainTest.toTestSetting =
    (F.settings F.localMemtypes.length).filter fun x => !F.skipsTest x := by
  unfold mainTests settings testsOf
  simp only [List.map_flatMap, List.filter_flatMap, List.map_append, List.filter_append,
    transferTests_setting, countTests_setting]

/-! ## Which tests both sides skip -/

/-- A small packet size is tested with every write mode. -/
theorem small_of_transfers {transfersize : ℕ} {x : TestSetting}
    (hx : x ∈ F.transferSettings t gpui threadCount bufferSlots transfersize) (hsmall : x.Small) :
    t.transfers = true ∧ x.gpui = gpui ∧ F.writeModes ≠ [] ∧
      ∃ packetSize ∈ F.packetsizes, packetSize < GPUDIRECT_MINIMUM_MSG_SIZE := by
  unfold transferSettings at hx
  split_ifs at hx with htransfers
  · obtain ⟨writeMode, hmode, hx⟩ := List.mem_flatMap.mp hx
    obtain ⟨packetSize, hsize, rfl⟩ := List.mem_map.mp hx
    obtain ⟨size, mode, hpackets, hless⟩ := hsmall
    obtain rfl : packetSize = size := congrArg Prod.fst (Option.some.inj hpackets)
    exact ⟨htransfers, rfl, List.ne_nil_of_mem hmode, packetSize, hsize, hless⟩
  · exact absurd hx List.not_mem_nil

theorem small_of_counts {iterations : ℕ} {x : TestSetting}
    (hx : x ∈ F.countSettings t gpui threadCount bufferSlots iterations) (hsmall : x.Small) :
    t = .latency ∧ x.gpui = gpui ∧ F.writeModes ≠ [] ∧
      ∃ packetSize ∈ F.packetsizes, packetSize < GPUDIRECT_MINIMUM_MSG_SIZE := by
  unfold countSettings at hx
  obtain ⟨size, mode, hpackets, hless⟩ := hsmall
  split_ifs at hx with hatomics hlatency
  · obtain rfl := List.mem_singleton.mp hx
    exact absurd hpackets (Option.some_ne_none _).symm
  · obtain ⟨y, hy, rfl⟩ := List.mem_map.mp hx
    have hpair : y.1 ∈ F.pairs := by
      rw [← overwritten_fst _ _ F.pairs]
      exact List.mem_map_of_mem hy
    obtain ⟨writeMode, hmode, hpair⟩ := List.mem_flatMap.mp hpair
    obtain ⟨packetSize, hsize, hy⟩ := List.mem_map.mp hpair
    have hfirst : y.1.2 = size := congrArg Prod.fst (Option.some.inj hpackets)
    rw [← hy] at hfirst
    obtain rfl : packetSize = size := hfirst
    exact ⟨hlatency, rfl, List.ne_nil_of_mem hmode, packetSize, hsize, hless⟩
  · exact absurd hx List.not_mem_nil

/-- **Which memory types small packets are tested for.** -/
theorem exists_small_iff {n : ℕ} :
    (∃ x ∈ F.settings n, x.gpui = gpui ∧ x.Small) ↔ gpui < n ∧ F.TestsSmall := by
  unfold settings
  constructor
  · rintro ⟨x, hx, rfl, hsmall⟩
    obtain ⟨t, ht, hx⟩ := List.mem_flatMap.mp hx
    obtain ⟨gpui, hgpui, hx⟩ := List.mem_flatMap.mp hx
    obtain ⟨threadCount, hthreads, hx⟩ := List.mem_flatMap.mp hx
    obtain ⟨bufferSlots, hslots, hx⟩ := List.mem_flatMap.mp hx
    have hthreads := List.ne_nil_of_mem hthreads
    have hslots := List.ne_nil_of_mem hslots
    rcases List.mem_append.mp hx with hx | hx
    · obtain ⟨transfersize, htransfer, hx⟩ := List.mem_flatMap.mp hx
      obtain ⟨hkind, hgpui', hmodes, hsizes⟩ := small_of_transfers hx hsmall
      rw [hgpui']
      exact ⟨List.mem_range.mp hgpui, hsizes, hmodes, hthreads, hslots,
        Or.inr ⟨⟨t, ht, hkind⟩, List.ne_nil_of_mem htransfer⟩⟩
    · obtain ⟨iterations, hiterations, hx⟩ := List.mem_flatMap.mp hx
      obtain ⟨rfl, hgpui', hmodes, hsizes⟩ := small_of_counts hx hsmall
      rw [hgpui']
      exact ⟨List.mem_range.mp hgpui, hsizes, hmodes, hthreads, hslots,
        Or.inl ⟨ht, List.ne_nil_of_mem hiterations⟩⟩
  · rintro ⟨hgpui, ⟨packetSize, hsize, hless⟩, hmodes, hthreads, hslots, hkind⟩
    obtain ⟨writeMode, hmode⟩ := List.exists_mem_of_ne_nil _ hmodes
    obtain ⟨threadCount, hthreads⟩ := List.exists_mem_of_ne_nil _ hthreads
    obtain ⟨bufferSlots, hslots⟩ := List.exists_mem_of_ne_nil _ hslots
    have hin : ∀ t ∈ F.tests, ∀ x, (x ∈ F.transfersizes.flatMap
        (F.transferSettings t gpui threadCount bufferSlots) ++
          F.iterationCounts.flatMap (F.countSettings t gpui threadCount bufferSlots)) →
        x ∈ F.settings n := fun t ht x hx =>
      List.mem_flatMap.mpr ⟨t, ht, List.mem_flatMap.mpr ⟨gpui, List.mem_range.mpr hgpui,
        List.mem_flatMap.mpr ⟨threadCount, hthreads, List.mem_flatMap.mpr ⟨bufferSlots, hslots, hx⟩⟩⟩⟩
    rcases hkind with ⟨hlatency, hcounts⟩ | ⟨⟨t, ht, htransfers⟩, htransfersizes⟩
    · obtain ⟨iterations, hiterations⟩ := List.exists_mem_of_ne_nil _ hcounts
      have hpair : (writeMode, packetSize) ∈ F.pairs :=
        List.mem_flatMap.mpr ⟨writeMode, hmode, List.mem_map_of_mem hsize⟩
      rw [← overwritten_fst
        (fun p : WriteMode × ℕ => F.cut ⟨0, 0, threadCount, bufferSlots, iterations⟩ p.2)
        (PerfFlags.atLeastOne (iterations / threadCount)) F.pairs] at hpair
      obtain ⟨y, hy, hfirst⟩ := List.mem_map.mp hpair
      refine ⟨_, hin .latency hlatency _ (List.mem_append_right _ (List.mem_flatMap.mpr
        ⟨iterations, hiterations, List.mem_map_of_mem hy⟩)), rfl, y.1.2, y.1.1, rfl, ?_⟩
      rw [hfirst]
      exact hless
    · obtain ⟨transfersize, htransfer⟩ := List.exists_mem_of_ne_nil _ htransfersizes
      refine ⟨F.settingOf t gpui threadCount bufferSlots (F.transferIterations threadCount transfersize
        packetSize) (some (packetSize, writeMode)), hin t ht _ (List.mem_append_left _
          (List.mem_flatMap.mpr ⟨transfersize, htransfer, ?_⟩)), rfl, packetSize, writeMode, rfl, hless⟩
      unfold transferSettings
      rw [if_pos htransfers]
      exact List.mem_flatMap.mpr ⟨writeMode, hmode, List.mem_map_of_mem hsize⟩

/-- Memory of a GPU. -/
def OnGpu (memtypes : List ℤ) (gpui : ℕ) : Prop := MEMORY_TYPE_MAIN < memtypes.getD gpui 0

instance (memtypes : List ℤ) (gpui : ℕ) : Decidable (OnGpu memtypes gpui) :=
  inferInstanceAs (Decidable (_ < _))

theorem skipsTest_iff (x : TestSetting) : F.skipsTest x = true ↔ x.Small ∧
    MEMORY_TYPE_MAIN < if F.server then F.remoteMemtypes.getD (x.gpui % F.remoteMemtypes.length) 0
      else F.localMemtypes.getD x.gpui 0 := by
  unfold skipsTest TestSetting.Small
  cases hpackets : x.packets with
  | none => simp
  | some p =>
      obtain ⟨packetSize, writeMode⟩ := p
      show (decide _ && decide _) = true ↔ _
      rw [Bool.and_eq_true, decide_eq_true_iff, decide_eq_true_iff, and_comm]
      refine and_congr_left fun _ => ⟨fun hless => ⟨packetSize, writeMode, rfl, hless⟩, ?_⟩
      rintro ⟨size, mode, heq, hless⟩
      obtain rfl : packetSize = size := congrArg Prod.fst (Option.some.inj heq)
      exact hless

/-- A server looks at the memory of its clients. -/
theorem skipsTest_asServer (F : MainFlags) (memtypes remoteMemtypes : List ℤ) (x : TestSetting) :
    (F.asServer memtypes remoteMemtypes).skipsTest x = true ↔
      x.Small ∧ OnGpu (remoteTypes remoteMemtypes) (x.gpui % (remoteTypes remoteMemtypes).length) :=
  skipsTest_iff x

/-- A client looks at its own. -/
theorem skipsTest_asClient (F : MainFlags) (memtypes remoteMemtypes : List ℤ) (x : TestSetting) :
    (F.asClient memtypes remoteMemtypes).skipsTest x = true ↔ x.Small ∧ OnGpu memtypes x.gpui :=
  skipsTest_iff x

/-- **A server and a client execute the same tests** in the same order if and
only if, where small packets are tested at all, the server's `remote_memtype`
tells for each of the memory types whether the client's memory is on a GPU. -/
theorem mainTests_meet_iff (F : MainFlags) {serverTypes serverRemote clientTypes clientRemote : List ℤ}
    (hlength : serverTypes.length = clientTypes.length) :
    (F.asServer serverTypes serverRemote).mainTests.map MainTest.toTestSetting =
        (F.asClient clientTypes clientRemote).mainTests.map MainTest.toTestSetting ↔
      (F.TestsSmall → ∀ gpui < clientTypes.length,
        (OnGpu (remoteTypes serverRemote) (gpui % (remoteTypes serverRemote).length) ↔
          OnGpu clientTypes gpui)) := by
  have hserver : (F.asServer serverTypes serverRemote).settings serverTypes.length =
      F.settings clientTypes.length := by
    rw [hlength]
    rfl
  have hskips := skipsTest_asServer F serverTypes serverRemote
  have hskips' := skipsTest_asClient F clientTypes clientRemote
  rw [mainTests_setting, mainTests_setting]
  show List.filter _ ((F.asServer serverTypes serverRemote).settings serverTypes.length) =
    List.filter _ (F.settings clientTypes.length) ↔ _
  rw [hserver]
  constructor
  · intro h hsmall gpui hgpui
    -- a small test that one of them executes is executed by the other
    obtain ⟨x, hx, rfl, hxsmall⟩ := exists_small_iff.mpr ⟨hgpui, hsmall⟩
    have hmem := congrArg (x ∈ ·) h
    simp only [List.mem_filter, hx, true_and, Bool.not_eq_true', ← Bool.not_eq_true, hskips, hskips',
      hxsmall, eq_iff_iff] at hmem
    exact not_iff_not.mp hmem
  · intro h
    refine List.filter_congr fun x hx => congrArg not (Bool.eq_iff_iff.mpr ?_)
    rw [hskips, hskips']
    refine and_congr_right fun hxsmall => ?_
    obtain ⟨hgpui, hsmall⟩ := exists_small_iff.mp ⟨x, hx, rfl, hxsmall⟩
    exact h hsmall x.gpui hgpui

/-- The default flags, with a packet size that a GPU cannot do. -/
def smallPackets : MainFlags where
  server := false
  localMemtypes := []
  remoteMemtypes := []
  threadCounts := [1]
  bufferslots := [16]
  iterationCounts := [500000]
  writeModes := [.auto]
  packetsizes := [64, 4096]
  maxtransfersize := 24000000000
  round a b := (2 * a.toNat + b) / (2 * b)
  tests := [.bandwidth]
  testOperations _ := 31
  transfersizes := [24000000000]
  maxiterations := 500000

/-- A client is on a GPU, and the server was not told. -/
theorem mainTests_meet_iff_notGiven :
    (smallPackets.asServer [-3] []).mainTests.map MainTest.toTestSetting ≠
      (smallPackets.asClient [0] [-3]).mainTests.map MainTest.toTestSetting := by
  intro hmeet
  have hlength : [(-3 : ℤ)].length = [(0 : ℤ)].length := rfl
  have hall := (mainTests_meet_iff smallPackets hlength).mp hmeet
  have hsmall : smallPackets.TestsSmall :=
    ⟨⟨64, by decide, by decide⟩, by decide, by decide, by decide,
      Or.inr ⟨⟨.bandwidth, by decide, rfl⟩, by decide⟩⟩
  exact absurd ((hall hsmall 0 (by decide)).mpr (by decide)) (by decide)

end MainFlags

end RdmaManager
