import RdmaManager.Node.RemoteBlocks
/-!
# Remote memory is private memory

The clients and the server share one buffer, and requests reach it past the
server whenever the device likes. Still each of them might as well have a
memory of its own: `fabric` refines `privateMemory`, where a block is
granted to a memory, accessed in it only, and withdrawn from it.
-/

namespace RdmaManager

open BaseMemory

namespace Fabric

variable {κ : Type} {target : Target} {s s' : Fabric κ} {c : κ} {k n : ℕ}

/-- The blocks of the server, and of each client. -/
def blocksOf (s : Fabric κ) : Option κ → ℕ → Option ℕ
  | none => s.own
  | some c => (s.tenants c).held

/-- The server or a client, as the holder of its blocks. -/
def asHolder : Option κ → Holder κ
  | none => .server
  | some c => .client c .held

/-- **The memories that the server and the clients seem to have.** -/
noncomputable def memories (s : Fabric κ) (o : Option κ) : ℕ → Option UInt8 :=
  view s.mem s.base (s.blocksOf o)

/-- Where the block lies that `localAlloc` gets. -/
def localGrant (s : Fabric κ) (size : ℕ) : Option ℕ :=
  match (BaseMemory.internalAlloc size s.memory).1 with
  | .ok memRes => if memRes.isnull then none else some memRes.offset
  | .error _ => none

variable [DecidableEq κ]

/-- What a step shows. -/
def shows (s : Fabric κ) : FabricStep κ → Option (MemoryEvent (Option κ) UInt8)
  | .ask _ (.remoteAlloc _) => none
  | .ask c (.remoteFree _ offset) =>
      ((s.tenants c).held offset.toNat).map fun n => .withdrawn (some c) offset.toNat n
  | .finish c => (s.tenants c).exchange.grant.map fun block => .granted (some c) block.1 block.2
  | .land c data =>
      match (s.tenants c).queue.wrs[(s.tenants c).landed]? with
      | some wr =>
          if wr.extent = 0 then none
          else some (.accessed (some c) (wr.remoteAddr - s.base) (wr.finds s.mem)
            (wr.leaves data (wr.finds s.mem)))
      | none => none
  | .localAlloc size => (s.localGrant size).map fun offset => .granted none offset size
  | .localFree offset => (s.own offset).map fun n => .withdrawn none offset n
  | .localStore start data =>
      some (.accessed none start (window s.mem (s.base + start) data.length) data)
  | _ => none

/-! ## Blocks of one holder and of others -/

omit [DecidableEq κ] in
theorem holds_asHolder (o : Option κ) : s.Holds (asHolder o) (k, n) ↔ s.blocksOf o k = some n := by
  cases o <;> rfl

omit [DecidableEq κ] in
theorem asHolder_injective : Function.Injective (asHolder : Option κ → Holder κ) := by
  intro o o' h
  cases o <;> cases o' <;> simp_all [asHolder]

omit [DecidableEq κ] in
/-- A block of one holder covers nothing of what another one has. -/
theorem Books.not_covers (h : Books target s) {x : Holder κ} (hx : s.Holds x (k, n)) {o : Option κ}
    (hne : x ≠ asHolder o) {p : ℕ} (hle : k ≤ p) (hlt : p < k + n) : ¬ Covers (s.blocksOf o) p := by
  rintro ⟨j, m, hj, hle', hlt'⟩
  rcases h.apart hx ((holds_asHolder o).mpr hj) with ⟨hsame, -⟩ | hapart | hapart
  · exact hne hsame
  · simp only at hapart
    omega
  · simp only at hapart
    omega

omit [DecidableEq κ] in
theorem Books.blockApart (h : Books target s) {o : Option κ} (hk : s.blocksOf o k = some n) :
    BlockApart (s.blocksOf o) k n := by
  intro j m hne hj
  rcases h.apart ((holds_asHolder o).mpr hk) ((holds_asHolder o).mpr hj) with ⟨-, hsame⟩ | hapart
  · exact absurd (Prod.mk.inj hsame).1.symm hne
  · exact hapart.symm

/-! ## What the memories become -/

theorem memories_setTenant (t : Tenant) :
    (s.setTenant c t).memories =
      Function.update s.memories (some c) (view s.mem s.base t.held) := by
  funext o
  rcases o with _ | d
  · rfl
  · rcases eq_or_ne d c with rfl | hne
    · rw [Function.update_self, memories, blocksOf, setTenant_self]
      rfl
    · rw [Function.update_of_ne (by simpa using hne), memories, blocksOf, setTenant_of_ne hne]
      rfl

theorem memories_frame {t : Tenant} (h : t.held = (s.tenants c).held) :
    (s.setTenant c t).memories = s.memories := by
  rw [memories_setTenant, h]
  exact Function.update_eq_self (some c) s.memories

omit [DecidableEq κ] in
theorem memories_setMemory {m' : BaseMemory} (h : m'.buffer = s.memory.buffer) :
    (s.setMemory m').memories = s.memories := by
  funext o
  have hbase : (s.setMemory m').base = s.base := h
  unfold memories
  rw [hbase]
  rfl

theorem memories_setOwn {m' : BaseMemory} (h : m'.buffer = s.memory.buffer) {own : ℕ → Option ℕ} :
    ({ s.setMemory m' with own } : Fabric κ).memories =
      Function.update s.memories none (view s.mem s.base own) := by
  have hbase : (s.setMemory m').base = s.base := h
  funext o
  rcases o with _ | c
  · rw [Function.update_self]
    show view s.mem (s.setMemory m').base own = _
    rw [hbase]
  · rw [Function.update_of_ne (by simp)]
    show view s.mem (s.setMemory m').base _ = _
    rw [hbase]
    rfl

/-! ## A step, seen from the memories -/

/-- The step is one of the memories, or none. -/
def Simulated (s : Fabric κ) (l : FabricStep κ) (s' : Fabric κ) : Prop :=
  match s.shows l with
  | none => s'.memories = s.memories
  | some e => (privateMemory (Option κ) UInt8).Step s.memories e s'.memories

theorem simulated_silent {l : FabricStep κ} (hshows : s.shows l = none)
    (h : s'.memories = s.memories) : s.Simulated l s' := by
  unfold Simulated
  rw [hshows]
  exact h

theorem simulated_shown {l : FabricStep κ} {e : MemoryEvent (Option κ) UInt8}
    (hshows : s.shows l = some e)
    (h : (privateMemory (Option κ) UInt8).Step s.memories e s'.memories) : s.Simulated l s' := by
  unfold Simulated
  rw [hshows]
  exact h

theorem Books.simulates_ask (h : Books target s) {call : MemoryCall}
    (hproper : s.Proper (.ask c call)) :
    s.Simulated (.ask c call) (s.setTenant c ((s.tenants c).ask call)) := by
  cases call with
  | remoteAlloc size => exact simulated_silent rfl (memories_frame rfl)
  | remoteFree size offset =>
      obtain ⟨n, hk, -⟩ := hproper
      refine simulated_shown (e := .withdrawn (some c) offset.toNat n) ?_ ?_
      · show ((s.tenants c).held offset.toNat).map _ = _
        rw [hk]
        rfl
      · rw [memories_setTenant]
        have hblock : s.blocksOf (some c) offset.toNat = some n := hk
        exact step_withdrawn rfl hblock (h.blockApart hblock)

theorem Books.simulates_serve (h : Books target s) {call : MemoryCall} {o : Option (ℕ × ℕ)}
    (hasked : (s.tenants c).exchange = .asked call o) : s.Simulated (.serve c) (s.serve c) := by
  refine simulated_silent rfl ?_
  have hserved := h.served hasked
  generalize s.serve c = s' at hserved
  cases hserved with
  | @granted size k m' htook =>
      have hframe : ((s.setMemory m').answer c (.remoteAlloc size)
          ⟨UInt64.ofNat k, MessageErrors.noError.code⟩).memories = (s.setMemory m').memories :=
        memories_frame rfl
      exact hframe.trans (memories_setMemory htook.buffer)
  | refused hnone => exact memories_frame rfl
  | @released size offset n m' hlive hgave =>
      have hframe : ((s.setMemory m').answer c (.remoteFree size offset)
          ⟨offset, MessageErrors.noError.code⟩).memories = (s.setMemory m').memories :=
        memories_frame rfl
      exact hframe.trans (memories_setMemory hgave.buffer)

theorem Books.simulates_finish (h : Books target s) {call : MemoryCall} {response : Response}
    (hanswered : (s.tenants c).exchange = .answered call response) :
    s.Simulated (.finish c) (s.setTenant c ((s.tenants c).finish target)) := by
  have hok := h.exchange c
  rw [hanswered] at hok
  rcases Tenant.finish_cases (h.wired c).linked.socket hanswered hok with
    ⟨k, n, hgrant, hfinish⟩ | ⟨hgrant, hfinish⟩
  · refine simulated_shown (e := .granted (some c) k n) ?_ ?_
    · show (s.tenants c).exchange.grant.map _ = _
      rw [hgrant]
      rfl
    · rw [hfinish, memories_setTenant]
      have hclaim : s.Holds (.client c .granted) (k, n) := hgrant
      exact step_granted rfl (h.held_of_grant hgrant) fun p =>
        h.not_covers hclaim (o := some c) (by simp [asHolder])
  · refine simulated_silent ?_ (by rw [hfinish]; exact memories_frame rfl)
    show (s.tenants c).exchange.grant.map _ = _
    rw [hgrant]
    rfl

/-- A request that is carried out is an access of its client. -/
theorem Books.simulates_land (h : Books target s) {data : List UInt8} {wr : SendWr}
    (hwr : (s.tenants c).queue.wrs[(s.tenants c).landed]? = some wr)
    (hdata : data.length = wr.length.toNat) {t : Tenant} (ht : t.held = (s.tenants c).held) :
    s.Simulated (.land c data) (({ s with mem := wr.carryOut data s.mem } : Fabric κ).setTenant c t) := by
  have hlength : (wr.leaves data (wr.finds s.mem)).length = wr.extent :=
    SendWr.length_leaves hdata SendWr.length_finds
  by_cases hextent : wr.extent = 0
  · refine simulated_silent ?_ ?_
    · unfold shows
      simp only [hwr, if_pos hextent]
    · have hmem : wr.carryOut data s.mem = s.mem := by
        unfold SendWr.carryOut
        rw [List.eq_nil_of_length_eq_zero (hlength.trans hextent), splice_nil]
      rw [hmem]
      exact memories_frame ht
  · have hout : wr ∈ (s.tenants c).outstanding := by
      unfold Tenant.outstanding
      rw [List.drop_eq_getElem?_toList_append, hwr]
      exact List.mem_cons_self
    obtain ⟨k, n, hk, hlo, hhi⟩ := (h.wired c).inBlock wr hout (Nat.pos_of_ne_zero hextent)
    have haddr : s.base + (wr.remoteAddr - s.base) = wr.remoteAddr := by omega
    have hblock : s.blocksOf (some c) k = some n := hk
    have hstep : (privateMemory (Option κ) UInt8).Step s.memories
        (.accessed (some c) (wr.remoteAddr - s.base)
          (window s.mem (s.base + (wr.remoteAddr - s.base)) (wr.leaves data (wr.finds s.mem)).length)
          (wr.leaves data (wr.finds s.mem)))
        fun i => view (splice s.mem (s.base + (wr.remoteAddr - s.base))
          (wr.leaves data (wr.finds s.mem))) s.base (s.blocksOf i) :=
      step_accessed (fun _ => rfl) hblock (by omega) (by omega) fun i hne p =>
        h.not_covers ((holds_asHolder (some c)).mpr hblock) (asHolder_injective.ne hne.symm)
    rw [haddr, hlength] at hstep
    refine simulated_shown (e := .accessed (some c) (wr.remoteAddr - s.base) (wr.finds s.mem)
      (wr.leaves data (wr.finds s.mem))) ?_ ?_
    · unfold shows
      simp only [hwr, if_neg hextent]
    · have hframe : (({ s with mem := wr.carryOut data s.mem } : Fabric κ).setTenant c t).memories =
          ({ s with mem := wr.carryOut data s.mem } : Fabric κ).memories := memories_frame ht
      rw [hframe]
      exact hstep

theorem Books.simulates_localAlloc (h : Books target s) {size : ℕ} (hpos : 0 < size) :
    s.Simulated (.localAlloc size) (s.localAlloc size) := by
  rcases h.tight.allocates hpos with ⟨k, m', hcall, htook⟩ | ⟨hcall, -⟩
  · have hnew : s.blocksOf none k = none := h.own_of_free htook.free
    have hafter : s.localAlloc size =
        { s.setMemory m' with own := Function.update s.own k (some size) } := by
      unfold Fabric.localAlloc
      rw [hcall]
      rfl
    have hgrant : s.localGrant size = some k := by
      unfold localGrant
      rw [hcall]
      rfl
    refine simulated_shown (e := .granted none k size) ?_ ?_
    · show (s.localGrant size).map _ = _
      rw [hgrant]
      rfl
    · rw [hafter, memories_setOwn htook.buffer]
      refine step_granted rfl hnew ?_
      rintro p hle hlt ⟨j, m, hj, hle', hlt'⟩
      have hlive : s.memory.live j = some m := h.custody.used .server (j, m) hj
      have hapart := htook.apart hlive h.tight
      omega
  · have hafter : s.localAlloc size = s := by
      unfold Fabric.localAlloc
      rw [hcall]
      rfl
    have hgrant : s.localGrant size = none := by
      unfold localGrant
      rw [hcall]
      rfl
    refine simulated_silent ?_ (by rw [hafter])
    show (s.localGrant size).map _ = _
    rw [hgrant]
    rfl

theorem Books.simulates_localFree (h : Books target s) {offset : ℕ} (hown : s.own offset ≠ none) :
    s.Simulated (.localFree offset) { s.setMemory (BaseMemory.free offset s.memory).2 with
      own := Function.update s.own offset none } := by
  obtain ⟨n, hn⟩ := Option.ne_none_iff_exists'.mp hown
  have hlive : s.memory.live offset = some n := h.custody.used .server (offset, n) hn
  obtain ⟨m', hfree, hgave⟩ := h.tight.releases hlive
  refine simulated_shown (e := .withdrawn none offset n) ?_ ?_
  · show (s.own offset).map _ = _
    rw [hn]
    rfl
  · rw [hfree, memories_setOwn hgave.buffer]
    have hblock : s.blocksOf none offset = some n := hn
    exact step_withdrawn rfl hblock (h.blockApart hblock)

theorem Books.simulates_localStore (h : Books target s) {start : ℕ} {data : List UInt8}
    (hproper : s.Proper (.localStore start data)) :
    s.Simulated (.localStore start data) { s with mem := splice s.mem (s.base + start) data } := by
  obtain ⟨k, n, hk, hlo, hhi⟩ := hproper
  have hblock : s.blocksOf none k = some n := hk
  exact simulated_shown rfl (step_accessed (fun _ => rfl) hblock hlo hhi fun i hne p =>
    h.not_covers ((holds_asHolder none).mpr hblock) (asHolder_injective.ne hne.symm))

/-- **Every step is one of the memories, or none.** -/
theorem Books.simulates (h : Books target s) {l : FabricStep κ} (hcan : s.Enabled target l)
    (hproper : s.Proper l) : s.Simulated l (s.exec target l) := by
  cases l with
  | ask c call => exact h.simulates_ask hproper
  | serve c =>
      obtain ⟨call, o, hasked⟩ := hcan
      exact h.simulates_serve hasked
  | finish c =>
      obtain ⟨⟨call, response, hanswered⟩, -⟩ := hcan
      exact h.simulates_finish hanswered
  | giveUp c => exact simulated_silent rfl (memories_frame rfl)
  | verb c e => exact simulated_silent rfl (memories_frame rfl)
  | land c data =>
      obtain ⟨wr, hwr, hdata⟩ := hcan
      unfold exec
      simp only [hwr]
      exact h.simulates_land hwr hdata rfl
  | localAlloc size => exact h.simulates_localAlloc hproper
  | localFree offset => exact h.simulates_localFree hproper
  | localStore start data => exact h.simulates_localStore hproper

/-- **The shared buffer refines private memories.** -/
theorem refines_privateMemory :
    (fabric κ target).Refines (privateMemory (Option κ) UInt8) memories fun s l _ => s.shows l where
  init s h := by
    funext o
    have hnone : s.blocksOf o = fun _ => none := by
      cases o with
      | none => exact h.own
      | some c => exact h.held c
    unfold memories
    rw [hnone]
    exact view_none
  silent s l s' hreach hstep hshows := by
    obtain ⟨hcan, hproper, rfl⟩ := hstep
    have hsim := (books_invariant.reachable hreach).simulates hcan hproper
    unfold Simulated at hsim
    rwa [hshows] at hsim
  shown s l s' e hreach hstep hshows := by
    obtain ⟨hcan, hproper, rfl⟩ := hstep
    have hsim := (books_invariant.reachable hreach).simulates hcan hproper
    unfold Simulated at hsim
    rwa [hshows] at hsim

/-! ## What a run shows -/

/-- The runs, with what they show. -/
def recorded (κ : Type) [DecidableEq κ] (target : Target) :
    System (Fabric κ × List (MemoryEvent (Option κ) UInt8)) (FabricStep κ) :=
  (fabric κ target).trace fun s l _ => s.shows l

variable {events pre mid : List (MemoryEvent (Option κ) UInt8)} {o : Option κ} {start : ℕ}
  {old new : List UInt8}

theorem recorded_exec (h : (recorded κ target).Reachable (s, events)) (l : FabricStep κ)
    (hcan : s.Enabled target l) (hproper : s.Proper l) :
    (recorded κ target).Reachable (s.exec target l, events ++ (s.shows l).toList) :=
  h.step (l := l) ⟨⟨hcan, hproper, rfl⟩, rfl⟩

/-- **Remote memory is private memory**: whatever the clients, the server
and the device have done, and in whichever order, what each of them has
seen is what would have happened to a memory of its own. -/
theorem run_of_privateMemory (h : (recorded κ target).Reachable (s, events)) :
    (privateMemory (Option κ) UInt8).traced.Reachable (s.memories, events) :=
  refines_privateMemory.reachable h

/-- **What a holder leaves in its block stays there**, in the memory of the
server, until an event of its own touches it: nothing that the others do
reaches it. -/
theorem bytes_stay (h : (recorded κ target).Reachable (s, pre ++ .accessed o start old new :: mid))
    (hmid : ∀ e ∈ mid, e.Misses o start new.length) :
    window s.mem (s.base + start) new.length = new := by
  have hleft := window_of_left (refines_privateMemory.reachable h) rfl hmid
  exact window_of_view hleft

/-- The server has left a byte in a block of its own. -/
def smallStored : Fabric Bool :=
  (small.exec smallTarget (.localAlloc 16)).exec smallTarget (.localStore 3 [7])

/-- Each of the clients was granted a block since. -/
def smallGranted : Fabric Bool :=
  (((((smallStored.exec smallTarget (.ask false (.remoteAlloc 8))).exec smallTarget
    (.ask true (.remoteAlloc 8))).exec smallTarget (.serve false)).exec smallTarget (.serve true)).exec
      smallTarget (.finish false)).exec smallTarget (.finish true)

/-- One of them has written a byte to its own. -/
def smallShared : Fabric Bool :=
  (smallGranted.exec smallTarget (.verb true (.call (.write 26 8192 1) false ⟨0, [], 0⟩))).exec
    smallTarget (.land true [9])

theorem smallGranted_recorded : (recorded Bool smallTarget).Reachable (smallGranted,
    [.granted none 0 16, .accessed none 3 [0] [7], .granted (some false) 16 8,
      .granted (some true) 24 8]) := by
  have hstart : (recorded Bool smallTarget).Reachable (small, []) := .init ⟨small_start, rfl⟩
  have halloc := recorded_exec hstart (.localAlloc 16) trivial (show 0 < 16 by decide)
  have hstore := recorded_exec halloc (.localStore 3 [7]) trivial ⟨0, 16, rfl, by decide, by decide⟩
  have hfirst := recorded_exec hstore (.ask false (.remoteAlloc 8)) ⟨rfl, rfl⟩
    (show 0 < (8 : UInt64).toNat by decide)
  have hsecond := recorded_exec hfirst (.ask true (.remoteAlloc 8)) ⟨rfl, rfl⟩
    (show 0 < (8 : UInt64).toNat by decide)
  have hone := recorded_exec hsecond (.serve false) ⟨_, _, rfl⟩ trivial
  have hboth := recorded_exec hone (.serve true) ⟨_, _, rfl⟩ trivial
  have hgot := recorded_exec hboth (.finish false) ⟨⟨_, _, rfl⟩, rfl⟩ trivial
  exact recorded_exec hgot (.finish true) ⟨⟨_, _, rfl⟩, rfl⟩ trivial

theorem smallShared_recorded : (recorded Bool smallTarget).Reachable (smallShared,
    [.granted none 0 16, .accessed none 3 [0] [7], .granted (some false) 16 8,
      .granted (some true) 24 8, .accessed (some true) 26 [0] [9]]) := by
  have hwrite := recorded_exec smallGranted_recorded
    (.verb true (.call (.write 26 8192 1) false ⟨0, [], 0⟩)) (Nat.le_refl 0) fun offset size heq =>
      ⟨24, 8, rfl, by
        obtain ⟨rfl, rfl⟩ := Prod.mk.inj (Option.some.inj heq)
        decide⟩
  exact recorded_exec hwrite (.land true [9]) ⟨_, rfl, rfl⟩ trivial

theorem run_of_privateMemory_small :
    (privateMemory (Option Bool) UInt8).traced.Reachable (smallShared.memories,
      [.granted none 0 16, .accessed none 3 [0] [7], .granted (some false) 16 8,
        .granted (some true) 24 8, .accessed (some true) 26 [0] [9]]) :=
  run_of_privateMemory smallShared_recorded

theorem bytes_stay_small : window smallShared.mem (4096 + 3) 1 = [7] := by
  have hrun : (recorded Bool smallTarget).Reachable (smallShared,
      [.granted none 0 16] ++ .accessed none 3 [0] [7] :: [.granted (some false) 16 8,
        .granted (some true) 24 8, .accessed (some true) 26 [0] [9]]) := smallShared_recorded
  refine bytes_stay hrun fun e he => ?_
  simp only [List.mem_cons, List.not_mem_nil, or_false] at he
  rcases he with rfl | rfl | rfl
  · exact fun hsame => absurd hsame (by decide)
  · exact fun hsame => absurd hsame (by decide)
  · exact fun hsame => absurd hsame (by decide)

end Fabric

end RdmaManager
