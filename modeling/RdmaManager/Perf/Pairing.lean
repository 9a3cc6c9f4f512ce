import Mathlib.Data.Fintype.Card
import RdmaManager.Node.OwnRequests
/-!
# Which client a server thread answers

The bandwidth, the latency and the operations-count test have a server
thread for each client thread, and no message says which belongs to which.
The server threads allocate their blocks before the server is started; a
client thread asks for a block when it is constructed, and writes its node
id to the front of it. Server thread `j` then reads a node id at
`receiveBaseOffset` from its own block, which is where the block lies that
was granted as the `j`-th of the clients', and resets it. So each of them
finds one client, in whichever order the clients were served
(`threads_paired`), and is told its id (`respondConnID_eq`).
-/

namespace RdmaManager

open BaseMemory

/-- What a server is told of a test; `threadCount` counts the threads of
all client processes. -/
structure PairConfig where
  threadCount : ℕ
  packetSize : ℕ
  bufferSlots : ℕ
  deriving DecidableEq, Repr

namespace PairConfig

variable (c : PairConfig)

/-- `m_memory_size_per_thread` of a server thread, and
`m_remote_memory_size_per_thread` of a client thread. -/
def memorySizePerThread : ℕ := wrap64 (c.packetSize * c.bufferSlots)

/-- `m_memory_size`, of a server with the one address it may have. -/
def memorySize : ℕ := wrap64 (c.threadCount * c.packetSize * c.bufferSlots * 1 * 2)

/-- Where a server thread looks for its client, from its own block on. -/
def receiveBaseOffset : ℕ := wrap64 (c.threadCount * c.memorySizePerThread)

/-- The sizes are none that overflow. -/
structure Sane : Prop where
  packetSize : 0 < c.packetSize
  bufferSlots : 0 < c.bufferSlots
  fits : c.threadCount * c.packetSize * c.bufferSlots * 2 < 2 ^ 64
  threads : 0 < c.threadCount

variable {c}

theorem Sane.memorySizePerThread_eq (h : c.Sane) :
    c.memorySizePerThread = c.packetSize * c.bufferSlots := by
  have hfits := h.fits
  have hle : c.packetSize * c.bufferSlots ≤ c.threadCount * (c.packetSize * c.bufferSlots) :=
    Nat.le_mul_of_pos_left _ h.threads
  rw [Nat.mul_assoc c.threadCount] at hfits
  exact wrap64_of_lt (by omega)

theorem Sane.pos (h : c.Sane) : 0 < c.memorySizePerThread := by
  rw [h.memorySizePerThread_eq]
  exact Nat.mul_pos h.packetSize h.bufferSlots

theorem Sane.memorySize_eq (h : c.Sane) :
    c.memorySize = 2 * (c.threadCount * c.memorySizePerThread) := by
  have hfits := h.fits
  rw [h.memorySizePerThread_eq, memorySize, wrap64_of_lt (by omega), Nat.mul_one, Nat.mul_comm _ 2,
    Nat.mul_assoc c.threadCount]

theorem Sane.receiveBaseOffset_eq (h : c.Sane) :
    c.receiveBaseOffset = c.threadCount * c.memorySizePerThread := by
  have hfits := h.fits
  rw [Nat.mul_assoc c.threadCount, ← h.memorySizePerThread_eq] at hfits
  exact wrap64_of_lt (by omega)

theorem memorySizePerThread_lt : c.memorySizePerThread < 2 ^ 64 := Nat.mod_lt _ (by omega)

theorem toNat_memorySizePerThread :
    (UInt64.ofNat c.memorySizePerThread).toNat = c.memorySizePerThread :=
  UInt64.toNat_ofNat_of_lt memorySizePerThread_lt

end PairConfig

/-- How far the constructors are: how many server threads there are, which
clients have asked for their block, and which have been granted it, the
first first. And what the server threads know: `m_respond_conn_id` of each,
and which of them have still to reset the word that they have read. -/
structure SetUpTrail (κ : Type) where
  threads : ℕ
  asked : Finset κ
  granted : List κ
  respondConnID : ℕ → ℤ
  toReset : Finset ℕ

/-- What happens while a test is set up, and begins. -/
inductive SetUpStep (κ : Type)
  | fabric (l : FabricStep κ)
  /-- A server thread receives the node id to respond to. -/
  | receives (j : ℕ)
  /-- It resets the word where it was. -/
  | resets (j : ℕ)

section setUp

variable {κ : Type} [DecidableEq κ]

namespace SetUpTrail

def start : SetUpTrail κ := ⟨0, ∅, [], fun _ => -1, ∅⟩

/-- What a step of the server, of a client or of the device adds. -/
def write (l : FabricStep κ) (s' : Fabric κ) (t : SetUpTrail κ) : SetUpTrail κ :=
  match l with
  | .localAlloc _ => { t with threads := t.threads + 1 }
  | .ask d _ => { t with asked := insert d t.asked }
  | .serve d =>
      if (s'.tenants d).exchange.grant = none then t else { t with granted := t.granted ++ [d] }
  | _ => t

end SetUpTrail

namespace PairConfig

variable (c : PairConfig)

/-- Where server thread `j` looks for the id of its client. -/
def idPlace (s : Fabric κ) (j : ℕ) : ℕ :=
  s.base + j * c.memorySizePerThread + c.receiveBaseOffset

/-- **What the constructors do**: `setupTest` makes all server threads
before the server is started, and each client thread asks once. -/
def SetsUp (t : SetUpTrail κ) : FabricStep κ → Prop
  | .localAlloc size => size = c.memorySizePerThread ∧ t.threads < c.threadCount
  | .ask d call => call = .remoteAlloc (UInt64.ofNat c.memorySizePerThread) ∧
      t.threads = c.threadCount ∧ d ∉ t.asked
  | .localFree _ => False
  | _ => True

/-- The step can happen. -/
def Enabled (target : Target) (p : Fabric κ × SetUpTrail κ) : SetUpStep κ → Prop
  | .fabric l => c.SetsUp p.2 l ∧ p.1.Enabled target l ∧ p.1.Proper l
  | .receives j => j < p.2.threads ∧ p.2.respondConnID j < 0 ∧ j ∉ p.2.toReset
  | .resets j => j ∈ p.2.toReset

/-- What it does. The `run` of a server thread reads and resets the id at
any time, whatever has been written there. -/
def exec (target : Target) (p : Fabric κ × SetUpTrail κ) : SetUpStep κ → Fabric κ × SetUpTrail κ
  | .fabric l => (p.1.exec target l, p.2.write l (p.1.exec target l))
  | .receives j =>
      (p.1, { p.2 with
        respondConnID := Function.update p.2.respondConnID j (getInt32 p.1.mem (c.idPlace p.1 j))
        toReset := insert j p.2.toReset })
  | .resets j =>
      ({ p.1 with mem := setInt32 p.1.mem 0 (c.idPlace p.1 j) },
        { p.2 with toReset := p.2.toReset.erase j })

/-- **The set-up of a test**, and how its server threads begin. -/
def setUp (κ : Type) [DecidableEq κ] (target : Target) :
    System (Fabric κ × SetUpTrail κ) (SetUpStep κ) where
  Init p := p.1.Start target ∧ p.1.memory.memSize = c.memorySize ∧ p.2 = .start
  Step p l q := c.Enabled target p l ∧ q = c.exec target p l

variable {c} {target : Target} {s s' : Fabric κ} {t t' : SetUpTrail κ} {d : κ} {m' : BaseMemory}

/-- **How the buffer is handed out**: the blocks of the server threads
first, and after them those of the clients in the order of `granted`. -/
structure Laid (c : PairConfig) (s : Fabric κ) (t : SetUpTrail κ) : Prop where
  size : s.memory.memSize = c.memorySize
  threads : t.threads ≤ c.threadCount
  row : s.memory.Row c.memorySizePerThread (t.threads + t.granted.length)
  own : ∀ b : ℕ × ℕ, s.own b.1 = some b.2 ↔
    b.2 = c.memorySizePerThread ∧ ∃ j < t.threads, b.1 = j * c.memorySizePerThread
  clients : ∀ d r b, (s.tenants d).Claims r b → ∃ i, t.granted[i]? = some d ∧
    b = ((c.threadCount + i) * c.memorySizePerThread, c.memorySizePerThread)
  started : ∀ d ∈ t.asked, t.threads = c.threadCount
  asked : ∀ d ∈ t.granted, d ∈ t.asked
  nodup : t.granted.Nodup
  idle : ∀ d, d ∉ t.asked → (s.tenants d).exchange = .idle
  waits : ∀ d call o, (s.tenants d).exchange = .asked call o →
    call = .remoteAlloc (UInt64.ofNat c.memorySizePerThread) ∧ d ∉ t.granted

/-! ## A step of the set-up -/

/-- One client goes on, and has got no block by that. -/
theorem Laid.frame (h : Laid c s t) {tn : Tenant}
    (hclaims : ∀ r b, tn.Claims r b → ∃ r', (s.tenants d).Claims r' b)
    (hidle : d ∉ t.asked → tn.exchange = .idle)
    (hwaits : ∀ call o, tn.exchange = .asked call o →
      call = .remoteAlloc (UInt64.ofNat c.memorySizePerThread) ∧ d ∉ t.granted) :
    Laid c (s.setTenant d tn) t where
  size := h.size
  threads := h.threads
  row := h.row
  own := h.own
  clients := Fabric.forall_setTenant (P := fun d tn => ∀ r b, tn.Claims r b → ∃ i, t.granted[i]? = some d ∧
      b = ((c.threadCount + i) * c.memorySizePerThread, c.memorySizePerThread))
    (fun r b hb => by
      obtain ⟨r', hb'⟩ := hclaims r b hb
      exact h.clients d r' b hb') h.clients
  started := h.started
  asked := h.asked
  nodup := h.nodup
  idle := Fabric.forall_setTenant (P := fun d tn => d ∉ t.asked → tn.exchange = .idle) hidle h.idle
  waits := Fabric.forall_setTenant (P := fun d tn => ∀ call o, tn.exchange = .asked call o →
      call = .remoteAlloc (UInt64.ofNat c.memorySizePerThread) ∧ d ∉ t.granted) hwaits h.waits

omit [DecidableEq κ] in
/-- What the server threads know is no concern of the blocks. -/
theorem Laid.know (h : Laid c s t) (respondConnID : ℕ → ℤ) (toReset : Finset ℕ) :
    Laid c s { t with respondConnID, toReset } :=
  ⟨h.size, h.threads, h.row, h.own, h.clients, h.started, h.asked, h.nodup, h.idle, h.waits⟩

/-- One client goes on whose exchange and blocks stay. -/
theorem Laid.same (h : Laid c s t) {tn : Tenant} (hexchange : tn.exchange = (s.tenants d).exchange)
    (hheld : tn.held = (s.tenants d).held) : Laid c (s.setTenant d tn) t := by
  refine h.frame (fun r b hb => ⟨r, ?_⟩) (fun hd => ?_) (fun call o hasked => ?_)
  · cases r <;> simpa [Tenant.Claims, hexchange, hheld] using hb
  · rw [hexchange]
    exact h.idle d hd
  · rw [hexchange] at hasked
    exact h.waits d call o hasked

omit [DecidableEq κ] in
/-- The bytes of the buffer are no concern of the blocks. -/
theorem Laid.setMem (h : Laid c s t) (mem : ℕ → UInt8) : Laid c { s with mem } t :=
  ⟨h.size, h.threads, h.row, h.own, h.clients, h.started, h.asked, h.nodup, h.idle, h.waits⟩

theorem Laid.ask (h : Laid c s t) (hidle : (s.tenants d).exchange = .idle)
    (hstarted : t.threads = c.threadCount) (hnew : d ∉ t.asked) :
    Laid c (s.setTenant d ((s.tenants d).ask (.remoteAlloc (UInt64.ofNat c.memorySizePerThread))))
      { t with asked := insert d t.asked } := by
  have hgrown : Laid c s { t with asked := insert d t.asked } :=
    ⟨h.size, h.threads, h.row, h.own, h.clients, fun _ _ => hstarted,
      fun e he => Finset.mem_insert_of_mem (h.asked e he), h.nodup,
      fun e he => h.idle e fun hold => he (Finset.mem_insert_of_mem hold), h.waits⟩
  refine hgrown.frame (fun r b hb => ⟨r, (Tenant.claims_ask_alloc hidle _ r b).mp hb⟩)
    (fun hd => absurd (Finset.mem_insert_self d _) hd) (fun call o hasked => ?_)
  obtain ⟨rfl, -⟩ := MemoryExchange.asked.inj hasked
  exact ⟨rfl, fun hd => hnew (h.asked d hd)⟩

/-- **The next client is granted its block**: the one after those that
were granted before. -/
theorem Laid.serve (h : Laid c s t) (hsane : c.Sane) (hbooks : Fabric.Books target s)
    {call : MemoryCall} {o : Option (ℕ × ℕ)} (hasked : (s.tenants d).exchange = .asked call o) :
    Laid c (s.serve d) (SetUpTrail.write (.serve d) (s.serve d) t) := by
  obtain ⟨hcall, hnew⟩ := h.waits d call o hasked
  have hin : d ∈ t.asked := by
    by_contra hout
    rw [h.idle d hout] at hasked
    simp at hasked
  have hstarted := h.started d hin
  have hserved := hbooks.served hasked
  unfold SetUpTrail.write
  generalize s.serve d = s' at hserved
  cases hserved with
  | @granted size k m' htook =>
      obtain rfl := MemoryCall.remoteAlloc.inj hcall
      rw [PairConfig.toNat_memorySizePerThread] at htook
      obtain ⟨hk, hrow⟩ := htook.row h.row hbooks.tight hsane.pos
      have hlt : k < 2 ^ 64 := by
        have hle := htook.hole.1
        have hlt := hbooks.tight.lt
        omega
      have hclaims := Tenant.claims_granted (UInt64.ofNat c.memorySizePerThread) hlt hasked
      rw [PairConfig.toNat_memorySizePerThread] at hclaims
      dsimp only
      rw [if_neg (by simp [Fabric.answer, Tenant.withExchange])]
      refine ⟨htook.memSize.trans h.size, h.threads, ?_, h.own, ?_, h.started, ?_, ?_, ?_, ?_⟩
      · rw [List.length_append, List.length_singleton, ← Nat.add_assoc]
        exact hrow
      · refine Fabric.forall_setTenant (s := s.setMemory m') (P := fun e tn => ∀ r b, tn.Claims r b →
          ∃ i, (t.granted ++ [d])[i]? = some e ∧
            b = ((c.threadCount + i) * c.memorySizePerThread, c.memorySizePerThread)) ?_ ?_
        · intro r b hb
          rcases (hclaims r b).mp hb with ⟨-, rfl⟩ | hold
          · refine ⟨t.granted.length, List.getElem?_concat_length, ?_⟩
            rw [hk, hstarted]
          · obtain ⟨i, hi, -⟩ := h.clients d r b hold
            exact absurd (List.mem_of_getElem? hi) hnew
        · intro e r b hb
          obtain ⟨i, hi, hb⟩ := h.clients e r b hb
          exact ⟨i, by rw [List.getElem?_append_left (List.getElem?_eq_some_iff.mp hi).1, hi], hb⟩
      · intro e he
        rcases List.mem_append.mp he with he | he
        · exact h.asked e he
        · rw [List.mem_singleton.mp he]
          exact hin
      · exact List.nodup_append.mpr ⟨h.nodup, List.nodup_singleton d, fun a ha b hb => by
          rw [List.mem_singleton.mp hb]
          exact fun heq => hnew (heq ▸ ha)⟩
      · exact Fabric.forall_setTenant (s := s.setMemory m')
          (P := fun e tn => e ∉ t.asked → tn.exchange = .idle) (fun hout => absurd hin hout) h.idle
      · refine fun e call o hasked' => ?_
        rcases eq_or_ne e d with rfl | hne
        · simp [Fabric.answer, Tenant.withExchange] at hasked'
        · rw [Fabric.answer, Fabric.setTenant_of_ne hne] at hasked'
          obtain ⟨hcall, hout⟩ := h.waits e call o hasked'
          exact ⟨hcall, fun hmem => (List.mem_append.mp hmem).elim hout fun he =>
            hne (List.mem_singleton.mp he)⟩
  | @refused size hnone =>
      have hcode : MessageErrors.memoryNotAvailable.code ≠ MessageErrors.noError.code := by decide
      dsimp only
      rw [if_pos (by simp [Fabric.answer, Tenant.withExchange, hcode])]
      exact h.frame (fun r b hb => ⟨r, (Tenant.claims_refused size _ hasked r b).mp hb⟩)
        (fun hout => absurd hin hout) (fun call o hasked' => by simp [Tenant.withExchange] at hasked')
  | released hlive hgave => simp at hcall

theorem Laid.finish (h : Laid c s t) (hbooks : Fabric.Books target s) {call : MemoryCall}
    {response : Response} (hanswered : (s.tenants d).exchange = .answered call response) :
    Laid c (s.setTenant d ((s.tenants d).finish target)) t := by
  have hok := hbooks.exchange d
  rw [hanswered] at hok
  rcases Tenant.finish_cases (hbooks.wired d).linked.socket hanswered hok with
    ⟨k, n, hgrant, hfinish⟩ | ⟨hgrant, hfinish⟩
  · rw [hfinish]
    refine h.frame (fun r b hb => ?_) (fun _ => rfl) (fun call o hasked => by simp at hasked)
    rcases (Tenant.claims_finish_granted hanswered hgrant (hbooks.held_of_grant hgrant) r b).mp hb with
      ⟨-, rfl⟩ | ⟨hold, -⟩
    · exact ⟨.granted, hgrant⟩
    · exact ⟨r, hold⟩
  · rw [hfinish]
    exact h.frame (fun r b hb => ⟨r, (Tenant.claims_finish_none hanswered hgrant r b).mp hb⟩)
      (fun _ => rfl) (fun call o hasked => by simp [Tenant.withExchange] at hasked)

omit [DecidableEq κ] in
/-- **The next server thread has its block.** -/
theorem Laid.localAlloc (h : Laid c s t) (hsane : c.Sane) (hbooks : Fabric.Books target s)
    (hlt : t.threads < c.threadCount) :
    Laid c (s.localAlloc c.memorySizePerThread) { t with threads := t.threads + 1 } := by
  have hasked : t.asked = ∅ := by
    refine Finset.eq_empty_of_forall_notMem fun e he => ?_
    have hstarted := h.started e he
    omega
  have hgranted : t.granted = [] := by
    refine List.eq_nil_iff_forall_not_mem.mpr fun e he => ?_
    have hmem := h.asked e he
    rw [hasked] at hmem
    exact absurd hmem (Finset.notMem_empty e)
  have hrow : s.memory.Row c.memorySizePerThread t.threads := by
    have hrow := h.row
    rwa [hgranted, List.length_nil, Nat.add_zero] at hrow
  have hroom : t.threads * c.memorySizePerThread + c.memorySizePerThread ≤ s.memory.memSize := by
    have hle := Nat.mul_le_mul_right c.memorySizePerThread (Nat.succ_le_of_lt hlt)
    rw [Nat.succ_mul] at hle
    rw [h.size, hsane.memorySize_eq]
    omega
  rcases Fabric.localAlloc_cases hbooks hsane.pos with ⟨k, m', htook, heq⟩ | ⟨hnone, -⟩
  · obtain ⟨rfl, hrow'⟩ := htook.row hrow hbooks.tight hsane.pos
    have hfree := hbooks.own_of_free htook.free
    rw [heq]
    refine ⟨htook.memSize.trans h.size, hlt, ?_, fun b => ?_, h.clients, fun e he => ?_, h.asked, h.nodup,
      h.idle, h.waits⟩
    · rw [hgranted]
      exact hrow'
    · refine (update_some_iff hfree b).trans ?_
      rw [h.own]
      constructor
      · rintro (rfl | ⟨hn, j, hj, hb⟩)
        · exact ⟨rfl, t.threads, Nat.lt_succ_self _, rfl⟩
        · exact ⟨hn, j, Nat.lt_succ_of_lt hj, hb⟩
      · rintro ⟨hn, j, hj, hb⟩
        rcases Nat.lt_succ_iff_lt_or_eq.mp hj with hj | rfl
        · exact Or.inr ⟨hn, j, hj, hb⟩
        · exact Or.inl (Prod.ext hb hn)
    · rw [hasked] at he
      exact absurd he (Finset.notMem_empty e)
  · exact absurd (hrow.hole hbooks.tight hroom) (hnone _)

theorem Laid.exec (h : Laid c s t) (hsane : c.Sane) (hbooks : Fabric.Books target s) {l : FabricStep κ}
    (hok : c.SetsUp t l) (hcan : s.Enabled target l) :
    Laid c (s.exec target l) (t.write l (s.exec target l)) := by
  cases l with
  | ask d call =>
      obtain ⟨rfl, hstarted, hnew⟩ := hok
      exact h.ask hcan.1 hstarted hnew
  | serve d =>
      obtain ⟨call, o, hasked⟩ := hcan
      exact h.serve hsane hbooks hasked
  | finish d =>
      obtain ⟨⟨call, response, hanswered⟩, -⟩ := hcan
      exact h.finish hbooks hanswered
  | giveUp d => exact h.same rfl rfl
  | verb d e => exact h.same rfl rfl
  | land d data =>
      obtain ⟨wr, hwr, -⟩ := hcan
      unfold Fabric.exec
      simp only [hwr]
      exact (h.setMem _).same rfl rfl
  | localAlloc size =>
      obtain ⟨rfl, hlt⟩ := hok
      exact h.localAlloc hsane hbooks hlt
  | localFree offset => exact hok.elim
  | localStore start data => exact h.setMem _

theorem laid_invariant (hsane : c.Sane) :
    (c.setUp κ target).Invariant fun p => Fabric.Books target p.1 ∧ Laid c p.1 p.2 where
  init p hinit := by
    obtain ⟨hstart, hsize, htrail⟩ := hinit
    obtain ⟨buffer, memSize, -, -, -, hmemory⟩ := hstart.fresh
    refine ⟨Fabric.books_invariant.init p.1 hstart, ?_⟩
    rw [htrail]
    refine ⟨hsize, Nat.zero_le _, fun b => ?_, fun b => ?_, fun d r b hb => ?_, by simp [SetUpTrail.start],
      by simp [SetUpTrail.start], by simp [SetUpTrail.start], fun d _ => hstart.idle d,
      fun d call o hasked => ?_⟩
    · rw [hmemory]
      simp [live, new, SetUpTrail.start]
    · simp [hstart.own, SetUpTrail.start]
    · cases r <;> simp [Tenant.Claims, hstart.held, hstart.idle] at hb
    · rw [hstart.idle] at hasked
      simp at hasked
  step p l q _ h hstep := by
    obtain ⟨hbooks, hlaid⟩ := h
    obtain ⟨hcan, rfl⟩ := hstep
    cases l with
    | fabric l =>
        obtain ⟨hok, hcan, hproper⟩ := hcan
        exact ⟨hbooks.step hcan hproper, hlaid.exec hsane hbooks hok hcan⟩
    | receives j => exact ⟨hbooks, hlaid.know _ _⟩
    | resets j => exact ⟨hbooks.setMem _, (hlaid.setMem _).know _ _⟩

/-! ## Threads and clients -/

omit [DecidableEq κ] in
/-- The block of a client lies where one server thread looks. -/
theorem Laid.place (h : Laid c s t) (hsane : c.Sane) (hbooks : Fabric.Books target s) {k n : ℕ}
    (hk : (s.tenants d).held k = some n) : ∃ j < c.threadCount, t.granted[j]? = some d ∧
      n = c.memorySizePerThread ∧ k = j * c.memorySizePerThread + c.receiveBaseOffset := by
  have hle := hbooks.held_le hk
  obtain ⟨j, hj, hb⟩ := h.clients d .held (k, n) hk
  obtain ⟨rfl, rfl⟩ := Prod.mk.inj hb
  refine ⟨j, ?_, hj, rfl, ?_⟩
  · rw [h.size, hsane.memorySize_eq, ← Nat.succ_mul, ← Nat.mul_assoc] at hle
    have hcount := Nat.le_of_mul_le_mul_right hle hsane.pos
    omega
  · rw [hsane.receiveBaseOffset_eq, Nat.add_mul]
    omega

omit [DecidableEq κ] in
/-- There is a block for the next client. -/
theorem Laid.hole (h : Laid c s t) (hsane : c.Sane) (hbooks : Fabric.Books target s)
    (hlt : t.granted.length < c.threadCount) : ∃ k, s.memory.Hole c.memorySizePerThread k := by
  refine ⟨_, h.row.hole hbooks.tight ?_⟩
  have hthreads := h.threads
  have hle : (t.threads + t.granted.length + 1) * c.memorySizePerThread ≤
      2 * c.threadCount * c.memorySizePerThread := Nat.mul_le_mul_right _ (by omega)
  rw [Nat.succ_mul, Nat.mul_assoc] at hle
  rw [h.size, hsane.memorySize_eq]
  exact hle

/-- **Every server thread finds one client**: no client is refused its
block, the blocks of the clients lie where the server threads look for
them, and once all clients have theirs, that is one client for each server
thread. -/
theorem threads_paired [Fintype κ] (hsane : c.Sane) (hcount : Fintype.card κ = c.threadCount)
    {p : Fabric κ × SetUpTrail κ} (h : (c.setUp κ target).Reachable p) :
    (∀ d call o, (p.1.tenants d).exchange = .asked call o → ∃ response offset,
        ((p.1.serve d).tenants d).exchange = .answered call response ∧
          (p.1.tenants d).result target call response = .ok (true, offset)) ∧
      (∀ d k n, (p.1.tenants d).held k = some n → ∃ j < c.threadCount, p.2.granted[j]? = some d ∧
        n = c.memorySizePerThread ∧ k = j * c.memorySizePerThread + c.receiveBaseOffset) ∧
      ((∀ d, ∃ k, (p.1.tenants d).held k ≠ none) → ∃ e : Fin c.threadCount ≃ κ,
        ∀ j : Fin c.threadCount, p.1.own (j * c.memorySizePerThread) = some c.memorySizePerThread ∧
          (p.1.tenants (e j)).held (j * c.memorySizePerThread + c.receiveBaseOffset) =
            some c.memorySizePerThread) := by
  obtain ⟨hbooks, hlaid⟩ := (laid_invariant hsane).reachable h
  refine ⟨fun d call o hasked => ?_, fun d k n hk => hlaid.place hsane hbooks hk, fun hall => ?_⟩
  · obtain ⟨rfl, hnew⟩ := hlaid.waits d call o hasked
    have hlt : p.2.granted.length < c.threadCount := by
      have hcard := (List.nodup_cons.mpr ⟨hnew, hlaid.nodup⟩).length_le_card
      rw [List.length_cons] at hcard
      omega
    obtain ⟨response, hanswered, hiff⟩ := hbooks.remoteAlloc_iff hasked
    rw [toNat_memorySizePerThread] at hiff
    obtain ⟨offset, hresult⟩ := hiff.mpr (hlaid.hole hsane hbooks hlt)
    exact ⟨response, offset, hanswered, hresult⟩
  · choose k hk using hall
    have hplace := fun d =>
      hlaid.place hsane hbooks (Option.some_get (Option.isSome_iff_ne_none.mpr (hk d))).symm
    choose j hj hgranted hsize hoffset using hplace
    have hinj : Function.Injective fun d => (⟨j d, hj d⟩ : Fin c.threadCount) := by
      intro d e heq
      have hsame : j d = j e := Fin.mk.inj heq
      have hd := hgranted d
      rw [hsame, hgranted e] at hd
      exact (Option.some.inj hd).symm
    have hbij := (Fintype.bijective_iff_injective_and_card _).mpr ⟨hinj, by rw [hcount, Fintype.card_fin]⟩
    refine ⟨(Equiv.ofBijective _ hbij).symm, fun i => ?_⟩
    obtain ⟨d, rfl⟩ := hbij.surjective i
    have hstarted : p.2.threads = c.threadCount :=
      hlaid.started d (hlaid.asked d (List.mem_of_getElem? (hgranted d)))
    rw [show (Equiv.ofBijective _ hbij).symm ⟨j d, hj d⟩ = d from
      (Equiv.ofBijective _ hbij).symm_apply_apply d]
    refine ⟨(hlaid.own (j d * c.memorySizePerThread, c.memorySizePerThread)).mpr
      ⟨rfl, j d, by rw [hstarted]; exact hj d, rfl⟩, ?_⟩
    rw [← hoffset d, ← hsize d]
    exact (Option.some_get (Option.isSome_iff_ne_none.mpr (hk d))).symm

/-! ## The id of a client -/

/-- The next request of the client writes to the front of its block. -/
def WritesFront (s : Fabric κ) (d : κ) (k : ℕ) : Prop :=
  ∃ wr : SendWr, (s.tenants d).queue.wrs[(s.tenants d).landed]? = some wr ∧ wr.opcode = .rdmaWrite ∧
    wr.remoteAddr = s.base + k

/-- Neither the client nor the server thread that looks there changes the
word at the front of the block. -/
def LeavesID (c : PairConfig) (d : κ) (k : ℕ) (p : Fabric κ × SetUpTrail κ) : SetUpStep κ → Prop
  | .fabric l => ∀ request, p.1.carries d l = some request →
      request.1.remoteAddr + request.1.extent ≤ p.1.base + k ∨ p.1.base + k + 4 ≤ request.1.remoteAddr
  | .receives _ => True
  | .resets j => c.idPlace p.1 j ≠ p.1.base + k

/-- The id of a client stands at the front of its block. -/
structure Told (s : Fabric κ) (d : κ) (k n nodeID : ℕ) : Prop where
  held : (s.tenants d).held k = some n
  front : 4 ≤ n
  word : window s.mem (s.base + k) 4 = bytes32 nodeID

omit [DecidableEq κ] in
theorem SetsUp.keeps {l : FabricStep κ} (h : c.SetsUp t l) (d : κ) (k : ℕ) : Fabric.Keeps d k l := by
  cases l with
  | ask e call =>
      obtain ⟨rfl, -⟩ := h
      trivial
  | _ => trivial

/-- The request of the client is carried out. -/
theorem Laid.told (h : Laid c s t) (hsane : c.Sane) (hbooks : Fabric.Books target s) {k n nodeID : ℕ}
    {data : List UInt8} (hk : (s.tenants d).held k = some n) (hfront : WritesFront s d k)
    (hdata : data.take 4 = bytes32 nodeID) (hcan : s.Enabled target (.land d data)) :
    Told (s.exec target (.land d data)) d k n nodeID := by
  obtain ⟨wr, hwr, hop, haddr⟩ := hfront
  obtain ⟨wr', hwr', hlength⟩ := hcan
  obtain rfl : wr = wr' := Option.some.inj (hwr.symm.trans hwr')
  have hlong : 4 ≤ data.length := by
    have hfour := congrArg List.length hdata
    rw [List.length_take, length_bytes32] at hfour
    omega
  have hextent : wr.extent = data.length := by rw [SendWr.extent, hop, hlength]
  refine ⟨hbooks.held_exec ⟨wr, hwr, hlength⟩ trivial hk, ?_, ?_⟩
  · -- the request lies in a block, which cannot be another one
    obtain ⟨j, m, hj, hlo, hhi⟩ := (hbooks.wired d).inBlock wr (Fabric.outstanding_of_next hwr) (by omega)
    obtain ⟨-, -, -, hn, -⟩ := h.place hsane hbooks hk
    have hpos := hsane.pos
    have hother : s.Holds (.client d .held) (j, m) := hj
    have hmine : s.Holds (.client d .held) (k, n) := hk
    rcases hbooks.apart hother hmine with ⟨-, hsame⟩ | hapart | hapart
    · obtain ⟨rfl, rfl⟩ := Prod.mk.inj hsame
      omega
    · simp only at hapart
      omega
    · simp only at hapart
      omega
  · have hmem : (s.exec target (.land d data)).mem = splice s.mem (s.base + k) data := by
      simp only [Fabric.exec, hwr]
      show wr.carryOut data s.mem = _
      rw [SendWr.carryOut, SendWr.leaves, hop, haddr]
    have hbase : (s.exec target (.land d data)).base = s.base :=
      hbooks.base_exec ⟨wr, hwr, hlength⟩ trivial
    rw [hmem, hbase, ← take_window _ _ hlong, window_splice, hdata]

theorem Told.exec (h : Told s d k n nodeID) (hbooks : Fabric.Books target s) {l : FabricStep κ}
    (hok : c.SetsUp t l) (hcan : s.Enabled target l) (hproper : s.Proper l)
    (hleaves : c.LeavesID d k (s, t) (.fabric l)) : Told (s.exec target l) d k n nodeID := by
  refine ⟨hbooks.held_exec hcan (hok.keeps d k) h.held, h.front, ?_⟩
  have hfront := h.front
  rw [hbooks.base_exec hcan hproper,
    window_eq_of_part (hbooks.window_exec hcan hproper h.held) le_rfl (by omega)]
  cases hcarries : s.carries d l with
  | none => exact h.word
  | some request =>
      obtain ⟨wr, data⟩ := request
      obtain ⟨rfl, hwr⟩ := Fabric.carries_eq_some hcarries
      obtain ⟨wr', hwr', hlength⟩ := hcan
      obtain rfl : wr = wr' := Option.some.inj (hwr.symm.trans hwr')
      have hapart : wr.remoteAddr + wr.extent ≤ s.base + k ∨ s.base + k + 4 ≤ wr.remoteAddr :=
        hleaves (wr, data) hcarries
      show window (splice s.mem wr.remoteAddr (wr.leaves data (wr.finds s.mem))) (s.base + k) 4 = _
      refine (window_splice_of_apart ?_).trans h.word
      rw [SendWr.length_leaves hlength SendWr.length_finds]
      omega

omit [DecidableEq κ] in
/-- **The words of other server threads lie elsewhere.** -/
theorem Told.resets (h : Told s d k n nodeID) (hsane : c.Sane) (hbooks : Fabric.Books target s)
    (hlaid : Laid c s t) {i : ℕ} (hne : c.idPlace s i ≠ s.base + k) :
    Told { s with mem := setInt32 s.mem 0 (c.idPlace s i) } d k n nodeID := by
  refine ⟨h.held, h.front, ?_⟩
  show window (splice s.mem (c.idPlace s i) (bytes32 0)) (s.base + k) 4 = _
  refine (window_splice_of_apart ?_).trans h.word
  obtain ⟨j, -, -, hn, hplace⟩ := hlaid.place hsane hbooks h.held
  have hfront := h.front
  have hdiff : i ≠ j := by
    rintro rfl
    rw [idPlace, hplace] at hne
    omega
  rw [length_bytes32, idPlace, hplace]
  rcases Nat.lt_or_gt_of_ne hdiff with hlt | hgt
  · have hle := Nat.mul_le_mul_right c.memorySizePerThread (Nat.succ_le_of_lt hlt)
    rw [Nat.succ_mul] at hle
    omega
  · have hle := Nat.mul_le_mul_right c.memorySizePerThread (Nat.succ_le_of_lt hgt)
    rw [Nat.succ_mul] at hle
    omega

/-- **It is told the node id of its client**: once a client has written it to
the front of its block, the server thread that has the place of the client
receives it, whatever the others do. -/
theorem respondConnID_eq (hsane : c.Sane) {p p' q : Fabric κ × SetUpTrail κ} {k n nodeID : ℕ}
    {data : List UInt8} (hid : nodeID < 2 ^ 31) (h : (c.setUp κ target).Reachable p)
    (hk : (p.1.tenants d).held k = some n) (hfront : WritesFront p.1 d k)
    (hdata : data.take 4 = bytes32 nodeID)
    (hwrite : (c.setUp κ target).Step p (.fabric (.land d data)) p')
    (hleads : ((c.setUp κ target).restrict (c.LeavesID d k)).Leads p' q) :
    ∃ j < c.threadCount, q.2.granted[j]? = some d ∧ c.idPlace q.1 j = q.1.base + k ∧
      ∀ q', (c.setUp κ target).Step q (.receives j) q' → q'.2.respondConnID j = nodeID := by
  have hinv : (c.setUp κ target).Invariant fun p => Fabric.Books target p.1 ∧ Laid c p.1 p.2 :=
    laid_invariant hsane
  have hreach := h.step hwrite
  obtain ⟨⟨-, hcan, -⟩, rfl⟩ := hwrite
  obtain ⟨hbooks, hlaid⟩ := hinv.reachable h
  have htold := hleads.keeps_of_restrict (I := fun a => Told a.1 d k n nodeID) hreach
    (by
      rintro a l b ha htold hleaves ⟨hcan, rfl⟩
      obtain ⟨hbooks, hlaid⟩ := hinv.reachable ha
      cases l with
      | fabric l => exact htold.exec hbooks hcan.1 hcan.2.1 hcan.2.2 hleaves
      | receives i => exact htold
      | resets i => exact htold.resets hsane hbooks hlaid hleaves)
    (hlaid.told hsane hbooks hk hfront hdata hcan)
  obtain ⟨hbooks', hlaid'⟩ := hinv.reachable (hreach.leads hleads.of_restrict)
  obtain ⟨j, hj, hgranted, -, hplace⟩ := hlaid'.place hsane hbooks' htold.held
  have haddr : c.idPlace q.1 j = q.1.base + k := by rw [idPlace, hplace, Nat.add_assoc]
  refine ⟨j, hj, hgranted, haddr, ?_⟩
  rintro q' ⟨-, rfl⟩
  show Function.update q.2.respondConnID j (getInt32 q.1.mem (c.idPlace q.1 j)) j = _
  rw [Function.update_self, haddr]
  refine getInt32_of_word ?_ hid
  rw [getUInt32, htold.word, word64_bytes32]
  exact Nat.mod_eq_of_lt (by omega)

theorem setUp_exec {p : Fabric κ × SetUpTrail κ} (h : (c.setUp κ target).Reachable p) (l : SetUpStep κ)
    (hcan : c.Enabled target p l) : (c.setUp κ target).Reachable (c.exec target p l) :=
  h.step (l := l) ⟨hcan, rfl⟩

end PairConfig

end setUp

namespace PairConfig

open Fabric

/-- Two threads on either side, with one packet of 16 bytes each. -/
def twoPairs : PairConfig := ⟨2, 16, 1⟩

theorem twoPairs_sane : twoPairs.Sane := ⟨by decide, by decide, by decide, by decide⟩

/-- Both clients have asked for their blocks. -/
def twoPairsAsked : Fabric Bool × SetUpTrail Bool :=
  [.fabric (.localAlloc 16), .fabric (.localAlloc 16), .fabric (.ask false (.remoteAlloc 16)),
    .fabric (.ask true (.remoteAlloc 16))].foldl (twoPairs.exec smallTarget) (small, .start)

/-- They have them, the second client the first of the two. -/
def twoPairsHeld : Fabric Bool × SetUpTrail Bool :=
  [.fabric (.serve true), .fabric (.serve false), .fabric (.finish false),
    .fabric (.finish true)].foldl (twoPairs.exec smallTarget) twoPairsAsked

/-- Both write their ids, and the one of the second client, which is `3`,
has arrived. -/
def twoPairsTold : Fabric Bool × SetUpTrail Bool :=
  [.fabric (.verb false (.call (.write 48 4096 4) true ⟨0, [], 0⟩)),
    .fabric (.verb true (.call (.write 32 4096 4) true ⟨0, [], 0⟩)),
    .fabric (.land true (bytes32 3))].foldl (twoPairs.exec smallTarget) twoPairsHeld

/-- The id of the first client, which is `2`, arrives. -/
def twoPairsBoth : Fabric Bool × SetUpTrail Bool :=
  twoPairs.exec smallTarget twoPairsTold (.fabric (.land false (bytes32 2)))

theorem twoPairsHeld_reachable : (twoPairs.setUp Bool smallTarget).Reachable twoPairsHeld := by
  have hstart : (twoPairs.setUp Bool smallTarget).Reachable (small, .start) := .init ⟨small_start, rfl, rfl⟩
  have hthread := setUp_exec hstart (.fabric (.localAlloc 16))
    ⟨⟨rfl, by decide⟩, trivial, show 0 < 16 by decide⟩
  have hthreads := setUp_exec hthread (.fabric (.localAlloc 16))
    ⟨⟨rfl, by decide⟩, trivial, show 0 < 16 by decide⟩
  have hask := setUp_exec hthreads (.fabric (.ask false (.remoteAlloc 16)))
    ⟨⟨rfl, rfl, by decide⟩, ⟨rfl, rfl⟩, show 0 < (16 : UInt64).toNat by decide⟩
  have hasked : (twoPairs.setUp Bool smallTarget).Reachable twoPairsAsked :=
    setUp_exec hask (.fabric (.ask true (.remoteAlloc 16)))
      ⟨⟨rfl, rfl, by decide⟩, ⟨rfl, rfl⟩, show 0 < (16 : UInt64).toNat by decide⟩
  have hserve := setUp_exec hasked (.fabric (.serve true)) ⟨trivial, ⟨_, _, rfl⟩, trivial⟩
  have hserved := setUp_exec hserve (.fabric (.serve false)) ⟨trivial, ⟨_, _, rfl⟩, trivial⟩
  have hgot := setUp_exec hserved (.fabric (.finish false)) ⟨trivial, ⟨⟨_, _, rfl⟩, rfl⟩, trivial⟩
  exact setUp_exec hgot (.fabric (.finish true)) ⟨trivial, ⟨⟨_, _, rfl⟩, rfl⟩, trivial⟩

theorem threads_paired_two : ∃ e : Fin 2 ≃ Bool, ∀ j : Fin 2, twoPairsHeld.1.own (j * 16) = some 16 ∧
    (twoPairsHeld.1.tenants (e j)).held (j * 16 + 32) = some 16 := by
  refine (threads_paired twoPairs_sane rfl twoPairsHeld_reachable).2.2 fun d => ?_
  cases d with
  | false => exact ⟨48, by decide⟩
  | true => exact ⟨32, by decide⟩

theorem twoPairsTold_reachable : (twoPairs.setUp Bool smallTarget).Reachable twoPairsTold := by
  have hfirst := setUp_exec twoPairsHeld_reachable
    (.fabric (.verb false (.call (.write 48 4096 4) true ⟨0, [], 0⟩)))
    ⟨trivial, Nat.le_refl 0, fun offset size heq => ⟨48, 16, rfl, by
      obtain ⟨rfl, rfl⟩ := Prod.mk.inj (Option.some.inj heq)
      decide⟩⟩
  have hsecond := setUp_exec hfirst (.fabric (.verb true (.call (.write 32 4096 4) true ⟨0, [], 0⟩)))
    ⟨trivial, Nat.le_refl 0, fun offset size heq => ⟨32, 16, rfl, by
      obtain ⟨rfl, rfl⟩ := Prod.mk.inj (Option.some.inj heq)
      decide⟩⟩
  exact setUp_exec hsecond (.fabric (.land true (bytes32 3))) ⟨trivial, ⟨_, rfl, rfl⟩, trivial⟩

/-- The other server thread receives its id, and resets it, in between. -/
theorem respondConnID_eq_two : ∃ j < 2, twoPairsBoth.2.granted[j]? = some false ∧
    ∀ q', (twoPairs.setUp Bool smallTarget).Step
      (twoPairs.exec smallTarget (twoPairs.exec smallTarget twoPairsBoth (.receives 0)) (.resets 0))
      (.receives j) q' → q'.2.respondConnID j = 2 := by
  have hreceives : ((twoPairs.setUp Bool smallTarget).restrict (twoPairs.LeavesID false 48)).Leads
      twoPairsBoth (twoPairs.exec smallTarget twoPairsBoth (.receives 0)) :=
    (System.Leads.refl _).tail (l := .receives 0) ⟨trivial, ⟨by decide, by decide, by decide⟩, rfl⟩
  have helsewhere : twoPairs.idPlace (twoPairs.exec smallTarget twoPairsBoth (.receives 0)).1 0 ≠
      (twoPairs.exec smallTarget twoPairsBoth (.receives 0)).1.base + 48 := by decide
  have hresets := hreceives.tail (u := twoPairs.exec smallTarget
    (twoPairs.exec smallTarget twoPairsBoth (.receives 0)) (.resets 0)) (l := SetUpStep.resets 0)
    ⟨helsewhere, Finset.mem_insert_self 0 _, rfl⟩
  obtain ⟨j, hj, hgranted, -, hid⟩ := respondConnID_eq (d := false) (k := 48) (n := 16) twoPairs_sane
    (by decide) twoPairsTold_reachable rfl ⟨_, rfl, rfl, rfl⟩ rfl
    ⟨⟨trivial, ⟨_, rfl, rfl⟩, trivial⟩, rfl⟩ hresets
  exact ⟨j, hj, hgranted, hid⟩

end PairConfig

end RdmaManager
