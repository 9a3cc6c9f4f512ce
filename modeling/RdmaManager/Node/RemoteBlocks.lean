import RdmaManager.Memory.Blocks
import RdmaManager.Node.RemoteMemory
/-!
# Who has the blocks

Every block in use has one holder (`Books`): the server itself, a client
whose caller has it, the answer that brings it, or the message that gives
it back. An answer that comes too late keeps its block: that is the one way
to lose it. The requests that are under way are about blocks that their
callers have (`Tenant.Wired`).
-/

namespace RdmaManager

open BaseMemory ReliableRDMA

/-- What a client can have to do with a block. -/
inductive Role
  | held
  | granted
  | releasing
  deriving DecidableEq, Repr

/-- Who can have a block. -/
inductive Holder (κ : Type)
  | server
  | client (c : κ) (role : Role)
  deriving DecidableEq

/-- The block, as its offset and its size, is one of the client's. -/
def Tenant.Claims (t : Tenant) : Role → ℕ × ℕ → Prop
  | .held, block => t.held block.1 = some block.2
  | .granted, block => t.exchange.grant = some block
  | .releasing, block => t.exchange.release = some block

/-- **The connection of a client is in order**: it is connected, and the
requests that are not carried out are about blocks that its caller has. -/
structure Tenant.Wired (target : Target) (base : ℕ) (t : Tenant) : Prop where
  linked : t.Linked target base
  done : t.queue.done ≤ t.landed
  landed : t.landed ≤ t.queue.wrs.length
  inBlock : ∀ wr ∈ t.outstanding, 0 < wr.extent →
    ∃ k n, t.held k = some n ∧ wr.InBlock base k n

/-- The server answers a call so. -/
def MemoryCall.Answered : MemoryCall → Response → Prop
  | .remoteAlloc _, .memoryResourceResponse _ => True
  | .remoteFree _ _, .memoryResourceResponse resResp => resResp.return_ = MessageErrors.noError.code
  | _, _ => False

/-- What holds of an exchange. -/
def MemoryExchange.Ok : MemoryExchange → Prop
  | .idle => True
  | .asked (.remoteAlloc size) block => 0 < size.toNat ∧ block = none
  | .asked (.remoteFree _ offset) block => ∃ n, block = some (offset.toNat, n)
  | .answered call response => call.Answered response

namespace Tenant

variable {target : Target} {base : ℕ} {t : Tenant} {call : MemoryCall} {block : ℕ × ℕ}

/-! ## The claims of a client -/

/-- Without a message or an answer under way there is nothing to be granted
or to be given back. -/
theorem claims_idle (h : t.exchange = .idle) (r : Role) (b : ℕ × ℕ) :
    t.Claims r b ↔ r = .held ∧ t.held b.1 = some b.2 := by
  cases r <;> simp [Claims, h]

theorem claims_ask_alloc (h : t.exchange = .idle) (size : UInt64) (r : Role) (b : ℕ × ℕ) :
    (t.ask (.remoteAlloc size)).Claims r b ↔ t.Claims r b := by
  rw [claims_idle h]
  cases r <;> simp [Claims, ask, withExchange]

theorem claims_ask_free (h : t.exchange = .idle) (size offset : UInt64) {n : ℕ}
    (hk : t.held offset.toNat = some n) (r : Role) (b : ℕ × ℕ) :
    (t.ask (.remoteFree size offset)).Claims r b ↔
      r = .releasing ∧ b = (offset.toNat, n) ∨
        t.Claims r b ∧ ¬ (r = .held ∧ b = (offset.toNat, n)) := by
  rw [claims_idle h]
  cases r with
  | held => simpa [Claims, ask] using update_none_iff hk b
  | granted => simp [Claims, ask]
  | releasing => simp [Claims, ask, hk, eq_comm]

theorem claims_granted (size : UInt64) {k : ℕ} (hk : k < 2 ^ 64)
    (hasked : t.exchange = .asked call none) (r : Role) (b : ℕ × ℕ) :
    (t.withExchange (.answered (.remoteAlloc size)
        (.memoryResourceResponse ⟨UInt64.ofNat k, MessageErrors.noError.code⟩))).Claims r b ↔
      r = .granted ∧ b = (k, size.toNat) ∨ t.Claims r b := by
  have hoffset : (UInt64.ofNat k).toNat = k := UInt64.toNat_ofNat_of_lt hk
  cases r with
  | held => simp [Claims, withExchange]
  | granted => simp [Claims, withExchange, hasked, hoffset, eq_comm]
  | releasing => simp [Claims, withExchange, hasked]

theorem claims_refused (size offset : UInt64) (hasked : t.exchange = .asked call none) (r : Role)
    (b : ℕ × ℕ) :
    (t.withExchange (.answered (.remoteAlloc size)
        (.memoryResourceResponse ⟨offset, MessageErrors.memoryNotAvailable.code⟩))).Claims r b ↔
      t.Claims r b := by
  have hcode : MessageErrors.memoryNotAvailable.code ≠ MessageErrors.noError.code := by decide
  cases r <;> simp [Claims, withExchange, hasked, hcode]

theorem claims_released (size offset : UInt64) (response : Response)
    (hasked : t.exchange = .asked call (some block)) (r : Role) (b : ℕ × ℕ) :
    (t.withExchange (.answered (.remoteFree size offset) response)).Claims r b ↔
      t.Claims r b ∧ ¬ (r = .releasing ∧ b = block) := by
  cases r <;> simp [Claims, withExchange, hasked, eq_comm]

/-- The answer has come that brings a block. -/
theorem claims_finish_granted {k n : ℕ} {response : Response}
    (hanswered : t.exchange = .answered call response) (hgrant : t.exchange.grant = some (k, n))
    (hnew : t.held k = none) (r : Role) (b : ℕ × ℕ) :
    Claims { t with exchange := .idle, held := Function.update t.held k (some n) } r b ↔
      r = .held ∧ b = (k, n) ∨ t.Claims r b ∧ ¬ (r = .granted ∧ b = (k, n)) := by
  have hrelease : t.exchange.release = none := by
    rw [hanswered]
    rfl
  cases r with
  | held => simpa [Claims] using update_some_iff hnew b
  | granted => simp [Claims, hgrant, eq_comm]
  | releasing => simp [Claims, hrelease]

/-- The answer has come that brings none. -/
theorem claims_finish_none {response : Response} (hanswered : t.exchange = .answered call response)
    (hgrant : t.exchange.grant = none) (r : Role) (b : ℕ × ℕ) :
    (t.withExchange .idle).Claims r b ↔ t.Claims r b := by
  have hrelease : t.exchange.release = none := by
    rw [hanswered]
    rfl
  cases r <;> simp [Claims, withExchange, hgrant, hrelease]

/-! ## A call gets its answer -/

theorem result_remoteAlloc (h : target.connection ∈ t.client.sockets) (size : UInt64)
    (resResp : MemoryResourceResponse) :
    t.result target (.remoteAlloc size) (.memoryResourceResponse resResp) =
      .ok (if resResp.return_ = MessageErrors.noError.code then (true, resResp.offset)
        else (false, 0)) := by
  have hexchange : RDMAClient.exchangeProtoMsg (.ok (.memoryResourceResponse resResp)) t.client =
    (.ok (.memoryResourceResponse resResp), t.client) := rfl
  unfold Tenant.result MemoryCall.run RDMAClient.remoteAlloc
  dsimp only
  rw [Act.bind_of_ok Act.get_apply, if_neg (not_not.mpr h), Act.bind_of_ok hexchange]
  dsimp only
  split_ifs <;> rfl

theorem result_remoteFree (h : target.connection ∈ t.client.sockets) (size offset : UInt64)
    (resResp : MemoryResourceResponse) :
    t.result target (.remoteFree size offset) (.memoryResourceResponse resResp) =
      .ok (decide (resResp.return_ = MessageErrors.noError.code), offset) := by
  have hexchange : RDMAClient.exchangeProtoMsg (.ok (.memoryResourceResponse resResp)) t.client =
    (.ok (.memoryResourceResponse resResp), t.client) := rfl
  have hfree : RDMAClient.remoteFree (fun _ => .ok (.memoryResourceResponse resResp)) target.connection
      size offset t.client =
        (.ok (decide (resResp.return_ = MessageErrors.noError.code)), t.client) := by
    unfold RDMAClient.remoteFree
    rw [Act.bind_of_ok Act.get_apply, if_neg (not_not.mpr h), Act.bind_of_ok hexchange]
    dsimp only
    split_ifs with hcode
    · rw [decide_eq_true hcode]
      rfl
    · rw [decide_eq_false hcode]
      rfl
  unfold Tenant.result MemoryCall.run
  dsimp only
  rw [Act.bind_of_ok hfree]
  rfl

/-- **A call gets its answer**: a block that was granted is the caller's
from then on. -/
theorem finish_cases (h : target.connection ∈ t.client.sockets) {response : Response}
    (hanswered : t.exchange = .answered call response) (hok : call.Answered response) :
    (∃ k n, t.exchange.grant = some (k, n) ∧
        t.finish target = { t with exchange := .idle, held := Function.update t.held k (some n) }) ∨
      t.exchange.grant = none ∧ t.finish target = t.withExchange .idle := by
  unfold Tenant.finish
  rw [hanswered]
  dsimp only
  cases response with
  | memoryResourceResponse resResp =>
      cases call with
      | remoteAlloc size =>
          rw [result_remoteAlloc h]
          unfold MemoryExchange.grant
          by_cases hcode : resResp.return_ = MessageErrors.noError.code
          · simp only [if_pos hcode]
            exact Or.inl ⟨_, _, rfl, rfl⟩
          · simp only [if_neg hcode]
            exact Or.inr ⟨trivial, trivial⟩
      | remoteFree size offset => exact Or.inr ⟨rfl, rfl⟩
  | _ =>
      cases call with
      | remoteAlloc size => exact hok.elim
      | remoteFree size offset => exact hok.elim

/-! ## Its connection -/

theorem Wired.frame {t' : Tenant} (h : t.Wired target base) (hclient : t'.client = t.client)
    (hqueue : t'.queue = t.queue) (hlanded : t'.landed = t.landed)
    (hheld : ∀ k n, t.held k = some n → (∃ wr ∈ t.outstanding, 0 < wr.extent ∧ wr.InBlock base k n) →
      t'.held k = some n) : t'.Wired target base := by
  have hout : t'.outstanding = t.outstanding := by
    unfold Tenant.outstanding
    rw [hqueue, hlanded]
  refine ⟨⟨?_, ?_, ?_⟩, ?_, ?_, fun wr hwr hpos => ?_⟩
  · rw [hclient]
    exact h.linked.socket
  · rw [hclient]
    exact h.linked.ready
  · rw [hclient]
    exact h.linked.buffer
  · rw [hqueue, hlanded]
    exact h.done
  · rw [hqueue, hlanded]
    exact h.landed
  · rw [hout] at hwr
    obtain ⟨k, n, hk, hin⟩ := h.inBlock wr hwr hpos
    exact ⟨k, n, hheld k n hk ⟨wr, hwr, hpos, hin⟩, hin⟩

theorem Wired.withExchange (h : t.Wired target base) (exchange : MemoryExchange) :
    (t.withExchange exchange).Wired target base :=
  h.frame rfl rfl rfl fun _ _ hk _ => hk

/-- A block that no request under way is about is given back. -/
theorem Wired.give (h : t.Wired target base) {k n : ℕ} (hk : t.held k = some n)
    (hsettled : t.Settled base k n) (exchange : MemoryExchange) :
    Wired target base { t with exchange, held := Function.update t.held k none } := by
  refine h.frame rfl rfl rfl fun j m hj => ?_
  rintro ⟨wr, hwr, hpos, hin⟩
  have hne : j ≠ k := by
    rintro rfl
    rw [hk] at hj
    obtain rfl := Option.some.inj hj
    exact hsettled wr hwr hpos hin
  exact (Function.update_of_ne hne _ _).trans hj

theorem Wired.get (h : t.Wired target base) {k n : ℕ} (hnew : t.held k = none) (exchange : MemoryExchange) :
    Wired target base { t with exchange, held := Function.update t.held k (some n) } := by
  refine h.frame rfl rfl rfl fun j m hj _ => ?_
  have hne : j ≠ k := by
    rintro rfl
    rw [hnew] at hj
    simp at hj
  exact (Function.update_of_ne hne _ _).trans hj

/-- The device carries out a request. -/
theorem Wired.land (h : t.Wired target base) (hlt : t.landed < t.queue.wrs.length) :
    Wired target base { t with landed := t.landed + 1 } := by
  refine ⟨⟨h.linked.socket, h.linked.ready, h.linked.buffer⟩, Nat.le_succ_of_le h.done, hlt,
    fun wr hwr => h.inBlock wr ?_⟩
  unfold outstanding at hwr ⊢
  rw [List.drop_eq_getElem_cons hlt]
  exact List.mem_cons_of_mem _ hwr

/-- A request on bytes of a block that lies in the buffer is about the block. -/
theorem inBlock_of_names {wr : SendWr} {s : BaseRDMA} {id offset size k n memSize : ℕ}
    (hnames : wr.Names s id (some (offset, size))) (hbuffer : (s.rconnAt id).buffer.toNat = base)
    (hlo : k ≤ offset) (hhi : offset + size ≤ k + n) (hstop : k + n ≤ memSize)
    (hfits : base + memSize ≤ 2 ^ 64) (hpos : 0 < wr.extent) : wr.InBlock base k n := by
  obtain hzero | ⟨offset', size', heq, haddr, hextent⟩ := hnames
  · omega
  · obtain ⟨rfl, rfl⟩ := Prod.mk.inj (Option.some.inj heq)
    have hlt : base + offset < 2 ^ 64 := by omega
    rw [ReliableRDMA.remoteAddr, hbuffer, wrap64_of_lt hlt] at haddr
    unfold SendWr.InBlock
    omega

/-- **A call on the connection** that names bytes of a block of the caller. -/
theorem Wired.verb {memSize : ℕ} (h : t.Wired target base) (hfits : base + memSize ≤ 2 ^ 64)
    (hheld : ∀ k n, t.held k = some n → k + n ≤ memSize) (e : ReadEvent)
    (hdone : (e.run target.config target.nodeID t.link).2.2.done ≤ t.landed)
    (hproper : ∀ offset size, e.remote = some (offset, size) →
      ∃ k n, t.held k = some n ∧ k ≤ offset ∧ offset + size ≤ k + n) :
    (t.verb target e).Wired target base := by
  have hposted := e.posted (c := target.config) (p := t.link) h.linked.ready
  have hwrs := hposted.wrs
  refine ⟨⟨h.linked.socket, hposted.ready h.linked.ready, ?_⟩, hdone, ?_, fun wr hwr hpos => ?_⟩
  · exact (congrArg (fun conn => conn.buffer.toNat) (hposted.rconnAt target.nodeID)).trans
      h.linked.buffer
  · show t.landed ≤ (e.run target.config target.nodeID t.link).2.2.wrs.length
    have hle : t.landed ≤ t.queue.wrs.length := h.landed
    rcases hwrs with hwrs | ⟨wr, hwrs, -⟩
    · rw [hwrs]
      exact hle
    · rw [hwrs, List.length_append]
      exact Nat.le_add_right_of_le hle
  · have hmem : wr ∈ (e.run target.config target.nodeID t.link).2.2.wrs.drop t.landed := hwr
    rcases hwrs with hwrs | ⟨new, hwrs, hnames⟩
    · rw [hwrs] at hmem
      exact h.inBlock wr hmem hpos
    · rw [hwrs] at hmem
      have hle : t.landed ≤ t.link.2.wrs.length := h.landed
      rw [List.drop_append_of_le_length hle] at hmem
      rcases List.mem_append.mp hmem with hold | hnew
      · exact h.inBlock wr hold hpos
      · obtain rfl := List.mem_singleton.mp hnew
        obtain hzero | ⟨offset, size, hremote, -⟩ := id hnames
        · omega
        · obtain ⟨k, n, hk, hlo, hhi⟩ := hproper offset size hremote
          rw [hremote] at hnames
          exact ⟨k, n, hk, inBlock_of_names hnames h.linked.buffer hlo hhi (hheld k n hk) hfits hpos⟩

end Tenant

namespace Fabric

variable {κ : Type}

def Holds (s : Fabric κ) : Holder κ → ℕ × ℕ → Prop
  | .server, block => s.own block.1 = some block.2
  | .client c role, block => (s.tenants c).Claims role block

/-- **The books**: every live block has exactly one holder, and the
connections are in order. -/
structure Books (target : Target) (s : Fabric κ) : Prop where
  tight : s.memory.Tight
  nonempty : 0 < s.memory.memSize
  fits : s.base + s.memory.memSize ≤ 2 ^ 64
  custody : Custody (fun block : ℕ × ℕ => s.memory.live block.1 = some block.2) s.Holds
  exchange : ∀ c, (s.tenants c).exchange.Ok
  wired : ∀ c, (s.tenants c).Wired target s.base

variable {target : Target} {s s' : Fabric κ} {c : κ} {t : Tenant} {call : MemoryCall} {block : ℕ × ℕ}

/-- A block that a client has lies in the buffer. -/
theorem Books.held_le (h : Books target s) {k n : ℕ} (hk : (s.tenants c).held k = some n) :
    k + n ≤ s.memory.memSize :=
  (h.tight.live_bounds (h.custody.used (.client c .held) (k, n) hk)).2

/-- A block that an answer brings is not the caller's yet. -/
theorem Books.held_of_grant (h : Books target s) {k n : ℕ}
    (hgrant : (s.tenants c).exchange.grant = some (k, n)) : (s.tenants c).held k = none := by
  by_contra hheld
  obtain ⟨m, hm⟩ := Option.ne_none_iff_exists'.mp hheld
  have hlive := h.custody.used (.client c .granted) (k, n) hgrant
  have hlive' := h.custody.used (.client c .held) (k, m) hm
  simp only [hlive, Option.some.injEq] at hlive'
  obtain rfl := hlive'
  have hsame := h.custody.one (.client c .held) (.client c .granted) (k, n) hm hgrant
  simp at hsame

/-- A block that is not live is not the server's. -/
theorem Books.own_of_free (h : Books target s) {k : ℕ} (hfree : s.memory.live k = none) :
    s.own k = none := by
  by_contra hown
  obtain ⟨m, hm⟩ := Option.ne_none_iff_exists'.mp hown
  have hlive : s.memory.live k = some m := h.custody.used .server (k, m) hm
  rw [hfree] at hlive
  simp at hlive

variable [DecidableEq κ]

/-! ## One client goes on -/

@[simp] theorem setTenant_memory : (s.setTenant c t).memory = s.memory := rfl

@[simp] theorem setTenant_base : (s.setTenant c t).base = s.base := rfl

@[simp] theorem setTenant_own : (s.setTenant c t).own = s.own := rfl

@[simp] theorem setTenant_self : (s.setTenant c t).tenants c = t := Function.update_self _ _ _

theorem setTenant_of_ne {d : κ} (h : d ≠ c) : (s.setTenant c t).tenants d = s.tenants d :=
  Function.update_of_ne h _ _

/-- What holds of the client that goes on and of all others, holds of all. -/
theorem forall_setTenant {P : κ → Tenant → Prop} (hself : P c t) (hothers : ∀ d, P d (s.tenants d)) :
    ∀ d, P d ((s.setTenant c t).tenants d) := by
  intro d
  rcases eq_or_ne d c with rfl | hne
  · rw [setTenant_self]
    exact hself
  · rw [setTenant_of_ne hne]
    exact hothers d

theorem holds_setTenant_self {r : Role} :
    (s.setTenant c t).Holds (.client c r) block ↔ t.Claims r block := by
  show ((s.setTenant c t).tenants c).Claims r block ↔ _
  rw [setTenant_self]

theorem holds_setTenant_of_ne {d : κ} (h : d ≠ c) {r : Role} :
    (s.setTenant c t).Holds (.client d r) block ↔ s.Holds (.client d r) block := by
  show ((s.setTenant c t).tenants d).Claims r block ↔ _
  rw [setTenant_of_ne h]
  rfl

theorem holds_same (h : ∀ r b, t.Claims r b ↔ (s.tenants c).Claims r b) (o : Holder κ) (b : ℕ × ℕ) :
    (s.setTenant c t).Holds o b ↔ s.Holds o b := by
  rcases o with _ | ⟨d, r⟩
  · exact Iff.rfl
  · rcases eq_or_ne d c with rfl | hne
    · exact holds_setTenant_self.trans (h r b)
    · exact holds_setTenant_of_ne hne

theorem holds_take {r₀ : Role}
    (h : ∀ r b, t.Claims r b ↔ r = r₀ ∧ b = block ∨ (s.tenants c).Claims r b) (o : Holder κ)
    (b : ℕ × ℕ) :
    (s.setTenant c t).Holds o b ↔ o = .client c r₀ ∧ b = block ∨ s.Holds o b := by
  rcases o with _ | ⟨d, r⟩
  · exact (or_iff_right (by simp)).symm
  · rcases eq_or_ne d c with rfl | hne
    · rw [holds_setTenant_self, h]
      simp [Holds]
    · rw [holds_setTenant_of_ne hne]
      simp [hne]

theorem holds_give {r₀ : Role}
    (h : ∀ r b, t.Claims r b ↔ (s.tenants c).Claims r b ∧ ¬ (r = r₀ ∧ b = block)) (o : Holder κ)
    (b : ℕ × ℕ) :
    (s.setTenant c t).Holds o b ↔ s.Holds o b ∧ ¬ (o = .client c r₀ ∧ b = block) := by
  rcases o with _ | ⟨d, r⟩
  · exact (and_iff_left (by simp)).symm
  · rcases eq_or_ne d c with rfl | hne
    · rw [holds_setTenant_self, h]
      simp [Holds]
    · rw [holds_setTenant_of_ne hne]
      simp [hne]

theorem holds_pass {r₀ r₁ : Role}
    (h : ∀ r b, t.Claims r b ↔
      r = r₁ ∧ b = block ∨ (s.tenants c).Claims r b ∧ ¬ (r = r₀ ∧ b = block))
    (o : Holder κ) (b : ℕ × ℕ) :
    (s.setTenant c t).Holds o b ↔
      o = .client c r₁ ∧ b = block ∨ s.Holds o b ∧ ¬ (o = .client c r₀ ∧ b = block) := by
  rcases o with _ | ⟨d, r⟩
  · simp
    rfl
  · rcases eq_or_ne d c with rfl | hne
    · rw [holds_setTenant_self, h]
      simp [Holds]
    · rw [holds_setTenant_of_ne hne]
      simp [hne]

/-! ## The server takes a message -/

/-- The server answers a message. -/
def answer (s : Fabric κ) (c : κ) (call : MemoryCall) (resResp : MemoryResourceResponse) : Fabric κ :=
  s.setTenant c ((s.tenants c).withExchange (.answered call (.memoryResourceResponse resResp)))

theorem handle_of_ok {server : RDMAServer ReliableRDMA} {reqMsg : MemoryResourceRequest}
    {respMsg : MemoryResourceResponse} {m' : BaseMemory}
    (h : handleMemoryResource reqMsg server.buffer = (.ok respMsg, m')) :
    RDMAServer.handle (.memoryResourceRequest reqMsg) server =
      (.ok (.memoryResourceResponse respMsg), { server with buffer := m' }) := by
  have hzoom : Act.zoom RDMAServer.buffer (fun s buffer => { s with buffer })
      (handleMemoryResource reqMsg) server = (.ok respMsg, { server with buffer := m' }) := by
    unfold Act.zoom
    rw [h]
  unfold RDMAServer.handle
  exact (Act.bind_of_ok hzoom).trans rfl

theorem serve_of_ok {o : Option (ℕ × ℕ)} {respMsg : MemoryResourceResponse} {m' : BaseMemory}
    (hasked : (s.tenants c).exchange = .asked call o)
    (h : handleMemoryResource call.request s.memory = (.ok respMsg, m')) :
    s.serve c = (s.setMemory m').answer c call respMsg := by
  unfold serve
  rw [hasked]
  simp only
  rw [handle_of_ok h]
  rfl

/-- **What the server makes of a message.** -/
inductive Served (s : Fabric κ) (c : κ) : MemoryCall → Option (ℕ × ℕ) → Fabric κ → Prop
  | granted {size : UInt64} {k : ℕ} {m' : BaseMemory} (h : Took s.memory k size.toNat m') :
      Served s c (.remoteAlloc size) none ((s.setMemory m').answer c (.remoteAlloc size)
        ⟨UInt64.ofNat k, MessageErrors.noError.code⟩)
  | refused {size : UInt64} (h : ∀ o, ¬ s.memory.Hole size.toNat o) :
      Served s c (.remoteAlloc size) none (s.answer c (.remoteAlloc size)
        ⟨UInt64.ofNat 0, MessageErrors.memoryNotAvailable.code⟩)
  | released {size offset : UInt64} {n : ℕ} {m' : BaseMemory}
      (hk : s.memory.live offset.toNat = some n) (h : Gave s.memory offset.toNat m') :
      Served s c (.remoteFree size offset) (some (offset.toNat, n))
        ((s.setMemory m').answer c (.remoteFree size offset) ⟨offset, MessageErrors.noError.code⟩)

theorem Books.served (h : Books target s) {o : Option (ℕ × ℕ)}
    (hasked : (s.tenants c).exchange = .asked call o) : Served s c call o (s.serve c) := by
  have hok := h.exchange c
  rw [hasked] at hok
  cases call with
  | remoteAlloc size =>
      obtain ⟨hpos, rfl⟩ := hok
      have hother : ¬ MemoryResourceType.memoryResourceRequest.code =
        MemoryResourceType.memoryResourceRelease.code := by decide
      rcases h.tight.allocates hpos with ⟨k, m', hcall, htook⟩ | ⟨hcall, hnone⟩
      · have hhandle : handleMemoryResource (createMemoryResourceRequest size) s.memory =
            (.ok ⟨UInt64.ofNat k, MessageErrors.noError.code⟩, m') := by
          unfold handleMemoryResource createMemoryResourceRequest
          rw [if_neg hother, if_pos rfl, Act.bind_of_ok (requestMemoryResource_of_some rfl hcall)]
          rfl
        rw [serve_of_ok hasked hhandle]
        exact Served.granted htook
      · have hhandle : handleMemoryResource (createMemoryResourceRequest size) s.memory =
            (.ok ⟨UInt64.ofNat 0, MessageErrors.memoryNotAvailable.code⟩, s.memory) := by
          unfold handleMemoryResource createMemoryResourceRequest
          rw [if_neg hother, if_pos rfl, Act.bind_of_ok (requestMemoryResource_of_null hcall)]
          rfl
        rw [serve_of_ok hasked hhandle]
        exact Served.refused hnone
  | remoteFree size offset =>
      obtain ⟨n, rfl⟩ := hok
      have hclaim : s.Holds (.client c .releasing) (offset.toNat, n) := by
        show (s.tenants c).exchange.release = some (offset.toNat, n)
        rw [hasked]
        rfl
      have hlive := h.custody.used _ _ hclaim
      obtain ⟨m', hfree, hgave⟩ := h.tight.releases hlive
      have hhandle : handleMemoryResource (createMemoryResourceRelease size offset) s.memory =
          (.ok ⟨offset, MessageErrors.noError.code⟩, m') := by
        unfold handleMemoryResource createMemoryResourceRelease
        rw [if_pos rfl, Act.bind_of_ok (releaseMemoryResource_of_ok hfree)]
        rfl
      rw [serve_of_ok hasked hhandle]
      exact Served.released hlive hgave

/-! ## A step -/

/-- The server's sub-allocator and one client go on. -/
theorem Books.go (h : Books target s) {m' : BaseMemory} (htight : m'.Tight)
    (hbuffer : m'.buffer = s.memory.buffer) (hsize : m'.memSize = s.memory.memSize)
    (hcustody : Custody (fun block : ℕ × ℕ => m'.live block.1 = some block.2)
      ((s.setMemory m').setTenant c t).Holds)
    (hexchange : t.exchange.Ok) (hwired : t.Wired target s.base) :
    Books target ((s.setMemory m').setTenant c t) := by
  have hbase : (s.setMemory m').base = s.base := hbuffer
  refine ⟨htight, hsize ▸ h.nonempty, ?_, hcustody, ?_, ?_⟩
  · show (s.setMemory m').base + m'.memSize ≤ 2 ^ 64
    rw [hbase, hsize]
    exact h.fits
  · exact forall_setTenant (P := fun _ t => t.exchange.Ok) hexchange h.exchange
  · rw [setTenant_base, hbase]
    exact forall_setTenant (P := fun _ t => t.Wired target s.base) hwired h.wired

theorem Books.setTenant (h : Books target s) (hcustody : Custody
      (fun block : ℕ × ℕ => s.memory.live block.1 = some block.2) (s.setTenant c t).Holds)
    (hexchange : t.exchange.Ok) (hwired : t.Wired target s.base) : Books target (s.setTenant c t) :=
  h.go h.tight rfl rfl hcustody hexchange hwired

theorem Books.ask (h : Books target s) (hidle : (s.tenants c).exchange = .idle)
    (hproper : s.Proper (.ask c call)) :
    Books target (s.setTenant c ((s.tenants c).ask call)) := by
  cases call with
  | remoteAlloc size =>
      refine h.setTenant ?_ ⟨hproper, rfl⟩ ((h.wired c).withExchange _)
      exact h.custody.congr (fun _ => Iff.rfl) (holds_same (Tenant.claims_ask_alloc hidle size))
  | remoteFree size offset =>
      obtain ⟨n, hk, hsettled⟩ := hproper
      refine h.setTenant ?_ ⟨n, by rw [hk]; rfl⟩ ((h.wired c).give hk hsettled _)
      exact h.custody.pass (show s.Holds (.client c .held) (offset.toNat, n) from hk) (fun _ => Iff.rfl)
        (holds_pass (Tenant.claims_ask_free hidle size offset hk))

theorem Books.serve (h : Books target s) {o : Option (ℕ × ℕ)}
    (hasked : (s.tenants c).exchange = .asked call o) : Books target (s.serve c) := by
  have hserved := h.served hasked
  generalize s.serve c = s' at hserved
  cases hserved with
  | @granted size k m' htook =>
      have hk : k < 2 ^ 64 := by
        have hle := htook.hole.1
        have hlt := h.tight.lt
        omega
      refine h.go htook.tight htook.buffer htook.memSize ?_ trivial ((h.wired c).withExchange _)
      exact h.custody.take (by simp [htook.free]) htook.live_iff
        (holds_take (s := s.setMemory m') (Tenant.claims_granted size hk hasked))
  | @refused size hnone =>
      refine h.setTenant ?_ trivial ((h.wired c).withExchange _)
      exact h.custody.congr (fun _ => Iff.rfl) (holds_same (Tenant.claims_refused size _ hasked))
  | @released size offset n m' hlive hgave =>
      refine h.go hgave.tight hgave.buffer hgave.memSize ?_ rfl ((h.wired c).withExchange _)
      have hclaim : s.Holds (.client c .releasing) (offset.toNat, n) := by
        show (s.tenants c).exchange.release = some (offset.toNat, n)
        rw [hasked]
        rfl
      exact h.custody.give hclaim (hgave.live_iff hlive)
        (holds_give (s := s.setMemory m') (Tenant.claims_released size offset _ hasked))

theorem Books.finish (h : Books target s) {response : Response}
    (hanswered : (s.tenants c).exchange = .answered call response) :
    Books target (s.setTenant c ((s.tenants c).finish target)) := by
  have hok := h.exchange c
  rw [hanswered] at hok
  rcases Tenant.finish_cases (h.wired c).linked.socket hanswered hok with
    ⟨k, n, hgrant, hfinish⟩ | ⟨hgrant, hfinish⟩
  · have hclaim : s.Holds (.client c .granted) (k, n) := hgrant
    have hnew := h.held_of_grant hgrant
    rw [hfinish]
    refine h.setTenant ?_ trivial ((h.wired c).get hnew _)
    exact h.custody.pass hclaim (fun _ => Iff.rfl)
      (holds_pass (Tenant.claims_finish_granted hanswered hgrant hnew))
  · rw [hfinish]
    refine h.setTenant ?_ trivial ((h.wired c).withExchange _)
    exact h.custody.congr (fun _ => Iff.rfl) (holds_same (Tenant.claims_finish_none hanswered hgrant))

/-- A client whose exchange and blocks stay goes on. -/
theorem Books.frame (h : Books target s) (hexchange : t.exchange = (s.tenants c).exchange)
    (hheld : t.held = (s.tenants c).held) (hwired : t.Wired target s.base) :
    Books target (s.setTenant c t) := by
  refine h.setTenant (h.custody.congr (fun _ => Iff.rfl) (holds_same fun r b => ?_)) ?_ hwired
  · cases r <;> simp [Tenant.Claims, hexchange, hheld]
  · rw [hexchange]
    exact h.exchange c

omit [DecidableEq κ] in
/-- The bytes of the memory are no concern of the books. -/
theorem Books.setMem (h : Books target s) (mem : ℕ → UInt8) : Books target { s with mem } :=
  ⟨h.tight, h.nonempty, h.fits, h.custody, h.exchange, h.wired⟩

omit [DecidableEq κ] in
/-- The server's own blocks go on. -/
theorem Books.setOwn (h : Books target s) {m' : BaseMemory} {own : ℕ → Option ℕ} (htight : m'.Tight)
    (hbuffer : m'.buffer = s.memory.buffer) (hsize : m'.memSize = s.memory.memSize)
    (hcustody : Custody (fun block : ℕ × ℕ => m'.live block.1 = some block.2)
      ({ s.setMemory m' with own } : Fabric κ).Holds) :
    Books target { s.setMemory m' with own } := by
  have hbase : (s.setMemory m').base = s.base := hbuffer
  refine ⟨htight, hsize ▸ h.nonempty, ?_, hcustody, h.exchange, fun c => ?_⟩
  · show (s.setMemory m').base + m'.memSize ≤ 2 ^ 64
    rw [hbase, hsize]
    exact h.fits
  · show (s.tenants c).Wired target (s.setMemory m').base
    rw [hbase]
    exact h.wired c

omit [DecidableEq κ] in
theorem localAlloc_cases (h : Books target s) {size : ℕ} (hpos : 0 < size) :
    (∃ k m', Took s.memory k size m' ∧
        s.localAlloc size = { s.setMemory m' with own := Function.update s.own k (some size) }) ∨
      (∀ o, ¬ s.memory.Hole size o) ∧ s.localAlloc size = s := by
  unfold localAlloc
  rcases h.tight.allocates hpos with ⟨k, m', hcall, htook⟩ | ⟨hcall, hnone⟩
  · rw [hcall]
    exact Or.inl ⟨k, m', htook, rfl⟩
  · rw [hcall]
    exact Or.inr ⟨hnone, rfl⟩

omit [DecidableEq κ] in
theorem Books.localAlloc (h : Books target s) {size : ℕ} (hpos : 0 < size) :
    Books target (s.localAlloc size) := by
  rcases localAlloc_cases h hpos with ⟨k, m', htook, heq⟩ | ⟨-, heq⟩
  · have hnew := h.own_of_free htook.free
    rw [heq]
    refine h.setOwn htook.tight htook.buffer htook.memSize ?_
    refine h.custody.take (a := .server) (by simp [htook.free]) htook.live_iff fun o b => ?_
    cases o with
    | server => simpa [Holds] using update_some_iff hnew b
    | client c r => simp [Holds, setMemory]
  · rw [heq]
    exact h

omit [DecidableEq κ] in
theorem Books.localFree (h : Books target s) {offset : ℕ} (hown : s.own offset ≠ none) :
    Books target { s.setMemory (BaseMemory.free offset s.memory).2 with
      own := Function.update s.own offset none } := by
  obtain ⟨n, hn⟩ := Option.ne_none_iff_exists'.mp hown
  have hlive : s.memory.live offset = some n := h.custody.used .server (offset, n) hn
  obtain ⟨m', hfree, hgave⟩ := h.tight.releases hlive
  rw [hfree]
  refine h.setOwn hgave.tight hgave.buffer hgave.memSize ?_
  refine h.custody.give (show s.Holds .server (offset, n) from hn) (hgave.live_iff hlive) fun o b => ?_
  cases o with
  | server => simpa [Holds] using update_none_iff hn b
  | client c r => simp [Holds, setMemory]

/-- **Every step keeps the books.** -/
theorem Books.step (h : Books target s) {l : FabricStep κ} (hcan : s.Enabled target l)
    (hproper : s.Proper l) : Books target (s.exec target l) := by
  cases l with
  | ask c call => exact h.ask hcan.1 hproper
  | serve c =>
      obtain ⟨call, o, hasked⟩ := hcan
      exact h.serve hasked
  | finish c =>
      obtain ⟨⟨call, response, hanswered⟩, -⟩ := hcan
      exact h.finish hanswered
  | giveUp c => exact h.frame rfl rfl ((h.wired c).frame rfl rfl rfl fun _ _ hk _ => hk)
  | verb c e =>
      exact h.frame rfl rfl ((h.wired c).verb h.fits (fun k n hk => h.held_le hk) e hcan hproper)
  | land c data =>
      obtain ⟨wr, hwr, -⟩ := hcan
      have hlt := (List.getElem?_eq_some_iff.mp hwr).1
      simp only [Fabric.exec, hwr]
      exact (h.setMem _).frame rfl rfl ((h.wired c).land hlt)
  | localAlloc size => exact h.localAlloc hproper
  | localFree offset => exact h.localFree hproper
  | localStore start data => exact h.setMem _

theorem books_invariant : (fabric κ target).Invariant (Books target) where
  init s h := by
    obtain ⟨buffer, memSize, -, hpos, hlt, hmemory⟩ := h.fresh
    have htight : s.memory.Tight := by
      rw [hmemory]
      exact tight_new buffer memSize hpos hlt
    have hnonempty : 0 < s.memory.memSize := by
      rw [hmemory]
      exact hpos
    refine ⟨htight, hnonempty, h.fits, Custody.of_none (fun b => ?_) fun o b => ?_, fun c => ?_, fun c => ?_⟩
    · rw [hmemory]
      simp [live, new]
    · cases o with
      | server => simp [Holds, h.own]
      | client c r => cases r <;> simp [Holds, Tenant.Claims, h.held, h.idle]
    · rw [h.idle]
      trivial
    · have hlanded := h.drained c
      refine ⟨h.linked c, hlanded ▸ (s.tenants c).queue.done_le, hlanded.le, fun wr hwr => ?_⟩
      unfold Tenant.outstanding at hwr
      rw [hlanded, List.drop_length] at hwr
      exact absurd hwr List.not_mem_nil
  step s l s' _ h hstep := by
    obtain ⟨hcan, hproper, rfl⟩ := hstep
    exact h.step hcan hproper

theorem reachable_exec (h : (fabric κ target).Reachable s) (l : FabricStep κ)
    (hcan : s.Enabled target l) (hproper : s.Proper l) :
    (fabric κ target).Reachable (s.exec target l) :=
  h.step (l := l) ⟨hcan, hproper, rfl⟩

/-! ## The blocks of any run -/

omit [DecidableEq κ] in
/-- Two holdings are one, or lie one after the other. -/
theorem Books.apart (h : Books target s) {o o' : Holder κ} {b b' : ℕ × ℕ} (hb : s.Holds o b)
    (hb' : s.Holds o' b') : o = o' ∧ b = b' ∨ b.1 + b.2 ≤ b'.1 ∨ b'.1 + b'.2 ≤ b.1 := by
  have hlive := h.custody.used o b hb
  have hlive' := h.custody.used o' b' hb'
  by_cases hoffset : b.1 = b'.1
  · rw [hoffset, hlive'] at hlive
    have hsame : b = b' := Prod.ext hoffset (Option.some.inj hlive).symm
    exact Or.inl ⟨h.custody.one o o' b hb (hsame ▸ hb'), hsame⟩
  · exact Or.inr (h.tight.live_apart hoffset hlive hlive')

/-- What `remoteAlloc` returns of the answer that the server gives. -/
theorem Books.remoteAlloc_iff (h : Books target s) {size : UInt64} {o : Option (ℕ × ℕ)}
    (hasked : (s.tenants c).exchange = .asked (.remoteAlloc size) o) :
    ∃ response, ((s.serve c).tenants c).exchange = .answered (.remoteAlloc size) response ∧
      ((∃ offset, (s.tenants c).result target (.remoteAlloc size) response = .ok (true, offset)) ↔
        ∃ k, s.memory.Hole size.toNat k) := by
  have hsocket := (h.wired c).linked.socket
  have hserved := h.served hasked
  generalize s.serve c = s' at hserved
  cases hserved with
  | @granted _ k m' htook =>
      refine ⟨_, by rw [answer, setTenant_self]; rfl, ?_⟩
      rw [Tenant.result_remoteAlloc hsocket]
      exact ⟨fun _ => ⟨k, htook.hole⟩, fun _ => ⟨_, rfl⟩⟩
  | refused hnone =>
      refine ⟨_, by rw [answer, setTenant_self]; rfl, ?_⟩
      rw [Tenant.result_remoteAlloc hsocket]
      refine ⟨?_, fun ⟨k, hk⟩ => absurd hk (hnone k)⟩
      rintro ⟨offset, hresult⟩
      simp [MessageErrors.code] at hresult

/-- **Remote memory is handed out soundly**: in every run, each live block
is with exactly one holder and nobody holds anything else; blocks lie in
the buffer and do not overlap; a block given back is always taken back;
`remoteAlloc` gets a block exactly if there is room for it; and where
nobody holds a block the buffer is whole again. -/
theorem blocks_accounted (h : (fabric κ target).Reachable s) :
    (∀ b : ℕ × ℕ, s.memory.live b.1 = some b.2 ↔ ∃ o, s.Holds o b) ∧
      (∀ o o' b b', s.Holds o b → s.Holds o' b' →
        o = o' ∧ b = b' ∨ b.1 + b.2 ≤ b'.1 ∨ b'.1 + b'.2 ≤ b.1) ∧
      (∀ o b, s.Holds o b → 0 < b.2 ∧ b.1 + b.2 ≤ s.memory.memSize) ∧
      (∀ c size offset response, (s.tenants c).exchange = .answered (.remoteFree size offset) response →
        (s.tenants c).result target (.remoteFree size offset) response = .ok (true, offset)) ∧
      (∀ c size o, (s.tenants c).exchange = .asked (.remoteAlloc size) o → ∃ response,
        ((s.serve c).tenants c).exchange = .answered (.remoteAlloc size) response ∧
          ((∃ offset, (s.tenants c).result target (.remoteAlloc size) response = .ok (true, offset)) ↔
            ∃ k, s.memory.Hole size.toNat k)) ∧
      ((∀ o b, ¬ s.Holds o b) → s.memory.layout = [(0, s.memory.memSize)]) := by
  have hbooks := books_invariant.reachable h
  refine ⟨fun b => ⟨hbooks.custody.held b, fun ⟨o, ho⟩ => hbooks.custody.used o b ho⟩,
    fun o o' b b' => hbooks.apart, fun o b ho => hbooks.tight.live_bounds (hbooks.custody.used o b ho),
    fun c size offset response hanswered => ?_, fun c size o => hbooks.remoteAlloc_iff, fun hnone => ?_⟩
  · have hok := hbooks.exchange c
    rw [hanswered] at hok
    cases response with
    | memoryResourceResponse resResp =>
        have hcode : resResp.return_ = MessageErrors.noError.code := hok
        rw [Tenant.result_remoteFree (hbooks.wired c).linked.socket, decide_eq_true hcode]
    | _ => exact hok.elim
  · refine hbooks.tight.layout_of_none hbooks.nonempty fun k => ?_
    by_contra hlive
    obtain ⟨n, hn⟩ := Option.ne_none_iff_exists'.mp hlive
    obtain ⟨o, ho⟩ := hbooks.custody.held (k, n) hn
    exact hnone o (k, n) ho

/-- A server of 64 bytes and two clients. -/
def small : Fabric Bool where
  server :=
    { api := ReliableRDMA.fresh TransferFn.connected.rc
      ownNodeID := 1
      nodeIDsConnection := []
      nodeIDsQPs := []
      connections := ∅
      name := "RDMAServer"
      ownIpPort := "10.0.0.1:5200"
      nodeType := .server
      sequencerIpPort := "10.0.0.9:5600"
      sockets := ∅
      buffer := BaseMemory.new 4096 64
      currentSRQ := sizeMax }
  tenants second :=
    { client :=
        { api := ReliableRDMA.fresh
            { TransferFn.connected.rc with rconns := [{ IbConn.zero with buffer := 4096 }] }
          ownNodeID := if second then 3 else 2
          nodeIDsConnection := ["10.0.0.1:5200"]
          nodeIDsQPs := [true]
          connections := ∅
          name := "RDMAClient"
          ownIpPort := if second then "10.0.0.3" else "10.0.0.2"
          nodeType := .client
          sequencerIpPort := "10.0.0.9:5600"
          sockets := {"10.0.0.9:5600", "10.0.0.1:5200"} }
      queue := SendQueue.empty
      landed := 0
      exchange := .idle
      gaveUp := false
      held := fun _ => none }
  own := fun _ => none
  mem := fun _ => 0

/-- How they know the server. -/
def smallTarget : Target := ⟨"10.0.0.1:5200", 0, TransferFn.config⟩

theorem small_start : Start smallTarget small where
  fresh := ⟨4096, 64, by omega, by omega, by omega, rfl⟩
  fits := by decide
  linked c := by cases c <;> exact ⟨by decide, ⟨by decide, by decide, by decide⟩, by decide⟩
  drained _ := rfl
  idle _ := rfl
  held _ := rfl
  own := rfl

/-- Both clients have asked, one for sixteen bytes and one for eight. -/
def smallAsked : Fabric Bool :=
  (small.exec smallTarget (.ask false (.remoteAlloc 16))).exec smallTarget (.ask true (.remoteAlloc 8))

/-- The server has answered both. -/
def smallServed : Fabric Bool :=
  (smallAsked.exec smallTarget (.serve false)).exec smallTarget (.serve true)

/-- Both have their blocks. -/
def smallHeld : Fabric Bool :=
  (smallServed.exec smallTarget (.finish true)).exec smallTarget (.finish false)

theorem smallHeld_reachable : (fabric Bool smallTarget).Reachable smallHeld := by
  have hstart : (fabric Bool smallTarget).Reachable small := .init small_start
  have hfirst := reachable_exec hstart (.ask false (.remoteAlloc 16)) ⟨rfl, rfl⟩
    (show 0 < (16 : UInt64).toNat by decide)
  have hasked : (fabric Bool smallTarget).Reachable smallAsked :=
    reachable_exec hfirst (.ask true (.remoteAlloc 8)) ⟨rfl, rfl⟩
      (show 0 < (8 : UInt64).toNat by decide)
  have hone := reachable_exec hasked (.serve false) ⟨_, _, rfl⟩ trivial
  have hserved : (fabric Bool smallTarget).Reachable smallServed :=
    reachable_exec hone (.serve true) ⟨_, _, rfl⟩ trivial
  have hsecond := reachable_exec hserved (.finish true) ⟨⟨_, _, rfl⟩, rfl⟩ trivial
  exact reachable_exec hsecond (.finish false) ⟨⟨_, _, rfl⟩, rfl⟩ trivial

theorem blocks_accounted_small :
    (∃ o, smallHeld.Holds o (0, 16)) ∧ ∃ o, smallHeld.Holds o (16, 8) :=
  ⟨((blocks_accounted smallHeld_reachable).1 (0, 16)).mp (by decide),
    ((blocks_accounted smallHeld_reachable).1 (16, 8)).mp (by decide)⟩

end Fabric

end RdmaManager
