import RdmaManager.Node.Server
import RdmaManager.Rdma.RemoteBytes
/-!
# Remote memory

`remoteAlloc` and `remoteFree` ask a server for a block of its buffer and
give it back, over a message and its answer; what is in the block, a client
reads and writes through its queue pair, past the server. `fabric` is what
any number of clients and one server make of that: their calls go on at
any time, the server takes the messages in any order, an answer may come
too late, and the device carries out the requests of a queue when it likes,
in order. `Proper` is what a caller owes: it uses the blocks that were
given to it, and gives one back when its requests on it are done.
-/

namespace RdmaManager

open ReliableRDMA

/-- `ProtoMessageFactory::createMemoryResourceRequest`. -/
def createMemoryResourceRequest (size : UInt64) : MemoryResourceRequest :=
  ⟨size, 0, MemoryResourceType.memoryResourceRequest.code⟩

/-- `ProtoMessageFactory::createMemoryResourceRelease`. -/
def createMemoryResourceRelease (size offset : UInt64) : MemoryResourceRequest :=
  ⟨size, offset, MemoryResourceType.memoryResourceRelease.code⟩

namespace RDMAClient

variable {σ : Type}

/-- `RDMAClient::remoteAlloc(const string &, size_t, size_t &)`, where
`exchange` is what the exchange of a message yields: what it returns, and
what its last argument holds then. -/
def remoteAlloc (exchange : Request → Except Exn Response) (connection : String)
    (size offset : UInt64) : Act (RDMAClient σ) (Bool × UInt64) := do
  let s ← Act.get
  if connection ∉ s.sockets then return (false, offset)
  let rcvAny ← exchangeProtoMsg
    (exchange (.memoryResourceRequest (createMemoryResourceRequest size)))
  match rcvAny with
  | .memoryResourceResponse resResp =>
      if resResp.return_ = MessageErrors.noError.code then return (true, resResp.offset)
      else return (false, offset)
  | _ => return (false, offset)

/-- `RDMAClient::remoteFree(const string &, size_t, size_t)`. -/
def remoteFree (exchange : Request → Except Exn Response) (connection : String)
    (size offset : UInt64) : Act (RDMAClient σ) Bool := do
  let s ← Act.get
  if connection ∉ s.sockets then return false
  let rcvAny ← exchangeProtoMsg
    (exchange (.memoryResourceRequest (createMemoryResourceRelease size offset)))
  match rcvAny with
  | .memoryResourceResponse resResp =>
      if resResp.return_ = MessageErrors.noError.code then return true else return false
  | _ => return false

/-- `RDMAClient::remoteAlloc(NodeID, size_t, size_t &)`. -/
def remoteAllocNode (exchange : Request → Except Exn Response) (nodeID : ℕ)
    (size offset : UInt64) : Act (RDMAClient σ) (Bool × UInt64) := do
  let s ← Act.get
  let connection ← Act.element "m_nodeIDsConnection past its end" s.nodeIDsConnection nodeID
  remoteAlloc exchange connection size offset

/-- `RDMAClient::remoteFree(NodeID, size_t, size_t)`. -/
def remoteFreeNode (exchange : Request → Except Exn Response) (nodeID : ℕ)
    (size offset : UInt64) : Act (RDMAClient σ) Bool := do
  let s ← Act.get
  let connection ← Act.element "m_nodeIDsConnection past its end" s.nodeIDsConnection nodeID
  remoteFree exchange connection size offset

end RDMAClient

/-- A call of a client. -/
inductive MemoryCall
  | remoteAlloc (size : UInt64)
  | remoteFree (size offset : UInt64)
  deriving DecidableEq, Repr

namespace MemoryCall

/-- The message of the call. -/
def request : MemoryCall → MemoryResourceRequest
  | remoteAlloc size => createMemoryResourceRequest size
  | remoteFree size offset => createMemoryResourceRelease size offset

/-- The call, where `exchange` is what the exchange of a message yields. -/
def run {σ : Type} (exchange : Request → Except Exn Response) (connection : String) :
    MemoryCall → Act (RDMAClient σ) (Bool × UInt64)
  | remoteAlloc size => RDMAClient.remoteAlloc exchange connection size 0
  | remoteFree size offset => do
      let freed ← RDMAClient.remoteFree exchange connection size offset
      return (freed, offset)

end MemoryCall

/-- Where the exchange of a client with the server stands. -/
inductive MemoryExchange
  | idle
  /-- The message waits for the server, with the block that it gives back. -/
  | asked (call : MemoryCall) (block : Option (ℕ × ℕ))
  /-- The answer waits for the client. -/
  | answered (call : MemoryCall) (response : Response)
  deriving DecidableEq

namespace MemoryExchange

/-- The block that an answer brings, as its offset and its size. -/
def grant : MemoryExchange → Option (ℕ × ℕ)
  | answered (.remoteAlloc size) (.memoryResourceResponse resResp) =>
      if resResp.return_ = MessageErrors.noError.code then some (resResp.offset.toNat, size.toNat)
      else none
  | _ => none

/-- The block that a message gives back. -/
def release : MemoryExchange → Option (ℕ × ℕ)
  | asked _ block => block
  | _ => none

@[simp] theorem grant_idle : idle.grant = none := rfl

@[simp] theorem grant_asked (call : MemoryCall) (block : Option (ℕ × ℕ)) :
    (asked call block).grant = none := rfl

@[simp] theorem grant_answered_alloc (size : UInt64) (resResp : MemoryResourceResponse) :
    (answered (.remoteAlloc size) (.memoryResourceResponse resResp)).grant =
      if resResp.return_ = MessageErrors.noError.code then some (resResp.offset.toNat, size.toNat)
      else none := rfl

@[simp] theorem grant_answered_free (size offset : UInt64) (response : Response) :
    (answered (.remoteFree size offset) response).grant = none := rfl

@[simp] theorem release_idle : idle.release = none := rfl

@[simp] theorem release_asked (call : MemoryCall) (block : Option (ℕ × ℕ)) :
    (asked call block).release = block := rfl

@[simp] theorem release_answered (call : MemoryCall) (response : Response) :
    (answered call response).release = none := rfl

end MemoryExchange

/-- The request is about bytes of the block of `n` bytes at the offset `k`,
of a buffer that starts at `base`. -/
def SendWr.InBlock (wr : SendWr) (base k n : ℕ) : Prop :=
  base + k ≤ wr.remoteAddr ∧ wr.remoteAddr + wr.extent ≤ base + k + n

/-- **A client**, its queue to the server, how many of its requests the
device has carried out, and the blocks that its caller has. -/
structure Tenant where
  client : RDMAClient ReliableRDMA
  queue : SendQueue
  landed : ℕ
  exchange : MemoryExchange
  /-- A call has thrown since no answer came in time: the socket refuses
  every message from then on. -/
  gaveUp : Bool
  held : ℕ → Option ℕ

/-- How the clients know the server, and their configuration. -/
structure Target where
  connection : String
  nodeID : ℕ
  config : SendConfig

namespace Tenant

variable (target : Target) (t : Tenant)

/-- The object and the queue that the calls on the connection are about. -/
def link : BaseRDMA × SendQueue := (t.client.base, t.queue)

/-- The requests that the device has not carried out. -/
def outstanding : List SendWr := t.queue.wrs.drop t.landed

/-- The exchange goes on. -/
def withExchange (exchange : MemoryExchange) : Tenant := { t with exchange }

/-- A call, up to its message. A block that it gives back is no longer the
caller's. -/
def ask (call : MemoryCall) : Tenant :=
  match call with
  | .remoteAlloc _ => t.withExchange (.asked call none)
  | .remoteFree _ offset =>
      { t with
        exchange := .asked call ((t.held offset.toNat).map fun n => (offset.toNat, n))
        held := Function.update t.held offset.toNat none }

/-- What a call returns, of the answer to its message. -/
def result (call : MemoryCall) (response : Response) : Except Exn (Bool × UInt64) :=
  (call.run (fun _ => .ok response) target.connection t.client).1

/-- A call, from its answer on. -/
def finish : Tenant :=
  match t.exchange with
  | .answered call response =>
      match call, t.result target call response with
      | .remoteAlloc size, .ok (true, offset) =>
          { t with
            exchange := .idle
            held := Function.update t.held offset.toNat (some size.toNat) }
      | _, _ => t.withExchange .idle
  | _ => t

/-- A call on the connection. -/
def verb (e : ReadEvent) : Tenant :=
  { t with
    client := { t.client with
      api := { t.client.api with toBaseRDMA := (e.run target.config target.nodeID t.link).2.1 } }
    queue := (e.run target.config target.nodeID t.link).2.2 }

/-- The client has connected to the server, whose buffer starts at `base`. -/
structure Linked (base : ℕ) : Prop where
  socket : target.connection ∈ t.client.sockets
  ready : Ready target.nodeID t.client.base
  buffer : (t.client.base.rconnAt target.nodeID).buffer.toNat = base

/-- None of the requests that are not carried out is about the block. -/
def Settled (base k n : ℕ) : Prop :=
  ∀ wr ∈ t.outstanding, 0 < wr.extent → ¬ wr.InBlock base k n

end Tenant

/-- **The clients, the server and its memory**, with the blocks that the
server has allocated for itself. -/
structure Fabric (κ : Type) where
  server : RDMAServer ReliableRDMA
  tenants : κ → Tenant
  own : ℕ → Option ℕ
  mem : ℕ → UInt8

/-- What can happen next. -/
inductive FabricStep (κ : Type)
  | ask (c : κ) (call : MemoryCall)
  | serve (c : κ)
  | finish (c : κ)
  | giveUp (c : κ)
  /-- A call on the connection. One that waits for its completion goes on as
  a `pollSend`. -/
  | verb (c : κ) (e : ReadEvent)
  /-- The device carries out the next request of a queue, with what it has
  gathered from the memory of the client. -/
  | land (c : κ) (data : List UInt8)
  | localAlloc (size : ℕ)
  | localFree (offset : ℕ)
  /-- The server writes to its own memory. -/
  | localStore (start : ℕ) (data : List UInt8)

namespace Fabric

variable {κ : Type} [DecidableEq κ] (target : Target) (s : Fabric κ)

/-- The sub-allocator of the server. -/
def memory : BaseMemory := s.server.buffer

/-- The address of the buffer of the server. -/
def base : ℕ := s.memory.buffer

/-- One client goes on. -/
def setTenant (c : κ) (t : Tenant) : Fabric κ := { s with tenants := Function.update s.tenants c t }

/-- The server goes on. -/
def setMemory (buffer : BaseMemory) : Fabric κ := { s with server := { s.server with buffer } }

/-- The server takes the message of a client. -/
def serve (c : κ) : Fabric κ :=
  match (s.tenants c).exchange with
  | .asked call _ =>
      match RDMAServer.handle (.memoryResourceRequest call.request) s.server with
      | (.ok response, server) =>
          { s with server }.setTenant c ((s.tenants c).withExchange (.answered call response))
      | (.error _, server) => { s with server }
  | _ => s

/-- `localAlloc` of the server, without the address it makes of the offset. -/
def localAlloc (size : ℕ) : Fabric κ :=
  match BaseMemory.internalAlloc size s.memory with
  | (.ok memRes, buffer) =>
      if memRes.isnull then s.setMemory buffer
      else { s.setMemory buffer with own := Function.update s.own memRes.offset (some size) }
  | (.error _, buffer) => s.setMemory buffer

def exec : FabricStep κ → Fabric κ
  | .ask c call => s.setTenant c ((s.tenants c).ask call)
  | .serve c => s.serve c
  | .finish c => s.setTenant c ((s.tenants c).finish target)
  | .giveUp c => s.setTenant c { s.tenants c with gaveUp := true }
  | .verb c e => s.setTenant c ((s.tenants c).verb target e)
  | .land c data =>
      match (s.tenants c).queue.wrs[(s.tenants c).landed]? with
      | some wr =>
          { s with mem := wr.carryOut data s.mem }.setTenant c
            { s.tenants c with landed := (s.tenants c).landed + 1 }
      | none => s
  | .localAlloc size => s.localAlloc size
  | .localFree offset =>
      { s.setMemory (BaseMemory.free offset s.memory).2 with own := Function.update s.own offset none }
  | .localStore start data => { s with mem := splice s.mem (s.base + start) data }

/-- The step can happen. A completion comes after the device has carried
out its request. -/
def Enabled : FabricStep κ → Prop
  | .ask c _ => (s.tenants c).exchange = .idle ∧ (s.tenants c).gaveUp = false
  | .serve c => ∃ call block, (s.tenants c).exchange = .asked call block
  | .finish c => (∃ call response, (s.tenants c).exchange = .answered call response) ∧
      (s.tenants c).gaveUp = false
  | .giveUp c => (s.tenants c).exchange ≠ .idle ∧ (s.tenants c).gaveUp = false
  | .verb c e =>
      (e.run target.config target.nodeID (s.tenants c).link).2.2.done ≤ (s.tenants c).landed
  | .land c data => ∃ wr, (s.tenants c).queue.wrs[(s.tenants c).landed]? = some wr ∧
      data.length = wr.length.toNat
  | .localAlloc _ => True
  | .localFree _ => True
  | .localStore _ _ => True

/-- The clients have connected, and nobody has a block. -/
structure Start : Prop where
  fresh : BaseMemory.Fresh s.memory
  fits : s.base + s.memory.memSize ≤ 2 ^ 64
  linked : ∀ c, (s.tenants c).Linked target s.base
  drained : ∀ c, (s.tenants c).landed = (s.tenants c).queue.wrs.length
  idle : ∀ c, (s.tenants c).exchange = .idle
  held : ∀ c, (s.tenants c).held = fun _ => none
  own : s.own = fun _ => none

/-- **What callers owe**: blocks are not empty, those that are given back or
written to are their own, and no request on a block is under way when it is
given back. -/
def Proper : FabricStep κ → Prop
  | .ask _ (.remoteAlloc size) => 0 < size.toNat
  | .ask c (.remoteFree _ offset) => ∃ n, (s.tenants c).held offset.toNat = some n ∧
      (s.tenants c).Settled s.base offset.toNat n
  | .verb c e => ∀ offset size, e.remote = some (offset, size) →
      ∃ k n, (s.tenants c).held k = some n ∧ k ≤ offset ∧ offset + size ≤ k + n
  | .localAlloc size => 0 < size
  | .localFree offset => s.own offset ≠ none
  | .localStore start data => ∃ k n, s.own k = some n ∧ k ≤ start ∧ start + data.length ≤ k + n
  | _ => True

end Fabric

/-- **The runs of proper callers.** -/
def fabric (κ : Type) [DecidableEq κ] (target : Target) : System (Fabric κ) (FabricStep κ) where
  Init := Fabric.Start target
  Step s l s' := s.Enabled target l ∧ s.Proper l ∧ s' = s.exec target l

end RdmaManager
