import RdmaManager.Rdma.Reliable
import RdmaManager.Rdma.Unreliable
import RdmaManager.Verbs.SendQueue
/-!
# Posting work requests

Every operation that sends counts its request (`checkSignaled`), posts it
and, if it is signaled, polls the send completion queue until one
completion is there. A call is a function of the object, of its send queue
and of what the verbs do in it; one whose polls are used up is `waiting`.
-/

namespace RdmaManager

/-- How a call ends, or that it has not ended. -/
inductive Outcome
  | returned
  | threw (e : Exn)
  | waiting
  deriving DecidableEq, Repr

/-- The configuration, the `lkey` of the buffer, and `std::strerror`. -/
structure SendConfig where
  /-- `Config::RDMA_MAX_WR`. -/
  maxWr : UInt32
  lkey : UInt32
  strerror : ℕ → String

/-- `Config::MAX_RC_INLINE_SEND`. -/
def MAX_RC_INLINE_SEND : ℕ := 220

/-- `Config::MAX_UD_INLINE_SEND`. -/
def MAX_UD_INLINE_SEND : ℕ := 188

/-- **What the verbs do in a call**: what `ibv_post_send` returns, the
polls, and the value of `errno` when one of them finds an error. -/
structure Verbs where
  errno : ℕ
  polls : List SendPoll
  pollErrno : ℕ := 0

/-- The texts of the errors of an operation. -/
structure SendTexts where
  post : ℕ → String
  poll : ℕ → String
  failed : String := "RDMA polling from CQ failed!"

variable {σ : Type}

/-- What `checkSignaled` and `checkSignaledMCast` do with the counter `i`
of a vector: the flag they leave. -/
def checkCount (what : String) (maxWr : UInt32) (i : ℕ) (signaled : Bool) : Act (List ℕ) Bool := do
  let v ← Act.get
  let n ← Act.element what v i
  if signaled then
    Act.modify fun v => v.set i 0
    return true
  else if wrap64 (n + 1) = maxWr.toNat then
    Act.modify fun v => v.set i 0
    return true
  else
    Act.modify fun v => v.set i (wrap64 (n + 1))
    return false

/-- `BaseRDMA::checkSignaled`. -/
def BaseRDMA.checkSignaled (maxWr : UInt32) (id : ℕ) (signaled : Bool) : Act BaseRDMA Bool :=
  Act.zoom BaseRDMA.countWR (fun s countWR => { s with countWR })
    (checkCount "m_countWR past its end" maxWr id signaled)

/-- The loop after a signaled request, and what follows it. -/
def await (texts : SendTexts) (polls : List SendPoll) (q : SendQueue) : Outcome × SendQueue :=
  match sendLoop true polls q with
  | (some (.found wc), q) =>
      if wc.status ≠ IBV_WC_SUCCESS then (.threw (.runtimeError (texts.poll wc.status)), q)
      else (.returned, q)
  | (some (.failed _), q) => (.threw (.runtimeError texts.failed), q)
  | (_, q) => (.waiting, q)

/-- Post a request, and wait for a completion if the request is signaled
and `wait` says so. -/
def postAndAwait (texts : SendTexts) (wait : Bool) (wr : SendWr) (v : Verbs) (q : SendQueue) :
    Outcome × SendQueue :=
  if v.errno ≠ 0 then (.threw (.runtimeError (texts.post v.errno)), q)
  else if wr.signaled = true ∧ wait = true then await texts v.polls (q.post wr)
  else (.returned, q.post wr)

/-- **The body of the operations that send**: count, make the request, post
it. -/
def posting (check : Act σ Bool) (request : Bool → σ → Except Exn SendWr) (texts : SendTexts)
    (wait : Bool) (v : Verbs) (p : σ × SendQueue) : Outcome × (σ × SendQueue) :=
  match check p.1 with
  | (.error e, s) => (.threw e, (s, p.2))
  | (.ok signaled, s) =>
      match request signaled s with
      | .error e => (.threw e, (s, p.2))
      | .ok wr => ((postAndAwait texts wait wr v p.2).1, (s, (postAndAwait texts wait wr v p.2).2))

namespace ReliableRDMA

open BaseRDMA

/-- A request on the queue pair of `id` that names remote memory. -/
def remoteRequest (id : ℕ) (wr : IbConn → SendWr) (s : BaseRDMA) : Except Exn SendWr :=
  if (s.qpAt id).qp = none ∨ s.rconns.length ≤ id then .error (.undefined "m_qps or m_rconns")
  else .ok (wr (s.rconnAt id))

/-- A request on the queue pair of `id`. -/
def localRequest (id : ℕ) (wr : SendWr) (s : BaseRDMA) : Except Exn SendWr :=
  if (s.qpAt id).qp = none then .error (.undefined "m_qps") else .ok wr

variable (c : SendConfig) (id offset memAddr size : ℕ) (signaled : Bool) (v : Verbs)

/-- `ReliableRDMA::remoteAccess`. -/
def remoteAccess (wait : Bool) (verb : Opcode) (imm : Option UInt32) :
    BaseRDMA × SendQueue → Outcome × (BaseRDMA × SendQueue) :=
  posting (checkSignaled c.maxWr id signaled)
    (fun signaled => remoteRequest id fun remoteConn =>
      { opcode := verb
        signaled
        addr := memAddr
        length := size.toUInt32
        lkey := c.lkey
        inlined := decide (size < MAX_RC_INLINE_SEND ∧ verb = .rdmaWrite)
        immData := imm.getD 0
        remoteAddr := wrap64 (remoteConn.buffer.toNat + offset)
        rkey := remoteConn.rkey })
    { post := fun errno => "RDMA OP not successful! error: " ++ toString errno
      poll := fun status =>
        "RDMA completion event in CQ with error in remoteAccess()! " ++ toString status }
    wait v

/-- `ReliableRDMA::write`. -/
def write := remoteAccess c id offset memAddr size signaled v true .rdmaWrite none

/-- `ReliableRDMA::writeImm`. -/
def writeImm (imm : UInt32) :=
  remoteAccess c id offset memAddr size signaled v true .rdmaWriteWithImm (some imm)

/-- `ReliableRDMA::read`. -/
def read := remoteAccess c id offset memAddr size signaled v true .rdmaRead none

/-- `ReliableRDMA::requestRead`. -/
def requestRead := remoteAccess c id offset memAddr size true v false .rdmaRead none

/-- The request of an atomic operation. -/
def atomicRequest (opcode : Opcode) (compareAdd swap : ℕ) (signaled : Bool) :
    BaseRDMA → Except Exn SendWr :=
  remoteRequest id fun remoteConn =>
    { opcode
      signaled
      addr := memAddr
      length := size.toUInt32
      lkey := c.lkey
      remoteAddr := wrap64 (remoteConn.buffer.toNat + offset)
      rkey := remoteConn.rkey
      compareAdd
      swap }

/-- `ReliableRDMA::fetchAndAdd(rdmaConnID, size_t, const void *, size_t, bool)`. -/
def fetchAndAdd : BaseRDMA × SendQueue → Outcome × (BaseRDMA × SendQueue) :=
  posting (checkSignaled c.maxWr id signaled)
    (atomicRequest c id offset memAddr size .fetchAndAdd 1 0)
    { post := fun _ => "RDMA OP not successful! "
      poll := fun status => "RDMA completion event in CQ with error!" ++ toString status }
    true v

/-- `ReliableRDMA::fetchAndAdd(rdmaConnID, size_t, const void *, size_t, size_t, bool)`. -/
def fetchAndAddValue (valueToAdd : ℕ) : BaseRDMA × SendQueue → Outcome × (BaseRDMA × SendQueue) :=
  posting (checkSignaled c.maxWr id signaled)
    (atomicRequest c id offset memAddr size .fetchAndAdd (wrap64 valueToAdd) 0)
    { post := fun errno => "RDMA OP not successful! errno: " ++ c.strerror errno
      poll := fun status => "RDMA completion event in CQ with error! " ++ toString status ++
        " errno: " ++ c.strerror v.pollErrno }
    true v

/-- `(uint64_t)n` of an `int`. -/
def uint64OfInt (n : ℤ) : ℕ := (n % 2 ^ 64).toNat

/-- `ReliableRDMA::compareAndSwap`. -/
def compareAndSwap (toCompare toSwap : ℤ) : BaseRDMA × SendQueue → Outcome × (BaseRDMA × SendQueue) :=
  posting (checkSignaled c.maxWr id signaled)
    (atomicRequest c id offset memAddr size .cmpAndSwp (uint64OfInt toCompare) (uint64OfInt toSwap))
    { post := fun errno => "RDMA OP not successful! Error nr: " ++ c.strerror errno
      poll := fun _ => "RDMA completion event in CQ with error! Error nr: " ++
        c.strerror v.pollErrno }
    true v

/-- `ReliableRDMA::sendImpl`. -/
def sendImpl (imm : Option UInt32) : BaseRDMA × SendQueue → Outcome × (BaseRDMA × SendQueue) :=
  posting (checkSignaled c.maxWr id signaled)
    (fun signaled => localRequest id
      { opcode := if imm = none then .send else .sendWithImm
        signaled
        addr := memAddr
        length := size.toUInt32
        lkey := c.lkey
        immData := imm.getD 0 })
    { post := fun _ => "SEND not successful! "
      poll := fun status => "RDMA completion event in CQ with error! " ++ toString status ++
        " errno: " ++ c.strerror v.pollErrno }
    true v

/-- `ReliableRDMA::send`. -/
def send := sendImpl c id memAddr size signaled v none

/-- `ReliableRDMA::sendImm`. -/
def sendImm (imm : UInt32) := sendImpl c id memAddr size signaled v (some imm)

/-- `ReliableRDMA::pollSend`, with what `*imm` holds. -/
def pollSend (doPoll imm : Bool) (polls : List SendPoll) (out : UInt32)
    (p : BaseRDMA × SendQueue) : Outcome × UInt32 × (BaseRDMA × SendQueue) :=
  if (p.1.qpAt id).qp = none then (.threw (.undefined "m_qps"), out, p)
  else
    match sendLoop doPoll polls p.2 with
    | (none, q) => (.waiting, out, (p.1, q))
    | (some (.found wc), q) =>
        if wc.status ≠ IBV_WC_SUCCESS then
          (.threw (.runtimeError ("RDMA completion event in CQ with error! " ++ toString wc.status)),
            out, (p.1, q))
        else (.returned, if imm then wc.immData else out, (p.1, q))
    | (some .empty, q) => (.threw (.runtimeError "pollSend failed!"), out, (p.1, q))
    | (some (.failed _), q) =>
        if doPoll then (.threw (.runtimeError "RDMA polling from CQ failed!"), out, (p.1, q))
        else (.threw (.runtimeError "pollSend failed!"), out, (p.1, q))

end ReliableRDMA

/-- `UnreliableRDMA::send`: every connection is sent to through the one
queue pair, and counted under the id `0`. -/
def UnreliableRDMA.send (c : SendConfig) (id memAddr size : ℕ) (signaled : Bool) (v : Verbs) :
    UnreliableRDMA × SendQueue → Outcome × (UnreliableRDMA × SendQueue) :=
  posting (onBase (BaseRDMA.checkSignaled c.maxWr 0 signaled))
    (fun signaled u =>
      if u.udqp.qp = none ∨ u.rconns.length ≤ id then .error (.undefined "m_udqp or m_rconns")
      else .ok
        { opcode := .send
          signaled
          addr := memAddr
          length := size.toUInt32
          lkey := c.lkey
          ah := (u.rconnAt id).ah
          remoteQpn := (u.rconnAt id).qpNum.toUInt32
          remoteQkey := 0x11111111 })
    { post := fun errno => "SEND not successful! errno: " ++ c.strerror errno
      poll := fun status => "RDMA completion event in CQ with error! " ++ toString status ++
        " errno: " ++ c.strerror v.pollErrno }
    true v

/-- `rdma_mcast_conn_t`: the number of its queue pair, the `lkey` of its
memory region, and where it sends to. -/
structure MCastConn where
  qpNum : UInt32
  lkey : UInt32
  ah : Option ℕ
  remoteQpn : UInt32
  remoteQkey : UInt32
  deriving DecidableEq, Repr

/-- The fields of `UnreliableRDMA` for multicast. -/
structure MulticastRDMA extends UnreliableRDMA where
  udpMcastConns : List MCastConn
  sendMCastCount : List ℕ

namespace MulticastRDMA

/-- `UnreliableRDMA::checkSignaledMCast`. -/
def checkSignaledMCast (maxWr : UInt32) (id : ℕ) (signaled : Bool) : Act MulticastRDMA Bool :=
  Act.zoom MulticastRDMA.sendMCastCount (fun m sendMCastCount => { m with sendMCastCount })
    (checkCount "m_sendMCastCount past its end" maxWr id signaled)

/-- `htonl`, on a machine with the low byte first. -/
def htonl (x : UInt32) : UInt32 :=
  let mask : UInt32 := 0xff00
  x <<< 24 ||| (x &&& mask) <<< 8 ||| x >>> 8 &&& mask ||| x >>> 24

/-- `UnreliableRDMA::sendMCast`. A signaled request is never inlined. -/
def sendMCast (c : SendConfig) (id memAddr size : ℕ) (signaled : Bool) (v : Verbs) :
    MulticastRDMA × SendQueue → Outcome × (MulticastRDMA × SendQueue) :=
  posting (checkSignaledMCast c.maxWr id signaled)
    (fun signaled m =>
      match m.udpMcastConns[id]? with
      | none => .error (.undefined "m_udpMcastConns past its end")
      | some conn => .ok
          { opcode := .sendWithImm
            signaled
            addr := memAddr
            length := size.toUInt32
            lkey := conn.lkey
            inlined := !signaled && decide (size < MAX_UD_INLINE_SEND)
            immData := htonl conn.qpNum
            ah := conn.ah
            remoteQpn := conn.remoteQpn
            remoteQkey := conn.remoteQkey })
    { post := fun ret => "Sending multicast data failed (error: " ++ toString ret ++ ")"
      poll := fun status =>
        "RDMA completion event in multicast CQ with error! " ++ toString status
      failed := "RDMA polling from multicast CQ failed!" }
    true v

end MulticastRDMA

end RdmaManager
