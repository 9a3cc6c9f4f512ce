import RdmaManager.Rdma.SharedReceiveQueue
import RdmaManager.Verbs.Completion
/-!
# Polling for receives

`pollReceive` and the five overloads of `pollReceiveSRQ` run the same
loop and differ in what stands between the loop and the assignments to
the output parameters: that a completion was found, that the flag
`doPoll`, read once more, is still set, or nothing. The local `ibv_wc` is
not initialised, so a call is a function of what it reads as.
-/

namespace RdmaManager

/-- What the output parameters of a polling function refer to. -/
structure Outputs where
  retRdmaConnID : ℕ
  retMemoryIdx : ℕ
  imm : UInt32
  deriving DecidableEq, Repr

/-- **A call that has ended**: what it returned or threw, what its output
parameters refer to, and the successful completion it took from the
queue. -/
structure Ended (α : Type) where
  ret : Except Exn α
  out : Outputs
  took : Option Wc

namespace Ended

variable {α β : Type}

/-- Run `rest` after the loop. -/
def after (out : Outputs) (rest : LoopExit → Act Outputs α) : Except Exn LoopExit → Ended α
  | .error e => ⟨.error e, out, none⟩
  | .ok e => ⟨(rest e out).1, (rest e out).2, e.took⟩

/-- Apply a function to the value returned. -/
def map (f : α → β) (e : Ended α) : Ended β := ⟨e.ret.map f, e.out, e.took⟩

end Ended

/-- `m_qpNum2connID.at(wc.qp_num)`. -/
def BaseRDMA.connIDOf (o : BaseRDMA) (wc : Wc) : Act Outputs ℕ :=
  match o.qpNum2connID.lookup wc.qpNum.toNat with
  | some id => pure id
  | none => throw (.outOfRange "at")

namespace ReliableRDMA

variable (o : ReliableRDMA)

/-- What `pollReceive` does after the loop. Whether the pointer `imm` is
not null is an argument. -/
def returnImm (imm : Bool) (e : LoopExit) : Act Outputs ℤ := do
  if e.ne < 0 then throw (.runtimeError "RDMA polling from CQ failed!")
  if imm ∧ 0 < e.ne then Act.modify fun out => { out with imm := e.wc.immData }
  return e.ne

/-- `ReliableRDMA::pollReceive`. -/
def pollReceive (id : ℕ) (doPoll imm : Bool) (polls : List Polled) (wc : Wc) (out : Outputs) :
    Option (Ended ℤ) :=
  match o.qps[id]? with
  | none => some ⟨.error (.undefined "m_qps past its end"), out, none⟩
  | some _ =>
      (pollLoop (fun status => "RDMA completion event in CQ with error in pollReceive()! " ++
        toString status) (fun _ => doPoll) wc 0 polls).map <| Ended.after out <| returnImm imm

/-- The loop of the overloads of `pollReceiveSRQ`. `m_srqs.at` comes
before the first poll. -/
def pollSRQ (srqId : ℕ) (doPoll : ℕ → Bool) (polls : List Polled) (wc : Wc) :
    Option (Except Exn LoopExit) :=
  match o.srqs.lookup srqId with
  | none => some (.error (.outOfRange "at"))
  | some _ =>
      pollLoop (fun status => "RDMA completion event in CQ with error! " ++ toString status)
        doPoll wc 0 polls

/-- What the overload that returns nothing does after the loop. -/
def deliverOrThrow (doPoll : ℕ → Bool) (e : LoopExit) : Act Outputs Unit := do
  if doPoll e.reads then
    if e.ne < 0 then throw (.runtimeError "RDMA polling from CQ failed!")
    let id ← o.connIDOf e.wc
    Act.modify fun out => { out with retRdmaConnID := id }
  else if ¬ 0 < e.ne then
    throw (.runtimeError "pollReceiveSRQ failed!")

/-- `ReliableRDMA::pollReceiveSRQ(size_t, rdmaConnID &, bool &)`. -/
def pollReceiveSRQ (srqId : ℕ) (doPoll : ℕ → Bool) (polls : List Polled) (wc : Wc)
    (out : Outputs) : Option (Ended Unit) :=
  (o.pollSRQ srqId doPoll polls wc).map <| Ended.after out <| o.deliverOrThrow doPoll

/-- What three of the overloads do after the loop: if the flag is still
set they assign the connection id and `more`. -/
def deliverIfSet (doPoll : ℕ → Bool) (more : Wc → Outputs → Outputs) (e : LoopExit) :
    Act Outputs ℤ := do
  if doPoll e.reads then
    if e.ne < 0 then throw (.runtimeError "RDMA polling from CQ failed!")
    let id ← o.connIDOf e.wc
    Act.modify fun out => more e.wc { out with retRdmaConnID := id }
  return e.ne

/-- `ReliableRDMA::pollReceiveSRQ(size_t, rdmaConnID &, std::atomic<bool> &)`. -/
def pollReceiveSRQAtomic (srqId : ℕ) (doPoll : ℕ → Bool) (polls : List Polled) (wc : Wc)
    (out : Outputs) : Option (Ended ℤ) :=
  (o.pollSRQ srqId doPoll polls wc).map <| Ended.after out <| o.deliverIfSet doPoll fun _ out => out

/-- `ReliableRDMA::pollReceiveSRQ(size_t, rdmaConnID &, uint32_t *, std::atomic<bool> &)`. -/
def pollReceiveSRQImm (srqId : ℕ) (doPoll : ℕ → Bool) (polls : List Polled) (wc : Wc)
    (out : Outputs) : Option (Ended ℤ) :=
  (o.pollSRQ srqId doPoll polls wc).map <| Ended.after out <| o.deliverIfSet doPoll fun wc out =>
    { out with imm := wc.immData }

/-- What the overload with a memory index and without `imm` does after the
loop. -/
def deliverFound (e : LoopExit) : Act Outputs ℤ := do
  if e.ne < 0 then throw (.runtimeError "RDMA polling from CQ failed!")
  if 0 < e.ne then
    let id ← o.connIDOf e.wc
    Act.modify fun out => { out with retRdmaConnID := id, retMemoryIdx := e.wc.wrId }
  return e.ne

/-- `ReliableRDMA::pollReceiveSRQ(size_t, rdmaConnID &, size_t &, std::atomic<bool> &)`. -/
def pollReceiveSRQIndex (srqId : ℕ) (doPoll : ℕ → Bool) (polls : List Polled) (wc : Wc)
    (out : Outputs) : Option (Ended ℤ) :=
  (o.pollSRQ srqId doPoll polls wc).map <| Ended.after out o.deliverFound

/-- `ReliableRDMA::pollReceiveSRQ(size_t, rdmaConnID &, size_t &, uint32_t *, std::atomic<bool> &)`. -/
def pollReceiveSRQIndexImm (srqId : ℕ) (doPoll : ℕ → Bool) (polls : List Polled) (wc : Wc)
    (out : Outputs) : Option (Ended ℤ) :=
  (o.pollSRQ srqId doPoll polls wc).map <| Ended.after out <| o.deliverIfSet doPoll fun wc out =>
    { out with imm := wc.immData, retMemoryIdx := wc.wrId }

end ReliableRDMA

/-- What `UnreliableRDMA::pollReceive` does after the loop. -/
def UnreliableRDMA.returnImm (imm : Bool) (e : LoopExit) : Act Outputs ℤ := do
  if e.ne < 0 then throw (.runtimeError "RDMA polling from CQ failed!")
  if imm then Act.modify fun out => { out with imm := e.wc.immData }
  return e.ne

/-- `UnreliableRDMA::pollReceive`, of the one queue pair of the object. -/
def UnreliableRDMA.pollReceive (doPoll imm : Bool) (polls : List Polled) (wc : Wc)
    (out : Outputs) : Option (Ended ℤ) :=
  (pollLoop (fun status => "RDMA completion event in CQ with error! " ++ toString status)
    (fun _ => doPoll) wc 0 polls).map <| Ended.after out <| returnImm imm

/-! ## The seven functions -/

/-- The overloads of `pollReceiveSRQ`. -/
inductive SRQOverload
  | plain
  | atomic
  | imm
  | index
  | indexImm
  deriving DecidableEq, Repr

/-- The polling functions, with the arguments that say what they poll. -/
inductive PollFn
  | reliable (id : ℕ) (imm : Bool)
  | unreliable (imm : Bool)
  | srq (srqId : ℕ) (overload : SRQOverload)
  deriving DecidableEq, Repr

namespace PollFn

/-- Call a polling function. `pollReceive` takes the flag by value, and
the overload `plain` returns nothing. -/
def call (o : ReliableRDMA) (doPoll : ℕ → Bool) (polls : List Polled) (wc : Wc) (out : Outputs) :
    PollFn → Option (Ended (Option ℤ))
  | reliable id imm => (o.pollReceive id (doPoll 0) imm polls wc out).map (Ended.map some)
  | unreliable imm => (UnreliableRDMA.pollReceive (doPoll 0) imm polls wc out).map (Ended.map some)
  | srq k .plain => (o.pollReceiveSRQ k doPoll polls wc out).map (Ended.map fun _ => none)
  | srq k .atomic => (o.pollReceiveSRQAtomic k doPoll polls wc out).map (Ended.map some)
  | srq k .imm => (o.pollReceiveSRQImm k doPoll polls wc out).map (Ended.map some)
  | srq k .index => (o.pollReceiveSRQIndex k doPoll polls wc out).map (Ended.map some)
  | srq k .indexImm => (o.pollReceiveSRQIndexImm k doPoll polls wc out).map (Ended.map some)

/-- Whether the function has the output parameter `retRdmaConnID`. -/
def hasConnID : PollFn → Bool
  | srq _ _ => true
  | _ => false

/-- Whether the function has the output parameter `retMemoryIdx`. -/
def hasIndex : PollFn → Bool
  | srq _ .index | srq _ .indexImm => true
  | _ => false

/-- Whether the function has the output parameter `imm`. -/
def hasImm : PollFn → Bool
  | reliable _ imm | unreliable imm => imm
  | srq _ .imm | srq _ .indexImm => true
  | _ => false

end PollFn

/-- The output parameters are written from the completion that was taken,
each as it should be, and unchanged when none was. -/
def Ended.Delivers {α : Type} (o : ReliableRDMA) (fn : PollFn) (out : Outputs) (e : Ended α) : Prop :=
  match e.took with
  | none => e.out = out
  | some wc =>
      (fn.hasConnID → o.qpNum2connID.lookup wc.qpNum.toNat = some e.out.retRdmaConnID) ∧
        (fn.hasIndex → e.out.retMemoryIdx = wc.wrId) ∧ (fn.hasImm → e.out.imm = wc.immData)

/-- **The function delivers** on these polls and these values of the flag,
whatever the local variables and the parameters held before. -/
def PollFn.Delivers (o : ReliableRDMA) (doPoll : ℕ → Bool) (polls : List Polled) (fn : PollFn) :
    Prop :=
  ∀ wc out e, fn.call o doPoll polls wc out = some e → e.Delivers o fn out

/-- The queue pair of a completion has a connection id. -/
def ReliableRDMA.Known (o : ReliableRDMA) (qpNum : UInt32) : Prop :=
  (o.qpNum2connID.lookup qpNum.toNat).isSome

/-- **The condition under which a function delivers.** Of the overloads
that read the flag again: where a completion ends the loop it is still
set, and where an empty queue ends the loop it is still cleared. -/
def PollFn.Fits (o : ReliableRDMA) (doPoll : ℕ → Bool) (polls : List Polled) : PollFn → Prop
  | reliable _ _ => True
  | unreliable imm => imm = true → doPoll 0 = false → polls.head? ≠ some .empty
  | srq k .index => k ∈ o.srqs → ∀ i wc, LoopEnds doPoll polls i (.found wc) →
      wc.status = IBV_WC_SUCCESS → o.Known wc.qpNum
  | srq k _ => k ∈ o.srqs →
      (∀ i wc, LoopEnds doPoll polls i (.found wc) → wc.status = IBV_WC_SUCCESS →
        doPoll i = true ∧ o.Known wc.qpNum) ∧
      ∀ i, LoopEnds doPoll polls i .empty → doPoll (i + 1) = true → ∀ n, ¬ o.Known n

/-- The flag has the same value at the read after the loop as at the last
test of the loop, and is set where the loop did not test it. -/
def Steady (doPoll : ℕ → Bool) (polls : List Polled) : Prop :=
  ∀ i p, LoopEnds doPoll polls i p →
    (p = .empty → doPoll (i + 1) = false) ∧ (p ≠ .empty → doPoll i = true)

/-- Two calls took the same completion, and the output parameters that
both have refer to the same. -/
structure Ended.Agree {α : Type} (fn fn' : PollFn) (e e' : Ended α) : Prop where
  took : e.took = e'.took
  connID : fn.hasConnID → fn'.hasConnID → e.out.retRdmaConnID = e'.out.retRdmaConnID
  index : fn.hasIndex → fn'.hasIndex → e.out.retMemoryIdx = e'.out.retMemoryIdx
  imm : fn.hasImm → fn'.hasImm → e.out.imm = e'.out.imm

/-- **Two overloads differ only in which outputs they have**: both return
or neither does, they agree, and two that return a number return or throw
the same if the flag is steady. -/
structure SRQOverload.Agree (o : ReliableRDMA) (doPoll : ℕ → Bool) (polls : List Polled) (k : ℕ)
    (v v' : SRQOverload) : Prop where
  returns : ∀ wc wc' out out', ((PollFn.srq k v).call o doPoll polls wc out).isSome =
    ((PollFn.srq k v').call o doPoll polls wc' out').isSome
  agree : ∀ wc wc' out e e', (PollFn.srq k v).call o doPoll polls wc out = some e →
    (PollFn.srq k v').call o doPoll polls wc' out = some e' →
    Ended.Agree (.srq k v) (.srq k v') e e'
  ret : Steady doPoll polls → v ≠ .plain → v' ≠ .plain → ∀ wc wc' out e e',
    (PollFn.srq k v).call o doPoll polls wc out = some e →
    (PollFn.srq k v').call o doPoll polls wc' out = some e' → e.ret = e'.ret

end RdmaManager
