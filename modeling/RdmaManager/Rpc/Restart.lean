import RdmaManager.Common.Worker
import RdmaManager.Proto.ProtoServer
import RdmaManager.Rpc.VoidHandler
/-!
# Servers and handlers that are started again

`ProtoServer` and `RPCVoidHandlerThread` are threads with a kill flag,
`Thread::m_kill`: `Thread::stop` sets it, and neither `Thread::start` nor
what calls it clears it. So either of them can be stopped once. The next
`startServer` or `startHandler` finds the flag set and returns `false`,
and the thread it has launched leaves its loop at the first test
(`restart_refused`).
-/

namespace RdmaManager

/-! ## `ProtoServer` -/

/-- What a `ProtoServer` handles messages with, and the socket it has: it
is bound where `run` begins, and `bind` does not fail. -/
structure ServedSocket (σ : Type) where
  server : σ
  isOpen : Bool
  /-- The context of the socket has been closed. -/
  terminated : Bool

namespace ProtoServer

variable {σ : Type}

/-- A pass of the loop of `run` on a message, or on none because the
context was closed while it waited: then `receive` closes the socket. -/
def runPass (parse : List UInt8 → Option Request) (handle : Request → Act σ Response)
    (message : Option (List UInt8)) (b : ServedSocket σ) : Piece Unit × ServedSocket σ :=
  match message with
  | none => (.leave, { b with isOpen := false })
  | some message =>
      match pass parse handle message (started b.server) with
      | (.ok true, s) => (.again, { b with server := s.server })
      | (.ok false, s) => (.leave, { b with server := s.server })
      | (.error _, s) => (.throw, { b with server := s.server })

/-- `startServer`, `stopServer` and `run`. `m_running` is what they test and
set, and closing the context waits for its socket to be closed. -/
def thread (parse : List UInt8 → Option Request) (handle : Request → Act σ Response) :
    Worker (ServedSocket σ) Unit (Option (List UInt8)) where
  launch b := { b with isOpen := true, terminated := false }
  entry := ()
  piece message _ b := runPass parse handle message b
  Can message _ b := message = none → b.terminated = true
  interrupt b := { b with terminated := true }
  Joinable b := b.isOpen = false
  joined b := b
  World b b' := b'.isOpen = b.isOpen ∧ b'.terminated = b.terminated

end ProtoServer

/-! ## `RPCVoidHandlerThread` -/

/-- The server and the queue that a handler polls, and `m_poll`. -/
structure PolledQueue where
  server : ReliableRDMA
  queue : ReceiveQueue
  poll : Bool

/-- What a pass of `RPCVoidHandlerThread::run` goes on with. -/
inductive HandlerInput
  /-- A poll of `pollReceiveSRQ`. -/
  | poll (wc : Wc) (out : Outputs)
  /-- `handleRDMARPCVoid` returns, and the slot is posted again. -/
  | handled
  /-- It throws. -/
  | threw

namespace PolledQueue

/-- The thread in its loop. -/
def inLoop (b : PolledQueue) (stage : HandlerStage) : Handler :=
  ⟨b.server, b.queue, stage, false, b.poll, true⟩

/-- Where a piece of its pass has left it. -/
def ofHandler (s : Handler) : Piece HandlerStage × PolledQueue :=
  (match s.stage with
    | .testing => .again
    | .threw _ => .throw
    | stage => .on stage,
    ⟨s.server, s.queue, s.poll⟩)

end PolledQueue

namespace RPCVoidHandlerThread

/-- `startHandler`, `stopHandler` and `run`. `m_processing` is what they test
and set, and `m_poll` is off while `stopHandler` joins the thread. -/
def thread (t : RPCVoidHandlerThread) : Worker PolledQueue HandlerStage HandlerInput where
  launch b := b
  entry := .polling
  piece input stage b :=
    match input with
    | .poll wc out => PolledQueue.ofHandler (t.exec (b.inLoop stage) (.poll wc out))
    | .handled => PolledQueue.ofHandler (t.exec (b.inLoop stage) .repost)
    | .threw => (.throw, b)
  Can input stage _ :=
    match input with
    | .poll _ _ => stage = .polling
    | .handled | .threw => stage.held ≠ []
  interrupt b := { b with poll := false }
  Joinable _ := True
  joined b := { b with poll := true }
  World b b' := b'.poll = b.poll

end RPCVoidHandlerThread

/-! ## Both -/

variable {σ : Type} {parse : List UInt8 → Option Request} {handle : Request → Act σ Response}
variable {t : RPCVoidHandlerThread}

/-- **A server and a handler that are started serve**, up to the first stop
that finds them running, as long as every pass of their loops comes back
to the test of the flag; and the first start after that stop does not. -/
theorem started_serves_iff {s : WorkerState (ServedSocket σ) Unit}
    {h : WorkerState PolledQueue HandlerStage}
    (hs : ((ProtoServer.thread parse handle).runs.restrict
      (ProtoServer.thread parse handle).Spared).Reachable s)
    (hh : (t.thread.runs.restrict t.thread.Spared).Reachable h) :
    (Worker.Serves s ∧ ∀ e s', (ProtoServer.thread parse handle).runs.Step s e s' →
        (Worker.Serves s' ↔ (ProtoServer.thread parse handle).Spared s e)) ∧
      (Worker.Serves h ∧ ∀ e h', t.thread.runs.Step h e h' →
        (Worker.Serves h' ↔ t.thread.Spared h e)) :=
  ⟨Worker.serves_iff hs, Worker.serves_iff hh⟩

/-- A server without clients, and its queue. -/
def quietQueue : PolledQueue where
  server := ReliableRDMA.fresh
    (ReliableRDMA.blank (Device.opened (fun _ => 0) fun h => h.toUInt32) 4096 7 1 IbConn.zero)
  queue := ⟨16, [], []⟩
  poll := true

/-- A handler of sixteen messages of 64 bytes. -/
def quietHandler : RPCVoidHandlerThread := ⟨0, 64, 16, 8192, 7, fun _ => ""⟩

/-- A server that understands nothing. -/
def deafServer : Worker (ServedSocket Unit) Unit (Option (List UInt8)) :=
  ProtoServer.thread (fun _ => none) fun _ => return .empty

/-- A server that counts its messages. -/
def countingServer : Worker (ServedSocket ℕ) Unit (Option (List UInt8)) :=
  ProtoServer.thread (fun _ => some (.memoryResourceRequest ⟨64, 0, 0⟩)) fun _ => do
    Act.modify fun n => n + 1
    return .empty

/-- The server is started, and handles two messages. -/
def twoMessages : List (WorkerEvent (ServedSocket ℕ) (Option (List UInt8))) :=
  [.start, .begun 0, .await, .test 0, .piece 0 (some []), .test 0, .piece 0 (some []), .test 0]

/-- The handler of two slots, both of them posted. -/
def postedQueue : PolledQueue :=
  let s := [.post, .post, .post].foldl RPCVoidHandlerThread.twoSlots.exec
    RPCVoidHandlerThread.constructed
  ⟨s.server, s.queue, true⟩

/-- A message has taken one of them. -/
def arrivedQueue : PolledQueue :=
  { postedQueue with queue := postedQueue.queue.arrive ⟨1, 4160, 64, 1⟩ 7 5 0 }

/-- The handler is started and polls, and handles a message when it has come. -/
def oneMessage : List (WorkerEvent PolledQueue HandlerInput) :=
  [.start, .begun 0, .await, .test 0, .piece 0 (.poll ⟨0, 0, 0, 0⟩ ⟨0, 0, 0⟩), .world arrivedQueue,
    .piece 0 (.poll ⟨0, 0, 0, 0⟩ ⟨0, 0, 0⟩), .piece 0 .handled, .test 0]

theorem started_serves_once :
    let s := twoMessages.foldl countingServer.exec (.unused ⟨0, false, false⟩)
    let h := oneMessage.foldl RPCVoidHandlerThread.twoSlots.thread.exec (.unused postedQueue)
    Worker.Serves s ∧ s.object.server = 2 ∧ Worker.Serves h ∧ h.object.queue.posted.length = 2 := by
  have hs : (countingServer.runs.restrict countingServer.Spared).Reachable
      (twoMessages.foldl countingServer.exec (.unused ⟨0, false, false⟩)) := by
    refine System.Reachable.along (System.Reachable.init (Worker.init_unused countingServer _)) ?_
    exact ⟨⟨rfl, rfl, rfl, rfl⟩, ⟨trivial, rfl, rfl, rfl⟩, ⟨trivial, rfl, rfl, rfl⟩,
      ⟨trivial, rfl, rfl, rfl⟩, ⟨Or.inr fun _ _ => rfl, rfl, ⟨(), rfl, nofun⟩, rfl⟩,
      ⟨trivial, rfl, rfl, rfl⟩, ⟨Or.inr fun _ _ => rfl, rfl, ⟨(), rfl, nofun⟩, rfl⟩,
      ⟨trivial, rfl, rfl, rfl⟩, trivial⟩
  have hh : (RPCVoidHandlerThread.twoSlots.thread.runs.restrict
      RPCVoidHandlerThread.twoSlots.thread.Spared).Reachable
      (oneMessage.foldl RPCVoidHandlerThread.twoSlots.thread.exec (.unused postedQueue)) := by
    refine System.Reachable.along
      (System.Reachable.init (Worker.init_unused RPCVoidHandlerThread.twoSlots.thread _)) ?_
    refine ⟨⟨rfl, rfl, rfl, rfl⟩, ⟨trivial, rfl, rfl, rfl⟩, ⟨trivial, rfl, rfl, rfl⟩,
      ⟨trivial, rfl, rfl, rfl⟩, ⟨Or.inr fun l hat => ?_, rfl, ⟨_, rfl, rfl⟩, rfl⟩,
      ⟨trivial, rfl, rfl, rfl⟩, ⟨Or.inr fun l hat => ?_, rfl, ⟨_, rfl, rfl⟩, rfl⟩,
      ⟨Or.inr fun l hat => ?_, rfl, ⟨_, rfl, show HandlerStage.held _ ≠ [] by decide +kernel⟩, rfl⟩,
      ⟨trivial, rfl, rfl, rfl⟩, trivial⟩
    all_goals
      obtain rfl := ThreadStage.within.inj (Option.some.inj hat)
      decide +kernel
  have hboth := started_serves_iff hs hh
  exact ⟨hboth.1.1, rfl, hboth.2.1, by decide +kernel⟩

/-- A server is started, is stopped while it waits for a message, and is
started again. -/
def serverRestart : List (WorkerEvent (ServedSocket Unit) (Option (List UInt8))) :=
  [.start, .begun 0, .await, .test 0, .stop, .interrupt, .piece 0 none, .leave 0, .join,
    .start, .await, .check, .begun 1, .test 1]

/-- And a handler, that is stopped before it polls. -/
def handlerRestart : List (WorkerEvent PolledQueue HandlerInput) :=
  [.start, .begun 0, .await, .stop, .interrupt, .test 0, .leave 0, .join,
    .start, .await, .check, .begun 1, .test 1]

/-- **The second start call returns `false`**, and the thread it has
launched leaves its loop without a pass. -/
theorem restart_refused :
    let s := serverRestart.foldl deafServer.exec (.unused ⟨(), false, false⟩)
    let h := handlerRestart.foldl quietHandler.thread.exec (.unused quietQueue)
    deafServer.runs.Reachable s ∧ s.control = .started false ∧ s.kill = true ∧
      s.threads[1]? = some .leaving ∧ ¬ Worker.Serves s ∧
      quietHandler.thread.runs.Reachable h ∧ h.control = .started false ∧ h.kill = true ∧
      h.threads[1]? = some .leaving ∧ ¬ Worker.Serves h := by
  refine ⟨?_, rfl, rfl, rfl, fun hserves => ?_, ?_, rfl, rfl, rfl, fun hserves => ?_⟩
  · refine (System.Reachable.init (Worker.init_unused _ _)).along ?_
    exact ⟨⟨rfl, rfl, rfl⟩, ⟨rfl, rfl, rfl⟩, ⟨rfl, rfl, rfl⟩, ⟨rfl, rfl, rfl⟩, ⟨rfl, rfl, rfl⟩,
      ⟨rfl, rfl, rfl⟩, ⟨rfl, ⟨(), rfl, fun _ => rfl⟩, rfl⟩, ⟨rfl, rfl, rfl⟩, ⟨rfl, ⟨rfl, rfl, rfl⟩, rfl⟩,
      ⟨rfl, rfl, rfl⟩, ⟨rfl, rfl, rfl⟩, ⟨rfl, rfl, rfl⟩, ⟨rfl, rfl, rfl⟩, ⟨rfl, rfl, rfl⟩, trivial⟩
  · exact Bool.false_ne_true hserves.1
  · refine (System.Reachable.init (Worker.init_unused _ _)).along ?_
    exact ⟨⟨rfl, rfl, rfl⟩, ⟨rfl, rfl, rfl⟩, ⟨rfl, rfl, rfl⟩, ⟨rfl, rfl, rfl⟩, ⟨rfl, rfl, rfl⟩,
      ⟨rfl, rfl, rfl⟩, ⟨rfl, rfl, rfl⟩, ⟨rfl, ⟨rfl, rfl, trivial⟩, rfl⟩,
      ⟨rfl, rfl, rfl⟩, ⟨rfl, rfl, rfl⟩, ⟨rfl, rfl, rfl⟩, ⟨rfl, rfl, rfl⟩, ⟨rfl, rfl, rfl⟩, trivial⟩
  · exact Bool.false_ne_true hserves.1

end RdmaManager
