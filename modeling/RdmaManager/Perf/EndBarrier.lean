import Mathlib.Data.Finset.Prod
import Mathlib.Data.Finset.Union
import RdmaManager.Perf.Barrier
import RdmaManager.Perf.Credits
import RdmaManager.Perf.LatencyTests
/-!
# The barrier at the end

With several client processes the clients of `BandwidthPerfTest` and of
`OperationsCountPerfTest` end a measurement with `global_barrier_client`,
and a server with `global_barrier_server(server, thread_count, false)`,
which posts no receives: each of its threads has posted the one for its
own client, in `global_barrier_server_prepare`. Where a thread does so
depends on the operation. One that acknowledges messages does it before
the last acknowledgement, and one that has nothing else to do at once.

A measurement is run here from where the threads have begun until both
barriers are behind them, with a client's loop over its connections and
the messages of each. An acknowledgement that finds no receive breaks its
connection, as `rnr_retry` is zero: the server's `writeImm` throws, and its
thread never returns. A failed `send` of a client is tried again; the other
calls wait, or succeed.
-/

namespace RdmaManager

/-- The benchmarks that end with a barrier. -/
inductive PerfBenchmark
  | bandwidth
  | operationsCount
  deriving DecidableEq, Repr

/-- The operations that `runTest` measures. -/
inductive TestOperation
  | write
  | read
  | sendReceive
  deriving DecidableEq, Repr

/-- What the thread of a server does for an operation. -/
inductive ServerBody
  /-- It receives messages and acknowledges them. -/
  | acknowledges
  /-- It calls `global_barrier_server_prepare`. -/
  | prepares
  | nothing
  deriving DecidableEq, Repr

/-- **The `switch` of `BandwidthPerfServerThread::run`.** -/
def BandwidthPerfServerThread.run (testOperation : TestOperation) (m_write_mode : WriteMode)
    (client_count : ℕ) : ServerBody :=
  match testOperation with
  | .write =>
      if m_write_mode = .immediate then .acknowledges
      else if 1 < client_count then .prepares
      else .nothing
  | .read => if 1 < client_count then .prepares else .nothing
  | .sendReceive => .acknowledges

/-- **The `switch` of `OperationsCountPerfServerThread::run`.** -/
def OperationsCountPerfServerThread.run (testOperation : TestOperation) (m_write_mode : WriteMode)
    (client_count : ℕ) : ServerBody :=
  match testOperation with
  | .write => if m_write_mode = .immediate then .acknowledges else .nothing
  | .read => if 1 < client_count then .prepares else .nothing
  | .sendReceive => .acknowledges

/-- The client's threads wait for acknowledgements, in both benchmarks. -/
def PerfClientThread.acknowledged (testOperation : TestOperation) (m_write_mode : WriteMode) : Bool :=
  match testOperation with
  | .write => m_write_mode = .immediate
  | .read => false
  | .sendReceive => true

/-- **A measurement** with several client processes: the threads of all
clients, and for each the servers it is connected to. -/
structure EndTest where
  benchmark : PerfBenchmark
  testOperation : TestOperation
  write_mode : WriteMode
  client_count : ℕ
  loop : PerfConfig
  clients : Finset ℕ
  connectionIDs : ℕ → List ℕ
  several : 1 < client_count
  nodup : ∀ client, (connectionIDs client).Nodup
  absent : ∀ client ∉ clients, connectionIDs client = []
  /-- Some client is connected. -/
  inhabited : ∃ client server, server ∈ connectionIDs client

namespace EndTest

variable (t : EndTest)

/-- `m_write_mode`: the default of both benchmarks is `WRITE_MODE_NORMAL`. -/
def writeMode : WriteMode := if t.write_mode ≠ .auto then t.write_mode else .normal

def body : ServerBody :=
  match t.benchmark with
  | .bandwidth => BandwidthPerfServerThread.run t.testOperation t.writeMode t.client_count
  | .operationsCount => OperationsCountPerfServerThread.run t.testOperation t.writeMode t.client_count

def acknowledged : Bool := PerfClientThread.acknowledged t.testOperation t.writeMode

/-- The clients that are connected to a server. -/
def connected (server : ℕ) : Finset ℕ := t.clients.filter fun client => server ∈ t.connectionIDs client

def servers : Finset ℕ := t.clients.biUnion fun client => (t.connectionIDs client).toFinset

/-- The connections, by client and server. -/
def links : Finset (ℕ × ℕ) := (t.clients ×ˢ t.servers).filter fun p => p.2 ∈ t.connectionIDs p.1

end EndTest

/-! ## The state -/

/-- Where the thread of a client stands. -/
inductive ClientPhase
  /-- In its `i`th iteration, with the connections that are left in it. -/
  | operating (i : ℕ) (left : List ℕ)
  /-- In a round over the connections. -/
  | rounds (connIdx : ℕ)
  /-- In `global_barrier_client`. -/
  | barrier (stage : ClientBarrier)
  deriving DecidableEq, Repr

/-- The measured part of a connection. -/
inductive PerfData
  /-- One-sided, with a thread of the server that has returned or has not. -/
  | oneSided (returned : Bool)
  | looping (perf : Perf)
  /-- An acknowledgement has found no receive. -/
  | broken
  deriving DecidableEq, Repr

/-- A connection, and whether `global_barrier_server_prepare` was called
for it. -/
structure PerfConnection where
  data : PerfData
  prepared : Bool
  deriving DecidableEq, Repr

structure EndRun where
  clients : ℕ → BarrierParty ClientPhase
  servers : ℕ → BarrierParty ServerBarrier
  connections : ℕ × ℕ → PerfConnection

namespace PerfData

/-- The client has finished its part. -/
def clientDone : PerfData → Prop
  | .oneSided _ => True
  | .looping perf => perf.client.stage = .done
  | .broken => False

/-- The server's thread has returned. -/
def returned : PerfData → Prop
  | .oneSided returned => returned = true
  | .looping perf => perf.server.stage = .done
  | .broken => False

/-- The receives for messages that are posted. -/
def receives : PerfData → ℕ
  | .oneSided _ => 0
  | .looping perf => perf.wire.receives
  | .broken => 0

instance : ∀ data : PerfData, Decidable data.clientDone
  | .oneSided _ => inferInstanceAs (Decidable True)
  | .looping perf => inferInstanceAs (Decidable (perf.client.stage = .done))
  | .broken => inferInstanceAs (Decidable False)

instance : ∀ data : PerfData, Decidable data.returned
  | .oneSided returned => inferInstanceAs (Decidable (returned = true))
  | .looping perf => inferInstanceAs (Decidable (perf.server.stage = .done))
  | .broken => inferInstanceAs (Decidable False)

/-- The acknowledgement that arrives finds no receive. -/
def Breaks (perf : Perf) (e : PerfEvent) : Prop := e = .ackArrives ∧ perf.wire.ackReceives = 0

instance (perf : Perf) (e : PerfEvent) : Decidable (Breaks perf e) :=
  inferInstanceAs (Decidable (_ ∧ _))

/-- What a step of the loops leaves. -/
def next (c : PerfConfig) (perf : Perf) (e : PerfEvent) : PerfData :=
  if Breaks perf e then .broken else .looping (perf.exec c e)

end PerfData

/-- The last message has come (`lastMsg`). -/
def Perf.LastMsg (s : Perf) : Prop := s.server.totalBudget = 0 ∧ s.server.budgetR = 0

/-- The steps that the client takes. -/
def PerfEvent.byClient : PerfEvent → Bool
  | .begins | .posts | .sends | .completes | .takes | .leaves => true
  | _ => false

namespace ClientPhase

/-- The verb of the barrier that it calls next. -/
def call : ClientPhase → Option (ℕ × MailCall)
  | .barrier stage => stage.call
  | _ => none

def next (success : Bool) : ClientPhase → ClientPhase
  | .barrier stage => .barrier (stage.next success)
  | phase => phase

/-- After a step on the connection where a round stands. -/
def after (e : PerfEvent) : ClientPhase → ClientPhase
  | .rounds connIdx => if e = .leaves then .rounds (connIdx + 1) else .rounds connIdx
  | phase => phase

/-- The round stands at a connection. -/
def At (phase : ClientPhase) (connectionIDs : List ℕ) (server : ℕ) : Prop :=
  ∃ connIdx, phase = .rounds connIdx ∧ connectionIDs[connIdx]? = some server

end ClientPhase

/-! ## The steps -/

/-- What happens. -/
inductive EndEvent
  /-- A client goes on to another connection, or to its end barrier. -/
  | goesOn (client : ℕ)
  /-- A step of the loops over messages. -/
  | loops (client server : ℕ) (e : PerfEvent)
  /-- A thread that has received its last message prepares the barrier. -/
  | prepares (client server : ℕ)
  /-- A thread without a loop prepares the barrier, if it does, and returns. -/
  | returns (client server : ℕ)
  /-- A server has joined its threads and calls `global_barrier_server`. -/
  | serverBegins (server : ℕ) (clientIds : List ℕ)
  /-- The next step of a client's call of `global_barrier_client`. -/
  | client (client : ℕ)
  | server (server : ℕ)
  deriving DecidableEq, Repr

namespace EndRun

variable (t : EndTest) (w : EndRun)

/-- A server's ends of its connections, as a client's ping finds them: a
receive that is left over from the messages would serve it too. -/
def serverEnds (client server : ℕ) : Mailbox :=
  { (w.servers server).ends client with
    posted := ((w.servers server).ends client).posted +
      (w.connections (client, server)).data.receives }

/-- A client's ends, as a server finds them. -/
def clientEnds (server client : ℕ) : Mailbox := (w.clients client).ends server

/-- `workingConnections`: those that have not finished. -/
def workingConnections (client : ℕ) : ℕ :=
  (t.connectionIDs client).countP fun server => ¬ (w.connections (client, server)).data.clientDone

/-- After the measured part. -/
def endBarrier (client : ℕ) : ClientPhase :=
  if 1 < t.client_count then .barrier (.posting (t.connectionIDs client) (t.connectionIDs client))
  else .barrier .away

/-- The head of the client's loop, or of the one over the connections. -/
def goesOn (client : ℕ) : ClientPhase → ClientPhase
  | .operating i (_ :: left) => .operating i left
  | .operating i [] =>
      if i + 1 < t.loop.total then .operating (i + 1) (t.connectionIDs client)
      else endBarrier t client
  | .rounds connIdx =>
      if connIdx < (t.connectionIDs client).length then .rounds (connIdx + 1)
      else if 0 < w.workingConnections t client then .rounds 0
      else endBarrier t client
  | .barrier stage => .barrier stage

/-- What can happen. -/
def Enabled : EndEvent → Prop
  | .goesOn client =>
      -- it leaves a connection that has finished
      ∀ server, (w.clients client).stage.At (t.connectionIDs client) server →
        (w.connections (client, server)).data.clientDone
  | .loops client server e =>
      server ∈ t.connectionIDs client ∧ ∃ perf, (w.connections (client, server)).data = .looping perf ∧
        perf.Enabled t.loop e ∧
        (e.byClient = true → (w.clients client).stage.At (t.connectionIDs client) server) ∧
        (e = .acks → perf.LastMsg → 1 < t.client_count →
          (w.connections (client, server)).prepared = true)
  | .prepares client server =>
      server ∈ t.connectionIDs client ∧ ∃ perf, (w.connections (client, server)).data = .looping perf ∧
        perf.server.stage = .acking ∧ perf.LastMsg ∧ 1 < t.client_count ∧
        (w.connections (client, server)).prepared = false
  | .returns client server =>
      server ∈ t.connectionIDs client ∧ (w.connections (client, server)).data = .oneSided false
  | .serverBegins server clientIds =>
      (w.servers server).stage = .away ∧ clientIds.Nodup ∧
        (∀ client, client ∈ clientIds ↔ client ∈ t.connected server) ∧
        (∀ client ∈ clientIds, (w.connections (client, server)).data.returned) ∧ 1 < t.client_count
  | .client client =>
      Mailbox.Ready (w.clients client).ends (w.serverEnds client) (w.clients client).stage.call
  | .server server =>
      Mailbox.Ready (w.servers server).ends (w.clientEnds server) (w.servers server).stage.call

def setClient (client : ℕ) (k : BarrierParty ClientPhase) : EndRun :=
  { w with clients := Function.update w.clients client k }

def setServer (server : ℕ) (k : BarrierParty ServerBarrier) : EndRun :=
  { w with servers := Function.update w.servers server k }

def setConnection (link : ℕ × ℕ) (connection : PerfConnection) : EndRun :=
  { w with connections := Function.update w.connections link connection }

@[simp] theorem clients_setClient (client : ℕ) (k : BarrierParty ClientPhase) :
    (w.setClient client k).clients client = k := Function.update_self _ _ _

@[simp] theorem servers_setServer (server : ℕ) (k : BarrierParty ServerBarrier) :
    (w.setServer server k).servers server = k := Function.update_self _ _ _

@[simp] theorem setClient_setClient (client : ℕ) (k k' : BarrierParty ClientPhase) :
    (w.setClient client k).setClient client k' = w.setClient client k' := by
  unfold setClient
  simp only [Function.update_idem]

/-- A step of the loops. -/
def loops (client server : ℕ) (e : PerfEvent) : EndRun :=
  match (w.connections (client, server)).data with
  | .looping perf =>
      (w.setConnection (client, server) { w.connections (client, server) with
        data := .next t.loop perf e }).setClient client
        ⟨(w.clients client).stage.after e, (w.clients client).ends⟩
  | _ => w

/-- **`global_barrier_server_prepare`.** -/
def prepare (client server : ℕ) : EndRun :=
  (w.setServer server ⟨(w.servers server).stage,
    Mailbox.made (w.servers server).ends true (some (client, .receive))⟩).setConnection
    (client, server) { w.connections (client, server) with prepared := true }

/-- A thread without a loop. -/
def returns (client server : ℕ) : EndRun :=
  let w := if t.body = .prepares then w.prepare client server else w
  w.setConnection (client, server) { w.connections (client, server) with data := .oneSided true }

/-- The next step of `global_barrier_client`. -/
def clientSteps (client : ℕ) : BarrierParty ClientPhase :=
  let call := (w.clients client).stage.call
  let success := Mailbox.succeeds (w.clients client).ends (w.serverEnds client) call
  ⟨(w.clients client).stage.next success, Mailbox.made (w.clients client).ends success call⟩

/-- The next step of `global_barrier_server`. Nothing is expected without
`prepare`. -/
def serverSteps (server : ℕ) : BarrierParty ServerBarrier :=
  let call := (w.servers server).stage.call
  let success := Mailbox.succeeds (w.servers server).ends (w.clientEnds server) call
  ⟨(w.servers server).stage.next 0 success, Mailbox.made (w.servers server).ends success call⟩

/-- The state after an event. -/
def exec : EndEvent → EndRun
  | .goesOn client =>
      w.setClient client ⟨w.goesOn t client (w.clients client).stage, (w.clients client).ends⟩
  | .loops client server e => w.loops t client server e
  | .prepares client server => w.prepare client server
  | .returns client server => w.returns t client server
  | .serverBegins server clientIds =>
      w.setServer server ⟨.polling clientIds clientIds, (w.servers server).ends⟩
  | .client client => w.setClient client (w.clientSteps client)
  | .server server => w.setServer server (w.serverSteps server)

/-- The threads have begun. -/
def start : EndRun where
  clients client :=
    .fresh (if t.acknowledged then .rounds 0 else .operating 0 (t.connectionIDs client))
  servers _ := .fresh .away
  connections _ :=
    ⟨if t.body = .acknowledges then .looping (Perf.start t.loop) else .oneSided false, false⟩

/-- **The runs** of a measurement. -/
def runs : System EndRun EndEvent where
  Init w := w = start t
  Step w e w' := w.Enabled t e ∧ w' = w.exec t e

/-! ## The barriers -/

/-- **The end barrier is prepared**: every ping that was sent found a receive
that was posted for it, and so will the next one of every client; there is one
for every client that is connected by the time the server polls, and it polls
each of them once. -/
structure Prepared : Prop where
  finds : ∀ client server, (w.clients client).stage.call = some (server, .send) →
    ((w.clients client).ends server).sent < ((w.servers server).ends client).posted
  pings : ∀ client server,
    ((w.clients client).ends server).sent ≤ ((w.servers server).ends client).posted
  posted : ∀ server, (w.servers server).stage ≠ .away → ∀ client ∈ t.connected server,
    ((w.servers server).ends client).posted = 1
  polled : ∀ server clientIds left,
    (w.servers server).stage = .sending clientIds left ∨
      (w.servers server).stage = .returned clientIds →
    ∀ client, ((w.servers server).ends client).polled = if client ∈ t.connected server then 1 else 0

/-- **Both barriers are complete.** -/
def Complete : Prop :=
  (∀ client ∈ t.clients, (w.clients client).stage = .barrier (.returned (t.connectionIDs client))) ∧
    ∀ server ∈ t.servers, ∃ clientIds, (w.servers server).stage = .returned clientIds

end EndRun

namespace EndTest

end EndTest

end RdmaManager
