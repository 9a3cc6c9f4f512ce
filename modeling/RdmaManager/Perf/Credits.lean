import RdmaManager.Common.Cpp
import RdmaManager.Common.System
/-!
# The benchmark's flow control

`BandwidthPerfTest` and `OperationsCountPerfTest` send `N` messages over a
connection, with at most `M` of them unacknowledged. The immediate-write
loop and the send loop are the same but for the request they post, in both
tests; so are the two loops of the server. The client sends in bursts, as many
messages as are neither pending nor beyond its budget, and then polls
for acknowledgements; the server acknowledges every `ackMsgPackgin`
messages and the last ones.

A step is what one thread does up to where the other can see it, or what
the connection does: it delivers messages and acknowledgements, in order,
each into a posted receive. An acknowledgement that finds none is
delivered all the same, so that what a reliable connection keeps and what
needs the receives can be told apart.
-/

namespace RdmaManager

/-- `a - b` in `size_t`. -/
def sub64 (a b : ℕ) : ℕ := wrap64 (a + 2 ^ 64 - b)

theorem sub64_of_le {a b : ℕ} (hle : b ≤ a) (ha : a < 2 ^ 64) : sub64 a b = a - b := by
  unfold sub64 wrap64
  omega

/-- The arguments of a test: `Config::RDMA_MAX_WR` and the iterations of a
thread. -/
structure PerfConfig where
  maxRdmaWr : UInt32
  iterations : UInt64
  maxRdmaWr_pos : 0 < maxRdmaWr.toNat
  iterations_pos : 0 < iterations.toNat

namespace PerfConfig

variable (c : PerfConfig)

/-- `m_max_rdma_wr_per_thread`. -/
def maxWr : ℕ := c.maxRdmaWr.toNat

/-- `m_iterations_per_thread`. -/
def total : ℕ := c.iterations.toNat

/-- How many messages one acknowledgement is for. -/
def ackMsgPackgin : ℕ := if c.maxWr / 2 < 1 then 1 else c.maxWr / 2

/-- The counter of a connection after a message was sent in a burst that
began with `ackMsgCounter`. -/
def nextCounter (ackMsgCounter : ℕ) : ℕ :=
  if ackMsgCounter + 1 < c.ackMsgPackgin then ackMsgCounter + 1 else 0

theorem maxWr_pos : 0 < c.maxWr := c.maxRdmaWr_pos

theorem maxWr_lt : c.maxWr < 2 ^ 32 := c.maxRdmaWr.toNat_lt

theorem total_pos : 0 < c.total := c.iterations_pos

theorem total_lt : c.total < 2 ^ 64 := c.iterations.toNat_lt

theorem ackMsgPackgin_pos : 0 < c.ackMsgPackgin := by
  unfold ackMsgPackgin
  split_ifs <;> omega

theorem ackMsgPackgin_le : c.ackMsgPackgin ≤ c.maxWr := by
  have hpos := c.maxWr_pos
  unfold ackMsgPackgin
  split_ifs <;> omega

end PerfConfig

/-! ## The state -/

/-- Where the client stands with a connection, with the local variables
of the burst. -/
inductive ClientStage
  /-- At the head of the loop over the connections. -/
  | round
  | posting (sendBudget ackMsgCounter i : ℕ)
  | sending (sendBudget ackMsgCounter i : ℕ)
  /-- Waiting for the completion of the last request of the burst. -/
  | completing (sendBudget : ℕ)
  | polling
  | done
  deriving DecidableEq, Repr

/-- The client's entries for a connection. -/
structure PerfClient where
  stage : ClientStage
  totalBudget : ℕ
  pendingMessages : ℕ
  ackMsgCounter : ℕ
  deriving DecidableEq, Repr

/-- Where the server stands. -/
inductive ServerStage
  | polling
  /-- A message was polled, and its receive is not posted again. -/
  | reposting
  | acking
  /-- Waiting for the completion of the acknowledgement. -/
  | completing
  | done
  deriving DecidableEq, Repr

/-- The server's local variables. -/
structure PerfServer where
  stage : ServerStage
  totalBudget : ℕ
  budgetR : ℕ
  ackMsgCounter : ℕ
  deriving DecidableEq, Repr

/-- The connection: the messages in flight, those that have arrived and
not been polled, the server's posted receives, and the same of the
acknowledgements, of which the server posts one at a time. -/
structure Wire where
  messages : ℕ
  arrived : ℕ
  receives : ℕ
  ack : Option ℕ
  acks : List ℕ
  ackReceives : ℕ
  deriving DecidableEq, Repr

structure Perf where
  client : PerfClient
  server : PerfServer
  wire : Wire
  deriving DecidableEq, Repr

/-! ## The steps -/

inductive PerfEvent
  /-- The client computes the budget of a burst. -/
  | begins
  /-- It posts a receive for an acknowledgement, if it does. -/
  | posts
  | sends
  /-- The last request of its burst completes. -/
  | completes
  /-- `pollReceive` returns an acknowledgement. -/
  | takes
  /-- `pollReceive` returns none. -/
  | leaves
  /-- A message arrives. -/
  | arrives
  | serverTakes
  | reposts
  | acks
  /-- An acknowledgement arrives. -/
  | ackArrives
  /-- The server's `writeImm` returns. -/
  | returns
  deriving DecidableEq, Repr

namespace Perf

/-- When a step can be taken. -/
def Enabled (c : PerfConfig) (s : Perf) : PerfEvent → Prop
  | .begins => s.client.stage = .round
  | .posts => ∃ sendBudget ackMsgCounter i, s.client.stage = .posting sendBudget ackMsgCounter i
  | .sends => ∃ sendBudget ackMsgCounter i, s.client.stage = .sending sendBudget ackMsgCounter i
  | .completes => (∃ sendBudget, s.client.stage = .completing sendBudget) ∧ s.wire.messages = 0
  | .takes => s.client.stage = .polling ∧ s.wire.acks ≠ []
  -- it waits for an acknowledgement while all that may be pending is
  | .leaves => s.client.stage = .polling ∧ s.wire.acks = [] ∧ s.client.pendingMessages ≠ c.maxWr
  | .arrives => 0 < s.wire.messages
  | .serverTakes => s.server.stage = .polling ∧ 0 < s.wire.arrived
  | .reposts => s.server.stage = .reposting
  | .acks => s.server.stage = .acking
  | .ackArrives => s.wire.ack ≠ none
  | .returns => s.server.stage = .completing ∧ s.wire.ack = none

/-- The head of a round. -/
def begins (c : PerfConfig) (s : Perf) : Perf :=
  if s.client.totalBudget = 0 ∧ s.client.pendingMessages = 0 then s
  else
    let sendBudget := sub64 c.maxWr s.client.pendingMessages
    let sendBudget := if s.client.totalBudget < sendBudget then s.client.totalBudget else sendBudget
    let stage := if 0 < sendBudget then .posting sendBudget s.client.ackMsgCounter 0 else .polling
    { s with client := { s.client with stage } }

/-- The first half of the body of the loop of a burst. -/
def posts (c : PerfConfig) (s : Perf) : Perf :=
  match s.client.stage with
  | .posting sendBudget ackMsgCounter i =>
      { s with
        client := { s.client with
          stage := .sending sendBudget ackMsgCounter i
          ackMsgCounter := c.nextCounter ackMsgCounter }
        wire := { s.wire with
          ackReceives := if ackMsgCounter = 0 then s.wire.ackReceives + 1 else s.wire.ackReceives } }
  | _ => s

/-- The second half. The last request of a burst is signaled. -/
def sends (s : Perf) : Perf :=
  match s.client.stage with
  | .sending sendBudget ackMsgCounter i =>
      { s with
        client := { s.client with
          stage := if i + 1 = sendBudget then .completing sendBudget
            else .posting sendBudget ackMsgCounter (i + 1) }
        wire := { s.wire with messages := s.wire.messages + 1 } }
  | _ => s

/-- After the loop of a burst. -/
def completes (s : Perf) : Perf :=
  match s.client.stage with
  | .completing sendBudget =>
      { s with client := { s.client with
          stage := .polling
          totalBudget := sub64 s.client.totalBudget sendBudget
          pendingMessages := wrap64 (s.client.pendingMessages + sendBudget) } }
  | _ => s

def takes (s : Perf) : Perf :=
  match s.wire.acks with
  | imm :: acks =>
      { s with
        client := { s.client with pendingMessages := sub64 s.client.pendingMessages imm }
        wire := { s.wire with acks } }
  | [] => s

def leaves (s : Perf) : Perf :=
  { s with client := { s.client with
      stage := if s.client.totalBudget = 0 ∧ s.client.pendingMessages = 0 then .done else .round } }

def arrives (s : Perf) : Perf :=
  { s with wire := { s.wire with
      messages := s.wire.messages - 1
      arrived := s.wire.arrived + 1
      receives := s.wire.receives - 1 } }

def serverTakes (s : Perf) : Perf :=
  { s with
    server := { s.server with stage := .reposting, budgetR := sub64 s.server.budgetR 1 }
    wire := { s.wire with arrived := s.wire.arrived - 1 } }

/-- The condition of the server's loop. -/
def again (totalBudget budgetR : ℕ) : ServerStage :=
  if 0 < totalBudget ∨ 0 < budgetR then .polling else .done

/-- From the `if` that posts a receive again to the one that
acknowledges. -/
def reposts (c : PerfConfig) (s : Perf) : Perf :=
  let more := 0 < s.server.totalBudget
  let totalBudget := if more then sub64 s.server.totalBudget 1 else s.server.totalBudget
  let budgetR := if more then s.server.budgetR + 1 else s.server.budgetR
  let lastMsg := totalBudget = 0 ∧ budgetR = 0
  { s with
    server := {
      stage := if s.server.ackMsgCounter + 1 = c.ackMsgPackgin ∨ lastMsg then .acking
        else again totalBudget budgetR
      totalBudget
      budgetR
      ackMsgCounter := s.server.ackMsgCounter + 1 }
    wire := { s.wire with receives := if more then s.wire.receives + 1 else s.wire.receives } }

/-- `writeImm` with the counter cast to `uint32_t`. -/
def acks (s : Perf) : Perf :=
  { s with
    server := { s.server with stage := .completing }
    wire := { s.wire with ack := some (s.server.ackMsgCounter % 2 ^ 32) } }

def ackArrives (s : Perf) : Perf :=
  { s with wire := { s.wire with
      ack := none
      acks := s.wire.acks ++ s.wire.ack.toList
      ackReceives := s.wire.ackReceives - 1 } }

def returns (s : Perf) : Perf :=
  { s with server := { s.server with
      stage := again s.server.totalBudget s.server.budgetR
      ackMsgCounter := 0 } }

/-- What a step does. -/
def exec (c : PerfConfig) (s : Perf) : PerfEvent → Perf
  | .begins => s.begins c
  | .posts => s.posts c
  | .sends => s.sends
  | .completes => s.completes
  | .takes => s.takes
  | .leaves => s.leaves
  | .arrives => s.arrives
  | .serverTakes => s.serverTakes
  | .reposts => s.reposts c
  | .acks => s.acks
  | .ackArrives => s.ackArrives
  | .returns => s.returns

/-- The server's initial receives are posted, and the client has sent
nothing. -/
def start (c : PerfConfig) : Perf :=
  let budgetR := if c.maxWr < c.total then c.maxWr else c.total
  { client := ⟨.round, c.total, 0, 0⟩
    server := ⟨.polling, sub64 c.total budgetR, budgetR, 0⟩
    wire := ⟨0, 0, budgetR, none, [], 0⟩ }

end Perf

/-! ## Runs -/

/-- **What has been sent**: messages and, by value, acknowledgements that
the client has polled and that the server has posted; and how many of the
latter have arrived. -/
structure PerfTrail where
  sent : ℕ
  acknowledged : ℕ
  ackSum : ℕ
  ackCount : ℕ
  deriving DecidableEq, Repr

/-- What a step adds to the trail. -/
def PerfTrail.write (s : Perf) (e : PerfEvent) (_ : Perf) (t : PerfTrail) : PerfTrail :=
  match e with
  | .sends => { t with sent := t.sent + 1 }
  | .takes => { t with acknowledged := t.acknowledged + s.wire.acks.headD 0 }
  | .acks => { t with ackSum := t.ackSum + s.server.ackMsgCounter % 2 ^ 32 }
  | .ackArrives => { t with ackCount := t.ackCount + 1 }
  | _ => t

/-- The runs of one connection. -/
def perfRuns (c : PerfConfig) : System Perf PerfEvent where
  Init s := s = Perf.start c
  Step s e s' := s.Enabled c e ∧ s' = s.exec c e

/-- The runs with their trail. -/
def perfTrails (c : PerfConfig) : System (Perf × PerfTrail) PerfEvent :=
  (perfRuns c).record (fun _ => ⟨0, 0, 0, 0⟩) PerfTrail.write

end RdmaManager
