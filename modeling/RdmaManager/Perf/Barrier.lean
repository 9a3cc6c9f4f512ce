import RdmaManager.Common.Mailbox
import RdmaManager.Common.System
import RdmaManager.Rdma.Base
/-!
# The global barrier

Before they measure anything, the clients of a test ping every server, and
a server answers all of them once it has heard from all. How many there
are it learns while it waits: it takes a snapshot of the connected ids,
posts a receive for those that are new, and stops when it has seen as many
as it was told to expect. A message that finds no receive fails
(`rnr_retry` is zero), and the client tries again.

The two functions run here as they stand, one call of a verb or one test a
step, for any number of clients and servers.
-/

namespace RdmaManager

/-- Where a call of `global_barrier_client` stands. -/
inductive ClientBarrier
  /-- It was not made yet. -/
  | away
  /-- It posts receives for the connections that are left. -/
  | posting (connectionIDs left : List ℕ)
  /-- It is about to test `i < leftConIDs.size()`. -/
  | sending (connectionIDs leftConIDs : List ℕ) (i : UInt64)
  | polling (connectionIDs left : List ℕ)
  | returned (connectionIDs : List ℕ)
  | threw
  deriving DecidableEq, Repr

namespace ClientBarrier

/-- The verb it calls next. -/
def call : ClientBarrier → Option (ℕ × MailCall)
  | .posting _ (conID :: _) => some (conID, .receive)
  | .sending _ leftConIDs i => leftConIDs[i.toNat]?.map fun conID => (conID, .send)
  | .polling _ (conID :: _) => some (conID, .pollReceive)
  | _ => none

/-- **`global_barrier_client`**: where it stands next, as the verb succeeds
or throws. -/
def next (success : Bool) : ClientBarrier → ClientBarrier
  | .away => .away
  | .posting connectionIDs [] => .sending connectionIDs connectionIDs 0
  | .posting connectionIDs (_ :: left) =>
      if success then .posting connectionIDs left else .threw
  | .sending connectionIDs leftConIDs i =>
      if i.toNat < leftConIDs.length then
        -- the index that was erased wraps around and is incremented again
        if success then .sending connectionIDs (leftConIDs.eraseIdx i.toNat) (i - 1 + 1)
        else .sending connectionIDs leftConIDs (i + 1)
      else if leftConIDs.isEmpty then .polling connectionIDs connectionIDs
      else .sending connectionIDs leftConIDs 0
  | .polling connectionIDs [] => .returned connectionIDs
  | .polling connectionIDs (_ :: left) =>
      if success then .polling connectionIDs left else .threw
  | .returned connectionIDs => .returned connectionIDs
  | .threw => .threw

end ClientBarrier

/-- Where a call of `global_barrier_server` stands, with `prepare`. -/
inductive ServerBarrier
  | away
  /-- It is about to test `alreadyConnectedIds.size() < clientIds.size()`. -/
  | comparing (clientIds : List ℕ) (alreadyConnectedIds : Finset ℕ)
  /-- It goes through the ids of the snapshot that are left. -/
  | posting (clientIds : List ℕ) (alreadyConnectedIds : Finset ℕ) (left : List ℕ)
  /-- It is about to test `alreadyConnectedIds.size() < expected_thread_count`. -/
  | counting (clientIds : List ℕ) (alreadyConnectedIds : Finset ℕ)
  /-- It sleeps, and takes another snapshot then. -/
  | sleeping (alreadyConnectedIds : Finset ℕ)
  | polling (clientIds left : List ℕ)
  | sending (clientIds left : List ℕ)
  | returned (clientIds : List ℕ)
  | threw
  deriving DecidableEq

namespace ServerBarrier

/-- The verb it calls next. -/
def call : ServerBarrier → Option (ℕ × MailCall)
  | .posting _ alreadyConnectedIds (nodeID :: _) =>
      if nodeID ∈ alreadyConnectedIds then none else some (nodeID, .receive)
  | .polling _ (nodeID :: _) => some (nodeID, .pollReceive)
  | .sending _ (nodeID :: _) => some (nodeID, .send)
  | _ => none

/-- **`global_barrier_server`**: where it stands next, as the verb succeeds
or throws. -/
def next (expected_thread_count : ℕ) (success : Bool) : ServerBarrier → ServerBarrier
  | .away => .away
  | .comparing clientIds alreadyConnectedIds =>
      if alreadyConnectedIds.card < clientIds.length then
        .posting clientIds alreadyConnectedIds clientIds
      else .counting clientIds alreadyConnectedIds
  | .posting clientIds alreadyConnectedIds [] => .counting clientIds alreadyConnectedIds
  | .posting clientIds alreadyConnectedIds (nodeID :: left) =>
      if nodeID ∈ alreadyConnectedIds then .posting clientIds alreadyConnectedIds left
      else if success then .posting clientIds (insert nodeID alreadyConnectedIds) left
      else .threw
  | .counting clientIds alreadyConnectedIds =>
      if alreadyConnectedIds.card < expected_thread_count then .sleeping alreadyConnectedIds
      else .polling clientIds clientIds
  | .sleeping alreadyConnectedIds => .sleeping alreadyConnectedIds
  | .polling clientIds [] => .sending clientIds clientIds
  | .polling clientIds (_ :: left) => if success then .polling clientIds left else .threw
  | .sending clientIds [] => .returned clientIds
  | .sending clientIds (_ :: left) => if success then .sending clientIds left else .threw
  | .returned clientIds => .returned clientIds
  | .threw => .threw

end ServerBarrier

/-- A client or a server: where its call stands, and its ends of the
connections. -/
structure BarrierParty (σ : Type) where
  stage : σ
  ends : ℕ → Mailbox

/-- Before the call. -/
def BarrierParty.fresh {σ : Type} (away : σ) : BarrierParty σ := ⟨away, fun _ => ⟨0, 0, 0⟩⟩

/-- **The clients and the servers**, with `m_connected` of the servers. -/
structure GlobalBarrier where
  connected : ℕ → Finmap fun _ : ℕ => Bool
  clients : ℕ → BarrierParty ClientBarrier
  servers : ℕ → BarrierParty ServerBarrier

/-- What happens. -/
inductive BarrierEvent
  /-- A client connects to a server. -/
  | connect (server client : ℕ)
  /-- A client calls `global_barrier_client`. -/
  | clientBegins (client : ℕ) (connectionIDs : List ℕ)
  | client (client : ℕ) (success : Bool)
  /-- A server calls `global_barrier_server`, and takes its first snapshot. -/
  | serverBegins (server : ℕ) (clientIds : List ℕ)
  | server (server : ℕ) (success : Bool)
  /-- It takes another one. -/
  | recounts (server : ℕ) (clientIds : List ℕ)
  deriving DecidableEq, Repr

namespace ServerBarrier

/-- The server takes a snapshot. -/
def snapshot (clientIds : List ℕ) : ServerBarrier → ServerBarrier
  | .away => .comparing clientIds ∅
  | .sleeping alreadyConnectedIds => .comparing clientIds alreadyConnectedIds
  | stage => stage

/-- It is asleep. -/
def asleep : ServerBarrier → Bool
  | .sleeping _ => true
  | _ => false

end ServerBarrier

namespace GlobalBarrier

/-- The ends of the servers' connections with a client. -/
def serverEnds (w : GlobalBarrier) (client server : ℕ) : Mailbox := (w.servers server).ends client

/-- The ends of the clients' connections with a server. -/
def clientEnds (w : GlobalBarrier) (server client : ℕ) : Mailbox := (w.clients client).ends server

/-- What can happen. A client has connected to the servers it calls the
barrier for. -/
def Enabled (w : GlobalBarrier) : BarrierEvent → Prop
  | .connect _ _ => True
  | .clientBegins client connectionIDs =>
      (w.clients client).stage = .away ∧ connectionIDs.Nodup ∧
        ∀ server ∈ connectionIDs, (w.connected server).lookup client = some true
  | .client client success =>
      Mailbox.Can (w.clients client).ends (w.serverEnds client) success (w.clients client).stage.call
  | .serverBegins server clientIds =>
      (w.servers server).stage = .away ∧ ConnectedConnIDs (w.connected server) clientIds
  | .server server success =>
      Mailbox.Can (w.servers server).ends (w.clientEnds server) success (w.servers server).stage.call
  | .recounts server clientIds =>
      (w.servers server).stage.asleep = true ∧ ConnectedConnIDs (w.connected server) clientIds

instance (w : GlobalBarrier) : ∀ e, Decidable (w.Enabled e)
  | .connect _ _ => inferInstanceAs (Decidable True)
  | .clientBegins _ _ => inferInstanceAs (Decidable (_ ∧ _ ∧ _))
  | .client _ _ => inferInstanceAs (Decidable (Mailbox.Can _ _ _ _))
  | .serverBegins _ _ => inferInstanceAs (Decidable (_ ∧ _))
  | .server _ _ => inferInstanceAs (Decidable (Mailbox.Can _ _ _ _))
  | .recounts _ _ => inferInstanceAs (Decidable (_ ∧ _))

/-- The client, after its next step. -/
def clientSteps (w : GlobalBarrier) (client : ℕ) (success : Bool) : BarrierParty ClientBarrier :=
  ⟨(w.clients client).stage.next success,
    Mailbox.made (w.clients client).ends success (w.clients client).stage.call⟩

/-- The server, after its next step. -/
def serverSteps (w : GlobalBarrier) (expected_thread_count server : ℕ) (success : Bool) :
    BarrierParty ServerBarrier :=
  ⟨(w.servers server).stage.next expected_thread_count success,
    Mailbox.made (w.servers server).ends success (w.servers server).stage.call⟩

def setClient (w : GlobalBarrier) (client : ℕ) (k : BarrierParty ClientBarrier) : GlobalBarrier :=
  { w with clients := Function.update w.clients client k }

def setServer (w : GlobalBarrier) (server : ℕ) (k : BarrierParty ServerBarrier) : GlobalBarrier :=
  { w with servers := Function.update w.servers server k }

theorem setClient_self (w : GlobalBarrier) (client : ℕ) (k : BarrierParty ClientBarrier) :
    (w.setClient client k).clients client = k := Function.update_self _ _ _

theorem setClient_of_ne (w : GlobalBarrier) {client i : ℕ} (hne : i ≠ client)
    (k : BarrierParty ClientBarrier) : (w.setClient client k).clients i = w.clients i :=
  Function.update_of_ne hne _ _

theorem setServer_self (w : GlobalBarrier) (server : ℕ) (k : BarrierParty ServerBarrier) :
    (w.setServer server k).servers server = k := Function.update_self _ _ _

theorem setServer_of_ne (w : GlobalBarrier) {server i : ℕ} (hne : i ≠ server)
    (k : BarrierParty ServerBarrier) : (w.setServer server k).servers i = w.servers i :=
  Function.update_of_ne hne _ _

/-- The state after an event. -/
def exec (expected_thread_count : ℕ) (w : GlobalBarrier) : BarrierEvent → GlobalBarrier
  | .connect server client =>
      { w with
        connected := Function.update w.connected server ((w.connected server).insert client true) }
  | .clientBegins client connectionIDs =>
      w.setClient client ⟨.posting connectionIDs connectionIDs, (w.clients client).ends⟩
  | .client client success => w.setClient client (w.clientSteps client success)
  | .serverBegins server clientIds =>
      w.setServer server ⟨(w.servers server).stage.snapshot clientIds, (w.servers server).ends⟩
  | .server server success => w.setServer server (w.serverSteps expected_thread_count server success)
  | .recounts server clientIds =>
      w.setServer server ⟨(w.servers server).stage.snapshot clientIds, (w.servers server).ends⟩

/-- Before the calls. Clients may be connected. -/
def before (connected : ℕ → Finmap fun _ : ℕ => Bool) : GlobalBarrier :=
  ⟨connected, fun _ => .fresh .away, fun _ => .fresh .away⟩

/-- **The runs** of a barrier, with any clients and servers. -/
def runs (expected_thread_count : ℕ) : System GlobalBarrier BarrierEvent where
  Init w := ∃ connected, w = before connected
  Step w e w' := w.Enabled e ∧ w' = w.exec expected_thread_count e

end GlobalBarrier

end RdmaManager
