import RdmaManager.Common.Crossing
import RdmaManager.Node.Server
/-!
# Two servers that call `connect` for each other

Both servers have their node ids from one sequencer. A message is sent,
delivered to the sequencer or to the handler of the other server, and its
answer is received, each of them once and in any order with whatever the
two servers do meanwhile. `Joined` is what is to have become of it.
-/

namespace RdmaManager

/-- The message a call waits for the answer to, and its answer. -/
inductive Mail
  | none
  | request (receiver : String) (request : Request)
  | reply (answer : Except Exn Response)
  deriving DecidableEq

/-- **Two servers**, with the call of `connect` that each of them makes. -/
structure Exchange where
  node : Side → RDMAServer ReliableRDMA
  call : Side → Option Call
  mail : Side → Mail
  sequencer : NodeIDSequencer

inductive ExchangeEvent
  /-- A server calls `connect` for the other one. -/
  | connect (x : Side) (retServerNodeID : UInt64)
  /-- It goes on to the next stage. -/
  | advance (x : Side)
  /-- The message of the stage is sent. -/
  | send (x : Side)
  /-- It is handled. -/
  | deliver (x : Side)
  /-- The answer arrives. -/
  | receive (x : Side)

namespace Exchange

variable {retries : ℕ} {p p₀ : Exchange}

/-- The id that the other server has for a server. -/
def peerID (p : Exchange) (x : Side) : ℕ := (p.node x.other).ownNodeID.toNat

/-- The address that a server calls `connect` with. -/
def peerIpPort (p : Exchange) (x : Side) : String := (p.node x.other).ownIpPort

/-- After a piece of a call. -/
def goOn (p : Exchange) (x : Side) (call : Call) (act : Act (RDMAClient ReliableRDMA) Call)
    (mail : Mail) : Exchange where
  node := Function.update p.node x
    { p.node x with toRDMAClient := (call.run act (p.node x).toRDMAClient).2 }
  call := Function.update p.call x (some (call.run act (p.node x).toRDMAClient).1)
  mail := Function.update p.mail x mail
  sequencer := p.sequencer

/-- The message of the stage that a call stands at. -/
def outgoing (p : Exchange) (x : Side) : Option (String × Request) :=
  (p.call x).bind (Call.request (p.node x).toRDMAClient)

/-- What an event does. -/
def exec (retries : ℕ) (p : Exchange) : ExchangeEvent → Exchange
  | .connect x retServerNodeID =>
      { p with call := Function.update p.call x (some (Call.enter (p.peerIpPort x) retServerNodeID)) }
  | .advance x =>
      match p.call x with
      | some call => p.goOn x call (call.advance none) (p.mail x)
      | none => p
  | .send x =>
      match p.outgoing x with
      | some (receiver, request) => { p with mail := Function.update p.mail x (.request receiver request) }
      | none => p
  | .deliver x =>
      match p.mail x with
      | .request receiver request =>
          if receiver = (p.node x).sequencerIpPort then
            { p with
              sequencer := (NodeIDSequencer.handle request p.sequencer).2
              mail := Function.update p.mail x (.reply (NodeIDSequencer.handle request p.sequencer).1) }
          else
            { p with
              node := Function.update p.node x.other
                (RDMAServer.handle request (p.node x.other)).2
              mail := Function.update p.mail x
                (.reply (RDMAServer.handle request (p.node x.other)).1) }
      | _ => p
  | .receive x =>
      match p.call x, p.mail x with
      | some call, .reply answer => p.goOn x call (call.receive retries answer) .none
      | _, _ => p

/-- Each server calls `connect` once, and a call that waits for an answer
does not go on without it. -/
def Enabled (p : Exchange) : ExchangeEvent → Prop
  | .connect x _ => p.call x = none
  | .advance x => p.outgoing x = none
  | .send x => ∃ message, p.outgoing x = some message ∧ p.mail x = .none
  | .deliver x => ∃ receiver request, p.mail x = .request receiver request
  | .receive x => ∃ answer, p.mail x = .reply answer

instance (p : Exchange) : DecidablePred p.Enabled
  | .connect x _ => inferInstanceAs (Decidable (p.call x = none))
  | .advance x => inferInstanceAs (Decidable (p.outgoing x = none))
  | .send x =>
      decidable_of_iff ((p.outgoing x).isSome = true ∧ p.mail x = .none) <| by
        rw [Option.isSome_iff_exists]
        exact ⟨fun ⟨⟨message, hmessage⟩, hmail⟩ => ⟨message, hmessage, hmail⟩,
          fun ⟨message, hmessage, hmail⟩ => ⟨⟨message, hmessage⟩, hmail⟩⟩
  | .deliver x =>
      match hmail : p.mail x with
      | .request receiver request => .isTrue ⟨receiver, request, hmail⟩
      | .none => .isFalse fun ⟨_, _, hbad⟩ => by simp [hmail] at hbad
      | .reply _ => .isFalse fun ⟨_, _, hbad⟩ => by simp [hmail] at hbad
  | .receive x =>
      match hmail : p.mail x with
      | .reply answer => .isTrue ⟨answer, hmail⟩
      | .none => .isFalse fun ⟨_, hbad⟩ => by simp [hmail] at hbad
      | .request _ _ => .isFalse fun ⟨_, hbad⟩ => by simp [hmail] at hbad

/-- Two running servers that were never connected, neither of them with a
shared receive queue, on devices that do not fail. -/
structure Fresh (p : Exchange) : Prop where
  succeeds : ∀ x, (p.node x).base.device.Succeeds
  currentSRQ : ∀ x, (p.node x).currentSRQ = sizeMax
  call : ∀ x, p.call x = none
  mail : ∀ x, p.mail x = .none
  sequencer : p.sequencer.Sound
  registered : ∀ x, p.sequencer.ipPortToNodeIDMapping.lookup (p.node x).ownIpPort =
    some (p.node x).ownNodeID
  distinct : (p.node .left).ownNodeID ≠ (p.node .right).ownNodeID
  /-- A server that runs has a socket to the sequencer. -/
  opened : ∀ x, (p.node x).sequencerIpPort ∈ (p.node x).sockets
  closed : ∀ x, p.peerIpPort x ∉ (p.node x).sockets
  unmarked : ∀ x, (p.node x).marked (p.peerID x) = false
  unconnected : ∀ x, p.peerID x ∉ (p.node x).base.connected

/-- **The exchanges of two servers.** -/
def runs (retries : ℕ) : System Exchange ExchangeEvent where
  Init := Fresh
  Step p event p' := p.Enabled event ∧ p' = p.exec retries event

/-- Every call has returned and no message is in flight. -/
def Quiet (p : Exchange) : Prop :=
  ∀ x, p.mail x = .none ∧ ∀ call, p.call x = some call → call.running = false

/-- **The two servers are connected**, and nothing else is left of the
exchange that began with `p₀`. -/
structure Joined (p₀ p : Exchange) : Prop where
  returned : ∀ x call, p.call x = some call → call.stage = .returned true ∧
    call.retServerNodeID = (p.node x.other).ownNodeID
  /-- Each has a queue pair for the other that the exchange has made, and
  every other one that it has made is destroyed. -/
  installed : ∀ x, ∃ h, ((p.node x).base.qpAt (p.peerID x)).qp = some h ∧
    (p.node x).base.device.qps h ≠ none ∧ (p₀.node x).base.device.next ≤ h ∧
    ∀ i, (p₀.node x).base.device.next ≤ i → (p.node x).base.device.qps i ≠ none → i = h
  /-- The remote data of each names the queue pair of the other. -/
  routed : ∀ x h, ((p.node x.other).base.qpAt (p.peerID x.other)).qp = some h →
    ((p.node x).base.rconnAt (p.peerID x)).qpNum =
      ((p.node x.other).base.device.qpNum h).toUInt64
  connected : ∀ x, (p.node x).base.connected.lookup (p.peerID x) = some true

end Exchange

end RdmaManager
