import Mathlib.Data.List.Infix
import RdmaManager.Common.Cpp
import RdmaManager.Proto.Messages
/-!
# `ProtoServer`

The request loop that every server runs, while nobody stops it: it takes
`m_handleLock`, receives a message, handles it and sends the reply. It
has two ways out. A message that does not parse is reported like a closed
socket, and what `handle` throws leaves the thread.

The lock has an owner, `lck`, which releases it when the pass of the loop
ends. `run` releases it by hand as well, and `lck` does not learn of it.
`unstopped_iff` puts these together for every handler.
-/

namespace RdmaManager

/-- The fields of `ProtoServer`, what has been received and sent on its
socket, how often `m_handleLock` was locked and unlocked, and the object
that handles the requests. -/
structure ProtoServer (σ : Type) where
  running : Bool
  received : List (List UInt8)
  sent : List Response
  acquired : ℕ
  released : ℕ
  server : σ

namespace ProtoServer

variable {σ : Type} {parse : List UInt8 → Option Request} {handle : Request → Act σ Response}
variable {message : List UInt8} {messages : List (List UInt8)} {s : ProtoServer σ}

/-- `m_handleLock.lock()`. -/
def lock : Act (ProtoServer σ) Unit := Act.modify fun s => { s with acquired := s.acquired + 1 }

/-- `m_handleLock.unlock()`. -/
def unlock : Act (ProtoServer σ) Unit := Act.modify fun s => { s with released := s.released + 1 }

/-- The scope of `unique_lock<mutex> lck(m_handleLock)`, which unlocks
where the scope is left, by an exception too. -/
def withHandleLock {α : Type} (x : Act (ProtoServer σ) α) : Act (ProtoServer σ) α := do
  lock
  let a ← tryCatch x fun e => do
    unlock
    throw e
  unlock
  return a

/-- `ProtoSocket::receive` where a message has come: nothing if it does not
parse. -/
def receive (parse : List UInt8 → Option Request) (message : List UInt8) :
    Act (ProtoServer σ) (Option Request) := do
  Act.modify fun s => { s with received := s.received ++ [message] }
  return parse message

/-- `ProtoSocket::send`. -/
def send (respMsg : Response) : Act (ProtoServer σ) Unit :=
  Act.modify fun s => { s with sent := s.sent ++ [respMsg] }

/-- The body of the loop of `ProtoServer::run` while `lck` is in scope:
whether there is another pass. -/
def passBody (parse : List UInt8 → Option Request) (handle : Request → Act σ Response)
    (message : List UInt8) : Act (ProtoServer σ) Bool := do
  let rcvMsg ← receive parse message
  match rcvMsg with
  | none => return false
  | some rcvMsg =>
      let respMsg ← Act.zoom server (fun s server => { s with server }) (handle rcvMsg)
      send respMsg
      unlock
      return true

/-- One pass of the loop of `ProtoServer::run`. -/
def pass (parse : List UInt8 → Option Request) (handle : Request → Act σ Response)
    (message : List UInt8) : Act (ProtoServer σ) Bool :=
  withHandleLock (passBody parse handle message)

/-- The loop of `ProtoServer::run` on the messages that come, up to where
it would take the lock to wait for the next. -/
def run (parse : List UInt8 → Option Request) (handle : Request → Act σ Response) :
    List (List UInt8) → Act (ProtoServer σ) Unit
  | [] => return ()
  | message :: messages => do
      let again ← pass parse handle message
      if again = true then run parse handle messages
      else Act.modify fun s => { s with running := false }

/-- Where the loop begins. -/
def started (server : σ) : ProtoServer σ := ⟨true, [], [], 0, 0, server⟩

/-! ## One pass -/

theorem withHandleLock_of_ok {α : Type} {x : Act (ProtoServer σ) α} {a : α} {s' : ProtoServer σ}
    (h : x { s with acquired := s.acquired + 1 } = (.ok a, s')) :
    withHandleLock x s = (.ok a, { s' with released := s'.released + 1 }) := by
  have hlock : lock s = (.ok (), { s with acquired := s.acquired + 1 }) := rfl
  unfold withHandleLock
  rw [Act.bind_of_ok hlock, Act.bind_of_ok (Act.tryCatch_of_ok h)]
  rfl

theorem withHandleLock_of_error {α : Type} {x : Act (ProtoServer σ) α} {e : Exn}
    {s' : ProtoServer σ} (h : x { s with acquired := s.acquired + 1 } = (.error e, s')) :
    withHandleLock x s = (.error e, { s' with released := s'.released + 1 }) := by
  have hlock : lock s = (.ok (), { s with acquired := s.acquired + 1 }) := rfl
  unfold withHandleLock
  rw [Act.bind_of_ok hlock]
  refine Act.bind_of_error ?_
  rw [Act.tryCatch_of_error h]
  rfl

theorem receive_eq : receive parse message s =
    (.ok (parse message), { s with received := s.received ++ [message] }) := rfl

/-- A message that does not parse. -/
theorem pass_of_unparsed (h : parse message = none) :
    pass parse handle message s =
      (.ok false, { s with received := s.received ++ [message],
                           acquired := s.acquired + 1, released := s.released + 1 }) := by
  have hbody : passBody parse handle message { s with acquired := s.acquired + 1 } =
      (.ok false, { s with received := s.received ++ [message], acquired := s.acquired + 1 }) := by
    unfold passBody
    rw [Act.bind_of_ok receive_eq, h]
    rfl
  exact withHandleLock_of_ok hbody

/-- A message whose handling throws. -/
theorem pass_of_throw {rcvMsg : Request} {e : Exn} {server : σ} (h : parse message = some rcvMsg)
    (hhandle : handle rcvMsg s.server = (.error e, server)) :
    pass parse handle message s =
      (.error e, { s with received := s.received ++ [message], server := server,
                          acquired := s.acquired + 1, released := s.released + 1 }) := by
  have hbody : passBody parse handle message { s with acquired := s.acquired + 1 } =
      (.error e, { s with received := s.received ++ [message], server := server,
                          acquired := s.acquired + 1 }) := by
    unfold passBody
    rw [Act.bind_of_ok receive_eq, h]
    refine Act.bind_of_error ?_
    unfold Act.zoom
    rw [hhandle]
  exact withHandleLock_of_error hbody

/-- A message that is answered: the lock is released by hand, and again at
the end of the scope. -/
theorem pass_of_return {rcvMsg : Request} {respMsg : Response} {server : σ}
    (h : parse message = some rcvMsg) (hhandle : handle rcvMsg s.server = (.ok respMsg, server)) :
    pass parse handle message s =
      (.ok true, { s with received := s.received ++ [message], sent := s.sent ++ [respMsg],
                          server := server, acquired := s.acquired + 1,
                          released := s.released + 2 }) := by
  have hzoom : Act.zoom ProtoServer.server (fun s server => { s with server }) (handle rcvMsg)
      { s with received := s.received ++ [message], acquired := s.acquired + 1 } =
      (.ok respMsg, { s with received := s.received ++ [message], server := server,
                             acquired := s.acquired + 1 }) := by
    unfold Act.zoom
    rw [hhandle]
  have hbody : passBody parse handle message { s with acquired := s.acquired + 1 } =
      (.ok true, { s with received := s.received ++ [message], sent := s.sent ++ [respMsg],
                          server := server, acquired := s.acquired + 1,
                          released := s.released + 1 }) := by
    unfold passBody
    rw [Act.bind_of_ok receive_eq, h]
    exact Act.bind_of_ok hzoom
  exact withHandleLock_of_ok hbody

/-! ## Every pass -/

/-- **Every message is answered**: it parses, and the server that the ones
before it have left handles it without throwing. -/
def Answered (parse : List UInt8 → Option Request) (handle : Request → Act σ Response) :
    List (List UInt8) → σ → Prop
  | [], _ => True
  | message :: messages, server =>
      ∃ rcvMsg respMsg server', parse message = some rcvMsg ∧
        handle rcvMsg server = (.ok respMsg, server') ∧ Answered parse handle messages server'

/-- The loop has received the messages, one reply to each has been sent,
and it is still running. -/
def StillServing (parse : List UInt8 → Option Request) (handle : Request → Act σ Response)
    (messages : List (List UInt8)) (s : ProtoServer σ) : Prop :=
  (run parse handle messages s).1 = .ok () ∧ (run parse handle messages s).2.running = true ∧
    (run parse handle messages s).2.received = s.received ++ messages ∧
    (run parse handle messages s).2.sent.length = s.sent.length + messages.length

/-- In each of the passes `m_handleLock` was locked and unlocked once. -/
def LockedOnce (parse : List UInt8 → Option Request) (handle : Request → Act σ Response)
    (messages : List (List UInt8)) (s : ProtoServer σ) : Prop :=
  (run parse handle messages s).2.acquired = s.acquired + messages.length ∧
    (run parse handle messages s).2.released = s.released + messages.length

/-- **No message has stopped the server**, at whichever of them one
looks. -/
def Unstopped (parse : List UInt8 → Option Request) (handle : Request → Act σ Response)
    (messages : List (List UInt8)) (s : ProtoServer σ) : Prop :=
  ∀ sofar, sofar <+: messages →
    StillServing parse handle sofar s ∧ LockedOnce parse handle sofar s

/-- What answers every message is still running, and has unlocked
`m_handleLock` twice for each. -/
theorem run_of_answered (hrunning : s.running = true) (h : Answered parse handle messages s.server) :
    StillServing parse handle messages s ∧
      (run parse handle messages s).2.acquired = s.acquired + messages.length ∧
      (run parse handle messages s).2.released = s.released + 2 * messages.length := by
  induction messages generalizing s with
  | nil => exact ⟨⟨rfl, hrunning, (List.append_nil _).symm, rfl⟩, rfl, rfl⟩
  | cons message messages ih =>
      obtain ⟨rcvMsg, respMsg, server, hparse, hhandle, hrest⟩ := h
      have hrun : run parse handle (message :: messages) s = run parse handle messages _ :=
        Act.bind_of_ok (pass_of_return hparse hhandle)
      obtain ⟨⟨hok, hstill, hreceived, hsent⟩, hacquired, hreleased⟩ :=
        ih (s := { s with received := s.received ++ [message], sent := s.sent ++ [respMsg],
                          server := server, acquired := s.acquired + 1,
                          released := s.released + 2 }) hrunning hrest
      unfold StillServing
      rw [hrun]
      refine ⟨⟨hok, hstill, ?_, ?_⟩, ?_, ?_⟩
      · rw [hreceived, List.append_assoc, List.singleton_append]
      · rw [hsent, List.length_append, List.length_singleton, List.length_cons]
        omega
      · rw [hacquired, List.length_cons]
        show s.acquired + 1 + messages.length = s.acquired + (messages.length + 1)
        omega
      · rw [hreleased, List.length_cons]
        show s.released + 2 + 2 * messages.length = s.released + 2 * (messages.length + 1)
        omega

/-- A loop that was left stays so, and what was thrown is not caught. -/
theorem answered_of_run (hok : (run parse handle messages s).1 = .ok ())
    (hstill : (run parse handle messages s).2.running = true) :
    Answered parse handle messages s.server := by
  induction messages generalizing s with
  | nil => trivial
  | cons message messages ih =>
      cases hparse : parse message with
      | none =>
          have hrun : run parse handle (message :: messages) s = (.ok (), _) :=
            Act.bind_of_ok (pass_of_unparsed hparse)
          rw [hrun] at hstill
          exact Bool.noConfusion hstill
      | some rcvMsg =>
          rcases hhandle : handle rcvMsg s.server with ⟨e | respMsg, server⟩
          · have hrun : run parse handle (message :: messages) s = (.error e, _) :=
              Act.bind_of_error (pass_of_throw hparse hhandle)
            rw [hrun] at hok
            exact absurd hok (by simp)
          · have hrun : run parse handle (message :: messages) s = run parse handle messages _ :=
              Act.bind_of_ok (pass_of_return hparse hhandle)
            rw [hrun] at hok hstill
            exact ⟨rcvMsg, respMsg, server, hparse, hhandle, ih hok hstill⟩

/-- **The loop goes on** exactly where every message is answered. -/
theorem stillServing_iff (hrunning : s.running = true) :
    StillServing parse handle messages s ↔ Answered parse handle messages s.server :=
  ⟨fun h => answered_of_run h.1 h.2.1, fun h => (run_of_answered hrunning h).1⟩

/-- The first message that comes stops the loop, or its pass unlocks
twice. -/
theorem unstopped_iff (hrunning : s.running = true) :
    Unstopped parse handle messages s ↔ messages = [] := by
  constructor
  · intro h
    cases messages with
    | nil => rfl
    | cons message messages =>
        obtain ⟨hstill, -, honce⟩ := h [message] ⟨messages, rfl⟩
        have htwice := (run_of_answered hrunning ((stillServing_iff hrunning).mp hstill)).2.2
        rw [htwice, List.length_singleton] at honce
        omega
  · rintro rfl sofar hsofar
    obtain rfl := List.prefix_nil.mp hsofar
    exact ⟨(stillServing_iff hrunning).mpr trivial, rfl, rfl⟩

end ProtoServer

end RdmaManager
