import RdmaManager.Common.System
import RdmaManager.Proto.Messages
/-!
# `ProtoClient`

A client sends its messages over `ZMQ_REQ` sockets, one for each
connection. Such a socket sends a request only after it has received the
reply to the one before, and it delivers the replies in the order of the
requests. `sendProtoMsg` never receives the reply to its message, and
`exchangeProtoMsg` does not where none arrives in time: the socket keeps
waiting for it, and refuses every message from then on
(`exchanges_succeed_iff`).
-/

namespace RdmaManager

/-- A `ZMQ_REQ` socket. -/
structure ReqSocket where
  /-- A request was sent and its reply was not received. -/
  awaiting : Bool
  /-- How many requests have been sent. -/
  sent : ℕ
  /-- How many replies have been received: the next one is to the request
  with this number. -/
  received : ℕ
  deriving DecidableEq, Repr

/-- What the world does during a call. -/
structure ProtoWire where
  /-- `SerializeToString` succeeds. -/
  serialized : Bool
  /-- ZeroMQ takes the message, if it is the turn of one. -/
  accepted : Bool
  /-- The reply, if it arrives in time. -/
  arrival : Option (List UInt8)
  deriving DecidableEq, Repr

/-- The message can be sent. -/
def ProtoWire.carries (wire : ProtoWire) (sendMsg : Option Request) : Bool :=
  sendMsg.isSome && wire.serialized && wire.accepted

namespace ProtoSocket

/-- `ProtoSocket::send`, where `none` is a null pointer. -/
def send (wire : ProtoWire) (sendMsg : Option Request) : Act ReqSocket Bool := do
  if sendMsg = none then return false
  if wire.serialized = false then return false
  let sock ← Act.get
  -- what ZeroMQ throws is caught
  if sock.awaiting = true ∨ wire.accepted = false then return false
  Act.modify fun sock => { sock with awaiting := true, sent := sock.sent + 1 }
  return true

/-- `ProtoSocket::receive`, into `recMsg` if it is not null: the message,
with the number of the request it is the reply to. -/
def receive (parse : List UInt8 → Option Response) (wire : ProtoWire) (recMsg : Bool) :
    Act ReqSocket (Option (ℕ × Response)) := do
  if recMsg = false then return none
  let sock ← Act.get
  if sock.awaiting = false then throw (.undefined "exit of Logging::fatal")
  match wire.arrival with
  | none => return none
  | some data =>
      Act.modify fun sock => { sock with awaiting := false, received := sock.received + 1 }
      return (parse data).map fun msg => (sock.received, msg)

end ProtoSocket

/-- The fields of `ProtoSendSocket` that its functions read. -/
structure ProtoSendSocket where
  isConnected : Bool
  socket : ReqSocket
  deriving DecidableEq, Repr

namespace ProtoSendSocket

/-- Call a function of the socket. -/
def onSocket {α : Type} (x : Act ReqSocket α) : Act ProtoSendSocket α :=
  Act.zoom ProtoSendSocket.socket (fun s socket => { s with socket }) x

/-- The beginning of both overloads of `ProtoSendSocket::send`. -/
def send (wire : ProtoWire) (sendMsg : Option Request) : Act ProtoSendSocket Unit := do
  let s ← Act.get
  if s.isConnected = false then throw (.runtimeError "Not connected to server")
  let sent ← onSocket (ProtoSocket.send wire sendMsg)
  if sent = false then throw (.runtimeError "Cannot send message")

/-- `ProtoSendSocket::send(Any *, Any *)`. -/
def exchange (parse : List UInt8 → Option Response) (wire : ProtoWire) (sendMsg : Option Request)
    (recMsg : Bool) : Act ProtoSendSocket (ℕ × Response) := do
  send wire sendMsg
  let received ← onSocket (ProtoSocket.receive parse wire recMsg)
  match received with
  | none => throw (.runtimeError "Cannot receive message")
  | some (k, .errorMessage return_) =>
      if return_ ≠ MessageErrors.noError.code then
        throw (.runtimeError ("Error " ++ toString return_.toNat ++ " returned from server"))
      return (k, .errorMessage return_)
  | some reply => return reply

end ProtoSendSocket

/-- `ProtoClient`. -/
structure ProtoClient where
  connections : Finmap fun _ : String => ProtoSendSocket

namespace ProtoClient

/-- `ProtoClient::connectProto`, if the socket can be connected. -/
def connectProto (connects : Bool) (connection : String) : Act ProtoClient Unit := do
  let c ← Act.get
  if connection ∈ c.connections then return ()
  if connects = false then throw (.runtimeError "Cannot connect to server")
  Act.modify fun c =>
    { c with connections := c.connections.insert connection ⟨true, ⟨false, 0, 0⟩⟩ }

/-- Call a function of the socket in `m_connections`. -/
def onConnection {α : Type} (connection : String) (x : Act ProtoSendSocket α) :
    Act ProtoClient α :=
  fun c =>
    match c.connections.lookup connection with
    | none => (.error (.undefined "a null ProtoSendSocket"), c)
    | some s => ((x s).1, { c with connections := c.connections.insert connection (x s).2 })

/-- `ProtoClient::sendProtoMsg`. -/
def sendProtoMsg (wire : ProtoWire) (ipAndPortString : String) (sendMsg : Option Request) :
    Act ProtoClient Unit :=
  onConnection ipAndPortString (ProtoSendSocket.send wire sendMsg)

/-- `ProtoClient::exchangeProtoMsg`: what is written to `recMsg`, with the
number of the request it is the reply to. -/
def exchangeProtoMsg (parse : List UInt8 → Option Response) (wire : ProtoWire)
    (ipAndPortString : String) (sendMsg : Option Request) (recMsg : Bool) :
    Act ProtoClient (ℕ × Response) :=
  onConnection ipAndPortString (ProtoSendSocket.exchange parse wire sendMsg recMsg)

end ProtoClient

/-- The calls of a client. -/
inductive ProtoCall
  | connectProto (connects : Bool) (connection : String)
  | sendProtoMsg (wire : ProtoWire) (connection : String) (sendMsg : Option Request)
  | exchangeProtoMsg (wire : ProtoWire) (connection : String) (sendMsg : Option Request) (recMsg : Bool)
  deriving DecidableEq, Repr

/-- The call leaves the reply to its message on a connection unread. -/
def ProtoCall.leavesUnread (connection : String) : ProtoCall → Bool
  | .connectProto _ _ => false
  | .sendProtoMsg wire conn sendMsg => decide (conn = connection) && wire.carries sendMsg
  | .exchangeProtoMsg wire conn sendMsg recMsg =>
      decide (conn = connection) && (wire.carries sendMsg && !(recMsg && wire.arrival.isSome))

namespace ProtoClient

variable (parse : List UInt8 → Option Response)

/-- The client after a call. -/
def exec (c : ProtoClient) : ProtoCall → ProtoClient
  | .connectProto connects connection => (connectProto connects connection c).2
  | .sendProtoMsg wire connection sendMsg => (sendProtoMsg wire connection sendMsg c).2
  | .exchangeProtoMsg wire connection sendMsg recMsg =>
      (exchangeProtoMsg parse wire connection sendMsg recMsg c).2

/-- The connection of a call is in the map. -/
def Enabled (c : ProtoClient) : ProtoCall → Prop
  | .connectProto _ _ => True
  | .sendProtoMsg _ connection _ => connection ∈ c.connections
  | .exchangeProtoMsg _ connection _ _ => connection ∈ c.connections

instance (c : ProtoClient) : ∀ call, Decidable (c.Enabled call)
  | .connectProto _ _ => inferInstanceAs (Decidable True)
  | .sendProtoMsg _ connection _ => inferInstanceAs (Decidable (connection ∈ c.connections))
  | .exchangeProtoMsg _ connection _ _ => inferInstanceAs (Decidable (connection ∈ c.connections))

/-- **The runs of calls**, with the connections on which a reply was left
unread. -/
def runs : System (ProtoClient × (String → Bool)) ProtoCall :=
  System.record
    { Init := fun c => c.connections = ∅
      Step := fun c call c' => c.Enabled call ∧ c' = c.exec parse call }
    (fun _ _ => false)
    fun _ call _ unread connection => unread connection || call.leavesUnread connection

/-- The requests that were sent and the replies that were received on a
connection. -/
def socket (c : ProtoClient) (connection : String) : ReqSocket :=
  ((c.connections.lookup connection).map ProtoSendSocket.socket).getD ⟨false, 0, 0⟩

/-- **An exchange that returns** delivers the reply to its own request. -/
def Own (c : ProtoClient) (connection : String) : Prop :=
  ∀ wire sendMsg recMsg k response,
    (exchangeProtoMsg parse wire connection sendMsg recMsg c).1 = .ok (k, response) →
      k = (c.socket connection).sent ∧ ∃ data, wire.arrival = some data ∧ parse data = some response

/-- **An exchange whose reply arrives in time** receives it, and returns it
unless it is an error. -/
def Healthy (c : ProtoClient) (connection : String) : Prop :=
  ∀ wire sendMsg data, wire.carries sendMsg = true → wire.arrival = some data →
    ((exchangeProtoMsg parse wire connection sendMsg true c).2.socket connection).received =
        (c.socket connection).received + 1 ∧
      ∀ response, parse data = some response →
        (∀ return_, response = .errorMessage return_ → return_ = MessageErrors.noError.code) →
        (exchangeProtoMsg parse wire connection sendMsg true c).1 =
          .ok ((c.socket connection).sent, response)

end ProtoClient

/-! ## One call -/

open Act

namespace ProtoSocket

variable {sock : ReqSocket} {wire : ProtoWire} {sendMsg : Option Request}

/-- A message that can be sent is sent, unless a reply is still to come. -/
theorem wp_send {Q : Bool → ReqSocket → Prop} {E : Exn → ReqSocket → Prop}
    (hsent : wire.carries sendMsg = true → sock.awaiting = false →
      Q true { sock with awaiting := true, sent := sock.sent + 1 })
    (hrefused : (wire.carries sendMsg = false ∨ sock.awaiting = true) → Q false sock) :
    wp (send wire sendMsg) Q E sock := by
  unfold send
  simp only [wp_bind, wp_ite, wp_pure, wp_get, wp_modify]
  refine ⟨fun hnull => ?_, fun hmsg => ⟨fun hserial => ?_, fun hserial => ⟨fun hturn => ?_,
    fun hturn => ?_⟩⟩⟩
  · refine hrefused (Or.inl ?_)
    rw [hnull]
    rfl
  · refine hrefused (Or.inl ?_)
    unfold ProtoWire.carries
    rw [hserial, Bool.and_false, Bool.false_and]
  · refine hrefused (hturn.symm.imp_left fun haccepted => ?_)
    unfold ProtoWire.carries
    rw [haccepted, Bool.and_false]
  · obtain ⟨hfree, haccepted⟩ := not_or.mp hturn
    refine hsent ?_ (eq_false_of_ne_true hfree)
    unfold ProtoWire.carries
    rw [eq_true_of_ne_false haccepted, eq_true_of_ne_false hserial, Option.isSome_iff_ne_none.mpr hmsg]
    rfl

/-- The next reply is received if there is room for it and it comes. -/
theorem wp_receive {parse : List UInt8 → Option Response} {recMsg : Bool}
    {Q : Option (ℕ × Response) → ReqSocket → Prop} {E : Exn → ReqSocket → Prop}
    (hawaiting : sock.awaiting = true)
    (hread : ∀ data, recMsg = true → wire.arrival = some data →
      Q ((parse data).map fun msg => (sock.received, msg))
        { sock with awaiting := false, received := sock.received + 1 })
    (hunread : (recMsg && wire.arrival.isSome) = false → Q none sock) :
    wp (receive parse wire recMsg) Q E sock := by
  unfold receive
  simp only [wp_bind, wp_ite, wp_pure, wp_get, wp_throw]
  refine ⟨fun hnull => hunread ?_, fun hroom => ⟨fun hbad => ?_, fun _ => ?_⟩⟩
  · rw [hnull]
    rfl
  · exact absurd (hbad.symm.trans hawaiting) Bool.false_ne_true
  · cases harrival : wire.arrival with
    | none =>
        refine hunread ?_
        rw [harrival]
        exact Bool.and_false _
    | some data =>
        simp only [wp_bind, wp_modify, wp_pure]
        exact hread data (eq_true_of_ne_false hroom) harrival

end ProtoSocket

namespace ProtoSendSocket

variable {parse : List UInt8 → Option Response} {s : ProtoSendSocket} {wire : ProtoWire}
variable {sendMsg : Option Request} {recMsg unread : Bool}

/-- What `exchange` makes of the reply to the request `k`. -/
def delivered (k : ℕ) : Option Response → Except Exn (ℕ × Response)
  | none => .error (.runtimeError "Cannot receive message")
  | some (.errorMessage return_) =>
      if return_ ≠ MessageErrors.noError.code then
        .error (.runtimeError ("Error " ++ toString return_.toNat ++ " returned from server"))
      else .ok (k, .errorMessage return_)
  | some response => .ok (k, response)

/-- Only a reply that is no error is delivered. -/
theorem delivered_ok {k k' : ℕ} {reply : Option Response} {response : Response}
    (h : delivered k reply = .ok (k', response)) : k' = k ∧ reply = some response := by
  cases reply with
  | none => cases h
  | some response' =>
      cases response' with
      | errorMessage return_ =>
          by_cases hgood : return_ = MessageErrors.noError.code
          · rw [delivered, if_neg (not_not.mpr hgood)] at h
            cases h
            exact ⟨rfl, rfl⟩
          · rw [delivered, if_pos hgood] at h
            cases h
      | _ =>
          cases h
          exact ⟨rfl, rfl⟩

theorem delivered_of_good {k : ℕ} {response : Response}
    (h : ∀ return_, response = .errorMessage return_ → return_ = MessageErrors.noError.code) :
    delivered k (some response) = .ok (k, response) := by
  cases response with
  | errorMessage return_ =>
      rw [delivered, if_neg (not_not.mpr (h return_ rfl))]
  | _ => rfl

/-- The socket after a request was sent, and its reply was received. -/
def turned (s : ProtoSendSocket) (received : Bool) : ProtoSendSocket :=
  { s with socket :=
    if received then ⟨false, s.socket.sent + 1, s.socket.received + 1⟩
    else ⟨true, s.socket.sent + 1, s.socket.received⟩ }

theorem wp_send {Q : Unit → ProtoSendSocket → Prop} {E : Exn → ProtoSendSocket → Prop}
    (hconn : s.isConnected = true)
    (hsent : wire.carries sendMsg = true → s.socket.awaiting = false → Q () (s.turned false))
    (hrefused : (wire.carries sendMsg = false ∨ s.socket.awaiting = true) →
      E (.runtimeError "Cannot send message") s) : wp (send wire sendMsg) Q E s := by
  unfold send onSocket
  simp only [wp_bind, wp_get, wp_ite, wp_pure, wp_throw, wp_zoom]
  refine ⟨fun hbad => absurd (hbad.symm.trans hconn) Bool.false_ne_true, fun _ => ?_⟩
  refine ProtoSocket.wp_send (fun hcarries hfree => ⟨fun hbad => absurd hbad (by simp), fun _ => ?_⟩)
    fun hnot => ⟨fun _ => hrefused hnot, fun hbad => absurd rfl hbad⟩
  exact hsent hcarries hfree

/-- **The three ways of an exchange**: the request is refused, its reply is
not received, or it is. -/
inductive Exchanged (parse : List UInt8 → Option Response) (wire : ProtoWire) (sendMsg : Option Request)
    (recMsg : Bool) (s : ProtoSendSocket) : Except Exn (ℕ × Response) → ProtoSendSocket → Prop
  | refused (h : wire.carries sendMsg = false ∨ s.socket.awaiting = true) :
      Exchanged parse wire sendMsg recMsg s (.error (.runtimeError "Cannot send message")) s
  | unread (hcarries : wire.carries sendMsg = true) (hfree : s.socket.awaiting = false)
      (hunread : (recMsg && wire.arrival.isSome) = false) :
      Exchanged parse wire sendMsg recMsg s (.error (.runtimeError "Cannot receive message"))
        (s.turned false)
  | read (data : List UInt8) (hcarries : wire.carries sendMsg = true)
      (hfree : s.socket.awaiting = false) (hroom : recMsg = true) (harrival : wire.arrival = some data) :
      Exchanged parse wire sendMsg recMsg s (delivered s.socket.received (parse data)) (s.turned true)

theorem exchanged (parse : List UInt8 → Option Response) (wire : ProtoWire)
    (sendMsg : Option Request) (recMsg : Bool) (hconn : s.isConnected = true) :
    Exchanged parse wire sendMsg recMsg s (exchange parse wire sendMsg recMsg s).1
      (exchange parse wire sendMsg recMsg s).2 := by
  refine (wp_result (P := Exchanged parse wire sendMsg recMsg s)).mp ?_
  unfold exchange
  rw [wp_bind]
  refine wp_send hconn (fun hcarries hfree => ?_) fun hnot => .refused hnot
  unfold onSocket
  rw [wp_bind, wp_zoom]
  refine ProtoSocket.wp_receive rfl (fun data hroom harrival => ?_) fun hunread => ?_
  · have hread : Exchanged parse wire sendMsg recMsg s _ _ :=
      .read data hcarries hfree hroom harrival
    cases hdata : parse data with
    | none =>
        rw [hdata] at hread
        exact hread
    | some response =>
        rw [hdata] at hread
        cases response with
        | errorMessage return_ =>
            simp only [Option.map_some, wp_ite, wp_bind, wp_throw, wp_pure]
            refine ⟨fun hbad => ?_, fun hgood => ?_⟩
            · rw [delivered, if_pos hbad] at hread
              exact hread
            · rw [delivered, if_neg hgood] at hread
              exact hread
        | _ => exact hread
  · exact .unread hcarries hfree hunread

/-- **Whose turn it is**: that of a reply if one is unread. -/
structure Turn (s : ProtoSendSocket) (unread : Bool) : Prop where
  isConnected : s.isConnected = true
  awaiting : s.socket.awaiting = unread
  sent : s.socket.sent = s.socket.received + unread.toNat

theorem Turn.turned (h : s.Turn unread) (hfree : s.socket.awaiting = false) (received : Bool) :
    (s.turned received).Turn (!received) := by
  obtain rfl : unread = false := h.awaiting.symm.trans hfree
  have hsent := h.sent
  cases received with
  | false =>
      refine ⟨h.isConnected, rfl, ?_⟩
      show s.socket.sent + 1 = s.socket.received + 1
      rw [hsent]
      rfl
  | true =>
      refine ⟨h.isConnected, rfl, ?_⟩
      show s.socket.sent + 1 = s.socket.received + 1 + 0
      rw [hsent]
      rfl

/-- A request that is refused changes nothing: it cannot be sent, or a reply
is unread anyway. -/
theorem Turn.refused (h : s.Turn unread)
    (hnot : wire.carries sendMsg = false ∨ s.socket.awaiting = true) (rest : Bool) :
    s.Turn (unread || (wire.carries sendMsg && rest)) := by
  rcases hnot with hcarries | hawaiting
  · rw [hcarries, Bool.false_and, Bool.or_false]
    exact h
  · obtain rfl : unread = true := h.awaiting.symm.trans hawaiting
    rw [Bool.true_or]
    exact h

theorem Turn.send (h : s.Turn unread) :
    (send wire sendMsg s).2.Turn (unread || wire.carries sendMsg) := by
  refine (wp_snd (I := fun s' => s'.Turn (unread || wire.carries sendMsg))).mp
    (wp_send h.isConnected (fun hcarries hfree => ?_) fun hnot => ?_)
  · rw [hcarries, Bool.or_true]
    exact h.turned hfree false
  · have hsame := h.refused hnot true
    rwa [Bool.and_true] at hsame

theorem Turn.exchange (h : s.Turn unread) : (exchange parse wire sendMsg recMsg s).2.Turn
    (unread || (wire.carries sendMsg && !(recMsg && wire.arrival.isSome))) := by
  have hcases := exchanged parse wire sendMsg recMsg h.isConnected
  generalize (ProtoSendSocket.exchange parse wire sendMsg recMsg s).1 = result at hcases
  generalize (ProtoSendSocket.exchange parse wire sendMsg recMsg s).2 = s' at hcases
  cases hcases with
  | refused hnot => exact h.refused hnot _
  | unread hcarries hfree hunread =>
      rw [hcarries, hunread, Bool.not_false, Bool.and_true, Bool.or_true]
      exact h.turned hfree false
  | read data hcarries hfree hroom harrival =>
      obtain rfl : unread = false := h.awaiting.symm.trans hfree
      rw [hcarries, hroom, harrival]
      exact h.turned hfree true

end ProtoSendSocket

/-! ## Every run -/

namespace ProtoClient

variable {parse : List UInt8 → Option Response} {c : ProtoClient} {unread : String → Bool}
variable {connection : String}

theorem onConnection_of_lookup {α : Type} {x : Act ProtoSendSocket α} {s : ProtoSendSocket}
    (h : c.connections.lookup connection = some s) : onConnection connection x c =
      ((x s).1, { c with connections := c.connections.insert connection (x s).2 }) := by
  unfold onConnection
  rw [h]

/-- On every connection it is the turn of a reply where one is unread. -/
def Turns (c : ProtoClient) (unread : String → Bool) : Prop :=
  (∀ connection s, c.connections.lookup connection = some s → s.Turn (unread connection)) ∧
    ∀ connection, connection ∉ c.connections → unread connection = false

/-- One connection goes on. -/
theorem Turns.insert {s : ProtoSendSocket} (h : c.Turns unread) (call : ProtoCall)
    (hs : s.Turn (unread connection || call.leavesUnread connection))
    (hothers : ∀ conn, conn ≠ connection → call.leavesUnread conn = false) :
    Turns { c with connections := c.connections.insert connection s }
      (fun conn => unread conn || call.leavesUnread conn) := by
  refine ⟨fun conn s' hlookup => ?_, fun conn hout => ?_⟩
  · rcases eq_or_ne conn connection with rfl | hne
    · obtain rfl := Option.some.inj ((Finmap.lookup_insert _).symm.trans hlookup)
      exact hs
    · rw [Finmap.lookup_insert_of_ne _ hne] at hlookup
      show s'.Turn (unread conn || call.leavesUnread conn)
      rw [hothers conn hne, Bool.or_false]
      exact h.1 conn s' hlookup
  · rw [Finmap.mem_insert, not_or] at hout
    show (unread conn || call.leavesUnread conn) = false
    rw [hothers conn hout.1, Bool.or_false]
    exact h.2 conn hout.2

/-- **Every call** keeps the turns. -/
theorem Turns.exec (h : c.Turns unread) {call : ProtoCall} (henabled : c.Enabled call) :
    (c.exec parse call).Turns (fun connection => unread connection || call.leavesUnread connection) := by
  cases call with
  | connectProto connects conn =>
      have hwp : wp (connectProto connects conn)
          (fun _ c' => c'.Turns fun connection => unread connection || false)
          (fun _ c' => c'.Turns fun connection => unread connection || false) c := by
        have hstay : c.Turns fun connection => unread connection || false := by
          simp only [Bool.or_false]
          exact h
        unfold connectProto
        simp only [wp_bind, wp_get, wp_ite, wp_pure, wp_throw, wp_modify]
        refine ⟨fun _ => hstay, fun hout => ⟨fun _ => hstay, fun _ => ?_⟩⟩
        refine h.insert (.connectProto connects conn) ?_ fun _ _ => rfl
        rw [h.2 conn hout]
        exact ⟨rfl, rfl, rfl⟩
      exact wp_snd.mp hwp
  | sendProtoMsg wire conn sendMsg =>
      obtain ⟨s, hs⟩ := Finmap.mem_iff.mp henabled
      show Turns (sendProtoMsg wire conn sendMsg c).2 _
      unfold sendProtoMsg
      rw [onConnection_of_lookup hs]
      refine h.insert (.sendProtoMsg wire conn sendMsg) ?_ fun other hne => ?_
      · simp only [ProtoCall.leavesUnread, decide_true, Bool.true_and]
        exact (h.1 conn s hs).send
      · simp only [ProtoCall.leavesUnread, decide_eq_false hne.symm, Bool.false_and]
  | exchangeProtoMsg wire conn sendMsg recMsg =>
      obtain ⟨s, hs⟩ := Finmap.mem_iff.mp henabled
      show Turns (exchangeProtoMsg parse wire conn sendMsg recMsg c).2 _
      unfold exchangeProtoMsg
      rw [onConnection_of_lookup hs]
      refine h.insert (.exchangeProtoMsg wire conn sendMsg recMsg) ?_ fun other hne => ?_
      · simp only [ProtoCall.leavesUnread, decide_true, Bool.true_and]
        exact (h.1 conn s hs).exchange
      · simp only [ProtoCall.leavesUnread, decide_eq_false hne.symm, Bool.false_and]

theorem turns_invariant (parse : List UInt8 → Option Response) :
    (runs parse).Invariant fun p => p.1.Turns p.2 := by
  refine ⟨?_, ?_⟩
  · rintro ⟨c, unread⟩ ⟨hempty, hunread⟩
    obtain rfl : unread = fun _ => false := hunread
    have hnone : c.connections = ∅ := hempty
    refine ⟨fun connection s hlookup => ?_, fun _ _ => rfl⟩
    rw [hnone] at hlookup
    simp at hlookup
  · rintro ⟨c, unread⟩ call ⟨c', unread'⟩ - h ⟨⟨henabled, hc'⟩, hunread'⟩
    have hafter : unread' = fun connection => unread connection || call.leavesUnread connection :=
      hunread'
    obtain rfl : c' = c.exec parse call := hc'
    show Turns (c.exec parse call) unread'
    rw [hafter]
    exact Turns.exec h henabled

theorem socket_of_lookup {s : ProtoSendSocket} (h : c.connections.lookup connection = some s) :
    c.socket connection = s.socket := by
  unfold socket
  rw [h]
  rfl

/-- An exchange is one of the socket of the connection. -/
theorem exchangeProtoMsg_exchanged (parse : List UInt8 → Option Response) {s : ProtoSendSocket}
    (hs : c.connections.lookup connection = some s) (hconn : s.isConnected = true)
    (wire : ProtoWire) (sendMsg : Option Request) (recMsg : Bool) : ∃ s',
      ProtoSendSocket.Exchanged parse wire sendMsg recMsg s
        (exchangeProtoMsg parse wire connection sendMsg recMsg c).1 s' ∧
      (exchangeProtoMsg parse wire connection sendMsg recMsg c).2.socket connection = s'.socket := by
  unfold exchangeProtoMsg
  rw [onConnection_of_lookup hs]
  exact ⟨_, ProtoSendSocket.exchanged parse wire sendMsg recMsg hconn,
    socket_of_lookup (Finmap.lookup_insert _)⟩

/-- **The reply that is delivered** is the one to the request that was just
sent: none is unread when it is. -/
theorem own_of_turn {s : ProtoSendSocket} (hs : c.connections.lookup connection = some s)
    (hturn : s.Turn (unread connection)) : Own parse c connection := by
  intro wire sendMsg recMsg k response hreturn
  obtain ⟨s', hexchanged, -⟩ :=
    exchangeProtoMsg_exchanged parse hs hturn.isConnected wire sendMsg recMsg
  rw [hreturn] at hexchanged
  generalize hresult : (Except.ok (k, response) : Except Exn (ℕ × Response)) = result at hexchanged
  cases hexchanged with
  | refused hnot => cases hresult
  | unread hcarries hfree hunread => cases hresult
  | read data hcarries hfree hroom harrival =>
      obtain ⟨hk, hparse⟩ := ProtoSendSocket.delivered_ok hresult.symm
      refine ⟨?_, data, harrival, hparse⟩
      have hsent := hturn.sent
      rw [← hturn.awaiting, hfree] at hsent
      rw [hk, socket_of_lookup hs, hsent]
      rfl

/-- **An exchange whose reply arrives** receives it exactly if none is unread
before. -/
theorem healthy_iff {s : ProtoSendSocket} (hs : c.connections.lookup connection = some s)
    (hturn : s.Turn (unread connection)) :
    Healthy parse c connection ↔ unread connection = false := by
  constructor
  · intro hhealthy
    obtain ⟨hreceived, -⟩ := hhealthy ⟨true, true, some []⟩ (some (.unknown)) [] rfl rfl
    obtain ⟨s', hexchanged, hsocket⟩ := exchangeProtoMsg_exchanged parse hs
      hturn.isConnected ⟨true, true, some []⟩ (some (.unknown)) true
    rw [hsocket, socket_of_lookup hs] at hreceived
    -- only an exchange that reads its reply has one more
    generalize (exchangeProtoMsg parse _ connection _ true c).1 = result at hexchanged
    cases hexchanged with
    | refused hnot => omega
    | unread hcarries hfree hunread => cases hunread
    | read data hcarries hfree hroom harrival => exact hturn.awaiting.symm.trans hfree
  · intro hread wire sendMsg data hcarries harrival
    obtain ⟨s', hexchanged, hsocket⟩ :=
      exchangeProtoMsg_exchanged parse hs hturn.isConnected wire sendMsg true
    have hfree : s.socket.awaiting = false := hturn.awaiting.trans hread
    have hsent := hturn.sent
    rw [hread] at hsent
    rw [hsocket, socket_of_lookup hs]
    generalize (exchangeProtoMsg parse wire connection sendMsg true c).1 = result at hexchanged
    cases hexchanged with
    | refused hnot =>
        rcases hnot with hnot | hawaiting
        · exact absurd (hcarries.symm.trans hnot) (by simp)
        · exact absurd (hawaiting.symm.trans hfree) (by simp)
    | unread _ _ hunread =>
        rw [harrival] at hunread
        cases hunread
    | read data' _ _ _ harrival' =>
        obtain rfl : data = data' := Option.some.inj (harrival.symm.trans harrival')
        refine ⟨rfl, fun response hparse hgood => ?_⟩
        rw [hparse, ProtoSendSocket.delivered_of_good hgood, hsent]
        rfl

/-- **An exchange that returns delivers its own reply; and one whose reply
arrives in time receives it** exactly if no call before it has left a
reply unread on the connection. -/
theorem exchanges_succeed_iff (hreach : (runs parse).Reachable (c, unread))
    (hconn : connection ∈ c.connections) :
    Own parse c connection ∧ (Healthy parse c connection ↔ unread connection = false) := by
  have hturns : c.Turns unread := (turns_invariant parse).reachable hreach
  obtain ⟨s, hs⟩ := Finmap.mem_iff.mp hconn
  have hturn := hturns.1 connection s hs
  exact ⟨own_of_turn hs hturn, healthy_iff hs hturn⟩

/-- The states of a run, call after call. -/
def next (parse : List UInt8 → Option Response) (p : ProtoClient × (String → Bool))
    (call : ProtoCall) : ProtoClient × (String → Bool) :=
  (p.1.exec parse call, fun connection => p.2 connection || call.leavesUnread connection)

/-- The calls of a list can be made one after the other. -/
theorem reachable_foldl {calls : List ProtoCall}
    (h : System.MeetsAlong (fun p call => p.1.Enabled call) (next parse) (⟨∅⟩, fun _ => false)
      calls) :
    (runs parse).Reachable (calls.foldl (next parse) (⟨∅⟩, fun _ => false)) := by
  have hinit : (runs parse).Reachable (⟨∅⟩, fun _ => false) := .init ⟨rfl, rfl⟩
  have hstep : ∀ p call, p.1.Enabled call → (runs parse).Step p call (next parse p call) :=
    fun p call henabled => ⟨⟨henabled, rfl⟩, rfl⟩
  exact hinit.along (h.steps hstep)

/-- Every reply is an empty `Any`. -/
def parseEmpty : List UInt8 → Option Response := fun _ => some .empty

/-- A new client after some calls. -/
def afterCalls (calls : List ProtoCall) : ProtoClient × (String → Bool) :=
  calls.foldl (next parseEmpty) (⟨∅⟩, fun _ => false)

/-- A client connects, and exchanges a message. -/
def oneExchange : List ProtoCall :=
  [.connectProto true "127.0.0.1:5200",
    .exchangeProtoMsg ⟨true, true, some []⟩ "127.0.0.1:5200" (some .unknown) true]

theorem exchanges_succeed_once :
    Own parseEmpty (afterCalls oneExchange).1 "127.0.0.1:5200" ∧
      (Healthy parseEmpty (afterCalls oneExchange).1 "127.0.0.1:5200" ↔
        (afterCalls oneExchange).2 "127.0.0.1:5200" = false) := by
  exact exchanges_succeed_iff (reachable_foldl (by decide)) (by decide)

/-- A client connects and sends a message, whose reply nobody receives. -/
def oneWay : List ProtoCall :=
  [.connectProto true "127.0.0.1:5200",
    .sendProtoMsg ⟨true, true, none⟩ "127.0.0.1:5200" (some .unknown)]

/-- Or it exchanges one, and the reply does not arrive in time. -/
def timedOut : List ProtoCall :=
  [.connectProto true "127.0.0.1:5200",
    .exchangeProtoMsg ⟨true, true, none⟩ "127.0.0.1:5200" (some .unknown) true]

/-- What the client returns for one more message, whose reply arrives. -/
def oneMore (c : ProtoClient) : Except Exn (ℕ × Response) :=
  (exchangeProtoMsg parseEmpty ⟨true, true, some []⟩ "127.0.0.1:5200" (some .unknown) true c).1

/-- **An exchange whose reply would arrive** is refused after either. -/
theorem exchange_after_unread_refused :
    (runs parseEmpty).Reachable (afterCalls oneWay) ∧
      oneMore (afterCalls oneWay).1 = .error (.runtimeError "Cannot send message") ∧
      ¬ Healthy parseEmpty (afterCalls oneWay).1 "127.0.0.1:5200" ∧
      (runs parseEmpty).Reachable (afterCalls timedOut) ∧
      oneMore (afterCalls timedOut).1 = .error (.runtimeError "Cannot send message") ∧
      ¬ Healthy parseEmpty (afterCalls timedOut).1 "127.0.0.1:5200" := by
  refine ⟨reachable_foldl (by decide), rfl, fun hhealthy => ?_,
    reachable_foldl (by decide), rfl, fun hhealthy => ?_⟩
  · exact absurd (hhealthy ⟨true, true, some []⟩ (some .unknown) [] rfl rfl).1 (by decide)
  · exact absurd (hhealthy ⟨true, true, some []⟩ (some .unknown) [] rfl rfl).1 (by decide)

end ProtoClient

end RdmaManager
