import Mathlib.Algebra.BigOperators.Group.Finset.Basic
import Mathlib.Algebra.Order.BigOperators.Group.Finset
import RdmaManager.Common.Mailbox
import RdmaManager.Common.Termination
/-!
# The rounds of the latency benchmark

A client thread of the latency benchmark takes its connections in turn, and
on each of them sends a packet, waits for it to come back, and posts the
next receive. A server thread has posted one receive before it waits. In
immediate mode the client posts its receive first, and the server posts
none in its last round. A message that finds no receive fails.

The client sleeps before it begins, so that the server threads have posted
their receives. That is all it has to wait for: every later message finds
a receive (`messages_find`), and the loops of both sides end, in whichever
order their calls are made (`pingPong_ends`).
-/

namespace RdmaManager

/-- `SEND_RECEIVE_OPERATION`, and `WRITE_OPERATION` with
`WRITE_MODE_IMMEDIATE`. -/
inductive PingPongMode
  | sendReceive
  | immediate
  deriving DecidableEq, Repr

/-- What is measured: `m_iterations_per_thread`, and the number of
`m_rdma_addresses`. -/
structure PingPong where
  mode : PingPongMode
  iterations : ℕ
  conns : ℕ
  deriving DecidableEq, Repr

/-- Where `LatencyPerfClientThread::run` stands. -/
inductive PingPongClient
  /-- It posts the first receive of a connection. -/
  | posting (connIdx : ℕ)
  /-- It is about to make the call on a connection. -/
  | turn (i connIdx : ℕ) (call : MailCall)
  | returned
  /-- A packet of its found no receive. -/
  | refused (i connIdx : ℕ)
  deriving DecidableEq, Repr

/-- Where `LatencyPerfServerThread::run` stands. -/
inductive PingPongServer
  /-- It posts its first receive. -/
  | begins
  | turn (i : ℕ) (call : MailCall)
  | returned
  | refused
  deriving DecidableEq, Repr

namespace PingPong

variable (c : PingPong)

/-! ## The client -/

/-- What a client begins with on a connection. -/
def firstCall : MailCall :=
  match c.mode with
  | .sendReceive => .send
  | .immediate => .receive

/-- What it does next there. -/
def followUp (call : MailCall) : Option MailCall :=
  match c.mode, call with
  | .sendReceive, .send => some .pollReceive
  | .sendReceive, .pollReceive => some .receive
  | .sendReceive, .receive => none
  | .immediate, .receive => some .send
  | .immediate, .send => some .pollReceive
  | .immediate, .pollReceive => none

/-- The loops begin. -/
def firstTurn : PingPongClient :=
  if 0 < c.iterations ∧ 0 < c.conns then .turn 0 0 c.firstCall else .returned

/-- They go on, with the next connection or the next iteration. -/
def nextTurn (i connIdx : ℕ) : PingPongClient :=
  if connIdx + 1 < c.conns then .turn i (connIdx + 1) c.firstCall
  else if i + 1 < c.iterations then .turn (i + 1) 0 c.firstCall
  else .returned

/-- Where the client begins. -/
def clientStart : PingPongClient :=
  match c.mode with
  | .sendReceive => if 0 < c.conns then .posting 0 else c.firstTurn
  | .immediate => c.firstTurn

/-- The call it makes next. -/
def clientCall : PingPongClient → Option (ℕ × MailCall)
  | .posting connIdx => some (connIdx, .receive)
  | .turn _ connIdx call => some (connIdx, call)
  | _ => none

/-- **`LatencyPerfClientThread::run`**, after its call. -/
def clientNext (success : Bool) : PingPongClient → PingPongClient
  | .posting connIdx => if connIdx + 1 < c.conns then .posting (connIdx + 1) else c.firstTurn
  | .turn i connIdx call =>
      if success then
        match c.followUp call with
        | some call => .turn i connIdx call
        | none => c.nextTurn i connIdx
      else .refused i connIdx
  | stage => stage

/-! ## A server thread -/

/-- How often it sends a packet back. -/
def rounds : ℕ :=
  match c.mode with
  | .sendReceive => c.iterations
  | .immediate => max c.iterations 1

/-- Its call. -/
def serverCall : PingPongServer → Option MailCall
  | .begins => some .receive
  | .turn _ call => some call
  | _ => none

/-- It posts another receive in the round. -/
def Reposts (i : ℕ) : Prop := c.mode = .sendReceive ∨ i + 1 < c.iterations

instance (i : ℕ) : Decidable (c.Reposts i) := inferInstanceAs (Decidable (_ ∨ _))

/-- **`LatencyPerfServerThread::run`**, after its call. -/
def serverNext (success : Bool) : PingPongServer → PingPongServer
  | .begins => if 0 < c.rounds then .turn 0 .pollReceive else .returned
  | .turn i .pollReceive => if c.Reposts i then .turn i .receive else .turn i .send
  | .turn i .receive => .turn i .send
  | .turn i .send =>
      if success then
        if i + 1 < c.rounds then .turn (i + 1) .pollReceive else .returned
      else .refused
  | stage => stage

end PingPong

/-- **A client thread and the server threads it talks to**, with their ends
of the connections. -/
structure PingPongRun where
  client : PingPongClient
  clientEnds : ℕ → Mailbox
  servers : ℕ → PingPongServer
  serverEnds : ℕ → Mailbox

/-- Who makes a call. -/
inductive PingPongEvent
  | client
  | server (connIdx : ℕ)
  deriving DecidableEq, Repr

namespace PingPongRun

open Mailbox

variable (c : PingPong) (w : PingPongRun)

/-- The call of a server thread, on its connection. -/
def callOf (connIdx : ℕ) : Option (ℕ × MailCall) :=
  (PingPong.serverCall (w.servers connIdx)).map fun call => (connIdx, call)

/-- There is a call to make, and if it is a poll its message has come. -/
def Enabled : PingPongEvent → Prop
  | .client => PingPong.clientCall w.client ≠ none ∧
      Ready w.clientEnds w.serverEnds (PingPong.clientCall w.client)
  | .server connIdx => connIdx < c.conns ∧ w.callOf connIdx ≠ none ∧
      Ready w.serverEnds w.clientEnds (w.callOf connIdx)

instance : ∀ e, Decidable (w.Enabled c e)
  | .client => inferInstanceAs (Decidable (_ ∧ _))
  | .server _ => inferInstanceAs (Decidable (_ ∧ _ ∧ _))

/-- The call is made. -/
def exec : PingPongEvent → PingPongRun
  | .client =>
      let call := PingPong.clientCall w.client
      let success := succeeds w.clientEnds w.serverEnds call
      { w with client := c.clientNext success w.client, clientEnds := made w.clientEnds success call }
  | .server connIdx =>
      let call := w.callOf connIdx
      let success := succeeds w.serverEnds w.clientEnds call
      { w with
        servers := Function.update w.servers connIdx (c.serverNext success (w.servers connIdx))
        serverEnds := made w.serverEnds success call }

/-- Nothing was called yet. -/
def start : PingPongRun := ⟨c.clientStart, fun _ => ⟨0, 0, 0⟩, fun _ => .begins, fun _ => ⟨0, 0, 0⟩⟩

/-- **The runs of a measurement.** -/
def runs : System PingPongRun PingPongEvent where
  Init w := w = start c
  Step w e w' := w.Enabled c e ∧ w' = w.exec c e

/-- The runs in which the client begins after the server threads have posted
their receives. -/
def patient : System PingPongRun PingPongEvent :=
  (runs c).restrict fun w e => e = .client → ∀ k < c.conns, w.servers k ≠ .begins

/-- Both sides have returned. -/
def Complete : Prop := w.client = .returned ∧ ∀ k < c.conns, w.servers k = .returned

end PingPongRun

/-! ## What was called -/

namespace PingPong

open Mailbox

variable {c : PingPong} {i j k r : ℕ} {call call' : MailCall} {s : PingPongClient}
variable {t : PingPongServer}

/-- The receives that no message uses. -/
def spare (c : PingPong) : ℕ :=
  match c.mode with
  | .sendReceive => 1
  | .immediate => 0

/-- The client's end of a connection before a call of the `r`-th round. -/
def clientAt (c : PingPong) (r : ℕ) : MailCall → Mailbox
  | .receive =>
      match c.mode with
      | .sendReceive => ⟨r + 1, r + 1, r + 1⟩
      | .immediate => ⟨r, r, r⟩
  | .send => ⟨r + 1, r, r⟩
  | .pollReceive => ⟨r + 1, r + 1, r⟩

/-- The client's ends where it stands. -/
def clientMail (c : PingPong) : PingPongClient → ℕ → Mailbox
  | .posting j, k => ⟨if k < j then 1 else 0, 0, 0⟩
  | .turn i j call, k =>
      if k < j then c.clientAt (i + 1) c.firstCall
      else if k = j then c.clientAt i call else c.clientAt i c.firstCall
  | .returned, _ => c.clientAt c.iterations c.firstCall
  | .refused i j, k =>
      if k < j then c.clientAt (i + 1) c.firstCall
      else if k = j then c.clientAt i .send else c.clientAt i c.firstCall

/-- The loops are not over where the client stands in them. -/
def ClientOk (c : PingPong) : PingPongClient → Prop
  | .posting j => c.mode = .sendReceive ∧ j < c.conns
  | .turn i j _ => i < c.iterations ∧ j < c.conns
  | .returned => True
  | .refused i j => i < c.iterations ∧ j < c.conns

/-- The end of a server thread where it stands. -/
def serverMail (c : PingPong) : PingPongServer → Mailbox
  | .begins => ⟨0, 0, 0⟩
  | .turn i .pollReceive => ⟨i + 1, i, i⟩
  | .turn i .receive => ⟨i + 1, i, i + 1⟩
  | .turn i .send => ⟨i + 1 + if c.Reposts i then 1 else 0, i, i + 1⟩
  | .returned => ⟨c.rounds + c.spare, c.rounds, c.rounds⟩
  | .refused => ⟨0, 0, 0⟩

/-- It is in one of its rounds, and nothing of it has failed. -/
def ServerOk (c : PingPong) : PingPongServer → Prop
  | .turn i call => i < c.rounds ∧ (call = .receive → c.Reposts i)
  | .refused => False
  | _ => True

/-! ### The client -/

theorem clientAt_firstCall (r : ℕ) : c.clientAt r c.firstCall = ⟨r + c.spare, r, r⟩ := by
  unfold firstCall spare
  cases hmode : c.mode with
  | sendReceive => rfl
  | immediate => simp only [clientAt, hmode, Nat.add_zero]

theorem after_followUp (h : c.followUp call = some call') :
    (c.clientAt r call).after call = c.clientAt r call' := by
  unfold followUp at h
  cases hmode : c.mode <;> cases call <;> rw [hmode] at h <;> simp at h <;> subst h <;>
    simp [clientAt, Mailbox.after, hmode]

theorem after_last (h : c.followUp call = none) :
    (c.clientAt r call).after call = c.clientAt (r + 1) c.firstCall := by
  rw [clientAt_firstCall]
  unfold followUp at h
  cases hmode : c.mode <;> cases call <;> rw [hmode] at h <;>
    simp [clientAt, Mailbox.after, spare, hmode] at h ⊢

theorem clientMail_firstTurn (hk : k < c.conns) :
    c.clientMail c.firstTurn k = c.clientAt 0 c.firstCall := by
  unfold firstTurn
  split_ifs with hloops
  · simp [clientMail]
  · have hnone : c.iterations = 0 := by omega
    rw [clientMail, hnone]

theorem clientMail_nextTurn (hi : i < c.iterations) (hk : k < c.conns) :
    c.clientMail (c.nextTurn i j) k =
      if k ≤ j then c.clientAt (i + 1) c.firstCall else c.clientAt i c.firstCall := by
  unfold nextTurn
  split_ifs with hnext hle hmore
  · exact if_pos (Nat.lt_succ_of_le hle)
  · rw [clientMail, if_neg (by omega)]
    split_ifs <;> rfl
  · simp [clientMail]
  · omega
  · have hlast : i + 1 = c.iterations := by omega
    rw [clientMail, hlast]
  · omega

theorem ClientOk.firstTurn : c.ClientOk c.firstTurn := by
  unfold PingPong.firstTurn
  split_ifs with hloops
  · exact hloops
  · trivial

theorem ClientOk.nextTurn (hi : i < c.iterations) (hconns : 0 < c.conns) :
    c.ClientOk (c.nextTurn i j) := by
  unfold PingPong.nextTurn
  split_ifs with hnext hmore
  · exact ⟨hi, hnext⟩
  · exact ⟨hmore, hconns⟩
  · trivial

theorem ClientOk.call_lt (h : c.ClientOk s) (hcall : clientCall s = some (j, call)) :
    j < c.conns := by
  cases s with
  | posting j' =>
      obtain ⟨rfl, -⟩ : j' = j ∧ _ := by simpa [clientCall] using hcall
      exact h.2
  | turn i j' call' =>
      obtain ⟨rfl, -⟩ : j' = j ∧ _ := by simpa [clientCall] using hcall
      exact h.2
  | returned => simp [clientCall] at hcall
  | refused i j' => simp [clientCall] at hcall

theorem ClientOk.next (h : c.ClientOk s) (success : Bool) :
    c.ClientOk (c.clientNext success s) := by
  cases s with
  | posting j =>
      rw [clientNext]
      split_ifs with hmore
      · exact ⟨h.1, hmore⟩
      · exact ClientOk.firstTurn
  | turn i j call =>
      rw [clientNext]
      cases success with
      | false => exact h
      | true =>
          cases hnext : c.followUp call with
          | some call' => exact h
          | none => exact ClientOk.nextTurn h.1 (Nat.zero_lt_of_lt h.2)
  | returned => trivial
  | refused i j => exact h

/-- **What one call of the client does** to its ends. -/
theorem clientMail_next (h : c.ClientOk s) (hcall : clientCall s = some (j, call))
    (hk : k < c.conns) :
    c.clientMail (c.clientNext true s) k =
      if k = j then (c.clientMail s k).after call else c.clientMail s k := by
  cases s with
  | returned => simp [clientCall] at hcall
  | refused i j' => simp [clientCall] at hcall
  | posting j' =>
      obtain ⟨rfl, rfl⟩ : j' = j ∧ MailCall.receive = call := by simpa [clientCall] using hcall
      rw [clientNext]
      split_ifs with hmore hself hself
      · simp [clientMail, Mailbox.after, hself]
      · have hiff : k < j' + 1 ↔ k < j' := by omega
        simp only [clientMail, hiff]
      · rw [clientMail_firstTurn hk, clientAt_firstCall]
        simp [clientMail, Mailbox.after, hself, spare, h.1]
      · have hlt : k < j' := by omega
        rw [clientMail_firstTurn hk, clientAt_firstCall]
        simp [clientMail, hlt, spare, h.1]
  | turn i j' call' =>
      obtain ⟨rfl, rfl⟩ : j' = j ∧ call' = call := by simpa [clientCall] using hcall
      rw [clientNext, if_pos rfl]
      cases hnext : c.followUp call' with
      | some call =>
          rcases eq_or_ne k j' with rfl | hne
          · simp [clientMail, after_followUp hnext]
          · simp [clientMail, hne]
      | none =>
          rw [clientMail_nextTurn h.1 hk]
          rcases lt_trichotomy k j' with hlt | rfl | hlt
          · simp [clientMail, hlt, hlt.le, hlt.ne]
          · simp [clientMail, after_last hnext]
          · simp [clientMail, hlt.not_gt, hlt.not_ge, hlt.ne']

/-- A client posts its receives before it sends. -/
theorem sent_le_posted (s : PingPongClient) (k : ℕ) :
    (c.clientMail s k).sent ≤ (c.clientMail s k).posted := by
  have hat : ∀ r call, (c.clientAt r call).sent ≤ (c.clientAt r call).posted := by
    intro r call
    cases call with
    | receive =>
        unfold clientAt
        cases c.mode <;> exact le_rfl
    | send => exact Nat.le_succ r
    | pollReceive => exact le_rfl
  cases s with
  | posting j => exact Nat.zero_le _
  | returned => exact hat _ _
  | turn i j call =>
      simp only [clientMail]
      split_ifs <;> exact hat _ _
  | refused i j =>
      simp only [clientMail]
      split_ifs <;> exact hat _ _

theorem total_clientMail (h : c.ClientOk s) (k : ℕ) :
    (c.clientMail s k).total ≤ 3 * c.iterations + 3 := by
  have hat : ∀ r ≤ c.iterations, ∀ call, (c.clientAt r call).total ≤ 3 * c.iterations + 3 := by
    intro r hr call
    cases call with
    | receive =>
        unfold clientAt
        cases c.mode <;> simp only [Mailbox.total] <;> omega
    | send =>
        simp only [clientAt, Mailbox.total]
        omega
    | pollReceive =>
        simp only [clientAt, Mailbox.total]
        omega
  cases s with
  | posting j =>
      simp only [clientMail, Mailbox.total]
      split_ifs <;> omega
  | returned => exact hat _ le_rfl _
  | turn i j call =>
      simp only [clientMail]
      split_ifs
      · exact hat _ h.1 _
      · exact hat _ h.1.le _
      · exact hat _ h.1.le _
  | refused i j =>
      simp only [clientMail]
      split_ifs
      · exact hat _ h.1 _
      · exact hat _ h.1.le _
      · exact hat _ h.1.le _

/-! ### A server thread -/

theorem rounds_sendReceive (h : c.mode = .sendReceive) : c.rounds = c.iterations := by
  simp [rounds, h]

theorem rounds_immediate (h : c.mode = .immediate) : c.rounds = max c.iterations 1 := by
  simp [rounds, h]

theorem iterations_le_rounds (c : PingPong) : c.iterations ≤ c.rounds := by
  cases hmode : c.mode with
  | sendReceive => exact (rounds_sendReceive hmode).ge
  | immediate => exact rounds_immediate hmode ▸ le_max_left _ _

theorem rounds_eq (hmode : c.mode = .immediate → 0 < c.iterations) : c.rounds = c.iterations := by
  cases hc : c.mode with
  | sendReceive => exact rounds_sendReceive hc
  | immediate =>
      have hpos := hmode hc
      rw [rounds_immediate hc]
      omega

theorem reposts_of_lt (h : i + 1 < c.rounds) : c.Reposts i := by
  cases hmode : c.mode with
  | sendReceive => exact Or.inl hmode
  | immediate =>
      rw [rounds_immediate hmode] at h
      refine Or.inr ?_
      omega

/-- The receives that are left after the last round. -/
theorem reposts_last (h : i + 1 = c.rounds) : (if c.Reposts i then 1 else 0) = c.spare := by
  cases hmode : c.mode with
  | sendReceive =>
      have hreposts : c.Reposts i := Or.inl hmode
      simp [hreposts, spare, hmode]
  | immediate =>
      rw [rounds_immediate hmode] at h
      have hover : ¬ i + 1 < c.iterations := by omega
      have hreposts : ¬ c.Reposts i := by simp [Reposts, hmode, hover]
      simp [hreposts, spare, hmode]

/-- **What one call of a server thread does** to its end. -/
theorem serverMail_next (h : c.ServerOk t) (hcall : serverCall t = some call) :
    c.serverMail (c.serverNext true t) = (c.serverMail t).after call ∧
      c.ServerOk (c.serverNext true t) := by
  cases t with
  | returned => simp [serverCall] at hcall
  | refused => simp [serverCall] at hcall
  | begins =>
      obtain rfl : MailCall.receive = call := by simpa [serverCall] using hcall
      rw [serverNext]
      split_ifs with hrounds
      · exact ⟨rfl, hrounds, by simp⟩
      · have hnone : c.rounds = 0 := by omega
        have hspare : c.spare = 1 := by
          cases hmode : c.mode with
          | sendReceive => simp [spare, hmode]
          | immediate =>
              have hone := rounds_immediate hmode
              omega
        refine ⟨?_, trivial⟩
        simp [serverMail, Mailbox.after, hnone, hspare]
  | turn i call' =>
      obtain rfl : call' = call := by simpa [serverCall] using hcall
      cases call' with
      | pollReceive =>
          rw [serverNext]
          split_ifs with hreposts
          · exact ⟨rfl, h.1, fun _ => hreposts⟩
          · refine ⟨?_, h.1, by simp⟩
            simp [serverMail, Mailbox.after, hreposts]
      | receive =>
          refine ⟨?_, h.1, by simp⟩
          simp [serverNext, serverMail, Mailbox.after, h.2 rfl]
      | send =>
          have hi := h.1
          rw [serverNext, if_pos rfl]
          split_ifs with hmore
          · refine ⟨?_, hmore, by simp⟩
            simp [serverMail, Mailbox.after, reposts_of_lt hmore]
          · have hlast : i + 1 = c.rounds := by omega
            refine ⟨?_, trivial⟩
            simp only [serverMail, Mailbox.after]
            rw [reposts_last hlast, hlast]

theorem total_serverMail (h : c.ServerOk t) : (c.serverMail t).total ≤ 3 * c.iterations + 3 := by
  have hrounds : 3 * c.rounds + c.spare ≤ 3 * c.iterations + 3 := by
    cases hmode : c.mode with
    | sendReceive =>
        rw [rounds_sendReceive hmode]
        simp [spare, hmode]
    | immediate =>
        rw [rounds_immediate hmode]
        simp only [spare, hmode]
        omega
  cases t with
  | begins => exact Nat.zero_le _
  | refused => exact Nat.zero_le _
  | returned =>
      simp only [serverMail, Mailbox.total]
      omega
  | turn i call =>
      have hi := h.1
      cases call with
      | pollReceive =>
          simp only [serverMail, Mailbox.total]
          omega
      | receive =>
          simp only [serverMail, Mailbox.total]
          omega
      | send =>
          simp only [serverMail, Mailbox.total]
          split_ifs <;> omega

/-- **A receive for the client's next message** is posted before the last
one is answered. -/
theorem room (h : c.ServerOk t) (hbegun : t ≠ .begins) (hi : i < c.iterations)
    (hle : i ≤ (c.serverMail t).sent) : i < (c.serverMail t).posted := by
  cases t with
  | begins => exact absurd rfl hbegun
  | refused => exact absurd h not_false
  | returned =>
      have hrounds := c.iterations_le_rounds
      simp only [serverMail]
      omega
  | turn i' call =>
      cases call <;> simp only [serverMail] at hle ⊢ <;> omega

end PingPong

namespace PingPongRun

open Mailbox PingPong

variable {c : PingPong} {w : PingPongRun} {j k : ℕ} {call : MailCall} {e : PingPongEvent}

/-! ## The invariant -/

/-- **Where both sides stand tells what they have called**, and no message
was lost. -/
structure Inv (c : PingPong) (w : PingPongRun) : Prop where
  client : c.ClientOk w.client
  server : ∀ k < c.conns, c.ServerOk (w.servers k)
  clientEnds : ∀ k < c.conns, w.clientEnds k = c.clientMail w.client k
  serverEnds : ∀ k < c.conns, w.serverEnds k = c.serverMail (w.servers k)
  paired : ∀ k, Paired (w.clientEnds k) (w.serverEnds k)

/-- **An answer finds a receive**, which its client posted before it sent. -/
theorem Inv.answer_finds (h : Inv c w) (hk : k < c.conns)
    (hcall : serverCall (w.servers k) = some .send) :
    (w.serverEnds k).Allows (w.clientEnds k) .send := by
  have hpolled := (h.paired k).polled'
  have hposted := PingPong.sent_le_posted (c := c) w.client k
  rw [← h.clientEnds k hk] at hposted
  show _ < _
  rw [h.serverEnds k hk] at hpolled ⊢
  cases hstage : w.servers k with
  | turn i call =>
      obtain rfl : call = .send := by simpa [hstage, serverCall] using hcall
      simp only [hstage, serverMail] at hpolled ⊢
      omega
  | _ => simp [hstage, serverCall] at hcall

/-- Where the client is about to send. -/
theorem turn_of_send (hcall : clientCall w.client = some (k, .send)) :
    ∃ i, w.client = .turn i k .send := by
  cases hstage : w.client with
  | turn i j call =>
      obtain ⟨rfl, rfl⟩ : j = k ∧ call = .send := by simpa [hstage, clientCall] using hcall
      exact ⟨i, rfl⟩
  | _ => simp [hstage, clientCall] at hcall

/-- **A message of the client** finds a receive if and only if its server
thread has begun. -/
theorem Inv.message_finds_iff (h : Inv c w) (hcall : clientCall w.client = some (k, .send)) :
    (w.clientEnds k).Allows (w.serverEnds k) .send ↔ w.servers k ≠ .begins := by
  have hk := h.client.call_lt hcall
  obtain ⟨i, hstage⟩ := turn_of_send hcall
  have hclient := h.client
  have hpolled := (h.paired k).polled
  show _ < _ ↔ _
  rw [h.clientEnds k hk, h.serverEnds k hk] at hpolled ⊢
  rw [hstage] at hclient hpolled ⊢
  simp only [clientMail, clientAt, lt_irrefl, if_true, if_false] at hpolled ⊢
  constructor
  · rintro hroom hbegins
    rw [hbegins] at hroom
    exact Nat.not_lt_zero i hroom
  · intro hbegun
    exact PingPong.room (h.server k hk) hbegun hclient.1 hpolled

theorem Inv.start : Inv c (start c) where
  client := by
    show c.ClientOk c.clientStart
    unfold clientStart
    split
    · split_ifs with hconns
      · exact ⟨‹_›, hconns⟩
      · exact ClientOk.firstTurn
    · exact ClientOk.firstTurn
  server _ _ := trivial
  clientEnds k hk := by
    show _ = c.clientMail c.clientStart k
    unfold clientStart
    split
    · rw [if_pos (Nat.zero_lt_of_lt hk)]
      simp [PingPongRun.start, clientMail]
    · rw [clientMail_firstTurn hk, clientAt_firstCall]
      simp [PingPongRun.start, spare, *]
  serverEnds _ _ := rfl
  paired _ := ⟨le_rfl, le_rfl, le_rfl, le_rfl⟩

/-- What the client calls keeps the invariant; a message that fails stops
it. -/
theorem Inv.client_call (h : Inv c w) (henabled : w.Enabled c .client) :
    Inv c (w.exec c .client) := by
  obtain ⟨hsome, hready⟩ := henabled
  obtain ⟨⟨j, call⟩, hcall⟩ := Option.ne_none_iff_exists'.mp hsome
  refine ⟨h.client.next _, h.server, fun k hk => ?_, h.serverEnds, ?_⟩
  · simp only [exec, hcall]
    cases hsuccess : succeeds w.clientEnds w.serverEnds (some (j, call)) with
    | true =>
        rw [clientMail_next h.client hcall hk, ← h.clientEnds k hk]
        rcases eq_or_ne k j with rfl | hne
        · simp [made]
        · simp [made, hne]
    | false =>
        -- only a message fails
        obtain rfl : call = .send := by
          cases call <;> simp [Mailbox.succeeds] at hsuccess ⊢
        obtain ⟨i, hstage⟩ := turn_of_send hcall
        have hends := h.clientEnds k hk
        rw [hstage] at hends ⊢
        simp only [made, clientNext, Bool.false_eq_true, if_false]
        exact hends
  · exact Paired.made h.paired hready.can

/-- The call of a server thread is on its own connection. -/
theorem callOf_eq (hcall : serverCall (w.servers k) = some call) : w.callOf k = some (k, call) := by
  rw [callOf, hcall]
  rfl

theorem exists_call (hsome : w.callOf k ≠ none) : ∃ call, serverCall (w.servers k) = some call := by
  obtain ⟨_, hof⟩ := Option.ne_none_iff_exists'.mp hsome
  obtain ⟨call, hcall, -⟩ := Option.map_eq_some_iff.mp hof
  exact ⟨call, hcall⟩

theorem Inv.server_succeeds (h : Inv c w) (hk : k < c.conns) :
    Mailbox.succeeds w.serverEnds w.clientEnds (w.callOf k) = true := by
  cases hcall : serverCall (w.servers k) with
  | none =>
      rw [callOf, hcall]
      rfl
  | some call =>
      rw [callOf_eq hcall]
      cases call with
      | send => exact decide_eq_true (h.answer_finds hk hcall)
      | _ => rfl

theorem Inv.client_succeeds (h : Inv c w) (hbegun : ∀ k < c.conns, w.servers k ≠ .begins) :
    Mailbox.succeeds w.clientEnds w.serverEnds (clientCall w.client) = true := by
  rcases hcall : clientCall w.client with _ | ⟨k, call⟩
  · rfl
  · cases call with
    | send =>
        have hk := h.client.call_lt hcall
        exact decide_eq_true ((h.message_finds_iff hcall).mpr (hbegun k hk))
    | _ => rfl

/-- What a server thread calls keeps it. -/
theorem Inv.server_call (h : Inv c w) (henabled : w.Enabled c (.server k)) :
    Inv c (w.exec c (.server k)) := by
  obtain ⟨hk, hsome, hready⟩ := henabled
  obtain ⟨call, hcall⟩ := exists_call hsome
  have hsuccess := h.server_succeeds hk
  have hnext := serverMail_next (h.server k hk) hcall
  have hpaired : ∀ j, Paired (w.serverEnds j) (w.clientEnds j) := fun j => (h.paired j).symm
  refine ⟨h.client, fun j hj => ?_, h.clientEnds, fun j hj => ?_, fun j => ?_⟩
  · simp only [exec, hsuccess]
    rcases eq_or_ne j k with rfl | hne
    · rw [Function.update_self]
      exact hnext.2
    · rw [Function.update_of_ne hne]
      exact h.server j hj
  · simp only [exec, hsuccess]
    rw [callOf_eq hcall]
    rcases eq_or_ne j k with rfl | hne
    · simp only [made, if_true, Function.update_self]
      rw [h.serverEnds j hj, hnext.1]
    · simp only [made, if_true, Function.update_of_ne hne]
      exact h.serverEnds j hj
  · exact (Paired.made hpaired hready.can j).symm

theorem inv_invariant : (runs c).Invariant (Inv c) where
  init w h := by
    obtain rfl : w = PingPongRun.start c := h
    exact Inv.start
  step w e w' _ h hstep := by
    obtain ⟨henabled, rfl⟩ := hstep
    cases e with
    | client => exact h.client_call henabled
    | server k => exact h.server_call henabled

/-- **Every answer finds a receive, and every message of the client does
whose server thread has begun**, in every run. -/
theorem messages_find (h : (runs c).Reachable w) :
    (∀ k < c.conns, serverCall (w.servers k) = some .send →
      (w.serverEnds k).Allows (w.clientEnds k) .send) ∧
    ∀ k, clientCall w.client = some (k, .send) →
      ((w.clientEnds k).Allows (w.serverEnds k) .send ↔ w.servers k ≠ .begins) :=
  have hinv := inv_invariant.reachable h
  ⟨fun _ hk => hinv.answer_finds hk, fun _ => hinv.message_finds_iff⟩

/-- Two rounds over two connections, up to where the client is about to send
its last packet. -/
def lastRound : List PingPongEvent :=
  [.server 0, .server 1, .client, .client, .client, .server 0, .server 0, .server 0, .client, .client,
    .client, .server 1, .server 1, .server 1, .client, .client, .client, .server 0, .server 0, .server 0,
    .client, .client]

def asking : PingPongRun :=
  lastRound.foldl (exec ⟨.sendReceive, 2, 2⟩) (PingPongRun.start ⟨.sendReceive, 2, 2⟩)

/-- The last packet is about to be sent back. -/
def answering : PingPongRun :=
  [.client, .server 1, .server 1].foldl (exec ⟨.sendReceive, 2, 2⟩) asking

theorem messages_find_twoRounds :
    clientCall asking.client = some (1, .send) ∧
      (asking.clientEnds 1).Allows (asking.serverEnds 1) .send ∧
      serverCall (answering.servers 1) = some .send ∧
      (answering.serverEnds 1).Allows (answering.clientEnds 1) .send := by
  have hmeets : System.MeetsAlong (fun w e => w.Enabled ⟨.sendReceive, 2, 2⟩ e)
      (exec ⟨.sendReceive, 2, 2⟩) (PingPongRun.start ⟨.sendReceive, 2, 2⟩) lastRound := by
    decide +kernel
  have hasking : (runs ⟨.sendReceive, 2, 2⟩).Reachable asking :=
    System.Reachable.along (System.Reachable.init rfl)
      (hmeets.steps (M := runs ⟨.sendReceive, 2, 2⟩) fun _ _ henabled => ⟨henabled, rfl⟩)
  have hanswering : (runs ⟨.sendReceive, 2, 2⟩).Reachable answering := by
    refine System.Reachable.along hasking ?_
    exact ⟨⟨by decide +kernel, rfl⟩, ⟨by decide +kernel, rfl⟩, ⟨by decide +kernel, rfl⟩, trivial⟩
  exact ⟨by decide +kernel,
    ((messages_find hasking).2 1 (by decide +kernel)).mpr (by decide +kernel), by decide +kernel,
    (messages_find hanswering).1 1 (by decide) (by decide +kernel)⟩

/-! ## Every run ends -/

/-- The calls that are left at most. -/
def left (c : PingPong) (ends : ℕ → Mailbox) : ℕ :=
  ∑ k ∈ Finset.range c.conns, (3 * c.iterations + 3 - (ends k).total)

theorem left_made {ends : ℕ → Mailbox} (hj : j < c.conns)
    (hle : ((ends j).after call).total ≤ 3 * c.iterations + 3) :
    left c (made ends true (some (j, call))) < left c ends := by
  have htotal := (ends j).total_after call
  refine Finset.sum_lt_sum (fun k _ => ?_) ⟨j, Finset.mem_range.mpr hj, ?_⟩
  · rcases eq_or_ne k j with rfl | hne
    · simp only [made, if_true, Function.update_self]
      omega
    · simp only [made, if_true, Function.update_of_ne hne]
      exact le_rfl
  · simp only [made, if_true, Function.update_self]
    omega

/-- Where nothing fails, the client goes on. -/
theorem clientNext_ne_refused {s : PingPongClient} (h : ∀ i j, s ≠ .refused i j) (i j : ℕ) :
    c.clientNext true s ≠ .refused i j := by
  have hfirst : c.firstTurn ≠ .refused i j := by
    unfold firstTurn
    split_ifs <;> simp
  have hnext : ∀ i' j', c.nextTurn i' j' ≠ .refused i j := by
    intro i' j'
    unfold nextTurn
    split_ifs <;> simp
  cases s with
  | posting j' =>
      rw [clientNext]
      split_ifs
      · simp
      · exact hfirst
  | turn i' j' call =>
      rw [clientNext, if_pos rfl]
      cases c.followUp call with
      | some call => simp
      | none => exact hnext i' j'
  | returned => simp [clientNext]
  | refused i' j' => exact absurd rfl (h i' j')

theorem patient_invariant :
    (patient c).Invariant fun w => Inv c w ∧ ∀ i j, w.client ≠ .refused i j where
  init w h := by
    obtain rfl : w = PingPongRun.start c := h
    refine ⟨Inv.start, fun i j => ?_⟩
    show c.clientStart ≠ _
    unfold clientStart firstTurn
    split <;> split_ifs <;> simp
  step w e w' _ h hstep := by
    obtain ⟨hbegun, henabled, rfl⟩ := hstep
    cases e with
    | client =>
        refine ⟨h.1.client_call henabled, fun i j => ?_⟩
        simp only [exec, h.1.client_succeeds (hbegun rfl)]
        exact clientNext_ne_refused h.2 i j
    | server k => exact ⟨h.1.server_call henabled, h.2⟩

/-- **Every call brings the end nearer.** -/
theorem lower (h : Inv c w) (hbegun : e = .client → ∀ k < c.conns, w.servers k ≠ .begins)
    (henabled : w.Enabled c e) :
    left c (w.exec c e).clientEnds + left c (w.exec c e).serverEnds <
      left c w.clientEnds + left c w.serverEnds := by
  cases e with
  | client =>
      have hnext := h.client_call henabled
      obtain ⟨⟨j, call⟩, hcall⟩ := Option.ne_none_iff_exists'.mp henabled.1
      have hj := h.client.call_lt hcall
      have hsuccess := h.client_succeeds (hbegun rfl)
      rw [hcall] at hsuccess
      have hends : (w.exec c .client).clientEnds = made w.clientEnds true (some (j, call)) := by
        simp only [exec, hcall, hsuccess]
      have hle := total_clientMail hnext.client j
      rw [← hnext.clientEnds j hj, hends] at hle
      simp only [made, if_true, Function.update_self] at hle
      rw [hends]
      exact Nat.add_lt_add_right (left_made hj hle) _
  | server k =>
      have hnext := h.server_call henabled
      obtain ⟨hk, hsome, -⟩ := henabled
      obtain ⟨call, hcall⟩ := exists_call hsome
      have hends : (w.exec c (.server k)).serverEnds = made w.serverEnds true (some (k, call)) := by
        simp only [exec, h.server_succeeds hk]
        rw [callOf_eq hcall]
      have hle := total_serverMail (hnext.server k hk)
      rw [← hnext.serverEnds k hk, hends] at hle
      simp only [made, if_true, Function.update_self] at hle
      rw [hends]
      exact Nat.add_lt_add_left (left_made hk hle) _

/-! ### Where nothing can be called -/

/-- A server thread that is not over waits for a message, or can go on. -/
theorem enabled_server (hk : k < c.conns) (hcall : serverCall (w.servers k) = some call)
    (hcome : call = .pollReceive → (w.serverEnds k).polled < (w.clientEnds k).sent) :
    w.Enabled c (.server k) := by
  refine ⟨hk, ?_, ?_⟩
  · rw [callOf_eq hcall]
    exact Option.some_ne_none _
  · rw [callOf_eq hcall]
    cases call with
    | pollReceive => exact hcome rfl
    | _ => trivial

/-- **A client that waits** has asked its server, which can go on. -/
theorem Inv.server_of_waiting (h : Inv c w) (hstage : w.client = .turn i k .pollReceive)
    (hwaits : (w.serverEnds k).sent ≤ (w.clientEnds k).polled) : w.Enabled c (.server k) := by
  have hclient := h.client
  rw [hstage] at hclient
  obtain ⟨hi, hk⟩ := hclient
  have hserver := h.server k hk
  have hends := h.clientEnds k hk
  have hanswers := h.serverEnds k hk
  simp only [hstage, clientMail, clientAt, lt_irrefl, if_true, if_false] at hends
  rw [hends] at hwaits
  cases hs : w.servers k with
  | begins => exact enabled_server hk (by rw [hs]; rfl) (by simp)
  | turn i' call =>
      refine enabled_server hk (by rw [hs]; rfl) fun hpoll => ?_
      rw [hs] at hanswers
      subst hpoll
      rw [hanswers] at hwaits ⊢
      rw [hends]
      exact Nat.lt_succ_of_le hwaits
  | returned =>
      have hrounds := c.iterations_le_rounds
      rw [hs] at hanswers
      rw [hanswers] at hwaits
      simp only [serverMail] at hwaits
      omega
  | refused =>
      rw [hs] at hserver
      exact absurd hserver not_false

/-- Nobody waits for ever. -/
theorem Inv.complete_of_stuck (hmode : c.mode = .immediate → 0 < c.iterations) (h : Inv c w)
    (hserved : ∀ i j, w.client ≠ .refused i j) (hserver : ∀ k, ¬ w.Enabled c (.server k))
    (hclient : (∀ k < c.conns, w.servers k ≠ .begins) → ¬ w.Enabled c .client) :
    w.Complete c := by
  have hbegun : ∀ k < c.conns, w.servers k ≠ .begins := by
    intro k hk hs
    exact hserver k (enabled_server hk (by rw [hs]; rfl) (by simp))
  have hidle : ∀ k call, clientCall w.client = some (k, call) →
      Ready w.clientEnds w.serverEnds (some (k, call)) → False := by
    intro k call hcall hready
    refine hclient hbegun ⟨?_, ?_⟩
    · rw [hcall]
      exact Option.some_ne_none _
    · rw [hcall]
      exact hready
  have hreturned : w.client = .returned := by
    cases hstage : w.client with
    | returned => rfl
    | refused i j => exact absurd hstage (hserved i j)
    | posting j => exact absurd trivial (hidle j .receive (by rw [hstage]; rfl))
    | turn i k call =>
        have hcall : clientCall w.client = some (k, call) := by rw [hstage]; rfl
        cases call with
        | receive => exact absurd trivial (hidle k .receive hcall)
        | send => exact absurd trivial (hidle k .send hcall)
        | pollReceive =>
            refine absurd (h.server_of_waiting hstage (Nat.le_of_not_lt fun hcome => ?_)) (hserver k)
            exact hidle k .pollReceive hcall hcome
  refine ⟨hreturned, fun k hk => ?_⟩
  have hends := h.clientEnds k hk
  have hok := h.server k hk
  simp only [hreturned, clientMail, clientAt_firstCall] at hends
  cases hs : w.servers k with
  | returned => rfl
  | begins => exact absurd hs (hbegun k hk)
  | refused =>
      rw [hs] at hok
      exact absurd hok not_false
  | turn i call =>
      have hanswers := h.serverEnds k hk
      rw [hs] at hok hanswers
      refine absurd (enabled_server (c := c) hk (by rw [hs]; rfl) fun hpoll => ?_) (hserver k)
      subst hpoll
      have hi := hok.1
      have hrounds := rounds_eq hmode
      rw [hends, hanswers]
      simp only [serverMail]
      omega

/-- **The loops end**: a measurement, in whichever order its calls are made,
comes to a state in which nothing can be called, and there both sides have
returned; a receive is left over at each end of a connection if and only if
packets were sent and received. -/
theorem pingPong_ends (hmode : c.mode = .immediate → 0 < c.iterations)
    (h : (patient c).Reachable w) :
    (patient c).Ends w ∧
      ((patient c).Stuck w →
        w.Complete c ∧ ∀ k < c.conns,
          w.clientEnds k = ⟨c.iterations + c.spare, c.iterations, c.iterations⟩ ∧
          w.serverEnds k = ⟨c.iterations + c.spare, c.iterations, c.iterations⟩) := by
  refine ⟨h.ends (fun w => left c w.clientEnds + left c w.serverEnds) ?_, fun hstuck => ?_⟩
  · intro a l b ha hstep
    obtain ⟨hbegun, henabled, rfl⟩ := hstep
    exact lower (patient_invariant.reachable ha).1 hbegun henabled
  · obtain ⟨hinv, hserved⟩ := patient_invariant.reachable h
    have hcomplete : w.Complete c := by
      refine hinv.complete_of_stuck hmode hserved (fun k henabled => ?_) fun hbegun henabled => ?_
      · exact hstuck (.server k) _ ⟨by simp, henabled, rfl⟩
      · exact hstuck .client _ ⟨fun _ => hbegun, henabled, rfl⟩
    refine ⟨hcomplete, fun k hk => ⟨?_, ?_⟩⟩
    · rw [hinv.clientEnds k hk, hcomplete.1, clientMail, clientAt_firstCall]
    · rw [hinv.serverEnds k hk, hcomplete.2 k hk, serverMail, rounds_eq hmode]

/-- Two rounds over two connections complete. -/
theorem pingPong_ends_twoConns :
    ∃ w, (patient ⟨.immediate, 2, 2⟩).Reachable w ∧ w.Complete ⟨.immediate, 2, 2⟩ := by
  have hinit : (patient ⟨.immediate, 2, 2⟩).Reachable (PingPongRun.start ⟨.immediate, 2, 2⟩) :=
    System.Reachable.init rfl
  obtain ⟨w, hleads, hstuck⟩ := (pingPong_ends (by decide) hinit).1.stops
  have hw := hinit.leads hleads
  exact ⟨w, hw, ((pingPong_ends (by decide) hw).2 hstuck).1⟩

end PingPongRun

end RdmaManager
