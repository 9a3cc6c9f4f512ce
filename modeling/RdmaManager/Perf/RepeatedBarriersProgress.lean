import Mathlib.Algebra.Order.BigOperators.Group.Finset
import Mathlib.Data.Finset.Max
import RdmaManager.Common.Termination
import RdmaManager.Perf.EndBarrierProgress
import RdmaManager.Perf.RepeatedBarriers
/-!
# Barriers one after the other can be completed

A ping that comes before its receive may break the connection, and then it
is of no use to try again. The runs here are those in which none comes
before. While not all calls have returned, some step lowers a measure of
what is left to do (`Inv.progress`), if every server expects as many clients
as there are. The step is one of the party that is furthest behind: of the
servers that are in a call one whose call is the earliest, or of a client
that this server waits for.

A server that expects more clients waits for ever. One that expects fewer
may go on without a client that connects late, and this client then lacks
an answer (`barriers_complete_iff`).
-/

namespace RdmaManager

open Mailbox

/-! ## What is left of a call -/

namespace ServerBarrier

/-- A snapshot that is not complete costs another one. -/
def stale (n : ℕ) (clientIds : List ℕ) : ℕ := if clientIds.length < n then 2 * n + 8 else 0

/-- What is left of a call of `global_barrier_server` that prepares, of `n`
clients. -/
def remaining (n : ℕ) : ServerBarrier → ℕ
  | .comparing clientIds _ => 3 * n + 6 + stale n clientIds
  | .posting clientIds _ left => left.length + 2 * n + 5 + stale n clientIds
  | .counting clientIds _ => 2 * n + 4 + stale n clientIds
  | .sleeping _ => 3 * n + 7
  | .polling clientIds left => left.length + clientIds.length + 2
  | .sending _ left => left.length + 1
  | _ => 0

/-- It is asleep, or in no call. -/
def rests (stage : ServerBarrier) : Bool := stage.idle || stage.asleep

/-- A step lowers it, unless the server waits for another snapshot. -/
theorem Within.remaining_next {clients : Finset ℕ} {stage : ServerBarrier} {connected : ℕ → Prop}
    {ends : ℕ → Mailbox} (h : stage.Within clients) (hok : stage.Ok connected clients.card ends)
    (hbusy : stage.rests = false) :
    (stage.next clients.card true).remaining clients.card < stage.remaining clients.card := by
  have hlength : ∀ ids : List ℕ, ids.Nodup → ids.toFinset ⊆ clients → ids.length ≤ clients.card :=
    fun ids hnodup hids => by
      rw [← List.toFinset_card_of_nodup hnodup]
      exact Finset.card_le_card hids
  cases stage with
  | away => exact Bool.noConfusion hbusy
  | threw => exact absurd h not_false
  | returned clientIds => exact Bool.noConfusion hbusy
  | sleeping alreadyConnectedIds => exact Bool.noConfusion hbusy
  | comparing clientIds alreadyConnectedIds =>
      have hids := hlength clientIds hok.1 h
      rw [ServerBarrier.next]
      split_ifs
      · show clientIds.length + 2 * clients.card + 5 + _ < 3 * clients.card + 6 + _
        omega
      · show 2 * clients.card + 4 + _ < 3 * clients.card + 6 + _
        omega
  | posting clientIds alreadyConnectedIds left =>
      cases left with
      | nil =>
          show 2 * clients.card + 4 + _ < 0 + 2 * clients.card + 5 + _
          omega
      | cons nodeID left =>
          simp only [ServerBarrier.next, if_true]
          split_ifs <;> simp only [remaining, List.length_cons] <;> omega
  | counting clientIds alreadyConnectedIds =>
      obtain ⟨hnodup, -, rfl, -⟩ := hok
      have hids := hlength clientIds hnodup h
      rw [ServerBarrier.next, List.toFinset_card_of_nodup hnodup]
      split_ifs with hfew
      · simp only [remaining, stale, if_pos hfew]
        omega
      · show clientIds.length + clientIds.length + 2 < 2 * clients.card + 4 + _
        omega
  | polling clientIds left =>
      cases left with
      | nil =>
          show clientIds.length + 1 < 0 + clientIds.length + 2
          omega
      | cons nodeID left =>
          simp only [ServerBarrier.next, if_true, remaining, List.length_cons]
          omega
  | sending clientIds left =>
      cases left with
      | nil => exact Nat.one_pos
      | cons nodeID left => exact Nat.lt_succ_self _

end ServerBarrier

/-! ## What the parties have done -/

/-- A client has pinged in all its calls. -/
def ClientBarrier.pinged : ClientBarrier → Bool
  | .away => true
  | .polling _ _ => true
  | .returned _ => true
  | _ => false

/-- A server has posted a receive for everyone in all its calls. -/
def ServerBarrier.prepared : ServerBarrier → Bool
  | .away => true
  | .polling _ _ => true
  | .sending _ _ => true
  | .returned _ => true
  | _ => false

/-- A client polls one of the connections. -/
theorem ClientBarrier.Of.polls {connectionIDs : List ℕ} {stage : ClientBarrier} {ends : ℕ → Mailbox}
    (h : stage.Of connectionIDs) (hok : stage.Ok ends) {server : ℕ}
    (hcall : stage.call = some (server, .pollReceive)) :
    server ∈ connectionIDs ∧ (ends server).polled = 0 := by
  cases stage with
  | away => exact absurd h not_false
  | threw => exact absurd h not_false
  | returned ids => simp [ClientBarrier.call] at hcall
  | posting ids left => cases left <;> simp [ClientBarrier.call] at hcall
  | sending ids leftConIDs i => simp [ClientBarrier.call] at hcall
  | polling ids left =>
      obtain ⟨-, hleft, rfl⟩ := hok
      obtain rfl : ids = connectionIDs := h
      cases left with
      | nil => simp [ClientBarrier.call] at hcall
      | cons conID left =>
          obtain rfl : conID = server := congrArg Prod.fst (Option.some.inj hcall)
          exact ⟨hleft.subset List.mem_cons_self, mark_of_notMem (notMem_doneIds List.mem_cons_self)⟩

/-- When a server polls. -/
theorem ServerBarrier.polls_eq {stage : ServerBarrier} {client : ℕ}
    (hcall : stage.call = some (client, .pollReceive)) :
    ∃ clientIds left, stage = .polling clientIds (client :: left) := by
  cases stage with
  | polling clientIds left =>
      cases left with
      | nil => simp [ServerBarrier.call] at hcall
      | cons nodeID left =>
          obtain rfl : nodeID = client := congrArg Prod.fst (Option.some.inj hcall)
          exact ⟨clientIds, left, rfl⟩
  | posting clientIds alreadyConnectedIds left =>
      cases left with
      | nil => simp [ServerBarrier.call] at hcall
      | cons nodeID left =>
          rw [ServerBarrier.call] at hcall
          split_ifs at hcall
          simp at hcall
  | sending clientIds left => cases left <;> simp [ServerBarrier.call] at hcall
  | _ => simp [ServerBarrier.call] at hcall

variable {t : BarrierTest} {calls : ℕ}

namespace ClientBarrier.Called

variable {k : BarrierParty ClientBarrier}

theorem sent_of_pinged (h : Called t k calls) (hpinged : k.stage.pinged = true) {server : ℕ}
    (hserver : server ∈ t.servers) : (k.ends server).sent = calls := by
  cases calls with
  | zero => rw [show k = .fresh .away from h]; rfl
  | succ n =>
      obtain ⟨now, connectionIDs, hends, hok, hof, hids⟩ := h
      have hnow : (now server).sent = 1 := by
        have hin : server ∈ connectionIDs.toFinset := hids ▸ hserver
        cases hstage : k.stage with
        | polling ids left =>
            rw [hstage] at hok hof
            obtain ⟨-, -, rfl⟩ := hok
            obtain rfl : ids = connectionIDs := hof
            exact mark_of_mem hin
        | returned ids =>
            rw [hstage] at hok hof
            obtain rfl : ids = connectionIDs := hof
            rw [show now = _ from hok]
            exact mark_of_mem hin
        | away =>
            rw [hstage] at hof
            exact absurd hof not_false
        | _ =>
            rw [hstage] at hpinged
            exact Bool.noConfusion hpinged
      rw [hends, earlier_of_mem hserver]
      show n + (now server).sent = n + 1
      rw [hnow]

/-- It has pinged in the calls before this one. -/
theorem le_sent (h : Called t k calls) {server : ℕ} (hserver : server ∈ t.servers) :
    calls ≤ (k.ends server).sent + 1 := by
  cases calls with
  | zero => exact Nat.zero_le _
  | succ n =>
      obtain ⟨now, connectionIDs, hends, -⟩ := h
      rw [hends, earlier_of_mem hserver]
      exact Nat.succ_le_succ (Nat.le_add_right _ _)

/-- Whom it pings next it has not pinged in this call. -/
theorem sent_of_pings (h : Called t k calls) {server : ℕ} (hcall : k.stage.call = some (server, .send)) :
    server ∈ t.servers ∧ (k.ends server).sent + 1 = calls := by
  cases calls with
  | zero =>
      rw [show k = .fresh .away from h] at hcall
      exact absurd hcall (Option.some_ne_none _).symm
  | succ n =>
      obtain ⟨now, connectionIDs, hends, hok, hof, hids⟩ := h
      obtain ⟨hserver, hsent⟩ := hof.mem hok hcall
      have hin : server ∈ t.servers := hids ▸ List.mem_toFinset.mpr hserver
      refine ⟨hin, ?_⟩
      rw [hends, earlier_of_mem hin]
      show n + (now server).sent + 1 = n + 1
      rw [hsent]

/-- Whom it polls next it has not polled in this call. -/
theorem polled_of_polls (h : Called t k calls) {server : ℕ}
    (hcall : k.stage.call = some (server, .pollReceive)) :
    server ∈ t.servers ∧ (k.ends server).polled + 1 = calls := by
  cases calls with
  | zero =>
      rw [show k = .fresh .away from h] at hcall
      exact absurd hcall (Option.some_ne_none _).symm
  | succ n =>
      obtain ⟨now, connectionIDs, hends, hok, hof, hids⟩ := h
      obtain ⟨hserver, hpolled⟩ := hof.polls hok hcall
      have hin : server ∈ t.servers := hids ▸ List.mem_toFinset.mpr hserver
      refine ⟨hin, ?_⟩
      rw [hends, earlier_of_mem hin]
      show n + (now server).polled + 1 = n + 1
      rw [hpolled]

end ClientBarrier.Called

namespace ServerBarrier.Called

variable {connected : ℕ → Prop} {k : BarrierParty ServerBarrier} {client : ℕ}

theorem posted_of_prepared (h : Called t connected k calls) (henough : t.clients.card ≤ t.thread_count)
    (hprepared : k.stage.prepared = true) (hclient : client ∈ t.clients) :
    (k.ends client).posted = calls := by
  cases calls with
  | zero => rw [show k = .fresh .away from h]; rfl
  | succ n =>
      obtain ⟨now, hends, hok, hwithin⟩ := h
      have hnow : (now client).posted = 1 := by
        have hall : ∀ (ids : List ℕ) (sent polled : Finset ℕ), ids.Nodup → t.thread_count ≤ ids.length →
            ids.toFinset ⊆ t.clients → (once ids.toFinset sent polled client).posted = 1 :=
          fun ids sent polled hnodup hcount hids => by
            rw [toFinset_eq_of_enough henough hnodup hcount hids]
            exact mark_of_mem hclient
        cases hstage : k.stage with
        | polling ids left =>
            rw [hstage] at hok hwithin
            obtain ⟨hnodup, hcount, -, rfl⟩ := hok
            exact hall ids _ _ hnodup hcount hwithin
        | sending ids left =>
            rw [hstage] at hok hwithin
            obtain ⟨hnodup, hcount, -, rfl⟩ := hok
            exact hall ids _ _ hnodup hcount hwithin
        | returned ids =>
            rw [hstage] at hok hwithin
            obtain ⟨hnodup, hcount, rfl⟩ := hok
            exact hall ids _ _ hnodup hcount hwithin
        | away =>
            rw [hstage] at hwithin
            exact absurd hwithin not_false
        | _ =>
            rw [hstage] at hprepared
            exact Bool.noConfusion hprepared
      rw [hends, earlier_of_mem hclient]
      show n + (now client).posted = n + 1
      rw [hnow]

/-- It has answered in the calls before this one. -/
theorem le_sent (h : Called t connected k calls) (hclient : client ∈ t.clients) :
    calls ≤ (k.ends client).sent + 1 := by
  cases calls with
  | zero => exact Nat.zero_le _
  | succ n =>
      obtain ⟨now, hends, -⟩ := h
      rw [hends, earlier_of_mem hclient]
      exact Nat.succ_le_succ (Nat.le_add_right _ _)

/-- Whom it polls next it has not polled in this call. -/
theorem polled_of_polls (h : Called t connected k calls)
    (hcall : k.stage.call = some (client, .pollReceive)) :
    client ∈ t.clients ∧ (k.ends client).polled + 1 = calls := by
  cases calls with
  | zero =>
      rw [show k = .fresh .away from h] at hcall
      exact absurd hcall (Option.some_ne_none _).symm
  | succ n =>
      obtain ⟨now, hends, hok, hwithin⟩ := h
      obtain ⟨clientIds, left, hstage⟩ := polls_eq hcall
      rw [hstage] at hok hwithin
      obtain ⟨-, -, hleft, rfl⟩ := hok
      have hin : client ∈ t.clients := hwithin (List.mem_toFinset.mpr (hleft.subset List.mem_cons_self))
      refine ⟨hin, ?_⟩
      rw [hends, earlier_of_mem hin]
      show n + mark _ client + 1 = n + 1
      rw [mark_of_notMem (notMem_doneIds List.mem_cons_self)]

end ServerBarrier.Called

/-! ## What is left to do -/

/-- What is left to a client. -/
def BarrierTest.clientLeft (t : BarrierTest) (k : BarrierParty ClientBarrier) (calls : ℕ) : ℕ :=
  (t.calls - calls) * (5 * t.servers.card + 5) + k.stage.weight

/-- What is left to a server. -/
def BarrierTest.serverLeft (t : BarrierTest) (k : BarrierParty ServerBarrier) (calls : ℕ) : ℕ :=
  (t.calls - calls) * (5 * t.clients.card + 15) + k.stage.remaining t.clients.card

namespace BarrierRun

/-- No message fails, since each of them finds its receive. -/
def Patient : BarrierEvent → Prop
  | .client _ success => success = true
  | .server _ success => success = true
  | _ => True

instance : DecidablePred Patient
  | .client _ success | .server _ success => inferInstanceAs (Decidable (success = true))
  | .connect .. | .recounts .. | .clientBegins .. | .serverBegins .. => inferInstanceAs (Decidable True)

/-- **The runs in which every message finds its receive.** -/
def patient (t : BarrierTest) : System BarrierRun BarrierEvent := (runs t).restrict fun _ e => Patient e

variable {w : BarrierRun} {client server : ℕ}

/-- The clients that have not connected to a server. -/
def missing (t : BarrierTest) (w : BarrierRun) (server : ℕ) : Finset ℕ :=
  t.clients.filter fun client => (w.barrier.connected server).lookup client ≠ some true

/-- **What is left to do.** -/
def measure (t : BarrierTest) (w : BarrierRun) : ℕ :=
  ∑ client ∈ t.clients, t.clientLeft (w.barrier.clients client) (w.clientCalls client) +
    ∑ server ∈ t.servers, t.serverLeft (w.barrier.servers server) (w.serverCalls server) +
    ∑ server ∈ t.servers, (w.missing t server).card

theorem measure_setClient {k : BarrierParty ClientBarrier} {n : ℕ} (hclient : client ∈ t.clients)
    (hless : t.clientLeft k n < t.clientLeft (w.barrier.clients client) (w.clientCalls client)) :
    measure t ⟨w.barrier.setClient client k, Function.update w.clientCalls client n, w.serverCalls⟩ <
      measure t w := by
  have hself : t.clientLeft ((w.barrier.setClient client k).clients client)
      (Function.update w.clientCalls client n client) = t.clientLeft k n := by
    rw [GlobalBarrier.setClient_self, Function.update_self]
  have hle : ∀ i, t.clientLeft ((w.barrier.setClient client k).clients i)
      (Function.update w.clientCalls client n i) ≤
        t.clientLeft (w.barrier.clients i) (w.clientCalls i) := fun i => by
    rcases eq_or_ne i client with rfl | hne
    · rw [hself]
      exact Nat.le_of_lt hless
    · rw [GlobalBarrier.setClient_of_ne _ hne, Function.update_of_ne hne]
  have hsum := Finset.sum_lt_sum (fun i (_ : i ∈ t.clients) => hle i)
    ⟨client, hclient, hself ▸ hless⟩
  exact Nat.add_lt_add_right (Nat.add_lt_add_right hsum _) _

theorem measure_setServer {k : BarrierParty ServerBarrier} {n : ℕ} (hserver : server ∈ t.servers)
    (hless : t.serverLeft k n < t.serverLeft (w.barrier.servers server) (w.serverCalls server)) :
    measure t ⟨w.barrier.setServer server k, w.clientCalls, Function.update w.serverCalls server n⟩ <
      measure t w := by
  have hself : t.serverLeft ((w.barrier.setServer server k).servers server)
      (Function.update w.serverCalls server n server) = t.serverLeft k n := by
    rw [GlobalBarrier.setServer_self, Function.update_self]
  have hle : ∀ i, t.serverLeft ((w.barrier.setServer server k).servers i)
      (Function.update w.serverCalls server n i) ≤
        t.serverLeft (w.barrier.servers i) (w.serverCalls i) := fun i => by
    rcases eq_or_ne i server with rfl | hne
    · rw [hself]
      exact Nat.le_of_lt hless
    · rw [GlobalBarrier.setServer_of_ne _ hne, Function.update_of_ne hne]
  have hsum := Finset.sum_lt_sum (fun i (_ : i ∈ t.servers) => hle i)
    ⟨server, hserver, hself ▸ hless⟩
  exact Nat.add_lt_add_right (Nat.add_lt_add_left hsum _) _

/-- Some step leaves less to do. -/
def Progress (t : BarrierTest) (w : BarrierRun) : Prop :=
  ∃ e, Patient e ∧ w.Enabled t e ∧ (w.exec t e).measure t < w.measure t

/-! ## Everybody is in a call -/

/-- **A client connects.** -/
theorem progress_connect (hserver : server ∈ t.servers) (hclient : client ∈ t.clients)
    (hnot : ¬ w.barrier.Connected server client) : Progress t w := by
  refine ⟨.connect server client, trivial, ⟨hserver, hclient⟩, ?_⟩
  have hsub : ∀ i, (w.exec t (.connect server client)).missing t i ⊆ w.missing t i := fun i id hid => by
    obtain ⟨hin, hmissing⟩ := Finset.mem_filter.mp hid
    exact Finset.mem_filter.mpr ⟨hin, fun h => hmissing ((connected_exec i id).mpr (Or.inl h))⟩
  have hless : ((w.exec t (.connect server client)).missing t server).card <
      (w.missing t server).card := by
    refine Finset.card_lt_card
      ((Finset.ssubset_iff_of_subset (hsub server)).mpr ⟨client, ?_, fun hin => ?_⟩)
    · exact Finset.mem_filter.mpr ⟨hclient, hnot⟩
    · exact (Finset.mem_filter.mp hin).2 ((connected_exec server client).mpr (Or.inr ⟨rfl, rfl⟩))
  have hsum := Finset.sum_lt_sum (fun i (_ : i ∈ t.servers) => Finset.card_le_card (hsub i))
    ⟨server, hserver, hless⟩
  exact Nat.add_lt_add_left hsum _

/-- **A client goes on**, where its next verb succeeds. -/
theorem Inv.progress_client (h : Inv t w) (hclient : client ∈ t.clients)
    (hbusy : (w.barrier.clients client).stage.idle = false)
    (hready : Ready (w.barrier.clients client).ends (w.barrier.serverEnds client)
      (w.barrier.clients client).stage.call)
    (hsuccess : succeeds (w.barrier.clients client).ends (w.barrier.serverEnds client)
      (w.barrier.clients client).stage.call = true) : Progress t w := by
  refine ⟨.client client true, rfl, ⟨hready, hsuccess.symm⟩, ?_⟩
  rw [exec_client]
  refine measure_setClient hclient (Nat.add_lt_add_left ?_ _)
  have hcalled := h.clients client
  cases hcalls : w.clientCalls client with
  | zero =>
      rw [hcalls] at hcalled
      rw [show w.barrier.clients client = .fresh .away from hcalled] at hbusy
      exact Bool.noConfusion hbusy
  | succ n =>
      rw [hcalls] at hcalled
      obtain ⟨now, connectionIDs, -, -, hof, -⟩ := hcalled
      refine hof.weight_next fun hreturned => ?_
      rw [hreturned] at hbusy
      exact Bool.noConfusion hbusy

/-- **A server goes on.** -/
theorem Inv.progress_server (h : Inv t w) (hcount : t.thread_count = t.clients.card)
    (hserver : server ∈ t.servers) (hbusy : (w.barrier.servers server).stage.rests = false)
    (hready : Ready (w.barrier.servers server).ends (w.barrier.clientEnds server)
      (w.barrier.servers server).stage.call) : Progress t w := by
  refine ⟨.server server true, rfl, ⟨hready, (h.server_succeeds server).symm⟩, ?_⟩
  rw [exec_server]
  refine measure_setServer hserver (Nat.add_lt_add_left ?_ _)
  have hcalled := h.servers server
  cases hcalls : w.serverCalls server with
  | zero =>
      rw [hcalls] at hcalled
      rw [show w.barrier.servers server = .fresh .away from hcalled] at hbusy
      exact Bool.noConfusion hbusy
  | succ n =>
      rw [hcalls] at hcalled
      obtain ⟨now, -, hok, hwithin⟩ := hcalled
      rw [hcount] at hok
      show ((w.barrier.servers server).stage.next t.thread_count true).remaining _ < _
      rw [hcount]
      exact hwithin.remaining_next hok hbusy

/-- When all are connected, there is a snapshot, and it is complete. -/
theorem Inv.snapshot (h : Inv t w)
    (hall : ∀ client ∈ t.clients, w.barrier.Connected server client) :
    ∃ clientIds, ConnectedConnIDs (w.barrier.connected server) clientIds ∧
      clientIds.length = t.clients.card := by
  obtain ⟨clientIds, hids⟩ : ∃ clientIds, ConnectedConnIDs (w.barrier.connected server) clientIds :=
    ⟨_, Multiset.coe_toList _⟩
  refine ⟨clientIds, hids, ?_⟩
  have heq : clientIds.toFinset = t.clients := by
    ext id
    rw [List.mem_toFinset, hids.mem_iff]
    exact ⟨h.connected server id, hall id⟩
  rw [← List.toFinset_card_of_nodup hids.nodup, heq]

theorem remaining_comparing {clientIds : List ℕ} (hlength : clientIds.length = t.clients.card)
    (served : Finset ℕ) : (ServerBarrier.comparing clientIds served).remaining t.clients.card =
      3 * t.clients.card + 6 := by
  show _ + ServerBarrier.stale _ _ = _
  unfold ServerBarrier.stale
  rw [if_neg (by omega)]

/-- **A server goes on to its polls** when all are connected. -/
theorem Inv.progress_unprepared (h : Inv t w) (hcount : t.thread_count = t.clients.card)
    (hserver : server ∈ t.servers) (hall : ∀ client ∈ t.clients, w.barrier.Connected server client)
    (hnot : (w.barrier.servers server).stage.prepared = false) : Progress t w := by
  have hthrew : (w.barrier.servers server).stage ≠ .threw := fun hthrew => by
    have hcalled := h.servers server
    cases hcalls : w.serverCalls server with
    | zero =>
        rw [hcalls] at hcalled
        rw [show w.barrier.servers server = .fresh .away from hcalled] at hthrew
        exact ServerBarrier.noConfusion hthrew
    | succ n =>
        rw [hcalls] at hcalled
        obtain ⟨now, -, -, hwithin⟩ := hcalled
        rw [hthrew] at hwithin
        exact hwithin
  cases hstage : (w.barrier.servers server).stage with
  | sleeping alreadyConnectedIds =>
      obtain ⟨clientIds, hids, hlength⟩ := h.snapshot hall
      refine ⟨.recounts server clientIds, trivial, ⟨by rw [hstage]; rfl, hids⟩, ?_⟩
      rw [exec_recounts]
      refine measure_setServer hserver (Nat.add_lt_add_left ?_ _)
      rw [hstage]
      show (ServerBarrier.comparing clientIds alreadyConnectedIds).remaining _ < 3 * t.clients.card + 7
      rw [remaining_comparing hlength]
      exact Nat.lt_succ_self _
  | comparing clientIds alreadyConnectedIds =>
      refine h.progress_server hcount hserver ?_ ?_
      · rw [hstage]
        rfl
      · rw [hstage]
        trivial
  | counting clientIds alreadyConnectedIds =>
      refine h.progress_server hcount hserver ?_ ?_
      · rw [hstage]
        rfl
      · rw [hstage]
        trivial
  | posting clientIds alreadyConnectedIds left =>
      refine h.progress_server hcount hserver ?_ ?_
      · rw [hstage]
        rfl
      · rw [hstage]
        cases left with
        | nil => trivial
        | cons nodeID left =>
            rw [ServerBarrier.call]
            split_ifs <;> trivial
  | threw => exact absurd hstage hthrew
  | _ =>
      rw [hstage] at hnot
      exact Bool.noConfusion hnot

/-- One more call is begun. -/
theorem left_begins {n weight first : ℕ} (hmore : n < t.calls) (hfirst : first < weight) (rest : ℕ) :
    (t.calls - (n + 1)) * weight + first < (t.calls - n) * weight + rest := by
  have heq : t.calls - n = t.calls - (n + 1) + 1 := by omega
  rw [heq, Nat.succ_mul]
  omega

/-- **A server calls its barrier again.** -/
theorem Inv.progress_serverBegins (h : Inv t w) (hserver : server ∈ t.servers)
    (hall : ∀ client ∈ t.clients, w.barrier.Connected server client)
    (hidle : (w.barrier.servers server).stage.idle = true) (hmore : w.serverCalls server < t.calls) :
    Progress t w := by
  obtain ⟨clientIds, hids, hlength⟩ := h.snapshot hall
  refine ⟨.serverBegins server clientIds, trivial, ⟨hserver, hidle, hmore, hids⟩, ?_⟩
  refine measure_setServer hserver (left_begins hmore ?_ _)
  rw [remaining_comparing hlength]
  omega

/-- **A client calls its barrier again.** -/
theorem progress_clientBegins (hclient : client ∈ t.clients)
    (hall : ∀ server ∈ t.servers, w.barrier.Connected server client)
    (hidle : (w.barrier.clients client).stage.idle = true) (hmore : w.clientCalls client < t.calls) :
    Progress t w := by
  refine ⟨.clientBegins client t.servers.toList, trivial, ⟨hclient, hidle, hmore, Finset.nodup_toList _,
    Finset.toList_toFinset _, fun server hserver => hall server (Finset.mem_toList.mp hserver)⟩, ?_⟩
  refine measure_setClient hclient (left_begins hmore ?_ _)
  show t.servers.toList.length + 4 * t.servers.toList.length + 4 < _
  rw [Finset.length_toList]
  omega

/-- **A client pings**, where all servers have prepared this call. -/
theorem Inv.progress_pinging (h : Inv t w) (henough : t.clients.card ≤ t.thread_count)
    (hclient : client ∈ t.clients) (hpings : (w.barrier.clients client).stage.pinged = false)
    (hprepared : ∀ server ∈ t.servers, (w.barrier.servers server).stage.prepared = true ∧
      w.clientCalls client ≤ w.serverCalls server) : Progress t w := by
  have hcalled := h.clients client
  have hfinds : ∀ server, (w.barrier.clients client).stage.call = some (server, .send) →
      ((w.barrier.clients client).ends server).Allows ((w.barrier.servers server).ends client) .send := by
    intro server hcall
    obtain ⟨hserver, hsent⟩ := hcalled.sent_of_pings hcall
    obtain ⟨hserverPrepared, hle⟩ := hprepared server hserver
    have hposted := (h.servers server).posted_of_prepared henough hserverPrepared hclient
    show _ < _
    omega
  refine h.progress_client hclient ?_ ?_ ?_
  · cases hstage : (w.barrier.clients client).stage with
    | away | returned =>
        rw [hstage] at hpings
        exact Bool.noConfusion hpings
    | _ => rfl
  · cases hstage : (w.barrier.clients client).stage with
    | polling ids left =>
        rw [hstage] at hpings
        exact Bool.noConfusion hpings
    | posting ids left => cases left <;> trivial
    | sending ids leftConIDs i =>
        show Ready _ _ (leftConIDs[i.toNat]?.map _)
        cases leftConIDs[i.toNat]? <;> trivial
    | _ => trivial
  · cases hcall : (w.barrier.clients client).stage.call with
    | none => rfl
    | some p =>
        obtain ⟨server, call⟩ := p
        cases call with
        | receive => rfl
        | pollReceive => rfl
        | send => exact decide_eq_true (hfinds server hcall)

/-- **A client polls its answers**, where all servers have answered this
call. -/
theorem Inv.progress_polling (h : Inv t w) (hclient : client ∈ t.clients)
    (hbusy : (w.barrier.clients client).stage.idle = false)
    (hpinged : (w.barrier.clients client).stage.pinged = true)
    (hanswered : ∀ server ∈ t.servers,
      w.clientCalls client ≤ ((w.barrier.servers server).ends client).sent) : Progress t w := by
  have hcalled := h.clients client
  cases hstage : (w.barrier.clients client).stage with
  | polling ids left =>
      refine h.progress_client hclient hbusy ?_ ?_
      · cases left with
        | nil =>
            rw [hstage]
            trivial
        | cons server left =>
            have hcall : (w.barrier.clients client).stage.call = some (server, .pollReceive) := by
              rw [hstage]
              rfl
            obtain ⟨hserver, hpolled⟩ := hcalled.polled_of_polls hcall
            have hsent := hanswered server hserver
            rw [hcall]
            show ((w.barrier.clients client).ends server).polled <
              ((w.barrier.servers server).ends client).sent
            omega
      · rw [hstage]
        cases left <;> rfl
  | away | returned =>
      rw [hstage] at hbusy
      exact Bool.noConfusion hbusy
  | _ =>
      rw [hstage] at hpinged
      exact Bool.noConfusion hpinged

/-- **A server answers**, where all clients have pinged in this call. -/
theorem Inv.progress_answering (h : Inv t w) (hcount : t.thread_count = t.clients.card)
    (hserver : server ∈ t.servers) (hbusy : (w.barrier.servers server).stage.idle = false)
    (hprepared : (w.barrier.servers server).stage.prepared = true)
    (hpinged : ∀ client ∈ t.clients,
      w.serverCalls server ≤ ((w.barrier.clients client).ends server).sent) : Progress t w := by
  refine h.progress_server hcount hserver ?_ ?_
  · cases hstage : (w.barrier.servers server).stage with
    | polling | sending => rfl
    | away | returned =>
        rw [hstage] at hbusy
        exact Bool.noConfusion hbusy
    | _ =>
        rw [hstage] at hprepared
        exact Bool.noConfusion hprepared
  · cases hcall : (w.barrier.servers server).stage.call with
    | none => trivial
    | some p =>
        obtain ⟨client, call⟩ := p
        cases call with
        | receive => trivial
        | send => trivial
        | pollReceive =>
            obtain ⟨hclient, hpolled⟩ := (h.servers server).polled_of_polls hcall
            have hsent := hpinged client hclient
            show ((w.barrier.servers server).ends client).polled <
              ((w.barrier.clients client).ends server).sent
            omega

/-! ## Some step leaves less to do -/

/-- All are connected, everybody is in a call or has made all of them, and
every server has prepared its call. -/
structure Underway (t : BarrierTest) (w : BarrierRun) : Prop where
  prepared : ∀ server ∈ t.servers, (w.barrier.servers server).stage.prepared = true
  servers : ∀ server ∈ t.servers, (w.barrier.servers server).stage.idle = true →
    w.serverCalls server = t.calls
  clients : ∀ client ∈ t.clients, (w.barrier.clients client).stage.idle = true →
    w.clientCalls client = t.calls

/-- Everybody gets so far. -/
theorem Inv.underway (h : Inv t w) (hcount : t.thread_count = t.clients.card) (hnot : ¬ Progress t w) :
    Underway t w := by
  have hconnected : ∀ server ∈ t.servers, ∀ client ∈ t.clients, w.barrier.Connected server client :=
    fun server hserver client hclient => by
      by_contra hmissing
      exact hnot (progress_connect hserver hclient hmissing)
  refine ⟨fun server hserver => ?_, fun server hserver hidle => ?_, fun client hclient hidle => ?_⟩
  · by_contra hunprepared
    exact hnot (h.progress_unprepared hcount hserver (hconnected server hserver)
      (Bool.eq_false_iff.mpr hunprepared))
  · by_contra hne
    exact hnot (h.progress_serverBegins hserver (hconnected server hserver) hidle
      (Nat.lt_of_le_of_ne (h.serverCalls server) hne))
  · by_contra hne
    exact hnot (progress_clientBegins hclient
      (fun server hserver => hconnected server hserver client hclient) hidle (Nat.lt_of_le_of_ne (h.clientCalls client) hne))

/-- **A server whose call is the earliest goes on**, or a client that it
waits for. -/
theorem Inv.progress_earliest (h : Inv t w) (hcount : t.thread_count = t.clients.card)
    (hunder : Underway t w) (hserver : server ∈ t.servers)
    (hbusy : (w.barrier.servers server).stage.idle = false)
    (hearliest : ∀ i ∈ t.servers, w.serverCalls server ≤ w.serverCalls i) : Progress t w := by
  have henough : t.clients.card ≤ t.thread_count := Nat.le_of_eq hcount.symm
  by_contra hnot
  refine hnot (h.progress_answering hcount hserver hbusy (hunder.prepared server hserver) fun client
    hclient => ?_)
  have hcalled := h.clients client
  have hsent := hcalled.le_sent hserver
  cases hpinged : (w.barrier.clients client).stage.pinged with
  | false =>
      -- it pings in a later call
      by_contra hfew
      refine hnot (h.progress_pinging henough hclient hpinged fun i hi => ⟨hunder.prepared i hi, ?_⟩)
      have hle := hearliest i hi
      omega
  | true =>
      rw [hcalled.sent_of_pinged hpinged hserver]
      cases hidle : (w.barrier.clients client).stage.idle with
      | true =>
          rw [hunder.clients client hclient hidle]
          exact h.serverCalls server
      | false =>
          -- the servers are past the call in which it polls
          by_contra hfew
          refine hnot (h.progress_polling hclient hidle hpinged fun i hi => ?_)
          have hle := hearliest i hi
          have hanswered := (h.servers i).le_sent hclient
          omega

/-- **When all servers have made their calls**, a client goes on. -/
theorem Inv.progress_last (h : Inv t w) (henough : t.clients.card ≤ t.thread_count)
    (hunder : Underway t w)
    (hservers : ∀ server ∈ t.servers, (w.barrier.servers server).stage.idle = true)
    (hclient : client ∈ t.clients) (hbusy : (w.barrier.clients client).stage.idle = false) :
    Progress t w := by
  have hall : ∀ server ∈ t.servers, w.clientCalls client ≤ w.serverCalls server := by
    intro server hserver
    rw [hunder.servers server hserver (hservers server hserver)]
    exact h.clientCalls client
  cases hpinged : (w.barrier.clients client).stage.pinged with
  | false =>
      exact h.progress_pinging henough hclient hpinged fun server hserver =>
        ⟨hunder.prepared server hserver, hall server hserver⟩
  | true =>
      refine h.progress_polling hclient hbusy hpinged fun server hserver => ?_
      rw [(h.servers server).ends_of_idle henough (hservers server hserver), earlier_of_mem hclient]
      exact (hall server hserver).trans (Nat.le_add_right _ _)

/-- **Some step leaves less to do** while not all calls have returned. -/
theorem Inv.progress (h : Inv t w) (hcount : t.thread_count = t.clients.card)
    (hnot : ¬ w.Complete t) : Progress t w := by
  by_contra hstuck
  have hunder := h.underway hcount hstuck
  by_cases hservers : ∀ server ∈ t.servers, (w.barrier.servers server).stage.idle = true
  · -- the servers are through
    refine hnot ⟨fun client hclient => ?_, fun server hserver => ?_⟩
    · cases hidle : (w.barrier.clients client).stage.idle with
      | true => exact (if_pos hidle).trans (hunder.clients client hclient hidle)
      | false =>
          exact absurd (h.progress_last (Nat.le_of_eq hcount.symm) hunder hservers hclient hidle) hstuck
    · have hidle := hservers server hserver
      exact (if_pos hidle).trans (hunder.servers server hserver hidle)
  · push Not at hservers
    obtain ⟨server, hserver, hbusy⟩ := hservers
    let busy := t.servers.filter fun i => (w.barrier.servers i).stage.idle = false
    have hin : server ∈ busy := Finset.mem_filter.mpr ⟨hserver, Bool.eq_false_iff.mpr hbusy⟩
    obtain ⟨first, hfirst, hmin⟩ := Finset.exists_min_image busy w.serverCalls ⟨server, hin⟩
    obtain ⟨hfirst, hfirstBusy⟩ := Finset.mem_filter.mp hfirst
    refine hstuck (h.progress_earliest hcount hunder hfirst hfirstBusy fun i hi => ?_)
    cases hidle : (w.barrier.servers i).stage.idle with
    | false => exact hmin i (Finset.mem_filter.mpr ⟨hi, hidle⟩)
    | true =>
        rw [hunder.servers i hi hidle]
        exact h.serverCalls first

/-- **All calls can return**, from every state of a run. -/
theorem completes (hcount : t.thread_count = t.clients.card) (hreach : (patient t).Reachable w) :
    ∃ w', (patient t).Leads w w' ∧ w'.Complete t := by
  refine hreach.leads_of_lower (measure t) fun w hreach hnot => ?_
  have h : Inv t w := (inv_invariant (Nat.le_of_eq hcount.symm)).reachable hreach.of_restrict
  obtain ⟨e, hpatient, henabled, hless⟩ := h.progress hcount hnot
  exact ⟨e, w.exec t e, ⟨hpatient, henabled, rfl⟩, hless⟩

/-! ## A server that expects more -/

/-- **A server that expects more clients than there are never returns.** -/
theorem Inv.not_complete (h : Inv t w) (hmore : t.clients.card < t.thread_count)
    (hserver : server ∈ t.servers) (hcalls : 0 < t.calls) : ¬ w.Complete t := by
  intro hcomplete
  have hall := hcomplete.2 server hserver
  have hle := h.serverCalls server
  have hidle : (w.barrier.servers server).stage.idle = true := by
    by_contra hbusy
    unfold serverReturned at hall
    rw [if_neg hbusy] at hall
    omega
  have hmade : w.serverCalls server = t.calls := (if_pos hidle).symm.trans hall
  have hcalled := h.servers server
  obtain ⟨n, hn⟩ := Nat.exists_eq_succ_of_ne_zero (Nat.ne_of_gt (hmade ▸ hcalls))
  rw [hn] at hcalled
  obtain ⟨now, -, hok, hwithin⟩ := hcalled
  cases hstage : (w.barrier.servers server).stage with
  | returned clientIds =>
      rw [hstage] at hok hwithin
      obtain ⟨hnodup, hcount, -⟩ := hok
      have hcard := Finset.card_le_card hwithin
      rw [List.toFinset_card_of_nodup hnodup] at hcard
      omega
  | away =>
      rw [hstage] at hwithin
      exact hwithin
  | _ =>
      rw [hstage] at hidle
      exact Bool.noConfusion hidle

end BarrierRun

/-! ## A server that expects fewer -/

namespace ServerBarrier

/-- A receive that a server may still post for the client in this call. -/
def owes (client : ℕ) : ServerBarrier → ℕ
  | .comparing _ alreadyConnectedIds => 1 - mark alreadyConnectedIds client
  | .posting _ alreadyConnectedIds _ => 1 - mark alreadyConnectedIds client
  | .counting _ alreadyConnectedIds => 1 - mark alreadyConnectedIds client
  | .sleeping alreadyConnectedIds => 1 - mark alreadyConnectedIds client
  | _ => 0

theorem owes_le_one (client : ℕ) (stage : ServerBarrier) : stage.owes client ≤ 1 := by
  cases stage <;> simp [owes]

theorem owes_snapshot (client : ℕ) {stage : ServerBarrier} (hasleep : stage.asleep = true)
    (clientIds : List ℕ) : (stage.snapshot clientIds).owes client = stage.owes client := by
  cases stage with
  | sleeping alreadyConnectedIds => rfl
  | _ => exact Bool.noConfusion hasleep

/-- **A server posts for a client at most what it owes.** -/
theorem posted_next (stage : ServerBarrier) (e : ℕ) (ends : ℕ → Mailbox) (success : Bool) (client : ℕ) :
    (made ends success stage.call client).posted + (stage.next e success).owes client ≤
      (ends client).posted + stage.owes client := by
  cases stage with
  | posting clientIds alreadyConnectedIds left =>
      cases left with
      | nil => exact Nat.le_refl _
      | cons nodeID left =>
          rw [ServerBarrier.next, call]
          by_cases hin : nodeID ∈ alreadyConnectedIds
          · rw [if_pos hin, if_pos hin]
            exact Nat.le_refl _
          · rw [if_neg hin, if_neg hin]
            cases success with
            | false => exact Nat.add_le_add_left (Nat.zero_le _) _
            | true =>
                show (Function.update ends nodeID _ client).posted + (1 - mark _ client) ≤
                  _ + (1 - mark _ client)
                rcases eq_or_ne client nodeID with rfl | hne
                · rw [Function.update_self, mark_of_mem (Finset.mem_insert_self _ _),
                    mark_of_notMem hin]
                  exact Nat.le_refl _
                · rw [Function.update_of_ne hne, mark_insert_of_ne hne]
  | comparing clientIds alreadyConnectedIds =>
      rw [ServerBarrier.next]
      split_ifs <;> exact Nat.le_refl _
  | counting clientIds alreadyConnectedIds =>
      rw [ServerBarrier.next]
      split_ifs
      · exact Nat.le_refl _
      · exact Nat.add_le_add_left (Nat.zero_le _) _
  | sleeping alreadyConnectedIds => exact Nat.le_refl _
  | away | returned | threw => exact Nat.le_refl _
  | polling clientIds left =>
      have hquiet : EndRun.Quiet (polling clientIds left) := trivial
      rw [hquiet.posted]
      refine Nat.add_le_add_left ?_ _
      cases left with
      | nil => exact Nat.le_refl 0
      | cons nodeID left => cases success <;> exact Nat.le_refl 0
  | sending clientIds left =>
      have hquiet : EndRun.Quiet (sending clientIds left) := trivial
      rw [hquiet.posted]
      refine Nat.add_le_add_left ?_ _
      cases left with
      | nil => exact Nat.le_refl 0
      | cons nodeID left => cases success <;> exact Nat.le_refl 0

end ServerBarrier

namespace BarrierRun

variable {w : BarrierRun} {client server : ℕ}

/-- **A server has missed a client**: it has posted fewer receives for it
than it has made calls, and will. -/
def Missed (w : BarrierRun) (server client : ℕ) : Prop :=
  ((w.barrier.servers server).ends client).posted + (w.barrier.servers server).stage.owes client <
    w.serverCalls server

theorem Missed.setServer (h : w.Missed server client) {i n : ℕ} {k : BarrierParty ServerBarrier}
    (hk : i = server → (k.ends client).posted + k.stage.owes client < n) :
    Missed ⟨w.barrier.setServer i k, w.clientCalls, Function.update w.serverCalls i n⟩ server client := by
  show (((w.barrier.setServer i k).servers server).ends client).posted +
    ((w.barrier.setServer i k).servers server).stage.owes client <
      Function.update w.serverCalls i n server
  rcases eq_or_ne server i with rfl | hne
  · rw [GlobalBarrier.setServer_self, Function.update_self]
    exact hk rfl
  · rw [GlobalBarrier.setServer_of_ne _ hne, Function.update_of_ne hne]
    exact h

/-- **It never makes up for that.** -/
theorem Missed.exec (h : w.Missed server client) {e : BarrierEvent} (henabled : w.Enabled t e) :
    (w.exec t e).Missed server client := by
  cases e with
  | connect i j => exact h
  | clientBegins i connectionIDs => exact h
  | client i success => exact h
  | serverBegins i clientIds =>
      refine h.setServer fun hi => ?_
      subst hi
      have hone := ServerBarrier.owes_le_one client (.comparing clientIds ∅)
      unfold Missed at h
      show ((w.barrier.servers i).ends client).posted +
        (ServerBarrier.comparing clientIds ∅).owes client < w.serverCalls i + 1
      omega
  | server i success =>
      rw [exec_server]
      refine h.setServer fun hi => ?_
      subst hi
      exact Nat.lt_of_le_of_lt (ServerBarrier.posted_next _ _ _ _ _) h
  | recounts i clientIds =>
      obtain ⟨hasleep, -⟩ := henabled
      rw [exec_recounts]
      refine h.setServer fun hi => ?_
      subst hi
      show _ + ((w.barrier.servers i).stage.snapshot clientIds).owes client < _
      rw [ServerBarrier.owes_snapshot client hasleep]
      exact h

/-- **A client that was missed lacks an answer.** -/
theorem Missed.not_complete (h : w.Missed server client) (hw : ClientsInv t w)
    (hclient : client ∈ t.clients) (hserver : server ∈ t.servers) : ¬ w.Complete t := by
  intro hcomplete
  have hreturned : t.calls ≤ ((w.barrier.clients client).ends server).polled := by
    rw [← hcomplete.1 client hclient]
    exact (hw.clients client).returned_le_polled hserver
  have hle := (hw.clients client).le server
  have hposted := (hw.paired client server).found'
  have hcalls := hw.serverCalls server
  unfold Missed at h
  omega

/-! ### A client that connects late -/

/-- The clients of the list connect, and nothing else happens. -/
theorem leads_connected (hserver : server ∈ t.servers) (ids : List ℕ)
    (hids : ∀ id ∈ ids, id ∈ t.clients) :
    ∃ w, (patient t).Leads start w ∧ w.barrier.servers server = .fresh .away ∧ w.serverCalls server = 0 ∧
      ∀ id, w.barrier.Connected server id ↔ id ∈ ids := by
  induction ids with
  | nil =>
      exact ⟨start, System.Leads.refl _, rfl, rfl, fun id =>
        iff_of_false (not_connected_start server id) List.not_mem_nil⟩
  | cons i ids ih =>
      obtain ⟨w, hleads, hfresh, hcalls, hconnected⟩ :=
        ih fun id hid => hids id (List.mem_cons_of_mem i hid)
      have henabled : w.Enabled t (.connect server i) := ⟨hserver, hids i List.mem_cons_self⟩
      refine ⟨_, hleads.tail (l := .connect server i) ⟨trivial, henabled, rfl⟩, hfresh, hcalls, fun id => ?_⟩
      rw [connected_exec, hconnected, List.mem_cons]
      constructor
      · rintro (hid | ⟨-, rfl⟩)
        · exact Or.inr hid
        · exact Or.inl rfl
      · rintro (rfl | hid)
        · exact Or.inr ⟨rfl, rfl⟩
        · exact Or.inl hid

/-- The server stands somewhere else. -/
def withServer (w : BarrierRun) (server : ℕ) (k : BarrierParty ServerBarrier) : BarrierRun :=
  { w with barrier := w.barrier.setServer server k }

/-- The server goes on where it waits for nobody. -/
theorem leads_server (server : ℕ) (stage : ServerBarrier) (ends : ℕ → Mailbox)
    (hcall : ∀ p, stage.call = some p → p.2 = .receive) :
    (patient t).Leads (w.withServer server ⟨stage, ends⟩)
      (w.withServer server ⟨stage.next t.thread_count true, made ends true stage.call⟩) := by
  have hself : (w.withServer server ⟨stage, ends⟩).barrier.servers server = ⟨stage, ends⟩ :=
    GlobalBarrier.setServer_self _ _ _
  refine (System.Leads.refl _).tail (l := .server server true) ⟨rfl, ?_, ?_⟩
  · show Ready _ _ _ ∧ true = succeeds _ _ _
    rw [hself]
    show Ready _ _ stage.call ∧ true = succeeds _ _ stage.call
    cases hp : stage.call with
    | none => exact ⟨trivial, rfl⟩
    | some p =>
        obtain ⟨id, call⟩ := p
        obtain rfl : call = .receive := hcall _ hp
        exact ⟨trivial, rfl⟩
  · show w.withServer server _ = { w.withServer server ⟨stage, ends⟩ with
      barrier := (w.withServer server ⟨stage, ends⟩).barrier.setServer server
        ((w.withServer server ⟨stage, ends⟩).barrier.serverSteps t.thread_count server true) }
    unfold GlobalBarrier.serverSteps
    rw [hself]
    unfold withServer GlobalBarrier.setServer
    simp only [Function.update_idem]

/-- A server posts for the ids that are left. -/
theorem leads_posted (clientIds left : List ℕ) (served : Finset ℕ) (ends : ℕ → Mailbox)
    (hclient : client ∉ left) : ∃ ends', (ends' client).posted = (ends client).posted ∧
      (patient t).Leads (w.withServer server ⟨.posting clientIds served left, ends⟩)
        (w.withServer server ⟨.counting clientIds (served ∪ left.toFinset), ends'⟩) := by
  induction left generalizing served ends with
  | nil =>
      refine ⟨ends, rfl, ?_⟩
      rw [List.toFinset_nil, Finset.union_empty]
      exact leads_server server (.posting clientIds served []) ends fun p hp =>
        absurd hp.symm (Option.some_ne_none p)
  | cons nodeID left ih =>
      have hne : client ≠ nodeID := fun h => hclient (h ▸ List.mem_cons_self)
      have hleft : client ∉ left := fun h => hclient (List.mem_cons_of_mem nodeID h)
      have hcall : ∀ p, (ServerBarrier.posting clientIds served (nodeID :: left)).call = some p →
          p.2 = .receive := fun p hp => by
        rw [ServerBarrier.call] at hp
        split_ifs at hp
        exact (congrArg Prod.snd (Option.some.inj hp)).symm
      have hstep := leads_server (t := t) (w := w) server
        (.posting clientIds served (nodeID :: left)) ends hcall
      rw [List.toFinset_cons, Finset.union_insert, ← Finset.insert_union]
      rw [ServerBarrier.next, ServerBarrier.call] at hstep
      by_cases hin : nodeID ∈ served
      · rw [if_pos hin, if_pos hin] at hstep
        obtain ⟨ends', hposted, hleads⟩ := ih served ends hleft
        rw [Finset.insert_eq_of_mem hin]
        exact ⟨ends', hposted, hstep.trans hleads⟩
      · rw [if_neg hin, if_neg hin] at hstep
        obtain ⟨ends', hposted, hleads⟩ := ih (insert nodeID served)
          (made ends true (some (nodeID, .receive))) hleft
        refine ⟨ends', hposted.trans ?_, hstep.trans hleads⟩
        exact congrArg Mailbox.posted (Function.update_of_ne hne _ _)

/-- A server that has taken a snapshot with as many clients as it expects
goes on to its polls. -/
theorem leads_prepared (clientIds : List ℕ) (ends : ℕ → Mailbox) (hnodup : clientIds.Nodup)
    (hlength : clientIds.length = t.thread_count) (hclient : client ∉ clientIds) :
    ∃ ends', (ends' client).posted = (ends client).posted ∧
      (patient t).Leads (w.withServer server ⟨.comparing clientIds ∅, ends⟩)
        (w.withServer server ⟨.polling clientIds clientIds, ends'⟩) := by
  have hnone : ∀ p : ℕ × MailCall, none = some p → p.2 = .receive := fun p hp =>
    absurd hp.symm (Option.some_ne_none p)
  obtain ⟨ends', hposted, hcounting⟩ : ∃ ends', (ends' client).posted = (ends client).posted ∧
      (patient t).Leads (w.withServer server ⟨.comparing clientIds ∅, ends⟩)
        (w.withServer server ⟨.counting clientIds clientIds.toFinset, ends'⟩) := by
    have hstep : (patient t).Leads (w.withServer server ⟨.comparing clientIds ∅, ends⟩) _ :=
      leads_server server (.comparing clientIds ∅) ends hnone
    rw [ServerBarrier.next] at hstep
    cases clientIds with
    | nil => exact ⟨ends, rfl, hstep⟩
    | cons nodeID left =>
        have hless : (∅ : Finset ℕ).card < (nodeID :: left).length := Nat.succ_pos _
        rw [if_pos hless] at hstep
        obtain ⟨ends', hposted, hleads⟩ := leads_posted (nodeID :: left) (nodeID :: left) ∅ ends hclient
        rw [Finset.empty_union] at hleads
        exact ⟨ends', hposted, hstep.trans hleads⟩
  refine ⟨ends', hposted, hcounting.trans ?_⟩
  have hstep : (patient t).Leads (w.withServer server ⟨.counting clientIds clientIds.toFinset, ends'⟩) _ :=
    leads_server server (.counting clientIds clientIds.toFinset) ends' hnone
  rw [ServerBarrier.next, List.toFinset_card_of_nodup hnodup, hlength, if_neg (Nat.lt_irrefl _)] at hstep
  exact hstep

/-- **A client is missed** in some run. -/
theorem exists_missed (hfew : t.thread_count < t.clients.card) (hserver : server ∈ t.servers)
    (hcalls : 0 < t.calls) :
    ∃ w client, (patient t).Reachable w ∧ client ∈ t.clients ∧ w.Missed server client := by
  obtain ⟨early, hearly, hcard⟩ := Finset.exists_subset_card_eq (Nat.le_of_lt hfew)
  obtain ⟨client, hclient, hlate⟩ := Finset.exists_mem_notMem_of_card_lt_card (hcard ▸ hfew)
  -- the others connect, and the server takes its snapshot
  obtain ⟨w, hleads, hfresh, hzero, hconnected⟩ :=
    leads_connected hserver early.toList fun id hid => hearly (Finset.mem_toList.mp hid)
  obtain ⟨clientIds, hids⟩ : ∃ clientIds, ConnectedConnIDs (w.barrier.connected server) clientIds :=
    ⟨_, Multiset.coe_toList _⟩
  have hmem : ∀ id, id ∈ clientIds ↔ id ∈ early := fun id =>
    (hids.mem_iff id).trans ((hconnected id).trans Finset.mem_toList)
  have hlength : clientIds.length = t.thread_count := by
    rw [← List.toFinset_card_of_nodup hids.nodup, ← hcard]
    congr 1
    ext id
    rw [List.mem_toFinset, hmem]
  have henabled : w.Enabled t (.serverBegins server clientIds) :=
    ⟨hserver, by rw [hfresh]; rfl, by rw [hzero]; exact hcalls, hids⟩
  have hbegun := hleads.tail (l := BarrierEvent.serverBegins server clientIds) ⟨trivial, henabled, rfl⟩
  -- it posts for them
  obtain ⟨ends', hposted, hprepared⟩ := leads_prepared (t := t)
    (w := ⟨w.barrier, w.clientCalls, Function.update w.serverCalls server (w.serverCalls server + 1)⟩)
    clientIds (w.barrier.servers server).ends hids.nodup hlength (fun hin => hlate ((hmem client).mp hin))
  refine ⟨_, client, ⟨start, rfl, hbegun.trans hprepared⟩, hclient, ?_⟩
  unfold Missed withServer
  rw [GlobalBarrier.setServer_self]
  show (ends' client).posted + 0 < Function.update w.serverCalls server (w.serverCalls server + 1) server
  rw [hposted, hfresh, Function.update_self]
  exact Nat.succ_pos _

/-- **All barriers can be completed, in every run in which every message finds
its receive, if and only if every server expects as many clients as there
are.** -/
theorem barriers_complete_iff (hservers : t.servers.Nonempty) (hcalls : 0 < t.calls) :
    (∀ w, (patient t).Reachable w → ∃ w', (patient t).Leads w w' ∧ w'.Complete t) ↔
      t.thread_count = t.clients.card := by
  obtain ⟨server, hserver⟩ := hservers
  refine ⟨fun hall => ?_, fun hcount w hreach => completes hcount hreach⟩
  by_contra hne
  rcases Nat.lt_or_gt_of_ne hne with hfew | hmore
  · obtain ⟨w, client, hreach, hclient, hmissed⟩ := exists_missed hfew hserver hcalls
    obtain ⟨w', hleads, hcomplete⟩ := hall w hreach
    have hmissed' : w'.Missed server client := by
      refine hleads.keeps (I := fun w => w.Missed server client) hreach (fun a e b _ h hstep => ?_)
        hmissed
      obtain ⟨-, henabled, rfl⟩ := hstep
      exact h.exec henabled
    have hw' := (clientsInv_invariant t).reachable (hreach.leads hleads).of_restrict
    exact hmissed'.not_complete hw' hclient hserver hcomplete
  · have hstart : (patient t).Reachable start := .init rfl
    obtain ⟨w', hleads, hcomplete⟩ := hall start hstart
    have h := (inv_invariant (Nat.le_of_lt hmore)).reachable (hstart.leads hleads).of_restrict
    exact h.not_complete hmore hserver hcalls hcomplete

/-- The first client has pinged, the server sleeps, and the second client has
begun after its snapshot. -/
def waited : List BarrierEvent :=
  [.connect 0 1, .clientBegins 1 [0], .client 1 true, .client 1 true, .serverBegins 0 [1],
    .server 0 true, .server 0 true, .server 0 true, .server 0 true, .client 1 true, .client 1 true,
    .connect 0 2, .clientBegins 2 [0]]

theorem reachable_waited : (patient oneOperation).Reachable (waited.foldl (exec oneOperation) start) := by
  have hmeets : System.MeetsAlong (fun w e => Patient e ∧ w.Enabled oneOperation e)
      (exec oneOperation) start waited := by decide
  have hstep : ∀ w e, Patient e ∧ w.Enabled oneOperation e →
      (patient oneOperation).Step w e (w.exec oneOperation e) :=
    fun w e ⟨hpatient, henabled⟩ => ⟨hpatient, henabled, rfl⟩
  have hinit : (patient oneOperation).Reachable start := .init rfl
  exact hinit.along (hmeets.steps hstep)

/-- All of both calls can still be done. -/
theorem barriers_complete_iff_oneOperation :
    ∃ w', (patient oneOperation).Leads (waited.foldl (exec oneOperation) start) w' ∧
      w'.Complete oneOperation :=
  (barriers_complete_iff ⟨0, by decide⟩ (by decide)).mpr rfl _ reachable_waited

end BarrierRun

end RdmaManager
