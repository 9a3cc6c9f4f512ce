import RdmaManager.Perf.EndBarrierSafety
/-!
# Barriers one after the other

The atomics benchmarks meet in the same barrier at the beginning and at the
end of every operation, over connections that stay: a thread of a client
calls `global_barrier_client` again and again, and a server
`global_barrier_server`, which prepares every call. No message names the
call it belongs to, so a ping that comes early, or an answer that is late,
would count for another call. A message that finds no receive fails here,
and nothing else does.
-/

namespace RdmaManager

open Mailbox

/-! ## Counting from a later call -/

namespace Mailbox

/-- The end, where all calls were made `n` times before. -/
def shift (n : ℕ) (own : Mailbox) : Mailbox := ⟨n + own.posted, n + own.sent, n + own.polled⟩

theorem shift_after (n : ℕ) (own : Mailbox) (call : MailCall) :
    (own.shift n).after call = (own.after call).shift n := by
  cases call <;> rfl

variable {ι : Type*} [DecidableEq ι] {peers : Finset ι} {id : ι} {n : ℕ} {now : ι → Mailbox}

/-- **The ends** of a program that has made all its calls `n` times for
every peer, and what it does `now`. -/
def earlier (n : ℕ) (peers : Finset ι) (now : ι → Mailbox) (id : ι) : Mailbox :=
  (now id).shift (n * mark peers id)

theorem earlier_of_mem (h : id ∈ peers) : earlier n peers now id = (now id).shift n := by
  unfold earlier
  rw [mark_of_mem h, Nat.mul_one]

theorem earlier_zero : earlier 0 peers now = now := by
  funext i
  unfold earlier shift
  simp only [Nat.zero_mul, Nat.zero_add]

theorem mark_le {ids ids' : Finset ι} (h : ids ⊆ ids') (id : ι) : mark ids id ≤ mark ids' id := by
  unfold mark
  split_ifs with hin hin'
  · exact Nat.le_refl 1
  · exact absurd (h hin) hin'
  · exact Nat.zero_le 1
  · exact Nat.le_refl 0

theorem mark_le_one (ids : Finset ι) (id : ι) : mark ids id ≤ 1 := by
  unfold mark
  split_ifs
  · exact Nat.le_refl 1
  · exact Nat.zero_le 1

/-- What is done now does not depend on what was done before. -/
theorem made_earlier (success : Bool) (call : Option (ι × MailCall)) :
    made (earlier n peers now) success call = earlier n peers (made now success call) := by
  rcases call with _ | ⟨id, call⟩
  · rfl
  · cases success with
    | false => rfl
    | true =>
        refine Function.update_eq_iff.mpr ⟨?_, fun i hne => ?_⟩
        · have hself : made now true (some (id, call)) id = (now id).after call :=
            Function.update_self _ _ _
          unfold earlier
          rw [hself, shift_after]
        · have hother : made now true (some (id, call)) i = now i := Function.update_of_ne hne _ _
          unfold earlier
          rw [hother]

/-- One more time for every peer. -/
theorem earlier_once (n : ℕ) (peers : Finset ι) :
    earlier n peers (once peers peers peers) = earlier (n + 1) peers (once ∅ ∅ ∅) := by
  funext i
  have hnone : mark (∅ : Finset ι) i = 0 := mark_of_notMem (Finset.notMem_empty i)
  unfold earlier shift once
  rw [hnone, Nat.succ_mul]
  rfl

end Mailbox

/-! ## A benchmark -/

/-- **What is set**: the threads of the clients, the servers, the
`thread_count` that every server expects, and how often each of them calls
its barrier. -/
structure BarrierTest where
  clients : Finset ℕ
  servers : Finset ℕ
  thread_count : ℕ
  calls : ℕ

/-- The parties, and how often each of them has called its barrier. -/
structure BarrierRun where
  barrier : GlobalBarrier
  clientCalls : ℕ → ℕ
  serverCalls : ℕ → ℕ

/-- It is in no call. -/
def ClientBarrier.idle : ClientBarrier → Bool
  | .away => true
  | .returned _ => true
  | _ => false

/-- It is in no call. -/
def ServerBarrier.idle : ServerBarrier → Bool
  | .away => true
  | .returned _ => true
  | _ => false

namespace BarrierRun

variable (t : BarrierTest) (w : BarrierRun)

/-- What can happen. A client calls the barrier of all servers. -/
def Enabled : BarrierEvent → Prop
  | .connect server client => server ∈ t.servers ∧ client ∈ t.clients
  | .clientBegins client connectionIDs =>
      client ∈ t.clients ∧ (w.barrier.clients client).stage.idle = true ∧
        w.clientCalls client < t.calls ∧ connectionIDs.Nodup ∧ connectionIDs.toFinset = t.servers ∧
        ∀ server ∈ connectionIDs, (w.barrier.connected server).lookup client = some true
  | .client client success =>
      let k := w.barrier.clients client
      Ready k.ends (w.barrier.serverEnds client) k.stage.call ∧
        success = succeeds k.ends (w.barrier.serverEnds client) k.stage.call
  | .serverBegins server clientIds =>
      server ∈ t.servers ∧ (w.barrier.servers server).stage.idle = true ∧
        w.serverCalls server < t.calls ∧ ConnectedConnIDs (w.barrier.connected server) clientIds
  | .server server success =>
      let k := w.barrier.servers server
      Ready k.ends (w.barrier.clientEnds server) k.stage.call ∧
        success = succeeds k.ends (w.barrier.clientEnds server) k.stage.call
  | .recounts server clientIds =>
      (w.barrier.servers server).stage.asleep = true ∧
        ConnectedConnIDs (w.barrier.connected server) clientIds

instance : ∀ e, Decidable (w.Enabled t e)
  | .connect _ _ => inferInstanceAs (Decidable (_ ∧ _))
  | .clientBegins _ _ => inferInstanceAs (Decidable (_ ∧ _ ∧ _ ∧ _ ∧ _ ∧ _))
  | .client _ _ => inferInstanceAs (Decidable (_ ∧ _))
  | .serverBegins _ _ => inferInstanceAs (Decidable (_ ∧ _ ∧ _ ∧ _))
  | .server _ _ => inferInstanceAs (Decidable (_ ∧ _))
  | .recounts _ _ => inferInstanceAs (Decidable (_ ∧ _))

/-- A client calls its barrier, or calls it again. -/
def clientBegins (client : ℕ) (connectionIDs : List ℕ) : BarrierRun where
  barrier := w.barrier.setClient client
    ⟨.posting connectionIDs connectionIDs, (w.barrier.clients client).ends⟩
  clientCalls := Function.update w.clientCalls client (w.clientCalls client + 1)
  serverCalls := w.serverCalls

/-- A server calls its barrier, and takes its first snapshot. -/
def serverBegins (server : ℕ) (clientIds : List ℕ) : BarrierRun where
  barrier := w.barrier.setServer server
    ⟨.comparing clientIds ∅, (w.barrier.servers server).ends⟩
  clientCalls := w.clientCalls
  serverCalls := Function.update w.serverCalls server (w.serverCalls server + 1)

/-- The state after an event. -/
def exec : BarrierEvent → BarrierRun
  | .clientBegins client connectionIDs => w.clientBegins client connectionIDs
  | .serverBegins server clientIds => w.serverBegins server clientIds
  | e => { w with barrier := w.barrier.exec t.thread_count e }

/-- Nobody is connected. -/
def start : BarrierRun := ⟨.before fun _ => ∅, fun _ => 0, fun _ => 0⟩

/-- **The runs** of a benchmark. -/
def runs : System BarrierRun BarrierEvent where
  Init w := w = start
  Step w e w' := w.Enabled t e ∧ w' = w.exec t e

/-- How many calls of a client have returned. -/
def clientReturned (client : ℕ) : ℕ :=
  if (w.barrier.clients client).stage.idle then w.clientCalls client else w.clientCalls client - 1

/-- How many calls of a server have returned. -/
def serverReturned (server : ℕ) : ℕ :=
  if (w.barrier.servers server).stage.idle then w.serverCalls server else w.serverCalls server - 1

/-- **All calls have returned.** -/
def Complete : Prop :=
  (∀ client ∈ t.clients, w.clientReturned client = t.calls) ∧
    ∀ server ∈ t.servers, w.serverReturned server = t.calls

end BarrierRun

/-! ## What the parties keep -/

variable {t : BarrierTest} {calls : ℕ}

/-- A client polls whom it has pinged, and pings whom it has posted for. -/
theorem ClientBarrier.Of.sets {connectionIDs : List ℕ} {stage : ClientBarrier} {ends : ℕ → Mailbox}
    (h : stage.Of connectionIDs) (hok : stage.Ok ends) :
    ∃ posted sent polled, ends = once posted sent polled ∧ polled ⊆ sent ∧ sent ⊆ posted := by
  cases stage with
  | away => exact absurd h not_false
  | threw => exact absurd h not_false
  | posting ids left =>
      obtain ⟨-, -, rfl⟩ := hok
      exact ⟨_, _, _, rfl, Finset.Subset.refl _, Finset.empty_subset _⟩
  | sending ids leftConIDs i =>
      obtain ⟨-, -, rfl⟩ := hok
      exact ⟨_, _, _, rfl, Finset.empty_subset _, Finset.sdiff_subset⟩
  | polling ids left =>
      obtain ⟨-, -, rfl⟩ := hok
      exact ⟨_, _, _, rfl, Finset.sdiff_subset, Finset.Subset.refl _⟩
  | returned ids => exact ⟨_, _, _, hok, Finset.Subset.refl _, Finset.Subset.refl _⟩

/-- **What a client has done** when it has called its barrier so often. -/
def ClientBarrier.Called (t : BarrierTest) (k : BarrierParty ClientBarrier) : ℕ → Prop
  | 0 => k = .fresh .away
  | n + 1 => ∃ now connectionIDs, k.ends = earlier n t.servers now ∧ k.stage.Ok now ∧
      k.stage.Of connectionIDs ∧ connectionIDs.toFinset = t.servers

namespace ClientBarrier.Called

variable {k : BarrierParty ClientBarrier}

/-- A client that is in no call has made all its calls equally often for
every server. -/
theorem ends_of_idle (h : Called t k calls) (hidle : k.stage.idle = true) :
    k.ends = earlier calls t.servers (once ∅ ∅ ∅) := by
  cases calls with
  | zero =>
      rw [show k = .fresh .away from h, earlier_zero]
      rfl
  | succ n =>
      obtain ⟨now, connectionIDs, hends, hok, hof, hids⟩ := h
      cases hstage : k.stage with
      | returned ids =>
          rw [hstage] at hok hof
          obtain rfl : ids = connectionIDs := hof
          rw [hends, show now = _ from hok, hids, earlier_once]
      | away =>
          rw [hstage] at hof
          exact absurd hof not_false
      | _ =>
          rw [hstage] at hidle
          exact Bool.noConfusion hidle

/-- **It calls its barrier again.** -/
theorem begins (h : Called t k calls) (hidle : k.stage.idle = true) {connectionIDs : List ℕ}
    (hnodup : connectionIDs.Nodup) (hids : connectionIDs.toFinset = t.servers) :
    Called t ⟨.posting connectionIDs connectionIDs, k.ends⟩ (calls + 1) := by
  refine ⟨_, connectionIDs, h.ends_of_idle hidle, ⟨hnodup, List.Sublist.refl _, ?_⟩, rfl, hids⟩
  rw [doneIds_self]

/-- **It goes on.** -/
theorem next (h : Called t k calls) (peers : ℕ → Mailbox) :
    Called t ⟨k.stage.next (succeeds k.ends peers k.stage.call),
      made k.ends (succeeds k.ends peers k.stage.call) k.stage.call⟩ calls := by
  cases calls with
  | zero =>
      obtain rfl : k = .fresh .away := h
      rfl
  | succ n =>
      obtain ⟨now, connectionIDs, hends, hok, hof, hids⟩ := h
      refine ⟨made now _ k.stage.call, connectionIDs, ?_, hok.next _, hof.next _ _, hids⟩
      rw [hends]
      exact made_earlier _ _

/-- A client posts its receives before it pings, and polls after. -/
theorem le (h : Called t k calls) (server : ℕ) :
    (k.ends server).polled ≤ (k.ends server).sent ∧ (k.ends server).sent ≤ (k.ends server).posted := by
  cases calls with
  | zero =>
      rw [show k = .fresh .away from h]
      exact ⟨Nat.le_refl 0, Nat.le_refl 0⟩
  | succ n =>
      obtain ⟨now, connectionIDs, hends, hok, hof, -⟩ := h
      obtain ⟨posted, sent, polled, rfl, hsent, hposted⟩ := hof.sets hok
      rw [hends]
      exact ⟨Nat.add_le_add_left (mark_le hsent server) _, Nat.add_le_add_left (mark_le hposted server) _⟩

/-- It has been answered in every call that has returned. -/
theorem returned_le_polled (h : Called t k calls) {server : ℕ} (hserver : server ∈ t.servers) :
    (if k.stage.idle then calls else calls - 1) ≤ (k.ends server).polled := by
  split_ifs with hidle
  · rw [h.ends_of_idle hidle, earlier_of_mem hserver]
    exact Nat.le_add_right _ _
  · cases calls with
    | zero => exact Nat.zero_le _
    | succ n =>
        obtain ⟨now, connectionIDs, hends, -⟩ := h
        rw [hends, earlier_of_mem hserver]
        exact Nat.le_add_right _ _

/-- It pings once in every call, and has pinged in all when it is in none. -/
theorem sent_le (h : Called t k calls) {server : ℕ} (hserver : server ∈ t.servers) :
    (k.ends server).sent ≤ calls := by
  cases calls with
  | zero =>
      rw [show k = .fresh .away from h]
      exact Nat.le_refl 0
  | succ n =>
      obtain ⟨now, connectionIDs, hends, hok, hof, -⟩ := h
      obtain ⟨posted, sent, polled, rfl, -⟩ := hof.sets hok
      rw [hends, earlier_of_mem hserver]
      exact Nat.add_le_add_left (mark_le_one sent server) n

end ClientBarrier.Called

/-- The ids of a call are clients of the benchmark. -/
def ServerBarrier.Within (clients : Finset ℕ) : ServerBarrier → Prop
  | .comparing clientIds _ => clientIds.toFinset ⊆ clients
  | .posting clientIds _ _ => clientIds.toFinset ⊆ clients
  | .counting clientIds _ => clientIds.toFinset ⊆ clients
  | .sleeping alreadyConnectedIds => alreadyConnectedIds ⊆ clients
  | .polling clientIds _ => clientIds.toFinset ⊆ clients
  | .sending clientIds _ => clientIds.toFinset ⊆ clients
  | .returned clientIds => clientIds.toFinset ⊆ clients
  | _ => False

theorem ServerBarrier.Within.next {clients : Finset ℕ} {stage : ServerBarrier}
    {connected : ℕ → Prop} {e : ℕ} {ends : ℕ → Mailbox} (h : stage.Within clients)
    (hok : stage.Ok connected e ends) : (stage.next e true).Within clients := by
  cases stage with
  | away => exact h
  | threw => exact h
  | returned clientIds => exact h
  | sleeping alreadyConnectedIds => exact h
  | comparing clientIds alreadyConnectedIds =>
      rw [ServerBarrier.next]
      split_ifs <;> exact h
  | posting clientIds alreadyConnectedIds left =>
      cases left with
      | nil => exact h
      | cons nodeID left =>
          simp only [ServerBarrier.next, if_true]
          split_ifs <;> exact h
  | counting clientIds alreadyConnectedIds =>
      obtain ⟨-, -, rfl, -⟩ := hok
      rw [ServerBarrier.next]
      split_ifs <;> exact h
  | polling clientIds left => cases left <;> exact h
  | sending clientIds left => cases left <;> exact h

/-- Enough ids of clients are all of them. -/
theorem toFinset_eq_of_enough {clients : Finset ℕ} {ids : List ℕ} {e : ℕ} (henough : clients.card ≤ e)
    (hnodup : ids.Nodup) (hcount : e ≤ ids.length) (hwithin : ids.toFinset ⊆ clients) :
    ids.toFinset = clients := by
  refine Finset.eq_of_subset_of_card_le hwithin ?_
  rw [List.toFinset_card_of_nodup hnodup]
  exact henough.trans hcount

/-- A server that has answered anyone in this call has polled everyone. -/
theorem ServerBarrier.Within.answered {clients : Finset ℕ} {stage : ServerBarrier}
    {connected : ℕ → Prop} {e : ℕ} {ends : ℕ → Mailbox} (h : stage.Within clients)
    (hok : stage.Ok connected e ends) (henough : clients.card ≤ e) :
    (∀ i, (ends i).sent = 0) ∨ ∃ sent, ends = once clients sent clients := by
  have hnobody : ∀ posted polled : Finset ℕ, ∀ i, (once posted ∅ polled i).sent = 0 :=
    fun posted polled i => mark_of_notMem (Finset.notMem_empty i)
  cases stage with
  | away => exact absurd h not_false
  | threw => exact absurd h not_false
  | comparing clientIds alreadyConnectedIds =>
      obtain ⟨-, -, -, rfl⟩ := hok
      exact Or.inl (hnobody _ _)
  | posting clientIds alreadyConnectedIds left =>
      obtain ⟨-, -, -, -, -, rfl⟩ := hok
      exact Or.inl (hnobody _ _)
  | counting clientIds alreadyConnectedIds =>
      obtain ⟨-, -, -, rfl⟩ := hok
      exact Or.inl (hnobody _ _)
  | sleeping alreadyConnectedIds =>
      obtain ⟨-, rfl⟩ := hok
      exact Or.inl (hnobody _ _)
  | polling clientIds left =>
      obtain ⟨-, -, -, rfl⟩ := hok
      exact Or.inl (hnobody _ _)
  | sending clientIds left =>
      obtain ⟨hnodup, hcount, -, rfl⟩ := hok
      rw [toFinset_eq_of_enough henough hnodup hcount h]
      exact Or.inr ⟨_, rfl⟩
  | returned clientIds =>
      obtain ⟨hnodup, hcount, rfl⟩ := hok
      rw [toFinset_eq_of_enough henough hnodup hcount h]
      exact Or.inr ⟨_, rfl⟩

/-- **What a server has done** when it has called its barrier so often. -/
def ServerBarrier.Called (t : BarrierTest) (connected : ℕ → Prop) (k : BarrierParty ServerBarrier) :
    ℕ → Prop
  | 0 => k = .fresh .away
  | n + 1 => ∃ now, k.ends = earlier n t.clients now ∧ k.stage.Ok connected t.thread_count now ∧
      k.stage.Within t.clients

namespace ServerBarrier.Called

variable {connected connected' : ℕ → Prop} {k : BarrierParty ServerBarrier}

theorem mono (h : Called t connected k calls) (hmono : ∀ id, connected id → connected' id) :
    Called t connected' k calls := by
  cases calls with
  | zero => exact h
  | succ n =>
      obtain ⟨now, hends, hok, hwithin⟩ := h
      exact ⟨now, hends, hok.mono hmono, hwithin⟩

/-- A server that is in no call has made all its calls equally often for
every client, where it expects all of them. -/
theorem ends_of_idle (h : Called t connected k calls) (henough : t.clients.card ≤ t.thread_count)
    (hidle : k.stage.idle = true) : k.ends = earlier calls t.clients (once ∅ ∅ ∅) := by
  cases calls with
  | zero =>
      rw [show k = .fresh .away from h, earlier_zero]
      rfl
  | succ n =>
      obtain ⟨now, hends, hok, hwithin⟩ := h
      cases hstage : k.stage with
      | returned clientIds =>
          rw [hstage] at hok hwithin
          obtain ⟨hnodup, hcount, rfl⟩ := hok
          rw [hends, toFinset_eq_of_enough henough hnodup hcount hwithin, earlier_once]
      | away =>
          rw [hstage] at hwithin
          exact absurd hwithin not_false
      | _ =>
          rw [hstage] at hidle
          exact Bool.noConfusion hidle

/-- **It calls its barrier again.** -/
theorem begins (h : Called t connected k calls) (henough : t.clients.card ≤ t.thread_count)
    (hidle : k.stage.idle = true) {clientIds : List ℕ} (hnodup : clientIds.Nodup)
    (hids : ∀ id ∈ clientIds, connected id) (hwithin : clientIds.toFinset ⊆ t.clients) :
    Called t connected ⟨.comparing clientIds ∅, k.ends⟩ (calls + 1) :=
  ⟨_, h.ends_of_idle henough hidle, ⟨hnodup, hids, Finset.empty_subset _, rfl⟩, hwithin⟩

/-- It takes another snapshot. -/
theorem recounts (h : Called t connected k calls) (hasleep : k.stage.asleep = true) {clientIds : List ℕ}
    (hnodup : clientIds.Nodup) (hids : ∀ id, id ∈ clientIds ↔ connected id)
    (hwithin : clientIds.toFinset ⊆ t.clients) :
    Called t connected ⟨k.stage.snapshot clientIds, k.ends⟩ calls := by
  cases calls with
  | zero =>
      obtain rfl : k = .fresh .away := h
      exact Bool.noConfusion hasleep
  | succ n =>
      obtain ⟨now, hends, hok, -⟩ := h
      refine ⟨now, hends, hok.snapshot hnodup hids, ?_⟩
      cases hstage : k.stage with
      | sleeping alreadyConnectedIds => exact hwithin
      | _ =>
          rw [hstage] at hasleep
          exact Bool.noConfusion hasleep

/-- **It goes on**, where its next verb succeeds. -/
theorem next (h : Called t connected k calls) :
    Called t connected ⟨k.stage.next t.thread_count true, made k.ends true k.stage.call⟩ calls := by
  cases calls with
  | zero =>
      obtain rfl : k = .fresh .away := h
      rfl
  | succ n =>
      obtain ⟨now, hends, hok, hwithin⟩ := h
      refine ⟨made now true k.stage.call, ?_, hok.next true, hwithin.next hok⟩
      rw [hends]
      exact made_earlier _ _

/-- It has heard from everyone in every call that has returned. -/
theorem returned_le_polled (h : Called t connected k calls) (henough : t.clients.card ≤ t.thread_count)
    {client : ℕ} (hclient : client ∈ t.clients) :
    (if k.stage.idle then calls else calls - 1) ≤ (k.ends client).polled := by
  split_ifs with hidle
  · rw [h.ends_of_idle henough hidle, earlier_of_mem hclient]
    exact Nat.le_add_right _ _
  · cases calls with
    | zero => exact Nat.zero_le _
    | succ n =>
        obtain ⟨now, hends, -⟩ := h
        rw [hends, earlier_of_mem hclient]
        exact Nat.le_add_right _ _

/-- **A server answers nobody before it has heard from everyone**, in this
call as in those before. -/
theorem sent_le_polled (h : Called t connected k calls) (henough : t.clients.card ≤ t.thread_count)
    {i j : ℕ} (hi : i ∈ t.clients) (hj : j ∈ t.clients) :
    (k.ends i).sent ≤ (k.ends j).polled := by
  cases calls with
  | zero =>
      rw [show k = .fresh .away from h]
      exact Nat.le_refl 0
  | succ n =>
      obtain ⟨now, hends, hok, hwithin⟩ := h
      rw [hends, earlier_of_mem hi, earlier_of_mem hj]
      refine Nat.add_le_add_left ?_ n
      rcases hwithin.answered hok henough with hnobody | ⟨sent, rfl⟩
      · rw [hnobody i]
        exact Nat.zero_le _
      · show mark sent i ≤ mark t.clients j
        rw [mark_of_mem hj]
        exact mark_le_one sent i

end ServerBarrier.Called

/-! ## Every run -/

namespace BarrierRun

variable {w : BarrierRun} {client server : ℕ}

/-- **What the clients keep**, whatever the servers expect. -/
structure ClientsInv (t : BarrierTest) (w : BarrierRun) : Prop where
  clients : ∀ client, ClientBarrier.Called t (w.barrier.clients client) (w.clientCalls client)
  paired : ∀ client server,
    Paired ((w.barrier.clients client).ends server) ((w.barrier.servers server).ends client)
  clientCalls : ∀ client, w.clientCalls client ≤ t.calls
  serverCalls : ∀ server, w.serverCalls server ≤ t.calls
  connected : ∀ server client, w.barrier.Connected server client → client ∈ t.clients

/-- **The invariant**, where the servers expect all clients. -/
structure Inv (t : BarrierTest) (w : BarrierRun) : Prop extends ClientsInv t w where
  servers : ∀ server,
    ServerBarrier.Called t (w.barrier.Connected server) (w.barrier.servers server) (w.serverCalls server)

theorem ClientsInv.setClient (h : ClientsInv t w) {k : BarrierParty ClientBarrier} {n : ℕ}
    (hk : ClientBarrier.Called t k n) (hn : n ≤ t.calls)
    (hpaired : ∀ server, Paired (k.ends server) ((w.barrier.servers server).ends client)) :
    ClientsInv t
      ⟨w.barrier.setClient client k, Function.update w.clientCalls client n, w.serverCalls⟩ where
  clients i := by
    show ClientBarrier.Called t ((w.barrier.setClient client k).clients i)
      (Function.update w.clientCalls client n i)
    rcases eq_or_ne i client with rfl | hne
    · rw [GlobalBarrier.setClient_self, Function.update_self]
      exact hk
    · rw [GlobalBarrier.setClient_of_ne _ hne, Function.update_of_ne hne]
      exact h.clients i
  paired i server := by
    show Paired (((w.barrier.setClient client k).clients i).ends server) _
    rcases eq_or_ne i client with rfl | hne
    · rw [GlobalBarrier.setClient_self]
      exact hpaired server
    · rw [GlobalBarrier.setClient_of_ne _ hne]
      exact h.paired i server
  clientCalls := (Function.forall_update_iff w.clientCalls fun _ n => n ≤ t.calls).mpr
    ⟨hn, fun i _ => h.clientCalls i⟩
  serverCalls := h.serverCalls
  connected := h.connected

theorem ClientsInv.setServer (h : ClientsInv t w) {k : BarrierParty ServerBarrier} {n : ℕ}
    (hn : n ≤ t.calls)
    (hpaired : ∀ client, Paired ((w.barrier.clients client).ends server) (k.ends client)) :
    ClientsInv t
      ⟨w.barrier.setServer server k, w.clientCalls, Function.update w.serverCalls server n⟩ where
  clients := h.clients
  paired client i := by
    show Paired _ (((w.barrier.setServer server k).servers i).ends client)
    rcases eq_or_ne i server with rfl | hne
    · rw [GlobalBarrier.setServer_self]
      exact hpaired client
    · rw [GlobalBarrier.setServer_of_ne _ hne]
      exact h.paired client i
  clientCalls := h.clientCalls
  serverCalls := (Function.forall_update_iff w.serverCalls fun _ n => n ≤ t.calls).mpr
    ⟨hn, fun i _ => h.serverCalls i⟩
  connected := h.connected

/-- The state after a step of a client. -/
theorem exec_client (success : Bool) : w.exec t (.client client success) =
    ⟨w.barrier.setClient client (w.barrier.clientSteps client success),
      Function.update w.clientCalls client (w.clientCalls client), w.serverCalls⟩ := by
  rw [Function.update_eq_self]
  rfl

/-- The state after a step of a server. -/
theorem exec_server (success : Bool) : w.exec t (.server server success) =
    ⟨w.barrier.setServer server (w.barrier.serverSteps t.thread_count server success),
      w.clientCalls, Function.update w.serverCalls server (w.serverCalls server)⟩ := by
  rw [Function.update_eq_self]
  rfl

/-- The state after another snapshot. -/
theorem exec_recounts (clientIds : List ℕ) : w.exec t (.recounts server clientIds) =
    ⟨w.barrier.setServer server ⟨(w.barrier.servers server).stage.snapshot clientIds,
        (w.barrier.servers server).ends⟩,
      w.clientCalls, Function.update w.serverCalls server (w.serverCalls server)⟩ := by
  rw [Function.update_eq_self]
  rfl

/-- One more client is connected to a server. -/
theorem connected_exec (i id : ℕ) : (w.exec t (.connect server client)).barrier.Connected i id ↔
    w.barrier.Connected i id ∨ i = server ∧ id = client := by
  show (Function.update w.barrier.connected server _ i).lookup id = some true ↔ _
  rcases eq_or_ne i server with rfl | hne
  · rw [Function.update_self]
    rcases eq_or_ne id client with rfl | hid
    · rw [Finmap.lookup_insert]
      exact iff_of_true rfl (Or.inr ⟨rfl, rfl⟩)
    · rw [Finmap.lookup_insert_of_ne _ hid]
      exact ⟨Or.inl, fun h => h.resolve_right fun hbad => hid hbad.2⟩
  · rw [Function.update_of_ne hne]
    exact ⟨Or.inl, fun h => h.resolve_right fun hbad => hne hbad.1⟩

/-- **Every event** keeps what the clients keep. -/
theorem ClientsInv.exec (h : ClientsInv t w) {e : BarrierEvent} (henabled : w.Enabled t e) :
    ClientsInv t (w.exec t e) := by
  cases e with
  | connect server client =>
      refine ⟨h.clients, h.paired, h.clientCalls, h.serverCalls, fun i id hid => ?_⟩
      rcases (connected_exec i id).mp hid with hid | ⟨rfl, rfl⟩
      · exact h.connected i id hid
      · exact henabled.2
  | clientBegins client connectionIDs =>
      obtain ⟨-, hidle, hmore, hnodup, hids, -⟩ := henabled
      exact h.setClient ((h.clients client).begins hidle hnodup hids) hmore fun server =>
        h.paired client server
  | client client success =>
      obtain ⟨hready, rfl⟩ := henabled
      rw [exec_client]
      refine h.setClient ((h.clients client).next _) (h.clientCalls client) fun server => ?_
      exact Paired.made (fun server => h.paired client server) hready.can server
  | serverBegins server clientIds =>
      obtain ⟨-, -, hmore, -⟩ := henabled
      exact h.setServer hmore fun client => h.paired client server
  | server server success =>
      obtain ⟨hready, rfl⟩ := henabled
      rw [exec_server]
      refine h.setServer (h.serverCalls server) fun client => ?_
      exact (Paired.made (fun client => (h.paired client server).symm) hready.can client).symm
  | recounts server clientIds =>
      rw [exec_recounts]
      exact h.setServer (h.serverCalls server) fun client => h.paired client server

theorem not_connected_start (server client : ℕ) : ¬ start.barrier.Connected server client := by
  intro h
  have hnone : (∅ : Finmap fun _ : ℕ => Bool).lookup client = none := Finmap.lookup_empty client
  exact absurd (h.symm.trans hnone) (Option.some_ne_none true)

theorem clientsInv_start : ClientsInv t start where
  clients _ := rfl
  paired _ _ := ⟨Nat.le_refl 0, Nat.le_refl 0, Nat.le_refl 0, Nat.le_refl 0⟩
  clientCalls _ := Nat.zero_le _
  serverCalls _ := Nat.zero_le _
  connected server client h := absurd h (not_connected_start server client)

theorem clientsInv_invariant (t : BarrierTest) : (runs t).Invariant (ClientsInv t) where
  init := by
    rintro w rfl
    exact clientsInv_start
  step := by
    rintro w e w' - h ⟨henabled, rfl⟩
    exact h.exec henabled

/-- **An answer finds its receive**: the server has polled the ping of that
client, which has posted before. -/
theorem Inv.server_succeeds (h : Inv t w) (server : ℕ) :
    succeeds (w.barrier.servers server).ends (w.barrier.clientEnds server)
      (w.barrier.servers server).stage.call = true := by
  have hserver := h.servers server
  cases hcalls : w.serverCalls server with
  | zero =>
      rw [hcalls] at hserver
      rw [show w.barrier.servers server = .fresh .away from hserver]
      rfl
  | succ n =>
      rw [hcalls] at hserver
      obtain ⟨now, hends, hok, -⟩ := hserver
      cases hstage : (w.barrier.servers server).stage with
      | sending clientIds left =>
          cases left with
          | nil => rfl
          | cons client left =>
              rw [hstage] at hok
              obtain ⟨-, -, hleft, rfl⟩ := hok
              have hpaired := (h.paired client server).polled'
              have hle := ((h.clients client).le server).2
              have hpolled : ((w.barrier.servers server).ends client).sent <
                  ((w.barrier.servers server).ends client).polled := by
                rw [hends]
                refine Nat.add_lt_add_left ?_ _
                show mark _ client < mark _ client
                rw [mark_of_notMem (notMem_doneIds List.mem_cons_self),
                  mark_of_mem (List.mem_toFinset.mpr (hleft.subset List.mem_cons_self))]
                exact Nat.one_pos
              exact decide_eq_true (by
                show _ < ((w.barrier.clients client).ends server).posted
                omega)
      | posting clientIds alreadyConnectedIds left =>
          cases left with
          | nil => rfl
          | cons nodeID left =>
              rw [ServerBarrier.call]
              split_ifs <;> rfl
      | polling clientIds left => cases left <;> rfl
      | _ => rfl

theorem Inv.within (h : Inv t w) {clientIds : List ℕ}
    (hids : ConnectedConnIDs (w.barrier.connected server) clientIds) : clientIds.toFinset ⊆ t.clients :=
  fun id hid => h.connected server id ((hids.mem_iff id).mp (List.mem_toFinset.mp hid))

theorem Inv.setServer (h : Inv t w) {k : BarrierParty ServerBarrier} {n : ℕ} (hn : n ≤ t.calls)
    (hk : ServerBarrier.Called t (w.barrier.Connected server) k n)
    (hpaired : ∀ client, Paired ((w.barrier.clients client).ends server) (k.ends client)) :
    Inv t ⟨w.barrier.setServer server k, w.clientCalls, Function.update w.serverCalls server n⟩ where
  toClientsInv := h.toClientsInv.setServer hn hpaired
  servers i := by
    show ServerBarrier.Called t _ ((w.barrier.setServer server k).servers i)
      (Function.update w.serverCalls server n i)
    rcases eq_or_ne i server with rfl | hne
    · rw [GlobalBarrier.setServer_self, Function.update_self]
      exact hk
    · rw [GlobalBarrier.setServer_of_ne _ hne, Function.update_of_ne hne]
      exact h.servers i

/-- **Every event** keeps the invariant. -/
theorem Inv.exec (h : Inv t w) (henough : t.clients.card ≤ t.thread_count) {e : BarrierEvent}
    (henabled : w.Enabled t e) : Inv t (w.exec t e) := by
  have hclients := h.toClientsInv.exec henabled
  cases e with
  | connect server client =>
      exact ⟨hclients, fun i => (h.servers i).mono fun id hid => (connected_exec i id).mpr (Or.inl hid)⟩
  | clientBegins client connectionIDs => exact ⟨hclients, h.servers⟩
  | client client success => exact ⟨hclients, h.servers⟩
  | serverBegins server clientIds =>
      obtain ⟨-, hidle, hmore, hids⟩ := henabled
      refine h.setServer hmore ?_ fun client => h.paired client server
      exact (h.servers server).begins henough hidle hids.nodup (fun id hid => (hids.mem_iff id).mp hid)
        (h.within hids)
  | server server success =>
      obtain ⟨hready, rfl⟩ := henabled
      have hsuccess := h.server_succeeds server
      rw [exec_server]
      refine h.setServer (h.serverCalls server) ?_ fun client => ?_
      · unfold GlobalBarrier.serverSteps
        rw [hsuccess]
        exact (h.servers server).next
      · exact (Paired.made (fun client => (h.paired client server).symm) hready.can client).symm
  | recounts server clientIds =>
      obtain ⟨hasleep, hids⟩ := henabled
      rw [exec_recounts]
      refine h.setServer (h.serverCalls server) ?_ fun client => h.paired client server
      exact (h.servers server).recounts hasleep hids.nodup hids.mem_iff (h.within hids)

theorem inv_invariant (henough : t.clients.card ≤ t.thread_count) : (runs t).Invariant (Inv t) where
  init := by
    rintro w rfl
    exact ⟨clientsInv_start, fun _ => rfl⟩
  step := by
    rintro w e w' - h ⟨henabled, rfl⟩
    exact h.exec henough henabled

/-! ## In step -/

/-- Whom a client has an answer from, that server has heard from every
client. -/
theorem Inv.returned_le_sent (h : Inv t w) (henough : t.clients.card ≤ t.thread_count)
    (hserver : server ∈ t.servers) {i j : ℕ} (hi : i ∈ t.clients) (hj : j ∈ t.clients) :
    w.clientReturned i ≤ ((w.barrier.clients j).ends server).sent :=
  calc w.clientReturned i
    _ ≤ ((w.barrier.clients i).ends server).polled := (h.clients i).returned_le_polled hserver
    _ ≤ ((w.barrier.servers server).ends i).sent := (h.paired i server).polled
    _ ≤ ((w.barrier.servers server).ends j).polled := (h.servers server).sent_le_polled henough hi hj
    _ ≤ ((w.barrier.clients j).ends server).sent := (h.paired j server).polled'

/-- A client that is in no call is not behind one whose call has returned. -/
theorem Inv.returned_le_calls (h : Inv t w) (henough : t.clients.card ≤ t.thread_count)
    (hserver : server ∈ t.servers) {i j : ℕ} (hi : i ∈ t.clients) (hj : j ∈ t.clients) :
    w.clientReturned i ≤ w.clientCalls j :=
  (h.returned_le_sent henough hserver hi hj).trans ((h.clients j).sent_le hserver)

/-- **The barriers keep all threads in step**: where a call of a client, or
of a server, has returned, every client has pinged in the same call; no
client is more than one call ahead of another; and two clients that are in
no call have both left the same one. -/
theorem barriers_in_step (henough : t.clients.card ≤ t.thread_count) (hreach : (runs t).Reachable w)
    (hserver : server ∈ t.servers) {i j : ℕ} (hi : i ∈ t.clients) (hj : j ∈ t.clients) :
    w.clientReturned i ≤ ((w.barrier.clients j).ends server).sent ∧
      w.serverReturned server ≤ ((w.barrier.clients j).ends server).sent ∧
      w.clientCalls i ≤ w.clientCalls j + 1 ∧
      ((w.barrier.clients i).stage.idle = true → (w.barrier.clients j).stage.idle = true →
        w.clientCalls i = w.clientCalls j) := by
  have h : Inv t w := (inv_invariant henough).reachable hreach
  have hij := h.returned_le_calls henough hserver hi hj
  have hji := h.returned_le_calls henough hserver hj hi
  have hreturned : ∀ i, w.clientCalls i ≤ w.clientReturned i + 1 := fun i => by
    unfold clientReturned
    split_ifs <;> omega
  have hidle : ∀ i, (w.barrier.clients i).stage.idle = true → w.clientReturned i = w.clientCalls i :=
    fun i hidle => if_pos hidle
  refine ⟨h.returned_le_sent henough hserver hi hj, ?_, ?_, fun hiIdle hjIdle => ?_⟩
  · exact ((h.servers server).returned_le_polled henough hj).trans (h.paired j server).polled'
  · exact (hreturned i).trans (Nat.succ_le_succ hij)
  · rw [hidle i hiIdle] at hij
    rw [hidle j hjIdle] at hji
    exact Nat.le_antisymm hij hji

/-- Two client threads and one server, at the beginning and at the end of
one operation. -/
def oneOperation : BarrierTest where
  clients := {1, 2}
  servers := {0}
  thread_count := 2
  calls := 2

/-- The first client is refused until the server has posted its receive,
and the second connects while the server waits. Both leave the barrier, and
the first calls it again. -/
def begun : List BarrierEvent :=
  [.connect 0 1, .clientBegins 1 [0], .client 1 true, .client 1 true, .client 1 false,
    .serverBegins 0 [1], .server 0 true, .server 0 true, .server 0 true, .server 0 true,
    .client 1 true, .client 1 true, .client 1 true,
    .connect 0 2, .clientBegins 2 [0], .client 2 true, .client 2 true, .recounts 0 [2, 1],
    .server 0 true, .server 0 true, .server 0 true, .server 0 true, .server 0 true,
    .client 2 true, .client 2 true,
    .server 0 true, .server 0 true, .server 0 true, .server 0 true, .server 0 true, .server 0 true,
    .client 1 true, .client 1 true, .clientBegins 1 [0]]

theorem reachable_begun : (runs oneOperation).Reachable (begun.foldl (exec oneOperation) start) := by
  have hmeets : System.MeetsAlong (Enabled oneOperation) (exec oneOperation) start begun := by decide
  have hstep : ∀ w e, w.Enabled oneOperation e →
      (runs oneOperation).Step w e (w.exec oneOperation e) := fun w e henabled => ⟨henabled, rfl⟩
  have hinit : (runs oneOperation).Reachable start := .init rfl
  exact hinit.along (hmeets.steps hstep)

/-- The second client has pinged before the first can call the barrier
again. -/
theorem barriers_in_step_begun :
    1 ≤ (((begun.foldl (exec oneOperation) start).barrier.clients 2).ends 0).sent := by
  have hreturned : (begun.foldl (exec oneOperation) start).clientReturned 1 = 1 := by decide
  have hserver : 0 ∈ oneOperation.servers := by decide
  have hfirst : 1 ∈ oneOperation.clients := by decide
  have hsecond : 2 ∈ oneOperation.clients := by decide
  have hstep := barriers_in_step (by decide) reachable_begun hserver hfirst hsecond
  rw [hreturned] at hstep
  exact hstep.1

end BarrierRun

end RdmaManager
