import RdmaManager.Perf.BarrierSafety
import RdmaManager.Perf.EndBarrier
import RdmaManager.Perf.Progress
/-!
# The end barrier is safe

Where messages are acknowledged, a server has posted one receive for each
client whose thread has prepared the barrier (`preparedFor`), and it calls
`global_barrier_server` when all have. A client that pings has finished its
part, so it has the last acknowledgement, which was sent after the barrier was
prepared. A connection that is broken keeps its client from the barrier.
-/

namespace RdmaManager

open Mailbox

/-! ## A measurement -/

namespace EndTest

variable {t : EndTest} {client server : ℕ}

theorem mem_clients (h : server ∈ t.connectionIDs client) : client ∈ t.clients := by
  by_contra hout
  rw [t.absent client hout] at h
  exact List.not_mem_nil h

theorem mem_connected : client ∈ t.connected server ↔ server ∈ t.connectionIDs client := by
  unfold connected
  rw [Finset.mem_filter]
  exact and_iff_right_of_imp mem_clients

theorem mem_servers : server ∈ t.servers ↔ ∃ client, server ∈ t.connectionIDs client := by
  unfold servers
  simp only [Finset.mem_biUnion, List.mem_toFinset]
  constructor
  · rintro ⟨client, -, h⟩
    exact ⟨client, h⟩
  · rintro ⟨client, h⟩
    exact ⟨client, mem_clients h, h⟩

theorem mem_links {p : ℕ × ℕ} : p ∈ t.links ↔ p.2 ∈ t.connectionIDs p.1 := by
  unfold links
  rw [Finset.mem_filter, Finset.mem_product]
  refine and_iff_right_of_imp fun h => ?_
  exact ⟨mem_clients h, mem_servers.mpr ⟨p.1, h⟩⟩

/-- The default of both benchmarks is not automatic. -/
theorem writeMode_cases : t.writeMode = .normal ∨ t.writeMode = .immediate := by
  unfold writeMode
  cases t.write_mode <;> simp

/-- The thread of a server waits for messages if and only if its client
waits for acknowledgements. -/
theorem body_eq_acknowledges : t.body = .acknowledges ↔ t.acknowledged = true := by
  unfold body acknowledged BandwidthPerfServerThread.run OperationsCountPerfServerThread.run
    PerfClientThread.acknowledged
  rw [if_pos t.several]
  rcases writeMode_cases (t := t) with hmode | hmode <;>
    cases t.benchmark <;> cases t.testOperation <;> simp [hmode]

end EndTest

/-! ## What the stages say -/

/-- The stage of a call for these connections. -/
def ClientBarrier.Of (connectionIDs : List ℕ) : ClientBarrier → Prop
  | .posting ids _ => ids = connectionIDs
  | .sending ids _ _ => ids = connectionIDs
  | .polling ids _ => ids = connectionIDs
  | .returned ids => ids = connectionIDs
  | _ => False

theorem ClientBarrier.Of.next {connectionIDs : List ℕ} {stage : ClientBarrier}
    (h : stage.Of connectionIDs) (ends peers : ℕ → Mailbox) :
    (stage.next (succeeds ends peers stage.call)).Of connectionIDs := by
  cases stage with
  | away => exact h
  | threw => exact h
  | returned ids => exact h
  | posting ids left => cases left <;> exact h
  | polling ids left => cases left <;> exact h
  | sending ids leftConIDs i =>
      rw [ClientBarrier.next]
      split_ifs <;> exact h

/-- A ping goes to one of the connections. -/
theorem ClientBarrier.Of.mem {connectionIDs : List ℕ} {stage : ClientBarrier} {ends : ℕ → Mailbox}
    (h : stage.Of connectionIDs) (hok : stage.Ok ends) {server : ℕ}
    (hcall : stage.call = some (server, .send)) : server ∈ connectionIDs ∧ (ends server).sent = 0 := by
  cases stage with
  | away => exact absurd h not_false
  | threw => exact absurd h not_false
  | returned ids => simp [ClientBarrier.call] at hcall
  | posting ids left => cases left <;> simp [ClientBarrier.call] at hcall
  | polling ids left => cases left <;> simp [ClientBarrier.call] at hcall
  | sending ids leftConIDs i =>
      obtain ⟨-, hleft, rfl⟩ := hok
      obtain rfl : ids = connectionIDs := h
      obtain ⟨conID, hconID, hpair⟩ := Option.map_eq_some_iff.mp hcall
      obtain rfl : conID = server := congrArg Prod.fst hpair
      have hin : conID ∈ leftConIDs := List.mem_of_getElem? hconID
      exact ⟨hleft.subset hin, mark_of_notMem (notMem_doneIds hin)⟩

/-- The stage of a call, without `prepare`, that took this snapshot. -/
def ServerBarrier.Over (clientIds : List ℕ) : ServerBarrier → Prop
  | .polling ids _ => ids = clientIds
  | .sending ids _ => ids = clientIds
  | .returned ids => ids = clientIds
  | _ => False

/-- A pong finds the receive that the client posted before it pinged. -/
def ServerBarrier.Finds (peers : ℕ → Mailbox) : Option (ℕ × MailCall) → Prop
  | some (client, .send) => 0 < (peers client).posted
  | _ => True

/-- Nothing that a server does without `prepare` fails. -/
theorem ServerBarrier.Over.succeeds {connected : ℕ → Prop} {clientIds : List ℕ}
    {stage : ServerBarrier} {ends peers : ℕ → Mailbox} (h : stage.Over clientIds)
    (hok : stage.Ok connected 0 ends) (hfinds : Finds peers stage.call) :
    Mailbox.succeeds ends peers stage.call = true := by
  cases stage with
  | polling ids left => cases left <;> rfl
  | returned ids => rfl
  | sending ids left =>
      cases left with
      | nil => rfl
      | cons client left =>
          obtain ⟨-, -, -, rfl⟩ := hok
          have hsent : (once ids.toFinset (doneIds ids (client :: left)) ids.toFinset client).sent = 0 :=
            mark_of_notMem (notMem_doneIds List.mem_cons_self)
          refine decide_eq_true ?_
          show _ < _
          rw [hsent]
          exact hfinds
  | _ => exact absurd h not_false

theorem ServerBarrier.Over.next {clientIds : List ℕ} {stage : ServerBarrier}
    (h : stage.Over clientIds) : (stage.next 0 true).Over clientIds := by
  cases stage with
  | polling ids left => cases left <;> exact h
  | sending ids left => cases left <;> exact h
  | returned ids => exact h
  | _ => exact absurd h not_false

/-! ## The invariant -/

/-- The server's thread has prepared the barrier when the last
acknowledgement is sent. -/
def Perf.PastLast (s : Perf) : Prop :=
  s.server.stage = .done ∨ s.server.stage = .completing ∧ s.LastMsg

/-- **What a connection keeps** where messages are acknowledged. -/
def PerfConnection.Ok (t : EndTest) (c : PerfConnection) : Prop :=
  match c.data with
  | .oneSided _ => False
  | .looping perf => (perfRuns t.loop).Reachable perf ∧ (perf.PastLast → c.prepared = true)
  | .broken => True

/-- Credits are conserved. -/
theorem Perf.credit {c : PerfConfig} {s : Perf} (h : (perfRuns c).Reachable s) :
    ∃ t, CreditInv c s t := by
  obtain ⟨t, ht⟩ := h.record (fun _ => ⟨0, 0, 0, 0⟩) PerfTrail.write
  exact ⟨t, (creditInv_invariant c).reachable ht⟩

/-- A client ends after the server has sent the last acknowledgement. -/
theorem CreditInv.pastLast {c : PerfConfig} {s : Perf} {t : PerfTrail} (h : CreditInv c s t)
    (hstage : s.client.stage = .done) : s.PastLast := by
  obtain ⟨-, -, hall⟩ := h.of_done hstage
  rcases h.server_of_acknowledged hall with hdone | ⟨hcompleting, -⟩
  · exact Or.inl hdone
  · have hcounted := h.counted
    have hacks := h.acks
    refine Or.inr ⟨hcompleting, ?_⟩
    unfold Perf.LastMsg
    omega

namespace PerfConnection.Ok

variable {t : EndTest} {c : PerfConnection}

/-- A thread that has returned has prepared the barrier. -/
theorem prepared (h : c.Ok t) (hreturned : c.data.returned) : c.prepared = true := by
  unfold PerfConnection.Ok at h
  cases hdata : c.data with
  | oneSided returned =>
      rw [hdata] at h
      exact absurd h not_false
  | broken =>
      rw [hdata] at hreturned
      exact absurd hreturned not_false
  | looping perf =>
      rw [hdata] at h hreturned
      exact h.2 (Or.inl hreturned)

/-- A client that has its last acknowledgement has its barrier prepared. -/
theorem prepared_of_done (h : c.Ok t) (hdone : c.data.clientDone) : c.prepared = true := by
  unfold PerfConnection.Ok at h
  cases hdata : c.data with
  | oneSided returned =>
      rw [hdata] at h
      exact absurd h not_false
  | broken =>
      rw [hdata] at hdone
      exact absurd hdone not_false
  | looping perf =>
      rw [hdata] at h hdone
      obtain ⟨trail, hcredit⟩ := Perf.credit h.1
      exact h.2 (hcredit.pastLast hdone)

end PerfConnection.Ok

namespace EndRun

variable {t : EndTest} {w : EndRun} {client server : ℕ}

/-- The clients of a server whose threads have prepared the barrier. -/
def preparedFor (t : EndTest) (connections : ℕ × ℕ → PerfConnection) (server : ℕ) : Finset ℕ :=
  (t.connected server).filter fun client => (connections (client, server)).prepared = true

/-- What a client has done where it stands. -/
def ClientOk (t : EndTest) (connections : ℕ × ℕ → PerfConnection) (client : ℕ) (ends : ℕ → Mailbox) :
    ClientPhase → Prop
  | .operating _ _ => False
  | .rounds _ => ends = once ∅ ∅ ∅
  | .barrier stage => stage.Of (t.connectionIDs client) ∧ stage.Ok ends ∧
      ∀ server ∈ t.connectionIDs client, (connections (client, server)).data.clientDone

/-- A server has called `global_barrier_server` after it has joined its threads. -/
structure Begun (t : EndTest) (connections : ℕ × ℕ → PerfConnection) (server : ℕ)
    (ends : ℕ → Mailbox) (stage : ServerBarrier) (clientIds : List ℕ) : Prop where
  snapshot : stage.Over clientIds
  ok : stage.Ok (fun _ => True) 0 ends
  ids : clientIds.toFinset = t.connected server
  returned : ∀ client ∈ t.connected server, (connections (client, server)).data.returned

/-- What a server has done where it stands. -/
def ServerOk (t : EndTest) (connections : ℕ × ℕ → PerfConnection) (server : ℕ)
    (p : BarrierParty ServerBarrier) : Prop :=
  p.stage = .away ∧ p.ends = once (preparedFor t connections server) ∅ ∅ ∨
    ∃ clientIds, Begun t connections server p.ends p.stage clientIds

/-- **The invariant.** -/
structure EndInv (t : EndTest) (w : EndRun) : Prop where
  clients : ∀ client, ClientOk t w.connections client (w.clients client).ends (w.clients client).stage
  servers : ∀ server, ServerOk t w.connections server (w.servers server)
  connections : ∀ p, (w.connections p).Ok t
  paired : ∀ client server,
    Paired ((w.clients client).ends server) ((w.servers server).ends client)

/-! ### The threads -/

theorem mem_preparedFor {connections : ℕ × ℕ → PerfConnection} :
    client ∈ preparedFor t connections server ↔
      client ∈ t.connected server ∧ (connections (client, server)).prepared = true :=
  Finset.mem_filter

theorem ClientOk.mono {connections connections' : ℕ × ℕ → PerfConnection} {ends : ℕ → Mailbox}
    {phase : ClientPhase} (h : ClientOk t connections client ends phase)
    (hdone : ∀ p, (connections p).data.clientDone → (connections' p).data.clientDone) :
    ClientOk t connections' client ends phase := by
  cases phase with
  | operating i left => exact h
  | rounds connIdx => exact h
  | barrier stage =>
      obtain ⟨hof, hok, hall⟩ := h
      exact ⟨hof, hok, fun server hserver => hdone _ (hall server hserver)⟩

theorem ServerOk.mono {connections connections' : ℕ × ℕ → PerfConnection}
    {p : BarrierParty ServerBarrier} (h : ServerOk t connections server p)
    (hprepared : ∀ client, (connections' (client, server)).prepared =
      (connections (client, server)).prepared)
    (hreturned : ∀ client, (connections (client, server)).data.returned →
      (connections' (client, server)).data.returned) :
    ServerOk t connections' server p := by
  rcases h with ⟨haway, hends⟩ | ⟨clientIds, hover, hok, hids, hall⟩
  · refine Or.inl ⟨haway, hends.trans ?_⟩
    unfold preparedFor
    simp only [hprepared]
  · exact Or.inr ⟨clientIds, hover, hok, hids, fun client hclient => hreturned _ (hall client hclient)⟩

/-- A connection goes on. -/
theorem EndInv.setConnection (h : EndInv t w) {link : ℕ × ℕ} {c : PerfConnection} (hok : c.Ok t)
    (hprepared : c.prepared = (w.connections link).prepared)
    (hdone : (w.connections link).data.clientDone → c.data.clientDone)
    (hreturned : (w.connections link).data.returned → c.data.returned) :
    EndInv t (w.setConnection link c) where
  clients client := (h.clients client).mono <|
    (Function.forall_update_iff w.connections fun p c =>
      (w.connections p).data.clientDone → c.data.clientDone).mpr ⟨hdone, fun _ _ => id⟩
  servers server := by
    have hsame := (Function.forall_update_iff w.connections fun p c =>
      c.prepared = (w.connections p).prepared).mpr ⟨hprepared, fun _ _ => rfl⟩
    have hreturned := (Function.forall_update_iff w.connections fun p c =>
      (w.connections p).data.returned → c.data.returned).mpr ⟨hreturned, fun _ _ => id⟩
    exact (h.servers server).mono (fun client => hsame (client, server)) fun client =>
      hreturned (client, server)
  connections := (Function.forall_update_iff w.connections fun _ c => c.Ok t).mpr
    ⟨hok, fun p _ => h.connections p⟩
  paired := h.paired

/-- The clients of other servers are not prepared. -/
theorem preparedFor_update {connections : ℕ × ℕ → PerfConnection} {c : PerfConnection}
    (hlink : client ∈ t.connected server) (hprepared : c.prepared = true) (j : ℕ) :
    preparedFor t (Function.update connections (client, server) c) j =
      if j = server then insert client (preparedFor t connections j)
      else preparedFor t connections j := by
  split_ifs with hj
  · subst hj
    ext i
    rw [Finset.mem_insert, mem_preparedFor, mem_preparedFor]
    rcases eq_or_ne i client with rfl | hne
    · rw [Function.update_self]
      exact iff_of_true ⟨hlink, hprepared⟩ (Or.inl rfl)
    · rw [Function.update_of_ne fun heq => hne (congrArg Prod.fst heq)]
      exact (or_iff_right hne).symm
  · ext i
    rw [mem_preparedFor, mem_preparedFor,
      Function.update_of_ne fun heq => hj (congrArg Prod.snd heq)]

/-- **A thread prepares the barrier** for its client. -/
theorem EndInv.prepare (h : EndInv t w) {c : PerfConnection} (hlink : server ∈ t.connectionIDs client)
    (hrunning : ¬ (w.connections (client, server)).data.returned)
    (hfirst : (w.connections (client, server)).prepared = false) (hok : c.Ok t)
    (hprepared : c.prepared = true)
    (hdone : (w.connections (client, server)).data.clientDone → c.data.clientDone) :
    EndInv t ((w.setServer server ⟨(w.servers server).stage,
      made (w.servers server).ends true (some (client, .receive))⟩).setConnection (client, server) c) where
  clients i := (h.clients i).mono <|
    (Function.forall_update_iff w.connections fun p c =>
      (w.connections p).data.clientDone → c.data.clientDone).mpr ⟨hdone, fun _ _ => id⟩
  servers j := by
    have hconnected : client ∈ t.connected server := EndTest.mem_connected.mpr hlink
    rcases eq_or_ne j server with rfl | hne
    · rcases h.servers j with ⟨haway, hends⟩ | ⟨clientIds, hbegun⟩
      · refine Or.inl ⟨?_, ?_⟩
        · show (Function.update w.servers j _ j).stage = _
          rw [Function.update_self]
          exact haway
        · show (Function.update w.servers j _ j).ends = once (preparedFor t (Function.update _ _ _) j) ∅ ∅
          rw [Function.update_self, preparedFor_update hconnected hprepared, if_pos rfl]
          show made (w.servers j).ends true (some (client, .receive)) = _
          rw [hends]
          refine update_receive fun hin => ?_
          rw [(mem_preparedFor.mp hin).2] at hfirst
          exact Bool.noConfusion hfirst
      · -- its threads have returned
        exact absurd (hbegun.returned client hconnected) hrunning
    · show ServerOk t (Function.update _ _ _) j (Function.update w.servers server _ j)
      rw [Function.update_of_ne hne]
      refine (h.servers j).mono (fun i => ?_) fun i => ?_
      · show (Function.update w.connections (client, server) c (i, j)).prepared = _
        rw [Function.update_of_ne fun heq => hne (congrArg Prod.snd heq)]
      · rw [Function.update_of_ne fun heq => hne (congrArg Prod.snd heq)]
        exact id
  connections := (Function.forall_update_iff w.connections fun _ c => c.Ok t).mpr
    ⟨hok, fun p _ => h.connections p⟩
  paired i := by
    have hcan : Can (w.servers server).ends (w.clientEnds server) true (some (client, .receive)) :=
      fun _ => trivial
    exact (Function.forall_update_iff w.servers fun j k =>
      Paired ((w.clients i).ends j) (k.ends i)).mpr
        ⟨(Paired.made (fun i => (h.paired i server).symm) hcan i).symm, fun j _ => h.paired i j⟩

/-! ### The steps -/

theorem EndInv.setClient (h : EndInv t w) {k : BarrierParty ClientPhase}
    (hok : ClientOk t w.connections client k.ends k.stage)
    (hpaired : ∀ server, Paired (k.ends server) ((w.servers server).ends client)) :
    EndInv t (w.setClient client k) where
  clients := (Function.forall_update_iff w.clients fun i k =>
    ClientOk t w.connections i k.ends k.stage).mpr ⟨hok, fun i _ => h.clients i⟩
  servers := h.servers
  connections := h.connections
  paired := (Function.forall_update_iff w.clients fun i k =>
    ∀ j, Paired (k.ends j) ((w.servers j).ends i)).mpr ⟨hpaired, fun i _ => h.paired i⟩

theorem EndInv.setServer (h : EndInv t w) {k : BarrierParty ServerBarrier}
    (hok : ServerOk t w.connections server k)
    (hpaired : ∀ client, Paired ((w.clients client).ends server) (k.ends client)) :
    EndInv t (w.setServer server k) where
  clients := h.clients
  servers := (Function.forall_update_iff w.servers fun j k => ServerOk t w.connections j k).mpr
    ⟨hok, fun j _ => h.servers j⟩
  connections := h.connections
  paired i := (Function.forall_update_iff w.servers fun j k =>
    Paired ((w.clients i).ends j) (k.ends i)).mpr ⟨hpaired i, fun j _ => h.paired i j⟩

/-- A client that has finished all its connections enters the barrier. -/
theorem ClientOk.endBarrier {connections : ℕ × ℕ → PerfConnection} {ends : ℕ → Mailbox}
    (hends : ends = once ∅ ∅ ∅)
    (hdone : ∀ server ∈ t.connectionIDs client, (connections (client, server)).data.clientDone) :
    ClientOk t connections client ends (endBarrier t client) := by
  unfold EndRun.endBarrier
  rw [if_pos t.several]
  refine ⟨rfl, ⟨t.nodup client, List.Sublist.refl _, ?_⟩, hdone⟩
  rw [doneIds_self]
  exact hends

/-- `workingConnections` is zero when all have finished. -/
theorem workingConnections_eq_zero : w.workingConnections t client = 0 ↔
    ∀ server ∈ t.connectionIDs client, (w.connections (client, server)).data.clientDone := by
  unfold workingConnections
  rw [List.countP_eq_zero]
  simp only [decide_eq_true_eq, not_not]

theorem EndInv.goesOn (h : EndInv t w) (client : ℕ) :
    EndInv t (w.exec t (.goesOn client)) := by
  have hok := h.clients client
  refine h.setClient ?_ fun server => h.paired client server
  show ClientOk t w.connections client (w.clients client).ends
    (w.goesOn t client (w.clients client).stage)
  cases hstage : (w.clients client).stage with
  | operating i left =>
      rw [hstage] at hok
      exact absurd hok not_false
  | rounds connIdx =>
      rw [hstage] at hok
      rw [EndRun.goesOn]
      split_ifs with hmore hworking
      · exact hok
      · exact hok
      · exact ClientOk.endBarrier hok (workingConnections_eq_zero.mp (Nat.eq_zero_of_not_pos hworking))
  | barrier stage =>
      rw [hstage] at hok
      exact hok

/-- A step of a loop takes none back. -/
theorem clientDone_exec {c : PerfConfig} {s : Perf} {e : PerfEvent} (hen : s.Enabled c e)
    (hdone : s.client.stage = .done) : e.byClient = false ∧ (s.exec c e).client.stage = .done := by
  cases e with
  | begins => exact absurd (Eq.symm hen |>.trans hdone) (by simp)
  | posts =>
      obtain ⟨_, _, _, hstage⟩ := hen
      exact absurd (hstage.symm.trans hdone) (by simp)
  | sends =>
      obtain ⟨_, _, _, hstage⟩ := hen
      exact absurd (hstage.symm.trans hdone) (by simp)
  | completes =>
      obtain ⟨⟨_, hstage⟩, -⟩ := hen
      exact absurd (hstage.symm.trans hdone) (by simp)
  | takes => exact absurd (hen.1.symm.trans hdone) (by simp)
  | leaves => exact absurd (hen.1.symm.trans hdone) (by simp)
  | _ => exact ⟨rfl, hdone⟩

/-- The steps that are not the server's. -/
theorem server_exec {c : PerfConfig} {s : Perf} {e : PerfEvent} (hen : s.Enabled c e) :
    (s.exec c e).server = s.server ∨
      e = .serverTakes ∨ e = .reposts ∨ e = .acks ∨ e = .returns := by
  cases e with
  | begins =>
      left
      show (s.begins c).server = _
      unfold Perf.begins
      split_ifs <;> rfl
  | posts =>
      obtain ⟨_, _, _, hstage⟩ := hen
      left
      show (s.posts c).server = _
      unfold Perf.posts
      rw [hstage]
  | sends =>
      obtain ⟨_, _, _, hstage⟩ := hen
      left
      show s.sends.server = _
      unfold Perf.sends
      rw [hstage]
  | completes =>
      obtain ⟨⟨_, hstage⟩, -⟩ := hen
      left
      show s.completes.server = _
      unfold Perf.completes
      rw [hstage]
  | takes =>
      obtain ⟨imm, acks, hwire⟩ := List.exists_cons_of_ne_nil hen.2
      left
      show s.takes.server = _
      unfold Perf.takes
      simp only [hwire]
  | leaves => exact Or.inl rfl
  | arrives => exact Or.inl rfl
  | ackArrives => exact Or.inl rfl
  | serverTakes => exact Or.inr (Or.inl rfl)
  | reposts => exact Or.inr (Or.inr (Or.inl rfl))
  | acks => exact Or.inr (Or.inr (Or.inr (Or.inl rfl)))
  | returns => exact Or.inr (Or.inr (Or.inr (Or.inr rfl)))

/-- A thread that has returned takes no step. -/
theorem serverDone_exec {c : PerfConfig} {s : Perf} {e : PerfEvent} (hen : s.Enabled c e)
    (hdone : s.server.stage = .done) : (s.exec c e).server.stage = .done := by
  rcases server_exec hen with hsame | rfl | rfl | rfl | rfl
  · rw [hsame]
    exact hdone
  · exact absurd (hen.1.symm.trans hdone) (by simp)
  · exact absurd (Eq.symm hen |>.trans hdone) (by simp)
  · exact absurd (Eq.symm hen |>.trans hdone) (by simp)
  · exact absurd (hen.1.symm.trans hdone) (by simp)

/-- The last acknowledgement is sent by `acks`, and by nothing else. -/
theorem pastLast_exec {c : PerfConfig} {s : Perf} {e : PerfEvent} (hen : s.Enabled c e)
    (hpast : (s.exec c e).PastLast) : s.PastLast ∨ e = .acks ∧ s.LastMsg := by
  rcases server_exec hen with hsame | rfl | rfl | rfl | rfl
  · unfold Perf.PastLast Perf.LastMsg at hpast ⊢
    rw [hsame] at hpast
    exact Or.inl hpast
  · rcases hpast with hdone | ⟨hcompleting, -⟩
    · exact ServerStage.noConfusion hdone
    · exact ServerStage.noConfusion hcompleting
  · -- the last message is acknowledged first
    unfold Perf.PastLast at hpast
    simp only [Perf.exec, Perf.reposts, Perf.again] at hpast
    split_ifs at hpast <;> first | omega | simp at hpast
  · rcases hpast with hdone | ⟨-, hlast⟩
    · exact ServerStage.noConfusion hdone
    · exact Or.inr ⟨rfl, hlast⟩
  · refine Or.inl (Or.inr ⟨hen.1, ?_⟩)
    unfold Perf.PastLast at hpast
    simp only [Perf.exec, Perf.returns, Perf.again] at hpast
    unfold Perf.LastMsg
    split_ifs at hpast with hmore
    · simp at hpast
    · omega

/-- Nothing breaks after the last acknowledgement: none is in flight. -/
theorem next_of_ack_none {c : PerfConfig} {s : Perf} {e : PerfEvent} (hen : s.Enabled c e)
    (hnone : s.wire.ack = none) : PerfData.next c s e = .looping (s.exec c e) := by
  refine if_neg ?_
  rintro ⟨rfl, -⟩
  exact hen hnone

theorem clientDone_next {c : PerfConfig} {s : Perf} {trail : PerfTrail} {e : PerfEvent}
    (h : CreditInv c s trail) (hen : s.Enabled c e) (hdone : s.client.stage = .done) :
    (PerfData.next c s e).clientDone := by
  have hnone : s.wire.ack = none := by
    rcases h.server_of_acknowledged (h.of_done hdone).2.2 with hreturned | ⟨-, hnone⟩
    · exact h.ack_none (by rw [hreturned]; simp)
    · exact hnone
  rw [next_of_ack_none hen hnone]
  exact (clientDone_exec hen hdone).2

theorem returned_next {c : PerfConfig} {s : Perf} {trail : PerfTrail} {e : PerfEvent}
    (h : CreditInv c s trail) (hen : s.Enabled c e) (hdone : s.server.stage = .done) :
    (PerfData.next c s e).returned := by
  rw [next_of_ack_none hen (h.ack_none (by rw [hdone]; simp))]
  exact serverDone_exec hen hdone

theorem EndInv.loops (h : EndInv t w) {e : PerfEvent} (hen : w.Enabled t (.loops client server e)) :
    EndInv t (w.exec t (.loops client server e)) := by
  obtain ⟨-, perf, hdata, henabled, hturn, hprepared⟩ := hen
  have hok := h.connections (client, server)
  unfold PerfConnection.Ok at hok
  rw [hdata] at hok
  obtain ⟨hreach, hpast⟩ := hok
  obtain ⟨trail, hcredit⟩ := Perf.credit hreach
  have hconnection : EndInv t (w.setConnection (client, server)
      { w.connections (client, server) with data := .next t.loop perf e }) := by
    refine h.setConnection ?_ rfl ?_ ?_
    · unfold PerfData.next PerfConnection.Ok
      split_ifs
      · trivial
      · refine ⟨hreach.step (l := e) ⟨henabled, rfl⟩, fun hpast' => ?_⟩
        rcases pastLast_exec henabled hpast' with hold | ⟨rfl, hlast⟩
        · exact hpast hold
        · exact hprepared rfl hlast t.several
    · rw [hdata]
      exact clientDone_next hcredit henabled
    · rw [hdata]
      exact returned_next hcredit henabled
  show EndInv t (w.loops t client server e)
  unfold EndRun.loops
  rw [hdata]
  refine hconnection.setClient ?_ fun j => h.paired client j
  have hclient := hconnection.clients client
  show ClientOk t _ client (w.clients client).ends ((w.clients client).stage.after e)
  have hclient' : ClientOk t _ client (w.clients client).ends (w.clients client).stage := hclient
  cases hstage : (w.clients client).stage with
  | rounds connIdx =>
      rw [hstage] at hclient'
      unfold ClientPhase.after
      simp only
      split_ifs <;> exact hclient'
  | operating i left =>
      rw [hstage] at hclient'
      exact hclient'
  | barrier stage =>
      rw [hstage] at hclient'
      exact hclient'

theorem EndInv.prepares (h : EndInv t w) (hen : w.Enabled t (.prepares client server)) :
    EndInv t (w.exec t (.prepares client server)) := by
  obtain ⟨hlink, perf, hdata, hacking, -, -, hfirst⟩ := hen
  have hok := h.connections (client, server)
  unfold PerfConnection.Ok at hok
  rw [hdata] at hok
  refine h.prepare hlink ?_ hfirst ?_ rfl fun hdone => hdone
  · rw [hdata]
    show perf.server.stage ≠ .done
    rw [hacking]
    simp
  · unfold PerfConnection.Ok
    rw [hdata]
    exact ⟨hok.1, fun _ => rfl⟩

/-- Every thread has a loop. -/
theorem EndInv.not_returns (h : EndInv t w) : ¬ w.Enabled t (.returns client server) := by
  rintro ⟨-, hdata⟩
  have hok := h.connections (client, server)
  unfold PerfConnection.Ok at hok
  rw [hdata] at hok
  exact hok

theorem EndInv.serverBegins (h : EndInv t w) {clientIds : List ℕ}
    (hen : w.Enabled t (.serverBegins server clientIds)) :
    EndInv t (w.exec t (.serverBegins server clientIds)) := by
  obtain ⟨haway, hnodup, hids, hreturned, -⟩ := hen
  refine h.setServer (Or.inr ⟨clientIds, rfl, ?_, ?_, ?_⟩) fun client => h.paired client server
  · rcases h.servers server with ⟨-, hends⟩ | ⟨ids, hbegun⟩
    · refine ⟨hnodup, Nat.zero_le _, List.Sublist.refl _, ?_⟩
      show (w.servers server).ends = _
      rw [hends, doneIds_self]
      congr 1
      ext client
      rw [mem_preparedFor, List.mem_toFinset, hids]
      refine and_iff_left_of_imp fun hclient => ?_
      exact (h.connections _).prepared (hreturned client ((hids client).mpr hclient))
    · have hover := hbegun.snapshot
      rw [haway] at hover
      exact absurd hover not_false
  · ext client
    rw [List.mem_toFinset, hids]
  · exact fun client hclient => hreturned client ((hids client).mpr hclient)

/-- One receive is posted for a client whose thread has prepared the
barrier. -/
theorem EndInv.posted (h : EndInv t w) (hlink : client ∈ t.connected server)
    (hprepared : (w.connections (client, server)).prepared = true) :
    ((w.servers server).ends client).posted = 1 := by
  rcases h.servers server with ⟨-, hends⟩ | ⟨clientIds, hbegun⟩
  · rw [hends]
    exact mark_of_mem (mem_preparedFor.mpr ⟨hlink, hprepared⟩)
  · have hok := hbegun.ok
    have hover := hbegun.snapshot
    rw [← hbegun.ids] at hlink
    cases hstage : (w.servers server).stage with
    | polling ids left =>
        rw [hstage] at hok hover
        obtain ⟨-, -, -, hends⟩ := hok
        rw [hends, show ids = clientIds from hover]
        exact mark_of_mem hlink
    | sending ids left =>
        rw [hstage] at hok hover
        obtain ⟨-, -, -, hends⟩ := hok
        rw [hends, show ids = clientIds from hover]
        exact mark_of_mem hlink
    | returned ids =>
        rw [hstage] at hok hover
        obtain ⟨-, -, hends⟩ := hok
        rw [hends, show ids = clientIds from hover]
        exact mark_of_mem hlink
    | _ =>
        rw [hstage] at hover
        exact absurd hover not_false

/-- **A ping finds its receive**: the client has the last acknowledgement,
before which the server has posted the receive. -/
theorem EndInv.finds_ping (h : EndInv t w) (hcall : (w.clients client).stage.call = some (server, .send)) :
    ((w.clients client).ends server).sent < ((w.servers server).ends client).posted := by
  have hok := h.clients client
  cases hstage : (w.clients client).stage with
  | operating i left => simp [hstage, ClientPhase.call] at hcall
  | rounds connIdx => simp [hstage, ClientPhase.call] at hcall
  | barrier stage =>
      rw [hstage] at hok hcall
      obtain ⟨hof, hstageOk, hdone⟩ := hok
      obtain ⟨hserver, hsent⟩ := hof.mem hstageOk hcall
      have hprepared := (h.connections (client, server)).prepared_of_done (hdone server hserver)
      have hposted := h.posted (EndTest.mem_connected.mpr hserver) hprepared
      omega

/-- What a ping finds was posted for it. -/
theorem EndInv.can_client (h : EndInv t w)
    (hready : Ready (w.clients client).ends (w.serverEnds client) (w.clients client).stage.call) :
    Can (w.clients client).ends (fun server => (w.servers server).ends client)
      (succeeds (w.clients client).ends (w.serverEnds client) (w.clients client).stage.call)
      (w.clients client).stage.call := by
  have hcan := hready.can
  cases hcall : (w.clients client).stage.call with
  | none => trivial
  | some p =>
      obtain ⟨server, call⟩ := p
      rw [hcall] at hcan
      intro hsuccess
      cases call with
      | receive => trivial
      | pollReceive => exact hcan hsuccess
      | send => exact h.finds_ping hcall

theorem EndInv.clientSteps (h : EndInv t w) (hen : w.Enabled t (.client client)) :
    EndInv t (w.exec t (.client client)) := by
  have hok := h.clients client
  refine h.setClient ?_ fun server => ?_
  · show ClientOk t w.connections client (w.clientSteps client).ends (w.clientSteps client).stage
    unfold EndRun.clientSteps
    cases hstage : (w.clients client).stage with
    | operating i left =>
        rw [hstage] at hok
        exact absurd hok not_false
    | rounds connIdx =>
        rw [hstage] at hok
        exact hok
    | barrier stage =>
        rw [hstage] at hok
        obtain ⟨hof, hstageOk, hdone⟩ := hok
        exact ⟨hof.next _ _, hstageOk.next _, hdone⟩
  · exact Paired.made (fun server => h.paired client server) (h.can_client hen) server

/-- A client that a server polls, or answers, has posted its receive. -/
theorem EndInv.posted_of_sent (h : EndInv t w)
    (hsent : 0 < ((w.clients client).ends server).sent) :
    0 < ((w.clients client).ends server).posted := by
  have hok := h.clients client
  cases hstage : (w.clients client).stage with
  | operating i left =>
      rw [hstage] at hok
      exact absurd hok not_false
  | rounds connIdx =>
      rw [hstage] at hok
      rw [show (w.clients client).ends = _ from hok] at hsent
      exact absurd hsent (Nat.lt_irrefl 0)
  | barrier stage =>
      rw [hstage] at hok
      obtain ⟨hof, hstageOk, -⟩ := hok
      cases stage with
      | away => exact absurd hof not_false
      | threw => exact absurd hof not_false
      | posting ids left =>
          obtain ⟨-, -, hends⟩ := hstageOk
          rw [hends] at hsent
          exact absurd hsent (Nat.lt_irrefl 0)
      | sending ids leftConIDs i =>
          obtain ⟨-, -, hends⟩ := hstageOk
          rw [hends] at hsent ⊢
          have hin := (mem_doneIds.mp (mem_of_mark_pos hsent)).1
          rw [show (once _ _ _ server).posted = 1 from mark_of_mem (List.mem_toFinset.mpr hin)]
          exact Nat.one_pos
      | polling ids left =>
          obtain ⟨-, -, hends⟩ := hstageOk
          rw [hends] at hsent ⊢
          exact hsent
      | returned ids =>
          rw [show (w.clients client).ends = _ from hstageOk] at hsent ⊢
          exact hsent

/-- A pong finds its receive. -/
theorem EndInv.finds (h : EndInv t w) {clientIds : List ℕ}
    (hbegun : Begun t w.connections server (w.servers server).ends (w.servers server).stage clientIds) :
    ServerBarrier.Finds (w.clientEnds server) (w.servers server).stage.call := by
  have hok := hbegun.ok
  cases hstage : (w.servers server).stage with
  | sending ids left =>
      cases left with
      | nil => trivial
      | cons client left =>
          rw [hstage] at hok
          obtain ⟨-, -, hleft, hends⟩ := hok
          refine h.posted_of_sent (Nat.lt_of_lt_of_le ?_ (h.paired client server).polled')
          -- it was polled
          rw [hends, show (once _ _ _ client).polled = 1 from
            mark_of_mem (List.mem_toFinset.mpr (hleft.subset List.mem_cons_self))]
          exact Nat.one_pos
  | polling ids left => cases left <;> trivial
  | returned ids => trivial
  | _ =>
      have hover := hbegun.snapshot
      rw [hstage] at hover
      exact absurd hover not_false

theorem EndInv.serverSteps (h : EndInv t w) (hen : w.Enabled t (.server server)) :
    EndInv t (w.exec t (.server server)) := by
  have hready : Ready (w.servers server).ends (w.clientEnds server) (w.servers server).stage.call := hen
  refine h.setServer ?_ fun client => ?_
  · rcases h.servers server with ⟨haway, hends⟩ | ⟨clientIds, hbegun⟩
    · refine Or.inl ?_
      unfold EndRun.serverSteps
      rw [haway]
      exact ⟨rfl, hends⟩
    · refine Or.inr ⟨clientIds, ?_, hbegun.ok.next _, hbegun.ids, hbegun.returned⟩
      unfold EndRun.serverSteps
      simp only [hbegun.snapshot.succeeds hbegun.ok (h.finds hbegun)]
      exact hbegun.snapshot.next
  · exact (Paired.made (fun client => (h.paired client server).symm) hready.can client).symm

/-! ### Every run -/

/-- **Every event** keeps the invariant. -/
theorem EndInv.exec (h : EndInv t w) {event : EndEvent} (hen : w.Enabled t event) :
    EndInv t (w.exec t event) := by
  cases event with
  | goesOn client => exact h.goesOn client
  | loops client server e => exact h.loops hen
  | prepares client server => exact h.prepares hen
  | returns client server => exact absurd hen h.not_returns
  | serverBegins server clientIds => exact h.serverBegins hen
  | client client => exact h.clientSteps hen
  | server server => exact h.serverSteps hen

/-- The invariant holds where the threads begin, if messages are acknowledged. -/
theorem EndInv.start (hacks : t.acknowledged = true) : EndInv t (start t) := by
  have hbody := EndTest.body_eq_acknowledges.mpr hacks
  have hfresh : (fun _ => ⟨0, 0, 0⟩ : ℕ → Mailbox) = once ∅ ∅ ∅ := rfl
  refine ⟨fun client => ?_, fun server => Or.inl ⟨rfl, ?_⟩, fun p => ?_, fun _ _ => ?_⟩
  · show ClientOk t _ client _ (if t.acknowledged then .rounds 0 else .operating 0 _)
    rw [if_pos hacks]
    exact hfresh
  · have hnone : preparedFor t (EndRun.start t).connections server = ∅ :=
      Finset.filter_eq_empty_iff.mpr fun _ _ => Bool.false_ne_true
    rw [hnone]
    exact hfresh
  · show PerfConnection.Ok t
      ⟨if t.body = .acknowledges then .looping (Perf.start t.loop) else .oneSided false, false⟩
    rw [if_pos hbody]
    refine ⟨System.Reachable.init rfl, fun hpast => ?_⟩
    rcases hpast with hdone | ⟨hcompleting, -⟩
    · exact ServerStage.noConfusion hdone
    · exact ServerStage.noConfusion hcompleting
  · exact ⟨Nat.le_refl 0, Nat.le_refl 0, Nat.le_refl 0, Nat.le_refl 0⟩

/-- **The end barrier is prepared** where the invariant holds. -/
theorem EndInv.prepared (h : EndInv t w) : w.Prepared t where
  finds client server hcall := h.finds_ping hcall
  pings client server := (h.paired client server).found'
  posted server haway client hclient := by
    rcases h.servers server with ⟨hstage, -⟩ | ⟨clientIds, hbegun⟩
    · exact absurd hstage haway
    · exact h.posted hclient ((h.connections _).prepared (hbegun.returned client hclient))
  polled server clientIds left hstage client := by
    have hpolled : ∀ ids : List ℕ, ids.toFinset = t.connected server →
        (∃ sent, (w.servers server).ends = once ids.toFinset sent ids.toFinset) →
        ((w.servers server).ends client).polled = if client ∈ t.connected server then 1 else 0 := by
      rintro ids hids ⟨sent, hends⟩
      rw [hends, ← hids]
      rfl
    rcases h.servers server with ⟨haway, -⟩ | ⟨ids, hbegun⟩
    · rw [haway] at hstage
      rcases hstage with hbad | hbad <;> exact ServerBarrier.noConfusion hbad
    · have hok := hbegun.ok
      have hover := hbegun.snapshot
      rcases hstage with hstage | hstage
      · rw [hstage] at hok hover
        obtain ⟨-, -, -, hends⟩ := hok
        obtain rfl : clientIds = ids := hover
        exact hpolled clientIds hbegun.ids ⟨_, hends⟩
      · rw [hstage] at hok hover
        obtain ⟨-, -, hends⟩ := hok
        obtain rfl : clientIds = ids := hover
        exact hpolled clientIds hbegun.ids ⟨_, hends⟩

end EndRun

end RdmaManager
