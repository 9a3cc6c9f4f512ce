import Mathlib.Algebra.Order.BigOperators.Group.Finset
import RdmaManager.Perf.EndBarrierSafety
/-!
# The end barrier can be completed

While not both barriers are complete, and no connection breaks, some run
lowers a measure of what is left to do (`progress`): a client that is not in
its barrier can go there, then the threads of the servers can return, then
every ping finds its receive, a server its pings and a client its pongs.

A client whose operations are one-sided waits for no thread of a server, and
can ping before its receive is posted; in one case it never is.
-/

namespace RdmaManager

open Mailbox

/-! ## What is left to do -/

/-- What is left of a call of `global_barrier_client`. -/
def ClientBarrier.weight : ClientBarrier → ℕ
  | .posting ids left => left.length + 4 * ids.length + 4
  | .sending ids leftConIDs i =>
      ids.length + 3 * leftConIDs.length + 2 + if i.toNat < leftConIDs.length then 0 else 1
  | .polling _ left => left.length + 1
  | _ => 0

/-- A step lowers it, unless it is a ping that fails. -/
theorem ClientBarrier.Of.weight_next {connectionIDs : List ℕ} {stage : ClientBarrier}
    (h : stage.Of connectionIDs) (hnot : stage ≠ .returned connectionIDs) :
    (stage.next true).weight < stage.weight := by
  cases stage with
  | away => exact absurd h not_false
  | threw => exact absurd h not_false
  | returned ids => exact absurd (congrArg _ h) hnot
  | posting ids left =>
      cases left with
      | nil =>
          simp only [ClientBarrier.next, weight, List.length_nil]
          split_ifs <;> omega
      | cons conID left =>
          simp only [ClientBarrier.next, weight, if_true, List.length_cons]
          omega
  | polling ids left =>
      cases left with
      | nil => exact Nat.one_pos
      | cons conID left => exact Nat.lt_succ_self _
  | sending ids leftConIDs i =>
      rw [ClientBarrier.next]
      by_cases hi : i.toNat < leftConIDs.length
      · have hlength := List.length_eraseIdx_of_lt hi
        simp only [if_pos hi, if_true, weight, hlength]
        split_ifs <;> omega
      · rw [if_neg hi]
        cases leftConIDs with
        | nil =>
            simp only [List.isEmpty_nil, if_true, weight, List.length_nil]
            split_ifs <;> omega
        | cons conID leftConIDs =>
            have hzero : (0 : UInt64).toNat < (conID :: leftConIDs).length := Nat.succ_pos _
            simp only [List.isEmpty_cons, Bool.false_eq_true, if_false, weight, if_pos hzero, if_neg hi]
            omega

/-- What is left of a call of `global_barrier_server`, of `n` clients. -/
def ServerBarrier.weight (n : ℕ) : ServerBarrier → ℕ
  | .away => 2 * n + 3
  | .polling ids left => left.length + ids.length + 2
  | .sending _ left => left.length + 1
  | _ => 0

theorem ServerBarrier.Over.weight_next {clientIds : List ℕ} {stage : ServerBarrier} {n : ℕ}
    (h : stage.Over clientIds) (hnot : stage ≠ .returned clientIds) :
    (stage.next 0 true).weight n < stage.weight n := by
  cases stage with
  | returned ids => exact absurd (congrArg _ h) hnot
  | polling ids left =>
      cases left with
      | nil =>
          simp only [ServerBarrier.next, weight, List.length_nil]
          omega
      | cons client left =>
          simp only [ServerBarrier.next, weight, if_true, List.length_cons]
          omega
  | sending ids left =>
      cases left with
      | nil => exact Nat.one_pos
      | cons client left => exact Nat.lt_succ_self _
  | _ => exact absurd h not_false

/-- What is left to a client with `n` connections, but for the loops over
messages. -/
def ClientPhase.weight (n : ℕ) : ClientPhase → ℕ
  | .barrier stage => stage.weight
  | _ => 5 * n + 5

def PerfConnection.weight (c : PerfConnection) : ℕ :=
  (match c.data with
    | .looping perf => perf.measure
    | _ => 0) + if c.prepared then 0 else 1

namespace EndRun

variable {t : EndTest} {w w' : EndRun} {client server : ℕ}

/-- **What is left to do.** -/
def measure (t : EndTest) (w : EndRun) : ℕ :=
  ∑ client ∈ t.clients, (w.clients client).stage.weight (t.connectionIDs client).length +
    ∑ server ∈ t.servers, (w.servers server).stage.weight (t.connected server).card +
    ∑ p ∈ t.links, (w.connections p).weight

/-- Less is left to someone, and more to nobody. -/
theorem measure_lt
    (hclients : ∀ i, (w'.clients i).stage.weight (t.connectionIDs i).length ≤
      (w.clients i).stage.weight (t.connectionIDs i).length)
    (hservers : ∀ j, (w'.servers j).stage.weight (t.connected j).card ≤
      (w.servers j).stage.weight (t.connected j).card)
    (hconnections : ∀ p, (w'.connections p).weight ≤ (w.connections p).weight)
    (hless : (∃ i ∈ t.clients, (w'.clients i).stage.weight (t.connectionIDs i).length <
        (w.clients i).stage.weight (t.connectionIDs i).length) ∨
      (∃ j ∈ t.servers, (w'.servers j).stage.weight (t.connected j).card <
        (w.servers j).stage.weight (t.connected j).card) ∨
      ∃ p ∈ t.links, (w'.connections p).weight < (w.connections p).weight) :
    w'.measure t < w.measure t := by
  have h₁ := Finset.sum_le_sum fun i (_ : i ∈ t.clients) => hclients i
  have h₂ := Finset.sum_le_sum fun j (_ : j ∈ t.servers) => hservers j
  have h₃ := Finset.sum_le_sum fun p (_ : p ∈ t.links) => hconnections p
  unfold measure
  rcases hless with hless | hless | hless
  · have hlt := Finset.sum_lt_sum (fun i (_ : i ∈ t.clients) => hclients i) hless
    omega
  · have hlt := Finset.sum_lt_sum (fun j (_ : j ∈ t.servers) => hservers j) hless
    omega
  · have hlt := Finset.sum_lt_sum (fun p (_ : p ∈ t.links) => hconnections p) hless
    omega

theorem measure_setClient {k : BarrierParty ClientPhase} (hclient : client ∈ t.clients)
    (hless : k.stage.weight (t.connectionIDs client).length <
      (w.clients client).stage.weight (t.connectionIDs client).length) :
    (w.setClient client k).measure t < w.measure t := by
  have hall := (Function.forall_update_iff w.clients fun i k =>
    k.stage.weight (t.connectionIDs i).length ≤
      (w.clients i).stage.weight (t.connectionIDs i).length).mpr
        ⟨Nat.le_of_lt hless, fun _ _ => Nat.le_refl _⟩
  exact measure_lt hall (fun _ => Nat.le_refl _) (fun _ => Nat.le_refl _)
    (Or.inl ⟨client, hclient, by rw [clients_setClient]; exact hless⟩)

theorem measure_setServer {k : BarrierParty ServerBarrier} (hserver : server ∈ t.servers)
    (hless : k.stage.weight (t.connected server).card <
      (w.servers server).stage.weight (t.connected server).card) :
    (w.setServer server k).measure t < w.measure t := by
  have hall := (Function.forall_update_iff w.servers fun j k =>
    k.stage.weight (t.connected j).card ≤ (w.servers j).stage.weight (t.connected j).card).mpr
      ⟨Nat.le_of_lt hless, fun _ _ => Nat.le_refl _⟩
  exact measure_lt (fun _ => Nat.le_refl _) hall (fun _ => Nat.le_refl _)
    (Or.inr (Or.inl ⟨server, hserver, by rw [servers_setServer]; exact hless⟩))

/-- A connection goes on, with what a thread does for it. -/
theorem measure_connection {c : PerfConnection} (hlink : (client, server) ∈ t.links)
    (hconnections : w'.connections = Function.update w.connections (client, server) c)
    (hless : c.weight < (w.connections (client, server)).weight)
    (hclients : ∀ i, (w'.clients i).stage.weight (t.connectionIDs i).length =
      (w.clients i).stage.weight (t.connectionIDs i).length)
    (hservers : ∀ j, (w'.servers j).stage = (w.servers j).stage) : w'.measure t < w.measure t := by
  have hself : w'.connections (client, server) = c := by
    rw [hconnections, Function.update_self]
  refine measure_lt (fun i => Nat.le_of_eq (hclients i)) (fun j => ?_) (fun p => ?_)
    (Or.inr (Or.inr ⟨_, hlink, by rw [hself]; exact hless⟩))
  · rw [hservers j]
  · rcases eq_or_ne p (client, server) with rfl | hne
    · rw [hself]
      exact Nat.le_of_lt hless
    · rw [hconnections, Function.update_of_ne hne]

/-- No connection breaks in a run from here. -/
def Unbroken (t : EndTest) (w : EndRun) : Prop :=
  ∀ w', (runs t).Leads w w' → ∀ p, (w'.connections p).data ≠ .broken

theorem Unbroken.leads (h : Unbroken t w) (hleads : (runs t).Leads w w') : Unbroken t w' :=
  fun w'' hleads' => h w'' (hleads.trans hleads')

/-- What a step of the loops does where nothing breaks. -/
theorem Unbroken.loops_eq (h : Unbroken t w) {perf : Perf} {e : PerfEvent}
    (hdata : (w.connections (client, server)).data = .looping perf)
    (hen : w.Enabled t (.loops client server e)) : w.exec t (.loops client server e) =
      (w.setConnection (client, server) { w.connections (client, server) with
        data := .looping (perf.exec t.loop e) }).setClient client
        ⟨(w.clients client).stage.after e, (w.clients client).ends⟩ := by
  have hloops : w.exec t (.loops client server e) =
      (w.setConnection (client, server) { w.connections (client, server) with
        data := .next t.loop perf e }).setClient client
        ⟨(w.clients client).stage.after e, (w.clients client).ends⟩ := by
    show w.loops t client server e = _
    unfold EndRun.loops
    rw [hdata]
  have hunbroken := h _ ((System.Leads.refl w).tail (l := .loops client server e) ⟨hen, rfl⟩)
    (client, server)
  rw [hloops] at hunbroken ⊢
  have hdata' : PerfData.next t.loop perf e ≠ .broken := by
    have hself := Function.update_self (client, server)
      { w.connections (client, server) with data := PerfData.next t.loop perf e } w.connections
    exact fun hbad => hunbroken ((congrArg PerfConnection.data hself).trans hbad)
  unfold PerfData.next at hdata' ⊢
  split_ifs at hdata' ⊢
  · exact absurd rfl hdata'
  · rfl

/-- Some run from here leaves less to do. -/
def Lowers (t : EndTest) (w : EndRun) : Prop :=
  ∃ w', (runs t).Leads w w' ∧ w'.measure t < w.measure t

theorem Lowers.of_step (event : EndEvent) (hen : w.Enabled t event)
    (hless : (w.exec t event).measure t < w.measure t) : Lowers t w :=
  ⟨_, (System.Leads.refl w).tail (l := event) ⟨hen, rfl⟩, hless⟩

/-- A run that leaves as much to do comes first. -/
theorem Lowers.of_leads (h : Lowers t w') (hleads : (runs t).Leads w w')
    (hsame : w'.measure t = w.measure t) : Lowers t w := by
  obtain ⟨w'', hleads', hless⟩ := h
  exact ⟨w'', hleads.trans hleads', hsame ▸ hless⟩

theorem EndInv.leads (h : EndInv t w) (hleads : (runs t).Leads w w') : EndInv t w' := by
  induction hleads with
  | refl => exact h
  | tail _ hstep ih =>
      obtain ⟨event, hen, rfl⟩ := hstep
      exact ih.exec hen

/-! ## The threads -/

theorem prepare_stage (j : ℕ) : ((w.prepare client server).servers j).stage = (w.servers j).stage := by
  refine (Function.forall_update_iff w.servers fun j k => k.stage = (w.servers j).stage).mpr
    ⟨?_, fun _ _ => rfl⟩ j
  rfl

/-- **A loop over messages goes on** while it has not ended, where the
client's round is at it if need be. -/
theorem EndInv.lowers_looping (h : EndInv t w) (hunbroken : Unbroken t w)
    (hlink : server ∈ t.connectionIDs client) {perf : Perf}
    (hdata : (w.connections (client, server)).data = .looping perf) (hnot : ¬ perf.Ended)
    (hturn : perf.client.stage ≠ .done → (w.clients client).stage.At (t.connectionIDs client) server) :
    Lowers t w := by
  have hok := h.connections (client, server)
  unfold PerfConnection.Ok at hok
  rw [hdata] at hok
  obtain ⟨trail, hcredit⟩ := Perf.credit hok.1
  obtain ⟨e, hen, -, hless⟩ := hcredit.progress hnot
  have hlink' : (client, server) ∈ t.links := EndTest.mem_links.mpr hlink
  by_cases hlast : e = .acks ∧ perf.LastMsg ∧ (w.connections (client, server)).prepared = false
  · -- the barrier is prepared first
    obtain ⟨rfl, hlast, hfirst⟩ := hlast
    refine Lowers.of_step (.prepares client server)
      ⟨hlink, perf, hdata, hen, hlast, t.several, hfirst⟩ ?_
    refine measure_connection hlink' rfl ?_ (fun _ => rfl) prepare_stage
    unfold PerfConnection.weight
    simp only [hfirst, if_true, Bool.false_eq_true, if_false]
    omega
  · have hloops : w.Enabled t (.loops client server e) := by
      refine ⟨hlink, perf, hdata, hen, fun hby => ?_, fun he hmsg _ => ?_⟩
      · refine hturn fun hdone => ?_
        rw [(clientDone_exec hen hdone).1] at hby
        exact Bool.noConfusion hby
      · by_contra hfirst
        exact hlast ⟨he, hmsg, Bool.eq_false_iff.mpr hfirst⟩
    refine Lowers.of_step (.loops client server e) hloops ?_
    · rw [hunbroken.loops_eq hdata hloops]
      refine measure_connection hlink' rfl ?_ (fun i => ?_) fun _ => rfl
      · unfold PerfConnection.weight
        simp only [hdata]
        exact Nat.add_lt_add_right hless _
      · refine (Function.forall_update_iff w.clients fun i k =>
          k.stage.weight (t.connectionIDs i).length =
            (w.clients i).stage.weight (t.connectionIDs i).length).mpr ⟨?_, fun _ _ => rfl⟩ i
        cases hstage : (w.clients client).stage with
        | rounds connIdx =>
            simp only [ClientPhase.after]
            split_ifs <;> rfl
        | operating i left => rfl
        | barrier stage => rfl

/-- **A thread of a server goes on** once its client has finished. -/
theorem EndInv.lowers_running (h : EndInv t w) (hunbroken : Unbroken t w)
    (hlink : server ∈ t.connectionIDs client)
    (hdone : (w.connections (client, server)).data.clientDone)
    (hnot : ¬ (w.connections (client, server)).data.returned) : Lowers t w := by
  have hok := h.connections (client, server)
  unfold PerfConnection.Ok at hok
  cases hdata : (w.connections (client, server)).data with
  | looping perf =>
      rw [hdata] at hdone hnot
      exact h.lowers_looping hunbroken hlink hdata (fun hended => hnot hended.2)
        fun hmore => absurd hdone hmore
  | oneSided returned =>
      rw [hdata] at hok
      exact absurd hok not_false
  | broken =>
      rw [hdata] at hdone
      exact absurd hdone not_false

/-! ## The clients -/

theorem setClient_eq {phase : ClientPhase} (hstage : (w.clients client).stage = phase) :
    w.setClient client ⟨phase, (w.clients client).ends⟩ = w := by
  rw [← hstage]
  unfold EndRun.setClient
  rw [Function.update_eq_self]

/-- The client goes on, and nobody else. -/
theorem goesOn_step {phase : ClientPhase} {ends : ℕ → Mailbox}
    (hen : ∀ server, phase.At (t.connectionIDs client) server →
      (w.connections (client, server)).data.clientDone) :
    (runs t).Step (w.setClient client ⟨phase, ends⟩) (.goesOn client)
      (w.setClient client ⟨w.goesOn t client phase, ends⟩) := by
  constructor
  · intro server hat
    rw [clients_setClient] at hat
    exact hen server hat
  · show _ = (w.setClient client ⟨phase, ends⟩).setClient client
      ⟨EndRun.goesOn t _ client ((w.setClient client ⟨phase, ends⟩).clients client).stage,
        ((w.setClient client ⟨phase, ends⟩).clients client).ends⟩
    rw [clients_setClient, setClient_setClient]
    rfl

/-- A client leaves the connections that have finished. -/
theorem leads_rounds (client : ℕ) (ends : ℕ → Mailbox) (connIdx : ℕ) :
    ∃ m, (runs t).Leads (w.setClient client ⟨.rounds connIdx, ends⟩)
        (w.setClient client ⟨.rounds m, ends⟩) ∧
      (∀ n server, connIdx ≤ n → n < m → (t.connectionIDs client)[n]? = some server →
        (w.connections (client, server)).data.clientDone) ∧
      ((t.connectionIDs client)[m]? = none ∨ ∃ server, (t.connectionIDs client)[m]? = some server ∧
        ¬ (w.connections (client, server)).data.clientDone) := by
  obtain ⟨n, hn⟩ : ∃ n, n = (t.connectionIDs client).length - connIdx := ⟨_, rfl⟩
  induction n using Nat.strong_induction_on generalizing connIdx with
  | _ n ih =>
      cases hat : (t.connectionIDs client)[connIdx]? with
      | none =>
          exact ⟨connIdx, System.Leads.refl _, fun n server hle hlt => absurd hlt (Nat.not_lt.mpr hle),
            Or.inl hat⟩
      | some server =>
          have hlt : connIdx < (t.connectionIDs client).length := (List.getElem?_eq_some_iff.mp hat).1
          by_cases hdone : (w.connections (client, server)).data.clientDone
          · obtain ⟨m, hleads, hbetween, hend⟩ := ih _ (by omega) (connIdx + 1) rfl
            refine ⟨m, Relation.ReflTransGen.head ⟨.goesOn client, ?_⟩ hleads, ?_, hend⟩
            · have hstep : (runs t).Step (w.setClient client ⟨.rounds connIdx, ends⟩) (.goesOn client)
                  (w.setClient client ⟨w.goesOn t client (.rounds connIdx), ends⟩) := by
                refine goesOn_step fun server' hat' => ?_
                obtain ⟨_, hphase, hat'⟩ := hat'
                obtain rfl := ClientPhase.rounds.inj hphase
                rw [hat] at hat'
                exact Option.some.inj hat' ▸ hdone
              rwa [EndRun.goesOn, if_pos hlt] at hstep
            · intro n server' hle hlt' hserver'
              rcases Nat.eq_or_lt_of_le hle with rfl | hlt''
              · rw [hat] at hserver'
                exact Option.some.inj hserver' ▸ hdone
              · exact hbetween n server' hlt'' hlt' hserver'
          · exact ⟨connIdx, System.Leads.refl _,
              fun n server hle hlt => absurd hlt (Nat.not_lt.mpr hle), Or.inr ⟨server, hat, hdone⟩⟩

theorem weight_endBarrier : (endBarrier t client).weight (t.connectionIDs client).length =
    5 * (t.connectionIDs client).length + 4 := by
  unfold EndRun.endBarrier
  rw [if_pos t.several]
  show (t.connectionIDs client).length + 4 * (t.connectionIDs client).length + 4 = _
  omega

/-- It is less to be in the barrier than before it. -/
theorem measure_endBarrier {ends : ℕ → Mailbox} (hclient : client ∈ t.clients)
    (hweight : (w.clients client).stage.weight (t.connectionIDs client).length =
      5 * (t.connectionIDs client).length + 5) :
    (w.setClient client ⟨endBarrier t client, ends⟩).measure t < w.measure t := by
  refine measure_setClient hclient ?_
  rw [weight_endBarrier, hweight]
  exact Nat.lt_succ_self _

/-- Where the round is does not count. -/
theorem measure_rounds {connIdx : ℕ} (hstage : (w.clients client).stage = .rounds connIdx) (m : ℕ) :
    (w.setClient client ⟨.rounds m, (w.clients client).ends⟩).measure t = w.measure t := by
  unfold EndRun.measure
  congr 2
  refine Finset.sum_congr rfl fun i _ => ?_
  refine (Function.forall_update_iff w.clients fun i k => k.stage.weight (t.connectionIDs i).length =
    (w.clients i).stage.weight (t.connectionIDs i).length).mpr ⟨?_, fun _ _ => rfl⟩ i
  rw [hstage]
  rfl

/-- A round at a connection that has not finished. -/
theorem EndInv.lowers_at (h : EndInv t w) (hunbroken : Unbroken t w) {connIdx : ℕ}
    (hstage : (w.clients client).stage = .rounds connIdx)
    (hat : (t.connectionIDs client)[connIdx]? = some server)
    (hnot : ¬ (w.connections (client, server)).data.clientDone) : Lowers t w := by
  cases hdata : (w.connections (client, server)).data with
  | oneSided returned =>
      rw [hdata] at hnot
      exact absurd trivial hnot
  | broken => exact absurd hdata (hunbroken w (System.Leads.refl w) (client, server))
  | looping perf =>
      rw [hdata] at hnot
      exact h.lowers_looping hunbroken (List.mem_of_getElem? hat) hdata (fun hended => hnot hended.1)
        fun _ => ⟨connIdx, hstage, hat⟩

/-- **A round leaves less to do**, or the client goes to its barrier. -/
theorem EndInv.lowers_rounds (h : EndInv t w) (hunbroken : Unbroken t w) (hclient : client ∈ t.clients) {connIdx : ℕ}
    (hstage : (w.clients client).stage = .rounds connIdx) : Lowers t w := by
  -- wherever a round comes to a connection that has not finished
  have hstops : ∀ m, (runs t).Leads w (w.setClient client ⟨.rounds m, (w.clients client).ends⟩) →
      (∃ server, (t.connectionIDs client)[m]? = some server ∧
        ¬ (w.connections (client, server)).data.clientDone) → Lowers t w := by
    rintro m hleads ⟨server, hat, hnot⟩
    refine Lowers.of_leads ?_ hleads (measure_rounds hstage m)
    have hround : ((w.setClient client ⟨.rounds m, (w.clients client).ends⟩).clients client).stage =
        .rounds m := by
      rw [clients_setClient]
    exact (h.leads hleads).lowers_at (hunbroken.leads hleads) hround hat hnot
  obtain ⟨m, hleads, -, hend | hend⟩ := leads_rounds (t := t) (w := w) client
    (w.clients client).ends connIdx
  · rw [setClient_eq hstage] at hleads
    have hlength : ¬ m < (t.connectionIDs client).length :=
      Nat.not_lt.mpr (List.getElem?_eq_none_iff.mp hend)
    have hstep : (runs t).Step (w.setClient client ⟨.rounds m, (w.clients client).ends⟩)
        (.goesOn client)
        (w.setClient client ⟨w.goesOn t client (.rounds m), (w.clients client).ends⟩) := by
      refine goesOn_step fun server hat => ?_
      obtain ⟨_, hphase, hat⟩ := hat
      obtain rfl := ClientPhase.rounds.inj hphase
      rw [hend] at hat
      exact absurd hat.symm (Option.some_ne_none server)
    rw [EndRun.goesOn, if_neg hlength] at hstep
    by_cases hworking : 0 < w.workingConnections t client
    · -- another round
      rw [if_pos hworking] at hstep
      obtain ⟨m', hleads', hbetween, hend' | hend'⟩ := leads_rounds (t := t) (w := w)
        client (w.clients client).ends 0
      · have hnone : w.workingConnections t client = 0 := by
          refine workingConnections_eq_zero.mpr fun server hserver => ?_
          obtain ⟨n, hn⟩ := List.mem_iff_getElem?.mp hserver
          have hlt := (List.getElem?_eq_some_iff.mp hn).1
          have hle := List.getElem?_eq_none_iff.mp hend'
          exact hbetween n server (Nat.zero_le n) (by omega) hn
        exact absurd hworking (by rw [hnone]; exact Nat.lt_irrefl 0)
      · exact hstops m' ((hleads.tail hstep).trans hleads') hend'
    · rw [if_neg hworking] at hstep
      exact ⟨_, hleads.tail hstep, measure_endBarrier hclient (by rw [hstage]; rfl)⟩
  · rw [setClient_eq hstage] at hleads
    exact hstops m hleads hend

/-! ## The barriers -/

/-- **A client goes on in its barrier**, where its next call succeeds. -/
theorem EndInv.lowers_client (h : EndInv t w) (hclient : client ∈ t.clients) {stage : ClientBarrier}
    (hstage : (w.clients client).stage = .barrier stage)
    (hnot : stage ≠ .returned (t.connectionIDs client))
    (hready : Ready (w.clients client).ends (w.serverEnds client) stage.call)
    (hsuccess : succeeds (w.clients client).ends (w.serverEnds client) stage.call = true) :
    Lowers t w := by
  have hok := h.clients client
  rw [hstage] at hok
  refine Lowers.of_step (.client client) (by show Ready _ _ _; rw [hstage]; exact hready) ?_
  refine measure_setClient hclient ?_
  show ((w.clients client).stage.next _).weight _ < _
  rw [hstage]
  show (stage.next (succeeds _ _ stage.call)).weight < stage.weight
  rw [hsuccess]
  exact hok.1.weight_next hnot

/-- A ping finds its receive once the server's threads have returned. -/
theorem EndInv.ping_succeeds (h : EndInv t w) {stage : ClientBarrier}
    (hstage : (w.clients client).stage = .barrier stage)
    (hreturned : ∀ server ∈ t.connectionIDs client, (w.connections (client, server)).data.returned) :
    succeeds (w.clients client).ends (w.serverEnds client) stage.call = true := by
  have hok := h.clients client
  rw [hstage] at hok
  obtain ⟨hof, hstageOk, -⟩ := hok
  cases hcall : stage.call with
  | none => rfl
  | some p =>
      obtain ⟨server, call⟩ := p
      cases call with
      | receive => rfl
      | pollReceive => rfl
      | send =>
          obtain ⟨hserver, hsent⟩ := hof.mem hstageOk hcall
          have hprepared := (h.connections _).prepared (hreturned server hserver)
          have hposted := h.posted (EndTest.mem_connected.mpr hserver) hprepared
          refine decide_eq_true ?_
          show _ < ((w.servers server).ends client).posted + _
          omega

/-- A client that waits, or has returned, has pinged. -/
def Pinged (w : EndRun) (client : ℕ) : Prop :=
  ∃ ids, (∃ left, (w.clients client).stage = .barrier (.polling ids left)) ∨
    (w.clients client).stage = .barrier (.returned ids)

theorem EndInv.sent_of_pinged (h : EndInv t w) (hpinged : w.Pinged client)
    (hserver : server ∈ t.connectionIDs client) : ((w.clients client).ends server).sent = 1 := by
  have hok := h.clients client
  obtain ⟨ids, ⟨left, hstage⟩ | hstage⟩ := hpinged
  · rw [hstage] at hok
    obtain ⟨hof, ⟨-, -, hends⟩, -⟩ := hok
    obtain rfl : ids = t.connectionIDs client := hof
    rw [hends]
    exact mark_of_mem (List.mem_toFinset.mpr hserver)
  · rw [hstage] at hok
    obtain ⟨hof, hends, -⟩ := hok
    obtain rfl : ids = t.connectionIDs client := hof
    rw [show (w.clients client).ends = _ from hends]
    exact mark_of_mem (List.mem_toFinset.mpr hserver)

/-- **A client pings**, once the threads of the servers have returned. -/
theorem EndInv.lowers_pinging (h : EndInv t w) (hclient : client ∈ t.clients) {stage : ClientBarrier}
    (hstage : (w.clients client).stage = .barrier stage)
    (hreturned : ∀ server ∈ t.connectionIDs client, (w.connections (client, server)).data.returned)
    (hnot : ¬ w.Pinged client) : Lowers t w := by
  have hsuccess := h.ping_succeeds hstage hreturned
  refine h.lowers_client hclient hstage (fun hbad => ?_) ?_ hsuccess
  · rw [hbad] at hstage
    exact hnot ⟨_, Or.inr hstage⟩
  · cases stage with
    | polling ids left => exact absurd ⟨ids, Or.inl ⟨left, hstage⟩⟩ hnot
    | posting ids left => cases left <;> trivial
    | sending ids leftConIDs i =>
        show Ready _ _ (leftConIDs[i.toNat]?.map _)
        cases leftConIDs[i.toNat]? <;> trivial
    | _ => trivial

/-- **A server goes on** once all its clients have pinged. -/
theorem EndInv.lowers_server (h : EndInv t w) (hserver : server ∈ t.servers)
    (hreturned : ∀ client ∈ t.connected server, (w.connections (client, server)).data.returned)
    (hpinged : ∀ client ∈ t.connected server, w.Pinged client)
    (hnot : ¬ ∃ clientIds, (w.servers server).stage = .returned clientIds) : Lowers t w := by
  rcases h.servers server with ⟨haway, -⟩ | ⟨clientIds, hbegun⟩
  · -- it takes its snapshot
    have hids : ∀ client, client ∈ (t.connected server).toList ↔ client ∈ t.connected server :=
      fun client => Finset.mem_toList
    refine Lowers.of_step (.serverBegins server (t.connected server).toList)
      ⟨haway, Finset.nodup_toList _, hids, fun client hclient => hreturned client ((hids client).mp hclient),
        t.several⟩ ?_
    refine measure_setServer hserver ?_
    rw [haway]
    show (t.connected server).toList.length + (t.connected server).toList.length + 2 < _
    rw [Finset.length_toList]
    show _ < 2 * (t.connected server).card + 3
    omega
  · have hsuccess := hbegun.snapshot.succeeds hbegun.ok (h.finds hbegun)
    refine Lowers.of_step (.server server) ?_ ?_
    · show Ready _ _ (w.servers server).stage.call
      have hok := hbegun.ok
      have hover := hbegun.snapshot
      cases hstage : (w.servers server).stage with
      | polling ids left =>
          rw [hstage] at hok hover
          obtain ⟨-, -, hleft, hends⟩ := hok
          obtain rfl : ids = clientIds := hover
          cases left with
          | nil => trivial
          | cons client left =>
              have hclient : client ∈ t.connected server := by
                rw [← hbegun.ids]
                exact List.mem_toFinset.mpr (hleft.subset List.mem_cons_self)
              show ((w.servers server).ends client).polled < ((w.clients client).ends server).sent
              rw [h.sent_of_pinged (hpinged client hclient) (EndTest.mem_connected.mp hclient), hends]
              show mark _ client < 1
              rw [mark_of_notMem (notMem_doneIds List.mem_cons_self)]
              exact Nat.one_pos
      | sending ids left => cases left <;> trivial
      | returned ids => trivial
      | _ =>
          rw [hstage] at hover
          exact absurd hover not_false
    · refine measure_setServer hserver ?_
      show ((w.servers server).stage.next 0 (succeeds _ _ _)).weight _ < _
      rw [hsuccess]
      exact hbegun.snapshot.weight_next fun hbad => hnot ⟨_, hbad⟩

/-- **A client polls its pongs** once its servers have answered. -/
theorem EndInv.lowers_polling (h : EndInv t w) (hclient : client ∈ t.clients) {ids left : List ℕ}
    (hstage : (w.clients client).stage = .barrier (.polling ids left))
    (hreturned : ∀ server ∈ t.connectionIDs client, (w.connections (client, server)).data.returned)
    (hanswered : ∀ server ∈ t.connectionIDs client, ∃ clientIds,
      (w.servers server).stage = .returned clientIds) : Lowers t w := by
  have hok := h.clients client
  rw [hstage] at hok
  obtain ⟨hof, ⟨-, hleft, hends⟩, -⟩ := hok
  obtain rfl : ids = t.connectionIDs client := hof
  refine h.lowers_client hclient hstage (fun hbad => ClientBarrier.noConfusion hbad) ?_
    (h.ping_succeeds hstage hreturned)
  cases left with
  | nil => trivial
  | cons server left =>
      have hserver := hleft.subset List.mem_cons_self
      obtain ⟨clientIds, hreturn⟩ := hanswered server hserver
      rcases h.servers server with ⟨haway, -⟩ | ⟨ids, hbegun⟩
      · rw [hreturn] at haway
        exact ServerBarrier.noConfusion haway
      · have hserverOk := hbegun.ok
        have hover := hbegun.snapshot
        rw [hreturn] at hserverOk hover
        obtain ⟨-, -, hserverEnds⟩ := hserverOk
        obtain rfl : clientIds = ids := hover
        show ((w.clients client).ends server).polled < ((w.servers server).ends client).sent
        rw [hends, hserverEnds, hbegun.ids]
        show mark _ server < mark _ client
        rw [mark_of_notMem (notMem_doneIds List.mem_cons_self),
          mark_of_mem (EndTest.mem_connected.mpr hserver)]
        exact Nat.one_pos

/-! ## Every run can be completed -/

/-- **Some run leaves less to do** while not both barriers are complete. -/
theorem EndInv.progress (h : EndInv t w) (hunbroken : Unbroken t w) (hnot : ¬ w.Complete t) : Lowers t w := by
  -- clients go to their barriers, threads return, clients ping, servers answer
  by_cases hbarrier : ∀ client ∈ t.clients, ∃ stage, (w.clients client).stage = .barrier stage
  · have hdone : ∀ client server, server ∈ t.connectionIDs client →
        (w.connections (client, server)).data.clientDone := by
      intro client server hserver
      obtain ⟨stage, hstage⟩ := hbarrier client (EndTest.mem_clients hserver)
      have hok := h.clients client
      rw [hstage] at hok
      exact hok.2.2 server hserver
    by_cases hreturned : ∀ client server, server ∈ t.connectionIDs client →
        (w.connections (client, server)).data.returned
    · by_cases hpinged : ∀ client ∈ t.clients, w.Pinged client
      · by_cases hservers : ∀ server ∈ t.servers, ∃ clientIds,
            (w.servers server).stage = .returned clientIds
        · -- a client has not returned, and its servers have answered
          have hclients : ¬ ∀ client ∈ t.clients,
              (w.clients client).stage = .barrier (.returned (t.connectionIDs client)) :=
            fun hall => hnot ⟨hall, hservers⟩
          push Not at hclients
          obtain ⟨client, hclient, hwaits⟩ := hclients
          obtain ⟨ids, ⟨left, hstage⟩ | hstage⟩ := hpinged client hclient
          · refine h.lowers_polling hclient hstage (hreturned client) fun server hserver => ?_
            exact hservers server (EndTest.mem_servers.mpr ⟨client, hserver⟩)
          · have hok := h.clients client
            rw [hstage] at hok
            rw [hstage, show ids = _ from hok.1] at hwaits
            exact absurd rfl hwaits
        · push Not at hservers
          obtain ⟨server, hserver, hwaits⟩ := hservers
          refine h.lowers_server hserver (fun client hclient => ?_) (fun client hclient => ?_)
            fun ⟨clientIds, hbad⟩ => hwaits clientIds hbad
          · exact hreturned client server (EndTest.mem_connected.mp hclient)
          · exact hpinged client (EndTest.mem_clients (EndTest.mem_connected.mp hclient))
      · push Not at hpinged
        obtain ⟨client, hclient, hpings⟩ := hpinged
        obtain ⟨stage, hstage⟩ := hbarrier client hclient
        exact h.lowers_pinging hclient hstage (hreturned client) hpings
    · push Not at hreturned
      obtain ⟨client, server, hserver, hruns⟩ := hreturned
      exact h.lowers_running hunbroken hserver (hdone client server hserver) hruns
  · push Not at hbarrier
    obtain ⟨client, hclient, hbefore⟩ := hbarrier
    cases hstage : (w.clients client).stage with
    | operating i left =>
        have hok := h.clients client
        rw [hstage] at hok
        exact absurd hok not_false
    | rounds connIdx => exact h.lowers_rounds hunbroken hclient hstage
    | barrier stage => exact absurd hstage (hbefore stage)

/-- **Both barriers can be completed.** -/
theorem EndInv.completes (h : EndInv t w) (hunbroken : Unbroken t w) :
    ∃ w', (runs t).Leads w w' ∧ w'.Complete t := by
  obtain ⟨n, hn⟩ : ∃ n, n = w.measure t := ⟨_, rfl⟩
  -- on what is left to do
  induction n using Nat.strong_induction_on generalizing w with
  | _ n ih =>
      by_cases hcomplete : w.Complete t
      · exact ⟨w, System.Leads.refl w, hcomplete⟩
      · obtain ⟨w₁, hleads₁, hless⟩ := h.progress hunbroken hcomplete
        obtain ⟨w₂, hleads₂, hcomplete₂⟩ := ih _ (by rw [hn]; exact hless) (h.leads hleads₁)
          (hunbroken.leads hleads₁) rfl
        exact ⟨w₂, hleads₁.trans hleads₂, hcomplete₂⟩

/-! ## Where nothing is prepared -/

/-- A stage in which a server posts no receives. -/
def Quiet : ServerBarrier → Prop
  | .away => True
  | .polling _ _ => True
  | .sending _ _ => True
  | .returned _ => True
  | .threw => True
  | _ => False

theorem Quiet.next {stage : ServerBarrier} (h : Quiet stage) (success : Bool) :
    Quiet (stage.next 0 success) := by
  cases stage with
  | polling ids left =>
      cases left with
      | nil => exact h
      | cons client left => cases success <;> exact h
  | sending ids left =>
      cases left with
      | nil => exact h
      | cons client left => cases success <;> exact h
  | away => exact h
  | returned ids => exact h
  | threw => exact h
  | _ => exact absurd h not_false

theorem Quiet.posted {stage : ServerBarrier} (h : Quiet stage) (ends : ℕ → Mailbox) (success : Bool)
    (id : ℕ) : (made ends success stage.call id).posted = (ends id).posted := by
  have hmade : ∀ (client : ℕ) (call : MailCall), call ≠ .receive →
      (made ends success (some (client, call)) id).posted = (ends id).posted := by
    intro client call hcall
    cases success with
    | false => rfl
    | true =>
        show (Function.update ends client ((ends client).after call) id).posted = _
        rcases eq_or_ne id client with rfl | hne
        · rw [Function.update_self]
          cases call with
          | receive => exact absurd rfl hcall
          | send => rfl
          | pollReceive => rfl
        · rw [Function.update_of_ne hne]
  cases stage with
  | polling ids left =>
      cases left with
      | nil => rfl
      | cons client left => exact hmade client .pollReceive (by simp)
  | sending ids left =>
      cases left with
      | nil => rfl
      | cons client left => exact hmade client .send (by simp)
  | away => rfl
  | returned ids => rfl
  | threw => rfl
  | _ => exact absurd h not_false

/-- **Nothing is posted for a ping.** -/
structure Unprepared (w : EndRun) : Prop where
  oneSided : ∀ p, ∃ returned, (w.connections p).data = .oneSided returned
  quiet : ∀ server, Quiet (w.servers server).stage
  posted : ∀ server client, ((w.servers server).ends client).posted = 0

theorem Unprepared.setServer (h : Unprepared w) {k : BarrierParty ServerBarrier}
    (hquiet : Quiet k.stage) (hposted : ∀ client, (k.ends client).posted = 0) :
    Unprepared (w.setServer server k) where
  oneSided := h.oneSided
  quiet := (Function.forall_update_iff w.servers fun _ k => Quiet k.stage).mpr
    ⟨hquiet, fun j _ => h.quiet j⟩
  posted := (Function.forall_update_iff w.servers fun _ k => ∀ client, (k.ends client).posted = 0).mpr
    ⟨hposted, fun j _ => h.posted j⟩

theorem Unprepared.exec (h : Unprepared w) (hbody : t.body = .nothing) {event : EndEvent}
    (hen : w.Enabled t event) : Unprepared (w.exec t event) := by
  cases event with
  | goesOn client => exact ⟨h.oneSided, h.quiet, h.posted⟩
  | client client => exact ⟨h.oneSided, h.quiet, h.posted⟩
  | loops client server e =>
      obtain ⟨-, perf, hdata, -⟩ := hen
      obtain ⟨returned, hone⟩ := h.oneSided (client, server)
      exact absurd (hdata.symm.trans hone) (by simp)
  | prepares client server =>
      obtain ⟨-, perf, hdata, -⟩ := hen
      obtain ⟨returned, hone⟩ := h.oneSided (client, server)
      exact absurd (hdata.symm.trans hone) (by simp)
  | returns client server =>
      show Unprepared (w.returns t client server)
      unfold EndRun.returns
      rw [if_neg (by rw [hbody]; simp)]
      exact ⟨(Function.forall_update_iff w.connections fun _ c =>
        ∃ returned, c.data = .oneSided returned).mpr ⟨⟨true, rfl⟩, fun p _ => h.oneSided p⟩,
        h.quiet, h.posted⟩
  | serverBegins server clientIds => exact h.setServer trivial (h.posted server)
  | server server =>
      refine h.setServer ((h.quiet server).next _) fun client => ?_
      exact ((h.quiet server).posted _ _ client).trans (h.posted server client)

end EndRun

end RdmaManager
