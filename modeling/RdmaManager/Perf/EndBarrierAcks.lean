import RdmaManager.Perf.EagerServer
import RdmaManager.Perf.EndBarrierProgress
/-!
# Where the end barrier is prepared

A connection whose acknowledgements find their receives never breaks, and any
run of one connection is part of a run of the whole test: the client comes
back to it in every round (`EndInv.lifts`). A client with a broken connection
does not reach its barrier. So the barrier is prepared, and can be completed,
exactly where messages are acknowledged and every acknowledgement finds a
receive.
-/

namespace RdmaManager

namespace EndRun

variable {t : EndTest} {w w' : EndRun} {client server : ℕ} {event : EndEvent}

/-! ## What breaks -/

/-- **A broken connection** keeps its client from its barrier. -/
theorem EndInv.not_complete (h : EndInv t w) {p : ℕ × ℕ} (hlink : p.2 ∈ t.connectionIDs p.1)
    (hbroken : (w.connections p).data = .broken) : ¬ w.Complete t := by
  rintro ⟨hclients, -⟩
  have hok := h.clients p.1
  rw [hclients p.1 (EndTest.mem_clients hlink)] at hok
  have hdone := hok.2.2 p.2 hlink
  rw [show (w.connections (p.1, p.2)).data = .broken from hbroken] at hdone
  exact hdone

/-! ## The runs of one connection -/

/-- A connection has come to a state, and the others are where they were. -/
structure Moved (w w' : EndRun) (link : ℕ × ℕ) (perf : Perf) : Prop where
  data : (w'.connections link).data = .looping perf
  others : ∀ p ≠ link, w'.connections p = w.connections p

/-- A step of a connection, where the barrier is prepared if it is to be. -/
theorem lifts_prepared (hunbroken : Unbroken t w) {perf : Perf} {e : PerfEvent}
    (hdata : (w.connections (client, server)).data = .looping perf)
    (hen : w.Enabled t (.loops client server e)) :
    ∃ w', (runs t).Leads w w' ∧ Moved w w' (client, server) (perf.exec t.loop e) ∧
      (w'.clients client).stage = (w.clients client).stage.after e := by
  refine ⟨_, (System.Leads.refl w).tail (l := .loops client server e) ⟨hen, rfl⟩, ?_⟩
  rw [hunbroken.loops_eq hdata hen]
  refine ⟨⟨?_, fun p hne => Function.update_of_ne hne _ _⟩, ?_⟩
  · exact congrArg PerfConnection.data (Function.update_self (client, server) _ w.connections)
  · rw [clients_setClient]

/-- **A step of a connection** is one of the test. -/
theorem lifts_step (hunbroken : Unbroken t w) (hlink : server ∈ t.connectionIDs client) {perf : Perf}
    {e : PerfEvent} (hdata : (w.connections (client, server)).data = .looping perf)
    (hen : perf.Enabled t.loop e)
    (hturn : e.byClient = true → (w.clients client).stage.At (t.connectionIDs client) server) :
    ∃ w', (runs t).Leads w w' ∧ Moved w w' (client, server) (perf.exec t.loop e) ∧
      (w'.clients client).stage = (w.clients client).stage.after e := by
  by_cases hlast : e = .acks ∧ perf.LastMsg ∧ (w.connections (client, server)).prepared = false
  · -- the barrier is prepared first
    obtain ⟨rfl, hlast, hfirst⟩ := hlast
    have hstep : (runs t).Step w (.prepares client server) (w.prepare client server) :=
      ⟨⟨hlink, perf, hdata, hen, hlast, t.several, hfirst⟩, rfl⟩
    have hleads := (System.Leads.refl w).tail hstep
    have hself : (w.prepare client server).connections (client, server) =
        { w.connections (client, server) with prepared := true } := Function.update_self _ _ _
    have hdata' : ((w.prepare client server).connections (client, server)).data = .looping perf := by
      rw [hself]
      exact hdata
    obtain ⟨w', hleads', hmoved, hstage⟩ := lifts_prepared (hunbroken.leads hleads) hdata'
      (e := .acks) ⟨hlink, perf, hdata', hen, fun hby => Bool.noConfusion hby, fun _ _ _ => by rw [hself]⟩
    refine ⟨w', hleads.trans hleads', ⟨hmoved.data, fun p hne => (hmoved.others p hne).trans ?_⟩, hstage⟩
    exact Function.update_of_ne hne _ _
  · refine lifts_prepared hunbroken hdata ⟨hlink, perf, hdata, hen, hturn, fun he hmsg _ => ?_⟩
    by_contra hfirst
    exact hlast ⟨he, hmsg, Bool.eq_false_iff.mpr hfirst⟩

/-- A round leaves a connection that has finished. -/
theorem leaves_done {connIdx : ℕ} (hstage : (w.clients client).stage = .rounds connIdx)
    (hat : (t.connectionIDs client)[connIdx]? = some server)
    (hdone : (w.connections (client, server)).data.clientDone) :
    (runs t).Step w (.goesOn client)
      (w.setClient client ⟨.rounds (connIdx + 1), (w.clients client).ends⟩) := by
  have hlt : connIdx < (t.connectionIDs client).length := (List.getElem?_eq_some_iff.mp hat).1
  refine ⟨fun server' hat' => ?_, ?_⟩
  · obtain ⟨n, hphase, hserver'⟩ := hat'
    rw [hstage] at hphase
    obtain rfl := ClientPhase.rounds.inj hphase
    rw [hat] at hserver'
    exact Option.some.inj hserver' ▸ hdone
  · show _ = w.setClient client ⟨w.goesOn t client (w.clients client).stage, (w.clients client).ends⟩
    rw [hstage, EndRun.goesOn, if_pos hlt]

/-- **The client goes on to the next connection** when it has done what there is
to do at one of them. -/
theorem leaves_looping (hunbroken : Unbroken t w) (hlink : server ∈ t.connectionIDs client)
    {connIdx : ℕ} {perf last : Perf} (hstage : (w.clients client).stage = .rounds connIdx)
    (hat : (t.connectionIDs client)[connIdx]? = some server)
    (hdata : (w.connections (client, server)).data = .looping perf)
    (hleads : (perfRuns t.loop).Leads perf last) (hlast : last.client.stage = .done) :
    ∃ w', (runs t).Leads w w' ∧ (w'.clients client).stage = .rounds (connIdx + 1) ∧
      ∀ p ≠ (client, server), w'.connections p = w.connections p := by
  induction hleads using Relation.ReflTransGen.head_induction_on generalizing w with
  | refl =>
      have hdone : (w.connections (client, server)).data.clientDone := by
        rw [hdata]
        exact hlast
      refine ⟨_, (System.Leads.refl w).tail (leaves_done hstage hat hdone), ?_, fun _ _ => rfl⟩
      rw [clients_setClient]
  | head hstep _ ih =>
      obtain ⟨e, hen, rfl⟩ := hstep
      obtain ⟨w₁, hleads₁, hmoved, hstage₁⟩ := lifts_step hunbroken hlink hdata hen
        fun _ => ⟨connIdx, hstage, hat⟩
      rw [hstage] at hstage₁
      by_cases hleaves : e = .leaves
      · refine ⟨w₁, hleads₁, ?_, hmoved.others⟩
        rw [hstage₁, ClientPhase.after, if_pos hleaves]
      · rw [ClientPhase.after, if_neg hleaves] at hstage₁
        obtain ⟨w₂, hleads₂, hstage₂, hothers⟩ := ih (hunbroken.leads hleads₁) hstage₁ hmoved.data
        exact ⟨w₂, hleads₁.trans hleads₂, hstage₂,
          fun p hne => (hothers p hne).trans (hmoved.others p hne)⟩

/-- A round goes on to the next connection. -/
theorem EndInv.advances (h : EndInv t w) (hunbroken : Unbroken t w) {connIdx : ℕ}
    (hstage : (w.clients client).stage = .rounds connIdx)
    (hat : (t.connectionIDs client)[connIdx]? = some server) :
    ∃ w', (runs t).Leads w w' ∧ (w'.clients client).stage = .rounds (connIdx + 1) ∧
      ∀ p ≠ (client, server), w'.connections p = w.connections p := by
  have hok := h.connections (client, server)
  unfold PerfConnection.Ok at hok
  cases hdata : (w.connections (client, server)).data with
  | oneSided returned =>
      rw [hdata] at hok
      exact absurd hok not_false
  | broken => exact absurd hdata (hunbroken w (System.Leads.refl w) (client, server))
  | looping perf =>
      rw [hdata] at hok
      obtain ⟨trail, hcredit⟩ := Perf.credit hok.1
      obtain ⟨last, hleads, hended⟩ := CreditInv.finishes (x := (perf, trail)) hcredit
      exact leaves_looping hunbroken (List.mem_of_getElem? hat) hstage hat hdata
        hleads.of_restrict.of_record hended.1

end EndRun

namespace EndTest

variable {t : EndTest}

end EndTest

end RdmaManager
