import RdmaManager.Common.System
import RdmaManager.Node.Client
/-!
# Node ids

One client makes calls of `connect`, one after the other, and the
sequencer answers it. Sockets may not connect, requests and answers may
be lost, and other nodes register at any time. A call that returns `true`
is `Right` where the two caches that `connect` goes by are: no call is
made when a socket stands for an id that an earlier call failed to get,
and no server registers again under an address whose id the client has
(`connect_right`).
-/

namespace RdmaManager

/-- **A client and the sequencer**, with the latest call of `connect` and
the ids that the sequencer gave to requests of this client. -/
structure Site (σ : Type) where
  client : RDMAClient σ
  call : Option Call
  sequencer : NodeIDSequencer
  granted : List UInt64

/-- What can happen at a site. -/
inductive SiteEvent (σ : Type)
  /-- `connect` is called. -/
  | connect (ipPort : String) (retServerNodeID : UInt64)
  /-- It goes on to the next stage. -/
  | advance (fault : Option Exn)
  /-- Its request does not arrive. -/
  | drop (e : Exn)
  /-- Its request is handled. The answer of a node that is not the
  sequencer may be any, and any answer may be lost. -/
  | exchange (answer : Response) (lost : Option Exn)
  /-- Another node sends a `NodeIDRequest` to the sequencer. -/
  | register (req : NodeIDRequest)
  /-- Whatever else is done with the object. -/
  | use (api : σ) (nodeIDsQPs : List Bool)

/-- The id in an answer to a `NodeIDRequest`. -/
def Response.grant : Response → List UInt64
  | .nodeIDResponse connResp => [connResp.nodeid]
  | _ => []

namespace Site

variable {σ : Type} {s : Site σ} {call : Call}

/-- The call and the client after a piece of the call. -/
def goOn (s : Site σ) (call : Call) (x : Act (RDMAClient σ) Call) : Site σ :=
  { s with call := some (call.run x s.client).1, client := (call.run x s.client).2 }

/-- The sequencer handles a request of the client; what it answers. -/
def ask (s : Site σ) (request : Request) : Except Exn Response × Site σ :=
  match NodeIDSequencer.handle request s.sequencer with
  | (.ok response, sequencer) =>
      (.ok response, { s with sequencer, granted := response.grant ++ s.granted })
  | (.error _, sequencer) => (.error (.runtimeError "Cannot receive message"), { s with sequencer })

/-- The site after an event. -/
def exec [RdmaApi σ] (retries : ℕ) (s : Site σ) : SiteEvent σ → Site σ
  | .connect ipPort retServerNodeID => { s with call := some (Call.enter ipPort retServerNodeID) }
  | .advance fault =>
      match s.call with
      | some call => s.goOn call (call.advance fault)
      | none => s
  | .drop e =>
      match s.call with
      | some call => s.goOn call (call.receive retries (.error e))
      | none => s
  | .exchange answer lost =>
      match s.call with
      | some call =>
          match call.request s.client with
          | some (connection, request) =>
              let (reply, s) :=
                if connection = s.client.sequencerIpPort then s.ask request else (.ok answer, s)
              s.goOn call (call.receive retries (lost.elim reply .error))
          | none => s
      | none => s
  | .register req =>
      { s with sequencer := (NodeIDSequencer.handle (.nodeIDRequest req) s.sequencer).2 }
  | .use api nodeIDsQPs => { s with client := { s.client with api, nodeIDsQPs } }

/-- Calls are made one after the other. -/
def Enabled (s : Site σ) : SiteEvent σ → Prop
  | .connect _ _ => ∀ call, s.call = some call → call.running = false
  | _ => True

/-- A newly constructed client and a newly constructed sequencer. -/
def Fresh (s : Site σ) : Prop :=
  s.client.sockets = ∅ ∧ s.client.connections = ∅ ∧ s.call = none ∧
    s.sequencer = NodeIDSequencer.fresh ∧ s.granted = []

/-- The histories of a client. -/
def runs [RdmaApi σ] (retries : ℕ) : System (Site σ) (SiteEvent σ) where
  Init := Fresh
  Step s event s' := s.Enabled event ∧ s' = s.exec retries event

/-- `connect` is called when no socket stands for an id that is missing:
the own one for that to the sequencer, that of the server for the one to
its address. And no server registers again under an address whose id the
client has. -/
def Sound (s : Site σ) : SiteEvent σ → Prop
  | .connect ipPort _ =>
      (s.client.sequencerIpPort ∈ s.client.sockets → s.client.ownNodeID ∈ s.granted) ∧
      (ipPort = s.client.sequencerIpPort ∨ ipPort ∈ s.client.sockets →
        ipPort ∈ s.client.connections)
  | .register req =>
      req.nodeTypeEnum = NodeType.server.code → req.ip ∈ s.sequencer.ipPortToNodeIDMapping →
        req.ip ∉ s.client.connections ∧
          ∀ call, s.call = some call → call.stage = .lookedUp → call.ipPort ≠ req.ip
  | _ => True

/-- The histories of sound events. -/
def soundRuns [RdmaApi σ] (retries : ℕ) : System (Site σ) (SiteEvent σ) :=
  (runs retries).restrict Sound

/-- **What a call that returns `true` says.** -/
structure Right (s : Site σ) (call : Call) : Prop where
  mapped : s.sequencer.ipPortToNodeIDMapping.lookup call.ipPort = some call.retServerNodeID
  nodeIDsConnection : s.client.nodeIDsConnection[call.retServerNodeID.toNat]? = some call.ipPort
  connections : s.client.connections.lookup call.ipPort = some call.retServerNodeID
  own : s.client.ownNodeID ∈ s.granted

/-! ## The invariant -/

/-- The ids the client has are right. -/
structure Books (s : Site σ) : Prop where
  sequencer : s.sequencer.Sound
  known : ∀ ip nodeID, s.client.connections.lookup ip = some nodeID →
    s.sequencer.ipPortToNodeIDMapping.lookup ip = some nodeID ∧
      s.client.nodeIDsConnection[nodeID.toNat]? = some ip
  /-- It got them from the sequencer. -/
  opened : s.client.sequencerIpPort ∉ s.client.sockets → s.client.connections = ∅

/-- No socket to the address of the call stands for a missing id. -/
def Clear (s : Site σ) (call : Call) : Prop :=
  call.ipPort = s.client.sequencerIpPort ∨ call.ipPort ∈ s.client.sockets →
    call.ipPort ∈ s.client.connections

/-- What is known while a call stands at its stage. -/
def Stands (s : Site σ) (call : Call) : Prop :=
  match call.stage with
  | .entered =>
      (s.client.sequencerIpPort ∈ s.client.sockets → s.client.ownNodeID ∈ s.granted) ∧ s.Clear call
  | .requestingNodeID =>
      s.client.sequencerIpPort ∈ s.client.sockets ∧ s.client.connections = ∅ ∧ s.Clear call
  | .identified =>
      s.client.sequencerIpPort ∈ s.client.sockets ∧ s.client.ownNodeID ∈ s.granted ∧ s.Clear call
  | .lookingUp _ =>
      s.client.sequencerIpPort ∈ s.client.sockets ∧ s.client.ownNodeID ∈ s.granted
  | .lookedUp =>
      s.client.sequencerIpPort ∈ s.client.sockets ∧ s.client.ownNodeID ∈ s.granted ∧
        s.sequencer.ipPortToNodeIDMapping.lookup call.ipPort = some call.retServerNodeID
  | .returned false => True
  | .threw _ => True
  | _ => s.client.sequencerIpPort ∈ s.client.sockets ∧ s.Right call

/-- What every sound event keeps. -/
structure Inv (s : Site σ) : Prop extends Books s where
  stands : ∀ call, s.call = some call → s.Stands call

open Act

/-- The books are kept where nothing but sockets is added. -/
theorem Books.of_eq (h : s.Books) {s' : Site σ} (hsequencer : s'.sequencer = s.sequencer)
    (hconnections : s'.client.connections = s.client.connections)
    (hids : s'.client.nodeIDsConnection = s.client.nodeIDsConnection)
    (hip : s'.client.sequencerIpPort = s.client.sequencerIpPort)
    (hsockets : s.client.sockets ⊆ s'.client.sockets) : s'.Books where
  sequencer := by
    rw [hsequencer]
    exact h.sequencer
  known := by
    rw [hconnections, hsequencer, hids]
    exact h.known
  opened := by
    rw [hconnections, hip]
    intro hout
    exact h.opened fun hin => hout (hsockets hin)

theorem Books.inv (h : s.Books) (hcall : s.call = some call) (hstands : s.Stands call) : s.Inv := by
  refine ⟨h, ?_⟩
  intro call' hcall'
  rw [hcall] at hcall'
  obtain rfl := Option.some.inj hcall'
  exact hstands

theorem Fresh.inv (hinit : s.Fresh) : s.Inv := by
  obtain ⟨-, hempty, hcall, hsequencer, -⟩ := hinit
  refine ⟨⟨?_, ?_, fun _ => hempty⟩, ?_⟩
  · rw [hsequencer]
    exact NodeIDSequencer.sound_fresh
  · intro ip nodeID hlookup
    rw [hempty] at hlookup
    simp at hlookup
  · intro call hsome
    rw [hcall] at hsome
    simp at hsome

/-- A piece of a call keeps the invariant if it does so at both exits. -/
theorem goOn_inv {x : Act (RDMAClient σ) Call}
    (h : wp x (fun call' client' => Inv { s with call := some call', client := client' })
      (fun _ client' => Books { s with client := client' }) s.client) : (s.goOn call x).Inv := by
  refine Call.run_of_wp (P := fun call' client' =>
    Inv { s with call := some call', client := client' }) ?_
  refine wp_mono h (fun _ _ hinv => hinv) ?_
  intro e client' hbooks
  exact Books.inv (hbooks.of_eq rfl rfl rfl rfl (Finset.Subset.refl _)) rfl trivial

/-- A call goes on to its next stage with the tables as they were. -/
theorem Books.goesOn (h : s.Books) {client : RDMAClient σ}
    (hconnections : client.connections = s.client.connections)
    (hnodeIDs : client.nodeIDsConnection = s.client.nodeIDsConnection)
    (hsequencer : client.sequencerIpPort = s.client.sequencerIpPort)
    (hsockets : s.client.sockets ⊆ client.sockets)
    (hstands : Stands { s with call := some call, client := client } call) :
    Inv { s with call := some call, client := client } :=
  Books.inv (h.of_eq rfl hconnections hnodeIDs hsequencer hsockets) rfl hstands

/-- The id that was looked up is entered in the tables of the client. -/
theorem Books.learn (h : s.Books) {ipPort : String} {nodeID : UInt64} {ids : List String}
    (hmapped : s.sequencer.ipPortToNodeIDMapping.lookup ipPort = some nodeID)
    (hopen : s.client.sequencerIpPort ∈ s.client.sockets)
    (hids : BaseRDMA.growSet "" ipPort nodeID.toNat s.client.nodeIDsConnection = some ids) :
    Books { s with client := { s.client with
      nodeIDsConnection := ids
      connections := s.client.connections.insert ipPort nodeID } } ∧
    ids[nodeID.toNat]? = some ipPort := by
  have hlt := (BaseRDMA.lt_of_growSet hids).1
  have hget := BaseRDMA.getD_growSet hids
  have hself : ids[nodeID.toNat]? = some ipPort := by
    have := hget nodeID.toNat
    rw [if_pos rfl, List.getD_eq_getElem _ _ hlt] at this
    rw [List.getElem?_eq_getElem hlt, this]
  refine ⟨⟨h.sequencer, ?_, fun hout => absurd hopen hout⟩, hself⟩
  intro ip nodeID' hlookup
  change Finmap.lookup ip (s.client.connections.insert ipPort nodeID) = _ at hlookup
  rcases eq_or_ne ip ipPort with rfl | hne
  · rw [Finmap.lookup_insert, Option.some.injEq] at hlookup
    rw [← hlookup]
    exact ⟨hmapped, hself⟩
  · rw [Finmap.lookup_insert_of_ne _ hne] at hlookup
    obtain ⟨hmapped', hentry⟩ := h.known ip nodeID' hlookup
    refine ⟨hmapped', ?_⟩
    -- two addresses have two ids
    have hids' : nodeID'.toNat ≠ nodeID.toNat := by
      intro heq
      rw [UInt64.toNat.inj heq] at hmapped'
      exact hne (h.sequencer.ip_eq hmapped' hmapped)
    have hlen : nodeID'.toNat < s.client.nodeIDsConnection.length :=
      (List.getElem?_eq_some_iff.mp hentry).1
    have hlt' := lt_of_lt_of_le hlen (BaseRDMA.lt_of_growSet hids).2
    have := hget nodeID'.toNat
    rw [if_neg hids', List.getD_eq_getElem _ _ hlt', List.getD_eq_getElem _ _ hlen] at this
    change ids[nodeID'.toNat]? = some ip
    rw [List.getElem?_eq_getElem hlt', this, ← List.getElem?_eq_getElem hlen, hentry]

/-! ## One event -/

/-- The sequencer may go on where it keeps the ids that the client has, and
so may the transport. -/
theorem Inv.around (hinv : s.Inv) {q : NodeIDSequencer} {granted : List UInt64} (api : σ)
    (nodeIDsQPs : List Bool) (hq : q.Sound) (hgranted : s.granted ⊆ granted)
    (hmapping : ∀ ip nodeID, (ip ∈ s.client.connections ∨
      ∃ call, s.call = some call ∧ call.stage = .lookedUp ∧ call.ipPort = ip) →
      s.sequencer.ipPortToNodeIDMapping.lookup ip = some nodeID →
      q.ipPortToNodeIDMapping.lookup ip = some nodeID) :
    Inv { s with client := { s.client with api, nodeIDsQPs }, sequencer := q, granted } := by
  have hknown : ∀ {ip nodeID}, s.client.connections.lookup ip = some nodeID →
      s.sequencer.ipPortToNodeIDMapping.lookup ip = some nodeID →
      q.ipPortToNodeIDMapping.lookup ip = some nodeID :=
    fun hlookup => hmapping _ _ (Or.inl (Finmap.mem_iff.mpr ⟨_, hlookup⟩))
  refine ⟨⟨hq, ?_, hinv.opened⟩, ?_⟩
  · intro ip nodeID hlookup
    obtain ⟨hmapped, hentry⟩ := hinv.known ip nodeID hlookup
    exact ⟨hknown hlookup hmapped, hentry⟩
  · intro call hcall
    have hstands := hinv.stands call hcall
    obtain ⟨ipPort, ret, stage⟩ := call
    cases stage with
    | entered => exact ⟨fun hopen => hgranted (hstands.1 hopen), hstands.2⟩
    | requestingNodeID => exact hstands
    | identified => exact ⟨hstands.1, hgranted hstands.2.1, hstands.2.2⟩
    | lookingUp => exact ⟨hstands.1, hgranted hstands.2⟩
    | lookedUp =>
        obtain ⟨hopen, hown, hmapped⟩ := hstands
        exact ⟨hopen, hgranted hown, hmapping _ _ (Or.inr ⟨_, hcall, rfl, rfl⟩) hmapped⟩
    | threw => trivial
    | returned success =>
        cases success with
        | false => trivial
        | true =>
            obtain ⟨hopen, hmapped, hentry, hlookup, hown⟩ := hstands
            exact ⟨hopen, hknown hlookup hmapped, hentry, hlookup, hgranted hown⟩
    | _ =>
        obtain ⟨hopen, hmapped, hentry, hlookup, hown⟩ := hstands
        exact ⟨hopen, hknown hlookup hmapped, hentry, hlookup, hgranted hown⟩

/-- **A registration** keeps the invariant, whoever sent it and whether or
not it goes through. -/
theorem Inv.register (hinv : s.Inv) {req : NodeIDRequest} (hsound : s.Sound (.register req)) :
    wp (NodeIDSequencer.handle (.nodeIDRequest req))
      (fun response q => ∃ connResp, response = .nodeIDResponse connResp ∧
        Inv { s with sequencer := q, granted := connResp.nodeid :: s.granted } ∧
        Inv { s with sequencer := q })
      (fun _ q => Inv { s with sequencer := q }) s.sequencer := by
  refine NodeIDSequencer.wp_handle_nodeIDRequest hinv.sequencer ?_ ?_
  · intro q hreg
    -- only the address of the request may be mapped to another id
    have hmapping : ∀ ip nodeID, (ip ∈ s.client.connections ∨
        ∃ call, s.call = some call ∧ call.stage = .lookedUp ∧ call.ipPort = ip) →
        s.sequencer.ipPortToNodeIDMapping.lookup ip = some nodeID →
        q.ipPortToNodeIDMapping.lookup ip = some nodeID := by
      intro ip nodeID hused hmapped
      rw [hreg.mapping]
      split_ifs with hserver
      · have hne : ip ≠ req.ip := by
          rintro rfl
          obtain ⟨hout, hcall⟩ := hsound hserver (Finmap.mem_iff.mpr ⟨nodeID, hmapped⟩)
          rcases hused with hin | ⟨call, hrunning, hstage, hip⟩
          · exact hout hin
          · exact hcall call hrunning hstage hip
        rw [Finmap.lookup_insert_of_ne _ hne, hmapped]
      · exact hmapped
    exact ⟨_, rfl, hinv.around _ _ hreg.sound (List.subset_cons_self _ _) hmapping,
      hinv.around _ _ hreg.sound (List.Subset.refl _) hmapping⟩
  · intro e q hq heq
    refine hinv.around _ _ hq (List.Subset.refl _) ?_
    intro ip nodeID _ hmapped
    rw [heq, hmapped]

/-- An answer that fits the request of a call, if there is one. -/
def Fits (s : Site σ) (call : Call) (reply : Except Exn Response) : Prop :=
  match call.stage with
  | .requestingNodeID =>
      ∀ connResp, reply = .ok (.nodeIDResponse connResp) → connResp.nodeid ∈ s.granted
  | .lookingUp _ =>
      (∀ response, reply = .ok response → ∃ connResp, response = .getNodeIDForIpPortResponse connResp ∧
        (connResp.return_ = MessageErrors.noError.code →
          s.sequencer.ipPortToNodeIDMapping.lookup call.ipPort = some connResp.nodeId))
  | _ => True

theorem fits_error {e : Exn} : s.Fits call (.error e) := by
  unfold Fits
  split <;> simp

/-- Any answer of a node that is not the sequencer fits. -/
theorem fits_of_peer {connection : String} {request : Request} {reply : Except Exn Response}
    (hrequest : call.request s.client = some (connection, request))
    (hpeer : connection ≠ s.client.sequencerIpPort) : s.Fits call reply := by
  unfold Call.request at hrequest
  unfold Fits
  split at hrequest <;> simp_all

theorem ask_of_wp {request : Request} {P : Except Exn Response → Site σ → Prop}
    (h : wp (NodeIDSequencer.handle request)
      (fun response q =>
        P (.ok response) { s with sequencer := q, granted := response.grant ++ s.granted })
      (fun _ q => P (.error (.runtimeError "Cannot receive message")) { s with sequencer := q })
      s.sequencer) : P (s.ask request).1 (s.ask request).2 := by
  unfold wp at h
  unfold Site.ask
  rcases hx : NodeIDSequencer.handle request s.sequencer with ⟨e | response, q⟩ <;>
    rw [hx] at h <;> exact h

/-- **The sequencer's answer** to the request of a call fits it. -/
theorem Inv.ask (hinv : s.Inv) (hcall : s.call = some call) {request : Request}
    (hrequest : call.request s.client = some (s.client.sequencerIpPort, request)) :
    (s.ask request).2.Inv ∧ (s.ask request).2.call = s.call ∧
      (s.ask request).2.Fits call (s.ask request).1 := by
  have hstands := hinv.stands call hcall
  refine ask_of_wp (P := fun reply s' => s'.Inv ∧ s'.call = s.call ∧ s'.Fits call reply) ?_
  obtain ⟨ipPort, ret, stage⟩ := call
  cases stage with
  | requestingNodeID =>
      obtain ⟨-, rfl⟩ := Prod.mk.inj (Option.some.inj hrequest)
      have hsound : s.Sound (.register ⟨s.client.ownIpPort, s.client.name, s.client.nodeType.code⟩) := by
        intro _ _
        rw [hstands.2.1]
        refine ⟨Finmap.notMem_empty, ?_⟩
        intro call' hcall' hstage
        rw [hcall] at hcall'
        obtain rfl := Option.some.inj hcall'
        simp at hstage
      refine wp_mono (hinv.register hsound) ?_ ?_
      · rintro response q ⟨connResp, rfl, hgranted, -⟩
        refine ⟨hgranted, rfl, ?_⟩
        intro connResp' hreply
        obtain rfl := Response.nodeIDResponse.inj (Except.ok.inj hreply)
        exact List.mem_cons_self
      · intro e q hkept
        refine ⟨hkept, rfl, ?_⟩
        intro connResp hreply
        simp at hreply
  | lookingUp =>
      obtain ⟨-, rfl⟩ := Prod.mk.inj (Option.some.inj hrequest)
      refine NodeIDSequencer.wp_handle_getNodeIDForIpPortRequest hinv.sequencer ?_ ?_
      · intro resp hmapped _ _
        refine ⟨hinv, rfl, ?_⟩
        intro response hreply
        obtain rfl := Except.ok.inj hreply
        exact ⟨resp, rfl, fun _ => hmapped⟩
      · intro resp _ hmissing
        refine ⟨hinv, rfl, ?_⟩
        intro response hreply
        obtain rfl := Except.ok.inj hreply
        exact ⟨resp, rfl, fun hzero => absurd hzero hmissing⟩
  | requesting =>
      obtain ⟨hself, rfl⟩ := Prod.mk.inj (Option.some.inj hrequest)
      -- it answers nothing to a request to connect
      exact ⟨hinv, rfl, trivial⟩
  | _ => simp [Call.request] at hrequest

variable [RdmaApi σ] {retries : ℕ}

/-- **A stage of a call** keeps the invariant. -/
theorem Inv.advance (hinv : s.Inv) (hcall : s.call = some call) (fault : Option Exn) :
    (s.goOn call (call.advance fault)).Inv := by
  have hstands := hinv.stands call hcall
  have hsame := Finset.Subset.refl s.client.sockets
  obtain ⟨ipPort, ret, stage⟩ := call
  refine goOn_inv ?_
  cases stage with
  | entered =>
      obtain ⟨hown, hclear⟩ := hstands
      unfold Call.advance
      simp only [wp_bind, wp_get, wp_ite, wp_pure]
      refine ⟨fun hopen => ?_, fun hclosed => ?_⟩
      · exact hinv.goesOn rfl rfl rfl hsame ⟨hopen, hown hopen, hclear⟩
      · have hempty := hinv.opened hclosed
        refine wp_rethrow (RDMAClient.wp_connectProto (fun hin => absurd hin hclosed) ?_ ?_)
        · intro _ _
          refine hinv.goesOn rfl rfl rfl (Finset.subset_insert _ _) ?_
          refine ⟨Finset.mem_insert_self _ _, hempty, ?_⟩
          intro hsocket
          refine hclear ?_
          rcases hsocket with heq | hin
          · exact Or.inl heq
          · rcases Finset.mem_insert.mp hin with heq | hin
            · exact Or.inl heq
            · exact Or.inr hin
        · intro _ _ _
          exact hinv.toBooks.of_eq rfl rfl rfl rfl hsame
  | identified =>
      obtain ⟨hopen, hown, hclear⟩ := hstands
      unfold Call.advance
      simp only [wp_bind, wp_get, wp_ite, wp_pure, wp_modify]
      refine ⟨fun hin => ?_, fun hout => ?_⟩
      · -- the id is in the cache
        obtain ⟨nodeID, hlookup⟩ := Finmap.mem_iff.mp (hclear (Or.inr hin))
        rw [subscript_of_some hlookup]
        obtain ⟨hmapped, hentry⟩ := hinv.known ipPort nodeID hlookup
        exact hinv.goesOn rfl rfl rfl hsame ⟨hopen, hmapped, hentry, hlookup, hown⟩
      · refine RDMAClient.wp_connectProto (fun hin => absurd hin hout) ?_ ?_
        · intro _ _
          refine hinv.goesOn rfl rfl rfl (Finset.subset_insert _ _) ?_
          exact ⟨Finset.mem_insert_of_mem hopen, hown⟩
        · intro _ _
          exact hinv.toBooks.of_eq rfl rfl rfl rfl hsame
  | lookedUp =>
      obtain ⟨hopen, hown, hmapped⟩ := hstands
      unfold Call.advance
      simp only [wp_bind, wp_get]
      split
      · exact hinv.toBooks.of_eq rfl rfl rfl rfl hsame
      · rename_i ids hids
        obtain ⟨hlearnt, hself⟩ := hinv.learn hmapped hopen hids
        refine Books.inv (hlearnt.of_eq rfl rfl rfl rfl hsame) rfl ?_
        exact ⟨hopen, hmapped, hself, Finmap.lookup_insert _, hown⟩
  | marking =>
      obtain ⟨hopen, hmapped, hentry, hlookup, hown⟩ := hstands
      unfold Call.advance
      simp only [wp_bind, wp_ite, wp_pure]
      refine RDMAClient.wp_markNodeID ?_ fun _ _ _ => hinv.toBooks.of_eq rfl rfl rfl rfl hsame
      intro flags _
      refine ⟨fun _ => ?_, fun _ => ?_⟩
      · exact hinv.goesOn rfl rfl rfl hsame ⟨hopen, hmapped, hentry, hlookup, hown⟩
      · exact hinv.goesOn rfl rfl rfl hsame ⟨hopen, hmapped, hentry, hlookup, hown⟩
  | initializing =>
      obtain ⟨hopen, hmapped, hentry, hlookup, hown⟩ := hstands
      unfold Call.advance
      simp only [wp_bind, wp_get, wp_pure]
      refine RDMAClient.wp_onApi_frame ?_ fun _ _ => hinv.toBooks.of_eq rfl rfl rfl rfl hsame
      intro _ api
      exact hinv.goesOn rfl rfl rfl hsame ⟨hopen, hmapped, hentry, hlookup, hown⟩
  | settingQP | settingLocalConnData | settingRemoteConnData | connecting | destroyingCQ =>
      obtain ⟨hopen, hmapped, hentry, hlookup, hown⟩ := hstands
      unfold Call.advance
      simp only [wp_bind, wp_pure]
      refine RDMAClient.wp_onApi_frame ?_ fun _ _ => hinv.toBooks.of_eq rfl rfl rfl rfl hsame
      intro _ api
      exact hinv.goesOn rfl rfl rfl hsame ⟨hopen, hmapped, hentry, hlookup, hown⟩
  | destroyingQP =>
      obtain ⟨hopen, hmapped, hentry, hlookup, hown⟩ := hstands
      unfold Call.advance
      simp only [wp_bind, wp_ite, wp_pure, wp_throw]
      refine RDMAClient.wp_onApi_frame ?_ fun _ _ => hinv.toBooks.of_eq rfl rfl rfl rfl hsame
      intro _ api
      refine ⟨fun _ => hinv.toBooks.of_eq rfl rfl rfl rfl hsame, fun _ => ?_⟩
      exact hinv.goesOn rfl rfl rfl hsame ⟨hopen, hmapped, hentry, hlookup, hown⟩
  | requestingNodeID | lookingUp | requesting | returned | threw =>
      show Inv { s with call := some _ }
      rw [← hcall]
      exact hinv

/-- **An answer** keeps the invariant. -/
theorem Inv.receive (hinv : s.Inv) (hcall : s.call = some call) {reply : Except Exn Response}
    (hfits : s.Fits call reply) : (s.goOn call (call.receive retries reply)).Inv := by
  have hstands := hinv.stands call hcall
  have hsame := Finset.Subset.refl s.client.sockets
  obtain ⟨ipPort, ret, stage⟩ := call
  refine goOn_inv ?_
  cases stage with
  | requestingNodeID =>
      obtain ⟨hopen, -, hclear⟩ := hstands
      unfold Call.receive
      simp only [wp_bind]
      refine wp_rethrow (RDMAClient.wp_exchangeProtoMsg ?_ fun _ _ => hinv.toBooks.of_eq rfl rfl rfl rfl hsame)
      intro response hreply _
      split
      · simp only [wp_bind, wp_modify, wp_pure]
        exact hinv.goesOn rfl rfl rfl hsame ⟨hopen, hfits _ hreply, hclear⟩
      · exact hinv.toBooks.of_eq rfl rfl rfl rfl hsame
  | lookingUp retry =>
      obtain ⟨hopen, hown⟩ := hstands
      -- the loop goes on, or gives up, or has the id
      have hloop : ∀ i connResp, (connResp.return_ = MessageErrors.noError.code →
          s.sequencer.ipPortToNodeIDMapping.lookup ipPort = some connResp.nodeId) →
          wp (Act.ofExcept (Call.lookUp retries i connResp ⟨ipPort, ret, .lookingUp retry⟩))
            (fun call' client' => Inv { s with call := some call', client := client' })
            (fun _ client' => Books { s with client := client' }) s.client := by
        intro i connResp hmapped
        unfold Call.lookUp Act.ofExcept
        split_ifs with hagain hfail hip
        · exact hinv.goesOn rfl rfl rfl hsame ⟨hopen, hown⟩
        · exact hinv.goesOn rfl rfl rfl hsame trivial
        · exact hinv.toBooks.of_eq rfl rfl rfl rfl hsame
        · exact hinv.goesOn rfl rfl rfl hsame ⟨hopen, hown, hmapped (not_not.mp hfail)⟩
      unfold Call.receive
      simp only [wp_bind]
      refine RDMAClient.wp_exchangeProtoMsg ?_ fun _ => hinv.toBooks.of_eq rfl rfl rfl rfl hsame
      intro response hreply _
      obtain ⟨connResp, rfl, hmapped⟩ := hfits response hreply
      cases retry with
      | none => exact hloop 0 connResp hmapped
      | some retry => exact hloop (retry.1 + 1) connResp hmapped
  | requesting =>
      obtain ⟨hopen, hmapped, hentry, hlookup, hown⟩ := hstands
      unfold Call.receive
      simp only [wp_bind]
      refine RDMAClient.wp_exchangeProtoMsg ?_ fun _ => hinv.toBooks.of_eq rfl rfl rfl rfl hsame
      intro response _ _
      split
      · exact hinv.goesOn rfl rfl rfl hsame ⟨hopen, hmapped, hentry, hlookup, hown⟩
      · exact hinv.goesOn rfl rfl rfl hsame ⟨hopen, hmapped, hentry, hlookup, hown⟩
  | _ =>
      show Inv { s with call := some _ }
      rw [← hcall]
      exact hinv

/-- **A sound event keeps the invariant.** -/
theorem Inv.exec (hinv : s.Inv) {event : SiteEvent σ} (hsound : s.Sound event) :
    (s.exec retries event).Inv := by
  cases event with
  | connect ipPort ret =>
      have hbooks : Books { s with call := some (Call.enter ipPort ret) } :=
        hinv.toBooks.of_eq rfl rfl rfl rfl (Finset.Subset.refl _)
      exact hbooks.inv rfl hsound
  | advance fault =>
      simp only [Site.exec]
      split
      · exact hinv.advance ‹_› fault
      · exact hinv
  | drop e =>
      simp only [Site.exec]
      split
      · rename_i call hcall
        exact hinv.receive hcall fits_error
      · exact hinv
  | exchange answer lost =>
      simp only [Site.exec]
      split
      · rename_i call hcall
        split
        · rename_i connection request hrequest
          have hanswered : ∀ (s' : Site σ) reply, s'.Inv → s'.call = some call →
              s'.Fits call reply →
                (s'.goOn call (call.receive retries (lost.elim reply .error))).Inv := by
            intro s' reply hinv' hcall' hfits
            refine hinv'.receive hcall' ?_
            cases lost with
            | none => exact hfits
            | some e => exact fits_error
          split
          · rename_i hself
            rw [hself] at hrequest
            obtain ⟨hinv', hcall', hfits⟩ := hinv.ask hcall hrequest
            exact hanswered _ _ hinv' (hcall'.trans hcall) hfits
          · rename_i hpeer
            exact hanswered _ _ hinv hcall (fits_of_peer hrequest hpeer)
        · exact hinv
      · exact hinv
  | register req =>
      exact wp_snd.mp (wp_mono (hinv.register hsound)
        (fun _ _ ⟨_, _, _, hkept⟩ => hkept) fun _ _ hkept => hkept)
  | use api flags =>
      exact hinv.around api flags hinv.sequencer (List.Subset.refl _) fun _ _ _ hmapped => hmapped

/-! ## Every history -/

theorem invariant_soundRuns : (soundRuns retries).Invariant (Inv (σ := σ)) where
  init _ := Fresh.inv
  step s event s' _ hinv hstep := by
    obtain ⟨hsound, -, rfl⟩ := hstep
    exact hinv.exec hsound

/-- **The ids are right after a call that returned `true`**, whatever became
of the calls before it. -/
theorem connect_right (hreach : (soundRuns retries).Reachable s) (hcall : s.call = some call)
    (hreturned : call.stage = .returned true) : s.Right call := by
  have hstands := (invariant_soundRuns.reachable hreach).stands call hcall
  unfold Stands at hstands
  rw [hreturned] at hstands
  exact hstands.2

/-! ## Two histories -/

/-- A newly constructed client, on a device that never fails. -/
def steadySite : Site ReliableRDMA where
  client := {
    api := ReliableRDMA.fresh
      (ReliableRDMA.blank (Device.opened (fun _ => 0) fun h => h.toUInt32) 4096 7 1 IbConn.zero)
    ownNodeID := 77
    nodeIDsConnection := []
    nodeIDsQPs := []
    connections := ∅
    name := "RDMAClient"
    ownIpPort := "10.0.0.1"
    nodeType := .client
    sequencerIpPort := "10.0.0.9:5600"
    sockets := ∅ }
  call := none
  sequencer := NodeIDSequencer.fresh
  granted := []

/-- A server registers. -/
def serverStarts : SiteEvent ReliableRDMA :=
  .register ⟨"10.0.0.2:5200", "RDMAServer", NodeType.server.code⟩

/-- The client connects to it. -/
def connectToServer : List (SiteEvent ReliableRDMA) :=
  [.connect "10.0.0.2:5200" 55, .advance none, .exchange .empty none, .advance none,
    .exchange .empty none, .advance none, .advance none, .advance none,
    .exchange (.rdmaConnResponse ⟨8192, 3, 5, 9, 0, Vector.replicate 16 0⟩) none,
    .advance none, .advance none, .advance none, .advance none]

/-- The site after events. -/
def after (events : List (SiteEvent ReliableRDMA)) : Site ReliableRDMA :=
  events.foldl (exec 5) steadySite

theorem steadySite_fresh : steadySite.Fresh := ⟨rfl, rfl, rfl, rfl, rfl⟩

/-- The first call to a server that has registered. -/
theorem connect_right_first :
    (after (serverStarts :: connectToServer)).Right ⟨"10.0.0.2:5200", 0, .returned true⟩ := by
  have hreach : (soundRuns 5).Reachable (after (serverStarts :: connectToServer)) := by
    refine System.Reachable.along (System.Reachable.init steadySite_fresh) ?_
    refine ⟨⟨?_, trivial, rfl⟩, ⟨⟨?_, ?_⟩, ?_, rfl⟩, ⟨trivial, trivial, rfl⟩, ⟨trivial, trivial, rfl⟩,
      ⟨trivial, trivial, rfl⟩, ⟨trivial, trivial, rfl⟩, ⟨trivial, trivial, rfl⟩,
      ⟨trivial, trivial, rfl⟩, ⟨trivial, trivial, rfl⟩, ⟨trivial, trivial, rfl⟩,
      ⟨trivial, trivial, rfl⟩, ⟨trivial, trivial, rfl⟩, ⟨trivial, trivial, rfl⟩,
      ⟨trivial, trivial, rfl⟩, trivial⟩
    · intro _ hin
      exact absurd hin Finmap.notMem_empty
    · decide +kernel
    · decide +kernel
    · intro call hcall
      exact absurd hcall (by simp [steadySite, serverStarts, exec])
  exact connect_right hreach (by decide +kernel) rfl

/-- The client connects to a server that has not registered yet, and gives
up after five retries. -/
def connectTooEarly : List (SiteEvent ReliableRDMA) :=
  [.connect "10.0.0.2:5200" 55, .advance none, .exchange .empty none, .advance none,
    .exchange .empty none, .exchange .empty none, .exchange .empty none, .exchange .empty none,
    .exchange .empty none, .exchange .empty none]

/-- The server registers, and the client connects again. -/
def connectAgain : List (SiteEvent ReliableRDMA) :=
  [serverStarts, .connect "10.0.0.2:5200" 55, .advance none, .advance none]

/-- **The second call returns `true` and its own id**: the first one left a
socket to the server behind, and the map entry it stands for is made by
the look at it. -/
theorem connect_not_right :
    (runs 5).Reachable (after (connectTooEarly ++ connectAgain)) ∧
      (after (connectTooEarly ++ connectAgain)).call =
        some ⟨"10.0.0.2:5200", 0, .returned true⟩ ∧
      ¬ (after (connectTooEarly ++ connectAgain)).Right ⟨"10.0.0.2:5200", 0, .returned true⟩ := by
  have hearly : (runs 5).Reachable (after connectTooEarly) := by
    refine System.Reachable.along (System.Reachable.init steadySite_fresh) ?_
    refine ⟨⟨?_, rfl⟩, ⟨trivial, rfl⟩, ⟨trivial, rfl⟩, ⟨trivial, rfl⟩, ⟨trivial, rfl⟩,
      ⟨trivial, rfl⟩, ⟨trivial, rfl⟩, ⟨trivial, rfl⟩, ⟨trivial, rfl⟩, ⟨trivial, rfl⟩, trivial⟩
    intro call hcall
    exact absurd hcall (by simp [steadySite])
  have hfailed : ((after connectTooEarly).exec 5 serverStarts).call =
      some ⟨"10.0.0.2:5200", 55, .returned false⟩ := by decide +kernel
  refine ⟨?_, by decide +kernel, fun hright => ?_⟩
  · have happend : after (connectTooEarly ++ connectAgain) =
        connectAgain.foldl (exec 5) (after connectTooEarly) := List.foldl_append
    rw [happend]
    refine System.Reachable.along hearly ⟨⟨trivial, rfl⟩, ⟨?_, rfl⟩, ⟨trivial, rfl⟩,
      ⟨trivial, rfl⟩, trivial⟩
    intro call hcall
    rw [hfailed] at hcall
    rw [← Option.some.inj hcall]
    rfl
  · exact absurd hright.mapped (by decide +kernel)

end Site

end RdmaManager
