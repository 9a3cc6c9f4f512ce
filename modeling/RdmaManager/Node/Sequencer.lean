import RdmaManager.Proto.Messages
/-!
# `NodeIDSequencer`

The sequencer numbers the nodes in the order of their requests, keeps an
entry for each of them, and maps the address of a server to its number.
Nothing is ever taken back: a server that registers again under its
address gets a new number, which replaces the old one in the map.
-/

namespace RdmaManager

/-- `NodeEntry_t`. -/
structure NodeEntry where
  ip : String
  name : String
  nodeID : UInt64
  nodeType : UInt32
  deriving DecidableEq, Repr

/-- The fields of `NodeIDSequencer`. -/
structure NodeIDSequencer where
  entries : List NodeEntry
  ipPortToNodeIDMapping : Finmap fun _ : String => UInt64
  nextNodeID : UInt64

namespace NodeIDSequencer

/-- A newly constructed sequencer. -/
def fresh : NodeIDSequencer := ⟨[], ∅, 0⟩

/-- `m_entries.max_size()`: an entry has eighty bytes. -/
def maxEntries : ℕ := (2 ^ 63 - 1) / 80

/-- `NodeIDSequencer::getNextNodeID`. -/
def getNextNodeID : Act NodeIDSequencer UInt64 := do
  let q ← Act.get
  Act.modify fun q => { q with nextNodeID := q.nextNodeID + 1 }
  return q.nextNodeID

/-- `NodeIDSequencer::handle`. -/
def handle : Request → Act NodeIDSequencer Response
  | .nodeIDRequest connReq => do
      let newNodeID ← getNextNodeID
      let q ← Act.get
      if maxEntries ≤ q.entries.length then throw (.lengthError "m_entries")
      Act.modify fun q => { q with
        entries := q.entries ++ [⟨connReq.ip, connReq.name, newNodeID, connReq.nodeTypeEnum⟩] }
      if connReq.nodeTypeEnum = NodeType.server.code then
        Act.modify fun q => { q with
          ipPortToNodeIDMapping := q.ipPortToNodeIDMapping.insert connReq.ip newNodeID }
      return .nodeIDResponse ⟨newNodeID, MessageErrors.noError.code⟩
  | .getNodeIDForIpPortRequest ipPort => do
      let q ← Act.get
      match q.ipPortToNodeIDMapping.lookup ipPort with
      | some nodeId =>
          let entry ← Act.element "m_entries past its end" q.entries nodeId.toNat
          return .getNodeIDForIpPortResponse
            ⟨entry.ip, entry.name, entry.nodeID, entry.nodeType, MessageErrors.noError.code⟩
      | none =>
          return .getNodeIDForIpPortResponse ⟨"", "", 0, 0, MessageErrors.nodeIdNotFound.code⟩
  | .getAllNodeIDsRequest _ => do
      let q ← Act.get
      return .getAllNodeIDsResponse
        ⟨q.entries.map fun entry => ⟨entry.ip, entry.name, entry.nodeID, entry.nodeType⟩,
          MessageErrors.noError.code⟩
  | _ => return .empty

/-- **The books of the sequencer**: the entry of a number stands at its
index, and an address is mapped to an entry of its own. -/
structure Sound (q : NodeIDSequencer) : Prop where
  length : q.entries.length ≤ maxEntries
  next : q.entries.length < maxEntries → q.nextNodeID.toNat = q.entries.length
  nodeID : ∀ (i : ℕ) (entry : NodeEntry), q.entries[i]? = some entry → entry.nodeID.toNat = i
  mapped : ∀ ip nodeID, q.ipPortToNodeIDMapping.lookup ip = some nodeID →
    ∃ entry, q.entries[nodeID.toNat]? = some entry ∧ entry.ip = ip

open Act

variable {q : NodeIDSequencer}

theorem sound_fresh : fresh.Sound := by
  refine ⟨Nat.zero_le _, fun _ => rfl, ?_, ?_⟩
  · intro i entry hentry
    simp [fresh] at hentry
  · intro ip nodeID hmapped
    simp [fresh] at hmapped

/-- Two addresses have two numbers. -/
theorem Sound.ip_eq (hq : q.Sound) {ip ip' : String} {nodeID : UInt64}
    (h : q.ipPortToNodeIDMapping.lookup ip = some nodeID)
    (h' : q.ipPortToNodeIDMapping.lookup ip' = some nodeID) : ip = ip' := by
  obtain ⟨entry, hentry, hip⟩ := hq.mapped ip nodeID h
  obtain ⟨entry', hentry', hip'⟩ := hq.mapped ip' nodeID h'
  rw [hentry] at hentry'
  obtain rfl := Option.some.inj hentry'
  rw [← hip, hip']

/-- What a registration under the number `newNodeID` leaves. -/
structure Registered (q : NodeIDSequencer) (req : NodeIDRequest) (q' : NodeIDSequencer) : Prop where
  sound : q'.Sound
  mapping : q'.ipPortToNodeIDMapping =
    if req.nodeTypeEnum = NodeType.server.code then
      q.ipPortToNodeIDMapping.insert req.ip q.nextNodeID
    else q.ipPortToNodeIDMapping

/-- **A registration** keeps the books, and maps no address but that of a
server that registers. -/
theorem wp_handle_nodeIDRequest (hq : q.Sound) {req : NodeIDRequest}
    {Q : Response → NodeIDSequencer → Prop} {E : Exn → NodeIDSequencer → Prop}
    (hQ : ∀ q', q.Registered req q' →
      Q (.nodeIDResponse ⟨q.nextNodeID, MessageErrors.noError.code⟩) q')
    (hE : ∀ e q', q'.Sound → q'.ipPortToNodeIDMapping = q.ipPortToNodeIDMapping → E e q') :
    wp (handle (.nodeIDRequest req)) Q E q := by
  unfold handle getNextNodeID
  simp only [wp_bind, wp_get, wp_modify, wp_pure, wp_ite, wp_throw]
  refine ⟨fun hfull => ?_, fun hroom => ?_⟩
  · refine hE _ _ ⟨hq.length, ?_, hq.nodeID, hq.mapped⟩ rfl
    intro hlt
    exact absurd hfull (Nat.not_le.mpr hlt)
  · have hlt : q.entries.length < maxEntries := Nat.not_le.mp hroom
    have hnext := hq.next hlt
    have hmax : maxEntries < 2 ^ 63 := by decide
    have hsucc : (q.nextNodeID + 1).toNat = q.entries.length + 1 := by
      rw [UInt64.toNat_add, hnext]
      exact Nat.mod_eq_of_lt (by simp; omega)
    -- an entry that was there, or the new one at the end
    have hentries : ∀ (i : ℕ) (entry : NodeEntry), (q.entries ++
        [⟨req.ip, req.name, q.nextNodeID, req.nodeTypeEnum⟩])[i]? = some entry →
          entry.nodeID.toNat = i := by
      intro i entry hentry
      rcases lt_or_ge i q.entries.length with hi | hi
      · rw [List.getElem?_append_left hi] at hentry
        exact hq.nodeID i entry hentry
      · rw [List.getElem?_append_right hi, List.getElem?_singleton] at hentry
        split_ifs at hentry with hzero
        obtain rfl := Option.some.inj hentry
        change q.nextNodeID.toNat = i
        omega
    have hold : ∀ ip nodeID, q.ipPortToNodeIDMapping.lookup ip = some nodeID →
        ∃ entry, (q.entries ++ [⟨req.ip, req.name, q.nextNodeID, req.nodeTypeEnum⟩])[
          nodeID.toNat]? = some entry ∧ entry.ip = ip := by
      intro ip nodeID hmapped
      obtain ⟨entry, hentry, hip⟩ := hq.mapped ip nodeID hmapped
      have hin : nodeID.toNat < q.entries.length := (List.getElem?_eq_some_iff.mp hentry).1
      exact ⟨entry, by rwa [List.getElem?_append_left hin], hip⟩
    have hlength : (q.entries ++ [(⟨req.ip, req.name, q.nextNodeID, req.nodeTypeEnum⟩ :
        NodeEntry)]).length = q.entries.length + 1 := List.length_append
    refine ⟨fun hserver => hQ _ ⟨⟨?_, ?_, hentries, ?_⟩, ?_⟩,
      fun hclient => hQ _ ⟨⟨?_, ?_, hentries, hold⟩, ?_⟩⟩
    · rw [hlength]
      exact hlt
    · intro _
      rw [hlength]
      exact hsucc
    · intro ip nodeID hmapped
      rcases eq_or_ne ip req.ip with rfl | hne
      · rw [Finmap.lookup_insert, Option.some.injEq] at hmapped
        rw [← hmapped, hnext, List.getElem?_concat_length]
        exact ⟨_, rfl, rfl⟩
      · rw [Finmap.lookup_insert_of_ne _ hne] at hmapped
        exact hold ip nodeID hmapped
    · rw [if_pos hserver]
    · rw [hlength]
      exact hlt
    · intro _
      rw [hlength]
      exact hsucc
    · rw [if_neg hclient]

theorem Sound.handle (hq : q.Sound) (req : NodeIDRequest) :
    (NodeIDSequencer.handle (.nodeIDRequest req) q).2.Sound :=
  wp_snd.mp (wp_handle_nodeIDRequest hq (fun _ hregistered => hregistered.sound)
    fun _ _ hsound _ => hsound)

/-- **A look-up** changes nothing and answers with the number the address is
mapped to. -/
theorem wp_handle_getNodeIDForIpPortRequest (hq : q.Sound) {ipPort : String}
    {Q : Response → NodeIDSequencer → Prop} {E : Exn → NodeIDSequencer → Prop}
    (hfound : ∀ resp, q.ipPortToNodeIDMapping.lookup ipPort = some resp.nodeId →
      resp.ip = ipPort → resp.return_ = MessageErrors.noError.code →
      Q (.getNodeIDForIpPortResponse resp) q)
    (hmissing : ∀ resp, q.ipPortToNodeIDMapping.lookup ipPort = none →
      resp.return_ ≠ MessageErrors.noError.code → Q (.getNodeIDForIpPortResponse resp) q) :
    wp (handle (.getNodeIDForIpPortRequest ipPort)) Q E q := by
  unfold handle
  simp only [wp_bind, wp_get]
  cases hmapped : q.ipPortToNodeIDMapping.lookup ipPort with
  | none =>
      simp only [wp_pure]
      exact hmissing _ hmapped (by decide)
  | some nodeId =>
      obtain ⟨entry, hentry, hip⟩ := hq.mapped ipPort nodeId hmapped
      have hid := hq.nodeID _ _ hentry
      simp only [wp_bind, wp_pure]
      rw [wp_element ⟨"", "", 0, 0⟩, List.getD_eq_getElem?_getD, hentry]
      refine ⟨fun _ => hfound _ ?_ hip rfl, fun hge => ?_⟩
      · change _ = some entry.nodeID
        rw [hmapped, UInt64.toNat.inj hid]
      · exact absurd (List.getElem?_eq_some_iff.mp hentry).1 (Nat.not_lt.mpr hge)

end NodeIDSequencer

end RdmaManager
