import RdmaManager.Node.Sequencer
/-!
# What the sequencer answers

`expected` is what a request is to be answered with, read off the
registrations before it. The sequencer finds its answer through a vector,
a map and a counter, and as long as the vector takes another entry the
two agree (`answer_expected`). A registration that the vector does not
take still uses up a number (`full_not_answered`).
-/

namespace RdmaManager

namespace NodeIDSequencer

open Act

variable {past : List NodeIDRequest} {q : NodeIDSequencer} {requests : List Request} {ip : String}

/-! ## What is expected -/

/-- The registrations among requests. -/
def registrations (requests : List Request) : List NodeIDRequest :=
  requests.filterMap fun
    | .nodeIDRequest connReq => some connReq
    | _ => none

/-- **The last registration of an address as a server**, with its number. -/
def lastServer (past : List NodeIDRequest) (ip : String) : Option (NodeIDRequest × ℕ) :=
  (past.zipIdx.filter fun entry =>
    entry.1.ip = ip ∧ entry.1.nodeTypeEnum = NodeType.server.code).getLast?

/-- **The answer to a request** after registrations. -/
def expected (past : List NodeIDRequest) : Request → Response
  | .nodeIDRequest _ => .nodeIDResponse ⟨UInt64.ofNat past.length, MessageErrors.noError.code⟩
  | .getNodeIDForIpPortRequest ipPort =>
      match lastServer past ipPort with
      | some (connReq, i) => .getNodeIDForIpPortResponse
          ⟨ipPort, connReq.name, UInt64.ofNat i, connReq.nodeTypeEnum, MessageErrors.noError.code⟩
      | none => .getNodeIDForIpPortResponse ⟨"", "", 0, 0, MessageErrors.nodeIdNotFound.code⟩
  | .getAllNodeIDsRequest _ => .getAllNodeIDsResponse
      ⟨past.zipIdx.map fun entry =>
        ⟨entry.1.ip, entry.1.name, UInt64.ofNat entry.2, entry.1.nodeTypeEnum⟩,
        MessageErrors.noError.code⟩
  | _ => .empty

/-- The sequencer after requests. -/
def after (requests : List Request) : NodeIDSequencer :=
  requests.foldl (fun q request => (handle request q).2) fresh

/-- An address has no number exactly when it was never registered as a
server. -/
theorem lastServer_eq_none : lastServer past ip = none ↔
    ∀ connReq ∈ past, ¬ (connReq.ip = ip ∧ connReq.nodeTypeEnum = NodeType.server.code) := by
  unfold lastServer
  rw [List.getLast?_eq_none_iff, List.filter_eq_nil_iff]
  constructor
  · intro h connReq hmem
    obtain ⟨i, hi, rfl⟩ := List.getElem_of_mem hmem
    have hin : (past[i], i) ∈ past.zipIdx :=
      List.mk_mem_zipIdx_iff_getElem?.mpr (List.getElem?_eq_getElem hi)
    simpa using h _ hin
  · intro h entry hmem
    have hin := List.mem_of_getElem? (List.mem_zipIdx_iff_getElem?.mp hmem)
    simpa using h _ hin

/-- The number of an address is that of one of its registrations. -/
theorem lastServer_eq_some {connReq : NodeIDRequest} {i : ℕ}
    (h : lastServer past ip = some (connReq, i)) : past[i]? = some connReq ∧ connReq.ip = ip := by
  have hmem := List.mem_of_getLast? h
  rw [List.mem_filter] at hmem
  have hip : connReq.ip = ip ∧ connReq.nodeTypeEnum = NodeType.server.code := by
    simpa using hmem.2
  exact ⟨List.mk_mem_zipIdx_iff_getElem?.mp hmem.1, hip.1⟩

theorem lastServer_append (connReq : NodeIDRequest) : lastServer (past ++ [connReq]) ip =
    if connReq.ip = ip ∧ connReq.nodeTypeEnum = NodeType.server.code then some (connReq, past.length)
    else lastServer past ip := by
  unfold lastServer
  rw [List.zipIdx_append, List.filter_append]
  by_cases h : connReq.ip = ip ∧ connReq.nodeTypeEnum = NodeType.server.code
  · rw [if_pos h]
    simp [h]
  · rw [if_neg h]
    simp [h]

/-! ## The books -/

/-- **The books of the sequencer**: an entry for each registration, the
number of the next one, and for each address its last one as a server. -/
structure Books (past : List NodeIDRequest) (q : NodeIDSequencer) : Prop where
  entries : q.entries = past.zipIdx.map fun entry =>
    ⟨entry.1.ip, entry.1.name, UInt64.ofNat entry.2, entry.1.nodeTypeEnum⟩
  next : q.nextNodeID = UInt64.ofNat past.length
  mapped : ∀ ip, q.ipPortToNodeIDMapping.lookup ip =
    (lastServer past ip).map fun entry => UInt64.ofNat entry.2

theorem Books.length (hbooks : Books past q) : q.entries.length = past.length := by
  rw [hbooks.entries, List.length_map, List.length_zipIdx]

theorem Books.getElem? (hbooks : Books past q) (i : ℕ) : q.entries[i]? =
    past[i]?.map fun connReq => ⟨connReq.ip, connReq.name, UInt64.ofNat i, connReq.nodeTypeEnum⟩ := by
  rw [hbooks.entries, List.getElem?_map, List.getElem?_zipIdx, Nat.zero_add, Option.map_map]
  rfl

theorem books_fresh : Books [] fresh := ⟨rfl, rfl, fun _ => rfl⟩

/-- A number is not cut off. -/
theorem toNat_ofNat {i : ℕ} (h : i ≤ maxEntries) : (UInt64.ofNat i).toNat = i := by
  have hmax : maxEntries < 2 ^ 63 := by decide
  refine UInt64.toNat_ofNat_of_lt' ?_
  show i < 2 ^ 64
  omega

/-- **A registration** is numbered and entered. -/
theorem Books.register (hbooks : Books past q) (hroom : past.length < maxEntries)
    (connReq : NodeIDRequest) :
    (handle (.nodeIDRequest connReq) q).1 = .ok (expected past (.nodeIDRequest connReq)) ∧
      Books (past ++ [connReq]) (handle (.nodeIDRequest connReq) q).2 := by
  have hzip : (past ++ [connReq]).zipIdx = past.zipIdx ++ [(connReq, past.length)] := by
    rw [List.zipIdx_append, Nat.zero_add]
    rfl
  have hentries : q.entries ++ [⟨connReq.ip, connReq.name, q.nextNodeID, connReq.nodeTypeEnum⟩] =
      (past ++ [connReq]).zipIdx.map fun entry =>
        ⟨entry.1.ip, entry.1.name, UInt64.ofNat entry.2, entry.1.nodeTypeEnum⟩ := by
    rw [hzip, List.map_append, ← hbooks.entries, hbooks.next]
    rfl
  have hnext : q.nextNodeID + 1 = UInt64.ofNat (past ++ [connReq]).length := by
    rw [hbooks.next, List.length_append, UInt64.ofNat_add]
    rfl
  have hwp : wp (handle (.nodeIDRequest connReq))
      (fun response q' => response = expected past (.nodeIDRequest connReq) ∧
        Books (past ++ [connReq]) q') (fun _ _ => False) q := by
    unfold handle getNextNodeID
    simp only [wp_bind, wp_get, wp_modify, wp_pure, wp_ite, wp_throw]
    refine ⟨fun hfull => ?_, fun _ => ⟨fun hserver => ⟨?_, hentries, hnext, fun ip => ?_⟩,
      fun hclient => ⟨?_, hentries, hnext, fun ip => ?_⟩⟩⟩
    · rw [hbooks.length] at hfull
      omega
    · rw [hbooks.next]
      rfl
    · rw [lastServer_append]
      by_cases hip : connReq.ip = ip
      · rw [if_pos ⟨hip, hserver⟩, ← hip, Finmap.lookup_insert, hbooks.next]
        rfl
      · rw [if_neg fun hbad => hip hbad.1, Finmap.lookup_insert_of_ne _ fun hbad => hip hbad.symm]
        exact hbooks.mapped ip
    · rw [hbooks.next]
      rfl
    · rw [lastServer_append, if_neg fun hbad => hclient hbad.2]
      exact hbooks.mapped ip
  obtain ⟨response, hanswer, rfl, hkept⟩ := ok_of_wp hwp
  exact ⟨hanswer, hkept⟩

/-- Where the vector takes no other entry, a number is lost. -/
theorem Books.register_full (hbooks : Books past q) (hfull : maxEntries ≤ past.length)
    (connReq : NodeIDRequest) : handle (.nodeIDRequest connReq) q =
      (.error (.lengthError "m_entries"), { q with nextNodeID := q.nextNodeID + 1 }) := by
  have hwp : wp (handle (.nodeIDRequest connReq)) (fun _ _ => False)
      (fun e q' => e = .lengthError "m_entries" ∧
        q' = { q with nextNodeID := q.nextNodeID + 1 }) q := by
    unfold handle getNextNodeID
    simp only [wp_bind, wp_get, wp_modify, wp_pure, wp_ite, wp_throw]
    refine ⟨fun _ => ⟨trivial, trivial⟩, fun hroom => ?_⟩
    rw [hbooks.length] at hroom
    exact absurd hfull hroom
  unfold wp at hwp
  rcases hx : handle (.nodeIDRequest connReq) q with ⟨e | response, q'⟩ <;> rw [hx] at hwp
  · obtain ⟨rfl, rfl⟩ := hwp
    rfl
  · exact hwp.elim

/-- **A look-up** changes nothing. -/
theorem Books.lookUp (hbooks : Books past q) (hroom : past.length ≤ maxEntries) {request : Request}
    (hlookUp : ∀ connReq, request ≠ .nodeIDRequest connReq) :
    (handle request q).1 = .ok (expected past request) ∧ (handle request q).2 = q := by
  have hwp : wp (handle request) (fun response q' => response = expected past request ∧ q' = q)
      (fun _ _ => False) q := by
    cases request with
    | nodeIDRequest connReq => exact absurd rfl (hlookUp connReq)
    | getNodeIDForIpPortRequest ipPort =>
        unfold handle expected
        simp only [wp_bind, wp_get]
        rw [hbooks.mapped]
        cases hlast : lastServer past ipPort with
        | none => exact ⟨rfl, rfl⟩
        | some entry =>
            obtain ⟨connReq, i⟩ := entry
            obtain ⟨hpast, hip⟩ := lastServer_eq_some hlast
            -- the number in the map is that of an entry
            have hi : i < past.length := (List.getElem?_eq_some_iff.mp hpast).1
            have hnum : (UInt64.ofNat i).toNat = i := toNat_ofNat (by omega)
            have hentry := hbooks.getElem? i
            rw [hpast] at hentry
            simp only [Option.map_some, wp_bind, wp_pure, hnum]
            rw [wp_element ⟨"", "", 0, 0⟩, List.getD_eq_getElem?_getD, hentry, hbooks.length]
            refine ⟨fun _ => ⟨?_, rfl⟩, fun hge => absurd hi (Nat.not_lt.mpr hge)⟩
            rw [← hip]
            rfl
    | getAllNodeIDsRequest nodeId =>
        unfold handle expected
        simp only [wp_bind, wp_get, wp_pure]
        rw [hbooks.entries, List.map_map]
        exact ⟨rfl, trivial⟩
    | rdmaConnRequest | memoryResourceRequest | rdmaConnDisconnect | unknown => exact ⟨rfl, rfl⟩
  obtain ⟨response, hanswer, rfl, hsame⟩ := ok_of_wp hwp
  exact ⟨hanswer, hsame⟩

/-! ## Every sequence of requests -/

theorem registrations_append (requests : List Request) (request : Request) :
    registrations (requests ++ [request]) = registrations requests ++ registrations [request] :=
  List.filterMap_append

theorem after_append (requests : List Request) (request : Request) :
    after (requests ++ [request]) = (handle request (after requests)).2 := List.foldl_append

/-- **The books after any requests**, as long as there is room. -/
theorem books_after (hroom : (registrations requests).length ≤ maxEntries) :
    Books (registrations requests) (after requests) := by
  induction requests using List.reverseRecOn with
  | nil => exact books_fresh
  | append_singleton requests request ih =>
      rw [registrations_append, List.length_append] at hroom
      rw [registrations_append, after_append]
      have hbooks := ih (by omega)
      by_cases hregister : ∃ connReq, request = .nodeIDRequest connReq
      · obtain ⟨connReq, rfl⟩ := hregister
        have hone : (registrations [Request.nodeIDRequest connReq]).length = 1 := rfl
        exact (hbooks.register (by omega) connReq).2
      · have hnone : registrations [request] = [] := by
          cases request <;> first | rfl | exact absurd ⟨_, rfl⟩ hregister
        rw [hnone, List.append_nil,
          (hbooks.lookUp (by omega) fun connReq hbad => hregister ⟨connReq, hbad⟩).2]
        exact hbooks

/-- **Every request is answered as expected**, entry `k` carries the number
`k`, the numbers given out are those of the entries, and a look-up changes
nothing, as long as the vector takes the registrations. -/
theorem answer_expected (requests : List Request) (request : Request)
    (hroom : (registrations (requests ++ [request])).length ≤ maxEntries) :
    (handle request (after requests)).1 = .ok (expected (registrations requests) request) ∧
      (UInt64.ofNat (registrations requests).length).toNat = (registrations requests).length ∧
      (after requests).entries.length = (after requests).nextNodeID.toNat ∧
      (∀ (k : ℕ) (entry : NodeEntry), (after requests).entries[k]? = some entry →
        entry.nodeID.toNat = k) ∧
      ((∀ connReq, request ≠ .nodeIDRequest connReq) →
        (handle request (after requests)).2 = after requests) ∧
      ∀ ip, lastServer (registrations requests) ip = none ↔
        ∀ connReq ∈ registrations requests,
          ¬ (connReq.ip = ip ∧ connReq.nodeTypeEnum = NodeType.server.code) := by
  rw [registrations_append, List.length_append] at hroom
  have hle : (registrations requests).length ≤ maxEntries := by omega
  have hbooks := books_after hle
  refine ⟨?_, toNat_ofNat hle, ?_, fun k entry hentry => ?_,
    fun hlookUp => (hbooks.lookUp hle hlookUp).2, fun ip => lastServer_eq_none⟩
  · by_cases hregister : ∃ connReq, request = .nodeIDRequest connReq
    · obtain ⟨connReq, rfl⟩ := hregister
      have hone : (registrations [Request.nodeIDRequest connReq]).length = 1 := rfl
      exact (hbooks.register (by omega) connReq).1
    · exact (hbooks.lookUp hle fun connReq hbad => hregister ⟨connReq, hbad⟩).1
  · rw [hbooks.length, hbooks.next, toNat_ofNat hle]
  · rw [hbooks.getElem?] at hentry
    obtain ⟨connReq, hpast, rfl⟩ := Option.map_eq_some_iff.mp hentry
    have hk := (List.getElem?_eq_some_iff.mp hpast).1
    exact toNat_ofNat (by omega)

/-- A server that registers. -/
def oneServer : Request := .nodeIDRequest ⟨"10.0.0.1:5200", "RDMAServer", NodeType.server.code⟩

/-- The same address, registered twice by a server and then by a client. -/
theorem answer_expected_registered_again :
    (handle (.getNodeIDForIpPortRequest "10.0.0.1:5200") (after [oneServer, oneServer,
        .nodeIDRequest ⟨"10.0.0.1:5200", "RDMAClient", NodeType.client.code⟩])).1 =
      .ok (.getNodeIDForIpPortResponse ⟨"10.0.0.1:5200", "RDMAServer", 1, NodeType.server.code, 0⟩) :=
  (answer_expected _ _ (by decide)).1

theorem length_registrations_replicate (n : ℕ) :
    (registrations (List.replicate n oneServer)).length = n := by
  induction n with
  | zero => rfl
  | succ n ih =>
      rw [List.replicate_succ', registrations_append, List.length_append, ih]
      rfl

/-- After as many registrations as the vector takes. -/
theorem not_answered_of_full (hfull : (registrations requests).length = maxEntries) :
    (handle oneServer (after requests)).1 ≠ .ok (expected (registrations requests) oneServer) ∧
      (after (requests ++ [oneServer])).entries.length ≠
        (after (requests ++ [oneServer])).nextNodeID.toNat := by
  have hbooks := books_after (Nat.le_of_eq hfull)
  have hthrows : handle oneServer (after requests) = _ :=
    hbooks.register_full (Nat.le_of_eq hfull.symm) _
  rw [after_append, hthrows]
  refine ⟨nofun, ?_⟩
  show (after requests).entries.length ≠ ((after requests).nextNodeID + 1).toNat
  have hnext : ((after requests).nextNodeID + 1).toNat = (registrations requests).length + 1 := by
    have hmax : maxEntries < 2 ^ 63 := by decide
    rw [hbooks.next, UInt64.toNat_add, toNat_ofNat (Nat.le_of_eq hfull)]
    refine Nat.mod_eq_of_lt ?_
    show (registrations requests).length + 1 < 2 ^ 64
    omega
  rw [hbooks.length, hnext]
  omega

/-- **A registration that finds the vector full** is not answered, and uses
up a number. -/
theorem full_not_answered :
    ∃ requests, (handle oneServer (after requests)).1 ≠
        .ok (expected (registrations requests) oneServer) ∧
      (after (requests ++ [oneServer])).entries.length ≠
        (after (requests ++ [oneServer])).nextNodeID.toNat :=
  ⟨List.replicate maxEntries oneServer, not_answered_of_full (length_registrations_replicate _)⟩

end NodeIDSequencer

end RdmaManager
