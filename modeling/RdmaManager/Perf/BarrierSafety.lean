import Mathlib.Data.Finset.Card
import RdmaManager.Perf.Barrier
/-!
# The global barrier is safe

A party of the barrier makes every call once for every peer, so its ends
are described by three sets (`Mailbox.once`), and what its stage says of
these sets is the invariant. A server's set of served ids is the last
snapshot when it stops waiting: nobody disconnects, so every snapshot
contains the one before, and sizes tell them apart.

The rest is a chain: a client that returns has polled an answer of each of
its servers; a server that has answered anyone has polled a message of
everyone (`barrier_safe`).
-/

namespace RdmaManager

open Mailbox

/-! ## The ids that are done -/

/-- The ids of a list without those that are left. -/
def doneIds (ids left : List ℕ) : Finset ℕ := ids.toFinset \ left.toFinset

section DoneIds

variable {ids left left' : List ℕ} {id : ℕ}

theorem doneIds_self : doneIds ids ids = ∅ := Finset.sdiff_self _

theorem doneIds_nil : doneIds ids [] = ids.toFinset := Finset.sdiff_empty

theorem mem_doneIds : id ∈ doneIds ids left ↔ id ∈ ids ∧ id ∉ left := by
  unfold doneIds
  rw [Finset.mem_sdiff, List.mem_toFinset, List.mem_toFinset]

theorem notMem_doneIds (h : id ∈ left) : id ∉ doneIds ids left :=
  fun hdone => (mem_doneIds.mp hdone).2 h

/-- One of the ids that are left is done. -/
theorem insert_doneIds (hids : ids.Nodup) (hleft : left.Sublist ids)
    (hperm : (id :: left').Perm left) : insert id (doneIds ids left) = doneIds ids left' := by
  have hnodup : (id :: left').Nodup := hperm.nodup_iff.mpr (hleft.nodup hids)
  have hid : id ∈ ids := hleft.subset (hperm.mem_iff.mp List.mem_cons_self)
  ext x
  rw [Finset.mem_insert, mem_doneIds, mem_doneIds, ← hperm.mem_iff, List.mem_cons]
  rcases eq_or_ne x id with rfl | hne
  · exact iff_of_true (Or.inl rfl) ⟨hid, (List.nodup_cons.mp hnodup).1⟩
  · simp only [hne, false_or]

end DoneIds

/-! ## A client -/

namespace ClientBarrier

/-- **What a client has done** where it stands. -/
def Ok (ends : ℕ → Mailbox) : ClientBarrier → Prop
  | .away => ends = once ∅ ∅ ∅
  | .posting connectionIDs left => connectionIDs.Nodup ∧ left.Sublist connectionIDs ∧
      ends = once (doneIds connectionIDs left) ∅ ∅
  | .sending connectionIDs leftConIDs _ => connectionIDs.Nodup ∧ leftConIDs.Sublist connectionIDs ∧
      ends = once connectionIDs.toFinset (doneIds connectionIDs leftConIDs) ∅
  | .polling connectionIDs left => connectionIDs.Nodup ∧ left.Sublist connectionIDs ∧
      ends = once connectionIDs.toFinset connectionIDs.toFinset (doneIds connectionIDs left)
  | .returned connectionIDs =>
      ends = once connectionIDs.toFinset connectionIDs.toFinset connectionIDs.toFinset
  | .threw => True

/-- **Every step of a client** keeps it. -/
theorem Ok.next {stage : ClientBarrier} {ends : ℕ → Mailbox} (h : stage.Ok ends) (success : Bool) :
    (stage.next success).Ok (made ends success stage.call) := by
  cases stage with
  | away => exact h
  | returned connectionIDs => exact h
  | threw => trivial
  | posting connectionIDs left =>
      obtain ⟨hnodup, hleft, rfl⟩ := h
      cases left with
      | nil =>
          refine ⟨hnodup, List.Sublist.refl _, ?_⟩
          rw [doneIds_self, ← doneIds_nil]
          rfl
      | cons conID left =>
          cases success with
          | false => trivial
          | true =>
              refine ⟨hnodup, (List.sublist_cons_self _ _).trans hleft, ?_⟩
              rw [← insert_doneIds hnodup hleft (List.Perm.refl _)]
              exact update_receive (notMem_doneIds List.mem_cons_self)
  | sending connectionIDs leftConIDs i =>
      obtain ⟨hnodup, hleft, rfl⟩ := h
      rw [ClientBarrier.next, ClientBarrier.call]
      by_cases hi : i.toNat < leftConIDs.length
      · rw [if_pos hi, List.getElem?_eq_getElem hi]
        cases success with
        | false => exact ⟨hnodup, hleft, rfl⟩
        | true =>
            refine ⟨hnodup, (List.eraseIdx_sublist _ _).trans hleft, ?_⟩
            rw [← insert_doneIds hnodup hleft (List.getElem_cons_eraseIdx_perm hi)]
            exact update_send (notMem_doneIds (List.getElem_mem hi))
      · rw [if_neg hi, List.getElem?_eq_none (Nat.le_of_not_lt hi)]
        cases leftConIDs with
        | nil =>
            refine ⟨hnodup, List.Sublist.refl _, ?_⟩
            rw [doneIds_self, doneIds_nil]
            rfl
        | cons conID leftConIDs => exact ⟨hnodup, hleft, rfl⟩
  | polling connectionIDs left =>
      obtain ⟨hnodup, hleft, rfl⟩ := h
      cases left with
      | nil =>
          show _ = once _ _ _
          rw [doneIds_nil]
          rfl
      | cons conID left =>
          cases success with
          | false => trivial
          | true =>
              refine ⟨hnodup, (List.sublist_cons_self _ _).trans hleft, ?_⟩
              rw [← insert_doneIds hnodup hleft (List.Perm.refl _)]
              exact update_pollReceive (notMem_doneIds List.mem_cons_self)

end ClientBarrier

/-! ## A server -/

namespace ServerBarrier

variable {connected connected' : ℕ → Prop} {e : ℕ} {ends : ℕ → Mailbox} {stage : ServerBarrier}

/-- **What every stage keeps**: who is polled has one receive, and nobody is
answered before as many as expected are polled. -/
def Kept (e : ℕ) (ends : ℕ → Mailbox) : Prop :=
  ∃ posted sent polled : Finset ℕ, ends = once posted sent polled ∧ polled ⊆ posted ∧
    (sent.Nonempty → e ≤ polled.card)

/-- **What a server has done** where it stands. -/
def Ok (connected : ℕ → Prop) (e : ℕ) (ends : ℕ → Mailbox) : ServerBarrier → Prop
  | .away => ends = once ∅ ∅ ∅
  | .comparing clientIds alreadyConnectedIds => clientIds.Nodup ∧
      (∀ id ∈ clientIds, connected id) ∧ alreadyConnectedIds ⊆ clientIds.toFinset ∧
      ends = once alreadyConnectedIds ∅ ∅
  | .posting clientIds alreadyConnectedIds left => clientIds.Nodup ∧
      (∀ id ∈ clientIds, connected id) ∧ alreadyConnectedIds ⊆ clientIds.toFinset ∧
      left ⊆ clientIds ∧ clientIds.toFinset ⊆ alreadyConnectedIds ∪ left.toFinset ∧
      ends = once alreadyConnectedIds ∅ ∅
  | .counting clientIds alreadyConnectedIds => clientIds.Nodup ∧
      (∀ id ∈ clientIds, connected id) ∧ alreadyConnectedIds = clientIds.toFinset ∧
      ends = once alreadyConnectedIds ∅ ∅
  | .sleeping alreadyConnectedIds =>
      (∀ id ∈ alreadyConnectedIds, connected id) ∧ ends = once alreadyConnectedIds ∅ ∅
  | .polling clientIds left => clientIds.Nodup ∧ e ≤ clientIds.length ∧ left.Sublist clientIds ∧
      ends = once clientIds.toFinset ∅ (doneIds clientIds left)
  | .sending clientIds left => clientIds.Nodup ∧ e ≤ clientIds.length ∧ left.Sublist clientIds ∧
      ends = once clientIds.toFinset (doneIds clientIds left) clientIds.toFinset
  | .returned clientIds => clientIds.Nodup ∧ e ≤ clientIds.length ∧
      ends = once clientIds.toFinset clientIds.toFinset clientIds.toFinset
  | .threw => Kept e ends

theorem kept_posting (ids : Finset ℕ) : Kept e (once ids ∅ ∅) :=
  ⟨ids, ∅, ∅, rfl, Finset.empty_subset _, fun hsent => absurd hsent Finset.not_nonempty_empty⟩

theorem kept_sending {clientIds : List ℕ} (hnodup : clientIds.Nodup) (hcount : e ≤ clientIds.length)
    (sent : Finset ℕ) : Kept e (once clientIds.toFinset sent clientIds.toFinset) := by
  refine ⟨_, sent, _, rfl, Finset.Subset.refl _, fun _ => ?_⟩
  rw [List.toFinset_card_of_nodup hnodup]
  exact hcount

theorem Ok.kept (h : stage.Ok connected e ends) : Kept e ends := by
  cases stage with
  | away =>
      rw [show ends = once ∅ ∅ ∅ from h]
      exact kept_posting ∅
  | comparing clientIds alreadyConnectedIds =>
      obtain ⟨-, -, -, rfl⟩ := h
      exact kept_posting _
  | posting clientIds alreadyConnectedIds left =>
      obtain ⟨-, -, -, -, -, rfl⟩ := h
      exact kept_posting _
  | counting clientIds alreadyConnectedIds =>
      obtain ⟨-, -, -, rfl⟩ := h
      exact kept_posting _
  | sleeping alreadyConnectedIds =>
      obtain ⟨-, rfl⟩ := h
      exact kept_posting _
  | polling clientIds left =>
      obtain ⟨-, -, -, rfl⟩ := h
      exact ⟨_, ∅, _, rfl, Finset.sdiff_subset,
        fun hsent => absurd hsent Finset.not_nonempty_empty⟩
  | sending clientIds left =>
      obtain ⟨hnodup, hcount, -, rfl⟩ := h
      exact kept_sending hnodup hcount _
  | returned clientIds =>
      obtain ⟨hnodup, hcount, rfl⟩ := h
      exact kept_sending hnodup hcount _
  | threw => exact h

/-- More clients connect. -/
theorem Ok.mono (h : stage.Ok connected e ends) (hmono : ∀ id, connected id → connected' id) :
    stage.Ok connected' e ends := by
  cases stage with
  | comparing clientIds alreadyConnectedIds =>
      obtain ⟨hnodup, hids, hrest⟩ := h
      exact ⟨hnodup, fun id hid => hmono id (hids id hid), hrest⟩
  | posting clientIds alreadyConnectedIds left =>
      obtain ⟨hnodup, hids, hrest⟩ := h
      exact ⟨hnodup, fun id hid => hmono id (hids id hid), hrest⟩
  | counting clientIds alreadyConnectedIds =>
      obtain ⟨hnodup, hids, hrest⟩ := h
      exact ⟨hnodup, fun id hid => hmono id (hids id hid), hrest⟩
  | sleeping alreadyConnectedIds =>
      obtain ⟨hids, hrest⟩ := h
      exact ⟨fun id hid => hmono id (hids id hid), hrest⟩
  | _ => exact h

/-- **A snapshot** contains everyone who was served. -/
theorem Ok.snapshot (h : stage.Ok connected e ends) {clientIds : List ℕ} (hnodup : clientIds.Nodup)
    (hids : ∀ id, id ∈ clientIds ↔ connected id) :
    (stage.snapshot clientIds).Ok connected e ends := by
  cases stage with
  | away => exact ⟨hnodup, fun id hid => (hids id).mp hid, Finset.empty_subset _, h⟩
  | sleeping alreadyConnectedIds =>
      obtain ⟨hserved, hends⟩ := h
      refine ⟨hnodup, fun id hid => (hids id).mp hid, fun id hid => ?_, hends⟩
      exact List.mem_toFinset.mpr ((hids id).mpr (hserved id hid))
  | _ => exact h

variable {clientIds left : List ℕ} {alreadyConnectedIds : Finset ℕ}

/-- A snapshot that is no larger than the served ids is all of them. -/
theorem Ok.next_comparing (h : (comparing clientIds alreadyConnectedIds).Ok connected e ends)
    (success : Bool) : ((comparing clientIds alreadyConnectedIds).next e success).Ok connected e ends := by
  obtain ⟨hnodup, hids, hserved, hends⟩ := h
  rw [next]
  by_cases hless : alreadyConnectedIds.card < clientIds.length
  · rw [if_pos hless]
    exact ⟨hnodup, hids, hserved, List.Subset.refl _, Finset.subset_union_right, hends⟩
  · rw [if_neg hless]
    refine ⟨hnodup, hids, Finset.eq_of_subset_of_card_le hserved ?_, hends⟩
    rw [List.toFinset_card_of_nodup hnodup]
    exact Nat.le_of_not_lt hless

/-- One id of the snapshot has been served, or is. -/
theorem Ok.next_posting (h : (posting clientIds alreadyConnectedIds left).Ok connected e ends)
    (success : Bool) :
    ((posting clientIds alreadyConnectedIds left).next e success).Ok connected e
      (made ends success (posting clientIds alreadyConnectedIds left).call) := by
  have hkept : Kept e ends := h.kept
  obtain ⟨hnodup, hids, hserved, hleft, hcover, hends⟩ := h
  cases left with
  | nil =>
      refine ⟨hnodup, hids, Finset.Subset.antisymm hserved ?_, hends⟩
      exact Finset.union_empty alreadyConnectedIds ▸ hcover
  | cons nodeID left =>
      obtain ⟨hnode, hleft⟩ := List.cons_subset.mp hleft
      rw [List.toFinset_cons, Finset.union_insert, ← Finset.insert_union] at hcover
      rw [next, call]
      by_cases hin : nodeID ∈ alreadyConnectedIds
      · rw [if_pos hin, if_pos hin]
        rw [Finset.insert_eq_of_mem hin] at hcover
        exact ⟨hnodup, hids, hserved, hleft, hcover, hends⟩
      · rw [if_neg hin, if_neg hin]
        cases success with
        | false => exact hkept
        | true =>
            refine ⟨hnodup, hids, ?_, hleft, hcover, ?_⟩
            · exact Finset.insert_subset (List.mem_toFinset.mpr hnode) hserved
            · rw [hends]
              exact update_receive hin

theorem Ok.next_counting (h : (counting clientIds alreadyConnectedIds).Ok connected e ends)
    (success : Bool) : ((counting clientIds alreadyConnectedIds).next e success).Ok connected e ends := by
  obtain ⟨hnodup, hids, rfl, hends⟩ := h
  rw [next]
  by_cases hfew : clientIds.toFinset.card < e
  · rw [if_pos hfew]
    exact ⟨fun id hid => hids id (List.mem_toFinset.mp hid), hends⟩
  · rw [if_neg hfew]
    rw [List.toFinset_card_of_nodup hnodup] at hfew
    refine ⟨hnodup, Nat.le_of_not_lt hfew, List.Sublist.refl _, ?_⟩
    rw [doneIds_self]
    exact hends

theorem Ok.next_polling (h : (polling clientIds left).Ok connected e ends) (success : Bool) :
    ((polling clientIds left).next e success).Ok connected e
      (made ends success (polling clientIds left).call) := by
  have hkept : Kept e ends := h.kept
  obtain ⟨hnodup, hcount, hleft, hends⟩ := h
  cases left with
  | nil =>
      refine ⟨hnodup, hcount, List.Sublist.refl _, ?_⟩
      rw [doneIds_self, ← doneIds_nil]
      exact hends
  | cons nodeID left =>
      cases success with
      | false => exact hkept
      | true =>
          refine ⟨hnodup, hcount, (List.sublist_cons_self _ _).trans hleft, ?_⟩
          rw [← insert_doneIds hnodup hleft (List.Perm.refl _), hends]
          exact update_pollReceive (notMem_doneIds List.mem_cons_self)

theorem Ok.next_sending (h : (sending clientIds left).Ok connected e ends) (success : Bool) :
    ((sending clientIds left).next e success).Ok connected e
      (made ends success (sending clientIds left).call) := by
  have hkept : Kept e ends := h.kept
  obtain ⟨hnodup, hcount, hleft, hends⟩ := h
  cases left with
  | nil =>
      refine ⟨hnodup, hcount, ?_⟩
      rw [doneIds_nil] at hends
      exact hends
  | cons nodeID left =>
      cases success with
      | false => exact hkept
      | true =>
          refine ⟨hnodup, hcount, (List.sublist_cons_self _ _).trans hleft, ?_⟩
          rw [← insert_doneIds hnodup hleft (List.Perm.refl _), hends]
          exact update_send (notMem_doneIds List.mem_cons_self)

/-- **Every step of a server** keeps it. -/
theorem Ok.next (h : stage.Ok connected e ends) (success : Bool) :
    (stage.next e success).Ok connected e (made ends success stage.call) := by
  cases stage with
  | away => exact h
  | comparing clientIds alreadyConnectedIds => exact h.next_comparing success
  | posting clientIds alreadyConnectedIds left => exact h.next_posting success
  | counting clientIds alreadyConnectedIds => exact h.next_counting success
  | sleeping alreadyConnectedIds => exact h
  | polling clientIds left => exact h.next_polling success
  | sending clientIds left => exact h.next_sending success
  | returned clientIds => exact h
  | threw => exact h

end ServerBarrier

/-! ## Every run -/

namespace GlobalBarrier

variable {e : ℕ} {w : GlobalBarrier}

/-- A server has received the ping of a client: it has polled it, and the
client has sent no other. -/
def Received (w : GlobalBarrier) (server client : ℕ) : Prop :=
  ((w.servers server).ends client).polled = 1 ∧ ((w.clients client).ends server).sent = 1

/-- The server polls the client's ping, or it has. -/
def Polls (w : GlobalBarrier) (server client : ℕ) : Prop :=
  (∃ clientIds left, (w.servers server).stage = .polling clientIds left ∧ client ∈ left) ∨
    0 < ((w.servers server).ends client).polled

/-- A client is in a server's `m_connected`. -/
def Connected (w : GlobalBarrier) (server client : ℕ) : Prop :=
  (w.connected server).lookup client = some true

/-- **The invariant.** -/
structure Inv (e : ℕ) (w : GlobalBarrier) : Prop where
  clients : ∀ client, (w.clients client).stage.Ok (w.clients client).ends
  servers : ∀ server, (w.servers server).stage.Ok (w.Connected server) e (w.servers server).ends
  paired : ∀ client server,
    Paired ((w.clients client).ends server) ((w.servers server).ends client)

theorem Inv.before (connected : ℕ → Finmap fun _ : ℕ => Bool) : Inv e (before connected) := by
  have hfresh : (fun _ => ⟨0, 0, 0⟩ : ℕ → Mailbox) = once ∅ ∅ ∅ := rfl
  have hzero : Paired ⟨0, 0, 0⟩ ⟨0, 0, 0⟩ :=
    ⟨Nat.le_refl 0, Nat.le_refl 0, Nat.le_refl 0, Nat.le_refl 0⟩
  exact ⟨fun _ => hfresh, fun _ => hfresh, fun _ _ => hzero⟩

/-- One client goes on. -/
theorem Inv.setClient (h : Inv e w) {client : ℕ} {k : BarrierParty ClientBarrier}
    (hok : k.stage.Ok k.ends)
    (hpaired : ∀ server, Paired (k.ends server) ((w.servers server).ends client)) :
    Inv e (w.setClient client k) := by
  refine ⟨fun i => ?_, h.servers, fun i server => ?_⟩
  · rcases eq_or_ne i client with rfl | hne
    · rw [setClient_self]
      exact hok
    · rw [setClient_of_ne w hne]
      exact h.clients i
  · rcases eq_or_ne i client with rfl | hne
    · rw [setClient_self]
      exact hpaired server
    · rw [setClient_of_ne w hne]
      exact h.paired i server

/-- One server goes on. -/
theorem Inv.setServer (h : Inv e w) {server : ℕ} {k : BarrierParty ServerBarrier}
    (hok : k.stage.Ok (w.Connected server) e k.ends)
    (hpaired : ∀ client, Paired ((w.clients client).ends server) (k.ends client)) :
    Inv e (w.setServer server k) := by
  refine ⟨h.clients, fun i => ?_, fun client i => ?_⟩
  · rcases eq_or_ne i server with rfl | hne
    · rw [setServer_self]
      exact hok
    · rw [setServer_of_ne w hne]
      exact h.servers i
  · rcases eq_or_ne i server with rfl | hne
    · rw [setServer_self]
      exact hpaired client
    · rw [setServer_of_ne w hne]
      exact h.paired client i

/-- A snapshot changes no end. -/
theorem Inv.snapshot (h : Inv e w) {server : ℕ} {clientIds : List ℕ}
    (hids : ConnectedConnIDs (w.connected server) clientIds) :
    Inv e (w.setServer server
      ⟨(w.servers server).stage.snapshot clientIds, (w.servers server).ends⟩) :=
  h.setServer ((h.servers server).snapshot hids.nodup hids.mem_iff) fun client =>
    h.paired client server

theorem Inv.connect (h : Inv e w) (server client : ℕ) :
    Inv e (w.exec e (.connect server client)) := by
  refine ⟨h.clients, fun i => (h.servers i).mono fun id hid => ?_, h.paired⟩
  show (Function.update w.connected server _ i).lookup id = some true
  rcases eq_or_ne i server with rfl | hne
  · rw [Function.update_self]
    rcases eq_or_ne id client with rfl | hid'
    · exact Finmap.lookup_insert _
    · rw [Finmap.lookup_insert_of_ne _ hid']
      exact hid
  · rw [Function.update_of_ne hne]
    exact hid

/-- **Every event** keeps the invariant. -/
theorem Inv.exec (h : Inv e w) {event : BarrierEvent} (henabled : w.Enabled event) :
    Inv e (w.exec e event) := by
  cases event with
  | connect server client => exact h.connect server client
  | clientBegins client connectionIDs =>
      obtain ⟨haway, hnodup, -⟩ := henabled
      have hclient := h.clients client
      rw [haway] at hclient
      refine h.setClient ⟨hnodup, List.Sublist.refl _, ?_⟩ fun server => h.paired client server
      rw [doneIds_self]
      exact hclient
  | client client success =>
      refine h.setClient ((h.clients client).next success) fun server => ?_
      exact Paired.made (fun server => h.paired client server) henabled server
  | serverBegins server clientIds => exact h.snapshot henabled.2
  | server server success =>
      refine h.setServer ((h.servers server).next success) fun client => ?_
      exact (Paired.made (fun client => (h.paired client server).symm) henabled client).symm
  | recounts server clientIds => exact h.snapshot henabled.2

theorem inv_invariant (e : ℕ) : (runs e).Invariant (Inv e) where
  init := by
    rintro w ⟨connected, rfl⟩
    exact Inv.before connected
  step := by
    rintro w event w' - h ⟨henabled, rfl⟩
    exact h.exec henabled

/-- A server that has answered a client has received as many pings as it
was told to expect. -/
theorem Inv.received_of_answered (h : Inv e w) {server client : ℕ}
    (hanswered : 0 < ((w.servers server).ends client).sent) :
    ∃ ids : Finset ℕ, e ≤ ids.card ∧ ∀ id ∈ ids, w.Received server id := by
  obtain ⟨posted, sent, polled, hends, hsubset, hcount⟩ := (h.servers server).kept
  rw [hends] at hanswered
  refine ⟨polled, hcount ⟨client, mem_of_mark_pos hanswered⟩, fun id hid => ?_⟩
  have hpaired := h.paired id server
  have hpolled : ((w.servers server).ends id).polled = 1 := by
    rw [hends]
    exact mark_of_mem hid
  have hposted : ((w.servers server).ends id).posted = 1 := by
    rw [hends]
    exact mark_of_mem (hsubset hid)
  -- what was polled was sent, and what was sent has found a receive
  have hsent := hpaired.polled'
  have hfound := hpaired.found'
  exact ⟨hpolled, by omega⟩

/-- A server that polls a client has posted one receive for it. -/
theorem Inv.posted_of_polls (h : Inv e w) {server client : ℕ} (hpolls : w.Polls server client) :
    ((w.servers server).ends client).posted = 1 := by
  rcases hpolls with ⟨clientIds, left, hstage, hclient⟩ | hpolled
  · have hserver := h.servers server
    rw [hstage] at hserver
    obtain ⟨-, -, hleft, hends⟩ := hserver
    rw [hends]
    exact mark_of_mem (List.mem_toFinset.mpr (hleft.subset hclient))
  · obtain ⟨posted, sent, polled, hends, hsubset, -⟩ := (h.servers server).kept
    rw [hends] at hpolled ⊢
    exact mark_of_mem (hsubset (mem_of_mark_pos hpolled))

/-- **Barrier safety**: where a client's call has returned, every server it
is connected to has received the pings of as many clients as expected, and
it has sent one ping on each of its connections; and a server posts one
receive for every client that it polls. -/
theorem barrier_safe (hreach : (runs e).Reachable w) :
    (∀ client connectionIDs, (w.clients client).stage = .returned connectionIDs →
      (∀ server ∈ connectionIDs,
        ∃ ids : Finset ℕ, e ≤ ids.card ∧ ∀ id ∈ ids, w.Received server id) ∧
      ∀ server, ((w.clients client).ends server).sent = if server ∈ connectionIDs then 1 else 0) ∧
    ∀ server client, w.Polls server client → ((w.servers server).ends client).posted = 1 := by
  have h : Inv e w := (inv_invariant e).reachable hreach
  refine ⟨fun client connectionIDs hstage => ?_, fun server client => h.posted_of_polls⟩
  have hclient := h.clients client
  rw [hstage] at hclient
  have hends : (w.clients client).ends = once connectionIDs.toFinset connectionIDs.toFinset
      connectionIDs.toFinset := hclient
  refine ⟨fun server hserver => ?_, fun server => ?_⟩
  · -- the client has polled the server's answer
    refine h.received_of_answered (Nat.lt_of_lt_of_le ?_ (h.paired client server).polled)
    rw [hends]
    exact Nat.lt_of_lt_of_eq Nat.zero_lt_one (mark_of_mem (List.mem_toFinset.mpr hserver)).symm
  · rw [hends]
    show mark connectionIDs.toFinset server = _
    unfold mark
    simp only [List.mem_toFinset]

/-- A server expects two clients. The first is refused until the server has
posted its receive, and the second connects while the server waits. -/
def twoClients : List BarrierEvent :=
  [.connect 0 1, .clientBegins 1 [0], .client 1 true, .client 1 true, .client 1 false,
    .serverBegins 0 [1], .server 0 true, .server 0 true, .server 0 true, .server 0 true,
    .client 1 true, .client 1 true, .client 1 true,
    .connect 0 2, .clientBegins 2 [0], .client 2 true, .client 2 true, .recounts 0 [2, 1],
    .server 0 true, .server 0 true, .server 0 true, .server 0 true, .server 0 true,
    .client 2 true, .client 2 true,
    .server 0 true, .server 0 true, .server 0 true, .server 0 true, .server 0 true, .server 0 true,
    .client 1 true, .client 1 true]

def afterTwoClients : GlobalBarrier := twoClients.foldl (exec 2) (before fun _ => ∅)

theorem reachable_afterTwoClients : (runs 2).Reachable afterTwoClients := by
  have hmeets : System.MeetsAlong Enabled (exec 2) (before fun _ => ∅) twoClients := by decide
  have hstep : ∀ w event, w.Enabled event → (runs 2).Step w event (w.exec 2 event) :=
    fun w event henabled => ⟨henabled, rfl⟩
  have hinit : (runs 2).Reachable (before fun _ => ∅) := .init ⟨_, rfl⟩
  exact hinit.along (hmeets.steps hstep)

theorem barrier_safe_twoClients :
    (∃ ids : Finset ℕ, 2 ≤ ids.card ∧ ∀ id ∈ ids, afterTwoClients.Received 0 id) ∧
      ((afterTwoClients.clients 1).ends 0).sent = 1 ∧
      ((afterTwoClients.servers 0).ends 2).posted = 1 := by
  have hsafe := barrier_safe reachable_afterTwoClients
  have hstage : (afterTwoClients.clients 1).stage = .returned [0] := by decide
  have hpolled : 0 < ((afterTwoClients.servers 0).ends 2).polled := by decide
  obtain ⟨hreceived, hsent⟩ := hsafe.1 1 [0] hstage
  exact ⟨hreceived 0 List.mem_cons_self, hsent 0, hsafe.2 0 2 (Or.inr hpolled)⟩

end GlobalBarrier

end RdmaManager
