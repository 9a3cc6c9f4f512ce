import RdmaManager.Rdma.SharedReceiveQueue
/-!
# Sharing a completion queue

`Shared` is what holds between the device, the table of queue pairs and
the map of shared receive queues as long as every live queue pair stands
in the table and receives from an entry of the map. It does not say that
the completion queue of an entry is live: a queue pair's tear-down
destroys it with its last user (`Shared.tearDown`).
-/

namespace RdmaManager

namespace ReliableRDMA

open BaseRDMA Act Device

variable {d d' : Device} {tab : ℕ → IbQp} {srqs : Finmap fun _ : ℕ => SharedRq}
variable {i h c k : ℕ} {qp : IbQp} {srq : SharedRq}

/-- `c` is the completion queue of an entry of the map. -/
def ReceivesTo (srqs : Finmap fun _ : ℕ => SharedRq) (c : ℕ) : Prop :=
  ∃ k srq, srqs.lookup k = some srq ∧ srq.recvCq = some c

/-- **Every live queue pair stands in the table**, completes its sends to
a queue of its own and its receives to that of an entry of the map. -/
structure Shared (d : Device) (tab : ℕ → IbQp) (srqs : Finmap fun _ : ℕ => SharedRq) : Prop where
  succeeds : d.Succeeds
  tables : ∀ i h, (tab i).qp = some h →
    ∃ s r x, d.links h = some (s, r, some x) ∧ tab i = ⟨some h, some s, some r⟩
  tables_inj : ∀ i j h, (tab i).qp = some h → (tab j).qp = some h → i = j
  live : ∀ h l, d.links h = some l → ∃ i, (tab i).qp = some h
  entry : ∀ h s r x, d.links h = some (s, r, x) → ReceivesTo srqs r
  sends : ∀ h s r x, d.links h = some (s, r, x) → ¬ ReceivesTo srqs s
  sends_inj : ∀ h h' s r r' x x', d.links h = some (s, r, x) → d.links h' = some (s, r', x') → h = h'
  cqs : ∀ h s r x, d.links h = some (s, r, x) → d.cqs s = true ∧ d.cqs r = true
  srqs_live : ∀ k srq, srqs.lookup k = some srq →
    ∃ x c, srq = ⟨some x, some c⟩ ∧ d.srqs x = true ∧ c < d.next
  srqs_inj : ∀ k k' x c c', srqs.lookup k = some ⟨some x, c⟩ → srqs.lookup k' = some ⟨some x, c'⟩ →
    k = k'
  cqs_owned : ∀ c, d.cqs c = true → ReceivesTo srqs c ∨ ∃ h r x, d.links h = some (c, r, x)
  srqs_owned : ∀ x, d.srqs x = true → ∃ k c, srqs.lookup k = some ⟨some x, c⟩
  cq_ledger : d.CqLedger
  srq_ledger : d.SrqLedger

theorem Shared.lt_of_receivesTo (hs : Shared d tab srqs) (hc : ReceivesTo srqs c) : c < d.next := by
  obtain ⟨k, srq, hlookup, hrecv⟩ := hc
  obtain ⟨x, c', rfl, -, hlt⟩ := hs.srqs_live k srq hlookup
  rw [← Option.some.inj hrecv]
  exact hlt

/-- Only what the queue pairs are attached to matters of them. -/
theorem Shared.congr (hs : Shared d tab srqs) (hlinks : d'.links = d.links)
    (herrno : d'.errno = d.errno) (hnext : d'.next = d.next) (hcqs : d'.cqs = d.cqs)
    (hsrqs : d'.srqs = d.srqs) (hcqsMade : d'.cqsMade = d.cqsMade)
    (hsrqsMade : d'.srqsMade = d.srqsMade) (hcqsDestroyed : d'.cqsDestroyed = d.cqsDestroyed)
    (hsrqsDestroyed : d'.srqsDestroyed = d.srqsDestroyed) : Shared d' tab srqs := by
  have hcq := hs.cq_ledger
  have hsrq := hs.srq_ledger
  unfold CqLedger at hcq
  unfold SrqLedger at hsrq
  refine ⟨fun n => by rw [herrno]; exact hs.succeeds n, ?_, hs.tables_inj, ?_, ?_, ?_, ?_, ?_, ?_,
    hs.srqs_inj, ?_, ?_, ?_, ?_⟩
  · rw [hlinks]
    exact hs.tables
  · rw [hlinks]
    exact hs.live
  · rw [hlinks]
    exact hs.entry
  · rw [hlinks]
    exact hs.sends
  · rw [hlinks]
    exact hs.sends_inj
  · rw [hlinks, hcqs]
    exact hs.cqs
  · rw [hsrqs, hnext]
    exact hs.srqs_live
  · rw [hlinks, hcqs]
    exact hs.cqs_owned
  · rw [hsrqs]
    exact hs.srqs_owned
  · rw [CqLedger, hcqsMade, hcqsDestroyed, hcqs, hnext]
    exact hcq
  · rw [SrqLedger, hsrqsMade, hsrqsDestroyed, hsrqs, hnext]
    exact hsrq

/-- Moving a queue pair on changes nothing that matters. -/
theorem Shared.readied (hs : Shared d tab srqs) {old : Qp} (hold : d.qps h = some old)
    (dest : Option (UInt32 × UInt16)) : Shared (d.readied h old dest) tab srqs := by
  refine hs.congr (funext fun i => ?_) rfl rfl rfl rfl rfl rfl rfl rfl
  rw [Device.links, readied_qps]
  rcases eq_or_ne i h with rfl | hne
  · rw [Function.update_self, Device.links, hold]
    rfl
  · rw [Function.update_of_ne hne]
    rfl

/-! ## A new entry -/

theorem receivesTo_insert {x : Option ℕ} (hk : k ∉ srqs) :
    ReceivesTo (srqs.insert k ⟨x, some c⟩) h ↔ h = c ∨ ReceivesTo srqs h := by
  constructor
  · rintro ⟨k', srq, hlookup, hrecv⟩
    rcases eq_or_ne k' k with rfl | hne
    · rw [Finmap.lookup_insert] at hlookup
      obtain rfl := Option.some.inj hlookup
      exact Or.inl (Option.some.inj hrecv).symm
    · rw [Finmap.lookup_insert_of_ne _ hne] at hlookup
      exact Or.inr ⟨k', srq, hlookup, hrecv⟩
  · rintro (rfl | ⟨k', srq, hlookup, hrecv⟩)
    · exact ⟨k, _, Finmap.lookup_insert _, rfl⟩
    · have hne : k' ≠ k := by
        rintro rfl
        exact hk (Finmap.mem_of_lookup_eq_some hlookup)
      exact ⟨k', srq, by rw [Finmap.lookup_insert_of_ne _ hne, hlookup], hrecv⟩

/-- The entry that `createSharedReceiveQueue` makes. -/
theorem Shared.addSrq (hs : Shared d tab srqs) (hk : k ∉ srqs) :
    Shared d.tick.addSrq.tick.addCq tab (srqs.insert k ⟨some d.next, some (d.next + 1)⟩) := by
  have hcqs : ∀ c, d.cqs c = true → d.tick.addSrq.tick.addCq.cqs c = true := by
    intro c hc
    have hlt := d.lt_of_cqs hc
    exact (Function.update_of_ne (by change c ≠ d.next + 1; omega) _ _).trans hc
  have hnew : ∀ {k' srq}, (srqs.insert k ⟨some d.next, some (d.next + 1)⟩).lookup k' = some srq →
      k' = k ∧ srq = ⟨some d.next, some (d.next + 1)⟩ ∨ k' ≠ k ∧ srqs.lookup k' = some srq := by
    intro k' srq hlookup
    rcases eq_or_ne k' k with rfl | hne
    · rw [Finmap.lookup_insert] at hlookup
      exact Or.inl ⟨rfl, (Option.some.inj hlookup).symm⟩
    · rw [Finmap.lookup_insert_of_ne _ hne] at hlookup
      exact Or.inr ⟨hne, hlookup⟩
  have hold : ∀ {k' x c}, srqs.lookup k' = some ⟨some x, c⟩ → x < d.next := by
    intro k' x c hlookup
    obtain ⟨x', c', heq, hlive, -⟩ := hs.srqs_live k' _ hlookup
    obtain ⟨rfl, rfl⟩ := heq
    exact d.lt_of_srqs hlive
  refine ⟨hs.succeeds, hs.tables, hs.tables_inj, hs.live, fun h s r x hl => ?_,
    fun h s r x hl => ?_, hs.sends_inj, fun h s r x hl => ?_, fun k' srq hlookup => ?_,
    fun k₁ k₂ x c c' h₁ h₂ => ?_, fun c hc => ?_, fun x hx => ?_, ?_, ?_⟩
  · rw [receivesTo_insert hk]
    exact Or.inr (hs.entry h s r x hl)
  · rw [receivesTo_insert hk, not_or]
    have := d.lt_of_cqs (hs.cqs h s r x hl).1
    exact ⟨by omega, hs.sends h s r x hl⟩
  · obtain ⟨hsend, hrecv⟩ := hs.cqs h s r x hl
    exact ⟨hcqs s hsend, hcqs r hrecv⟩
  · rcases hnew hlookup with ⟨-, rfl⟩ | ⟨-, hlookup⟩
    · exact ⟨d.next, d.next + 1, rfl, Function.update_self _ _ _, Nat.lt_succ_self _⟩
    · obtain ⟨x, c, rfl, hlive, hlt⟩ := hs.srqs_live k' srq hlookup
      have hxlt := d.lt_of_srqs hlive
      refine ⟨x, c, rfl, ?_, ?_⟩
      · exact (Function.update_of_ne (by change x ≠ d.next; omega) _ _).trans hlive
      · change c < d.next + 1 + 1
        omega
  · rcases hnew h₁ with ⟨rfl, heq⟩ | ⟨-, hold₁⟩
    · rcases hnew h₂ with ⟨rfl, -⟩ | ⟨-, hold₂⟩
      · rfl
      · have := hold hold₂
        simp only [SharedRq.mk.injEq, Option.some.injEq] at heq
        omega
    · rcases hnew h₂ with ⟨rfl, heq⟩ | ⟨-, hold₂⟩
      · have := hold hold₁
        simp only [SharedRq.mk.injEq, Option.some.injEq] at heq
        omega
      · exact hs.srqs_inj k₁ k₂ x c c' hold₁ hold₂
  · rw [receivesTo_insert hk]
    rcases eq_or_ne c (d.next + 1) with rfl | hne
    · exact Or.inl (Or.inl rfl)
    · have hc' : d.cqs c = true := (Function.update_of_ne hne _ _).symm.trans hc
      exact (hs.cqs_owned c hc').imp_left Or.inr
  · rcases eq_or_ne x d.next with rfl | hne
    · exact ⟨k, _, Finmap.lookup_insert _⟩
    · have hx' : d.srqs x = true := (Function.update_of_ne hne _ _).symm.trans hx
      obtain ⟨k', c, hlookup⟩ := hs.srqs_owned x hx'
      refine ⟨k', c, ?_⟩
      rw [Finmap.lookup_insert_of_ne, hlookup]
      rintro rfl
      exact hk (Finmap.mem_of_lookup_eq_some hlookup)
  · exact Ledger.make (Ledger.mono hs.cq_ledger (Nat.le_succ _))
  · exact Ledger.mono (Ledger.make hs.srq_ledger) (Nat.le_succ _)

/-! ## A new queue pair -/

theorem links_sharedPair {type : QpType} {x : ℕ} :
    (d.sharedPair type x c).links =
      Function.update d.links (d.next + 1) (some (d.next, c, some x)) := by
  funext i
  rw [Device.links, sharedPair_qps]
  rcases eq_or_ne i (d.next + 1) with rfl | hne
  · rw [Function.update_self, Function.update_self]
    rfl
  · rw [Function.update_of_ne hne, Function.update_of_ne hne]
    rfl

/-- The queue pair that `initQPForSRQWithSuppliedID` makes, in a free
place of the table. -/
theorem Shared.addQp (hs : Shared d tab srqs) {type : QpType} {x : ℕ}
    (hlookup : srqs.lookup k = some ⟨some x, some c⟩) (hlive : d.cqs c = true)
    (hfree : (tab i).qp = none) :
    Shared (d.sharedPair type x c)
      (fun j => if j = i then ⟨some (d.next + 1), some d.next, some c⟩ else tab j) srqs := by
  have hcqs : ∀ c, d.cqs c = true → (d.sharedPair type x c).cqs c = true := by
    intro c' hc'
    have hlt := d.lt_of_cqs hc'
    exact (Function.update_of_ne (by omega) _ _).trans hc'
  have hnew : ∀ {h l}, (d.sharedPair type x c).links h = some l →
      h = d.next + 1 ∧ l = (d.next, c, some x) ∨ h < d.next ∧ d.links h = some l := by
    intro h l hl
    rw [links_sharedPair] at hl
    rcases eq_or_ne h (d.next + 1) with rfl | hne
    · rw [Function.update_self] at hl
      exact Or.inl ⟨rfl, (Option.some.inj hl).symm⟩
    · rw [Function.update_of_ne hne] at hl
      exact Or.inr ⟨lt_of_links hl, hl⟩
  have hkept : ∀ {h l}, d.links h = some l → (d.sharedPair type x c).links h = some l := by
    intro h l hl
    have := lt_of_links hl
    rw [links_sharedPair, Function.update_of_ne (by omega), hl]
  have hrecv : ReceivesTo srqs c := ⟨k, _, hlookup, rfl⟩
  have hlt := hs.lt_of_receivesTo hrecv
  have htab : ∀ {j h}, (if j = i then (⟨some (d.next + 1), some d.next, some c⟩ : IbQp)
      else tab j).qp = some h →
        j = i ∧ h = d.next + 1 ∨ j ≠ i ∧ h < d.next ∧ (tab j).qp = some h := by
    intro j h hqp
    split_ifs at hqp with hj
    · exact Or.inl ⟨hj, (Option.some.inj hqp).symm⟩
    · obtain ⟨s, r, x', hl, -⟩ := hs.tables j h hqp
      exact Or.inr ⟨hj, lt_of_links hl, hqp⟩
  refine ⟨hs.succeeds, fun j h hqp => ?_, fun j j' h hj hj' => ?_, fun h l hl => ?_,
    fun h s r x' hl => ?_, fun h s r x' hl => ?_, fun h h' s r r' x' x'' hl hl' => ?_,
    fun h s r x' hl => ?_, fun k' srq hlook => ?_, hs.srqs_inj, fun c' hc' => ?_, hs.srqs_owned, ?_, ?_⟩
  · rcases htab hqp with ⟨rfl, rfl⟩ | ⟨hne, -, hqp⟩
    · refine ⟨d.next, c, x, ?_, if_pos rfl⟩
      rw [links_sharedPair, Function.update_self]
    · obtain ⟨s, r, x', hl, hat⟩ := hs.tables j h hqp
      exact ⟨s, r, x', hkept hl, (if_neg hne).trans hat⟩
  · rcases htab hj with ⟨rfl, rfl⟩ | ⟨-, hlt₁, hold₁⟩
    · rcases htab hj' with ⟨rfl, -⟩ | ⟨-, hlt₂, -⟩
      · rfl
      · omega
    · rcases htab hj' with ⟨rfl, rfl⟩ | ⟨-, -, hold₂⟩
      · omega
      · exact hs.tables_inj j j' h hold₁ hold₂
  · rcases hnew hl with ⟨rfl, rfl⟩ | ⟨-, hl⟩
    · exact ⟨i, by rw [if_pos rfl]⟩
    · obtain ⟨j, hqp⟩ := hs.live h l hl
      have hne : j ≠ i := by
        rintro rfl
        rw [hfree] at hqp
        simp at hqp
      exact ⟨j, by rw [if_neg hne, hqp]⟩
  · rcases hnew hl with ⟨rfl, heq⟩ | ⟨-, hl⟩
    · obtain ⟨rfl, rfl, rfl⟩ := heq
      exact hrecv
    · exact hs.entry h s r x' hl
  · rcases hnew hl with ⟨rfl, heq⟩ | ⟨-, hl⟩
    · -- its send queue is new
      obtain ⟨rfl, rfl, rfl⟩ := heq
      exact fun hbad => absurd (hs.lt_of_receivesTo hbad) (lt_irrefl _)
    · exact hs.sends h s r x' hl
  · rcases hnew hl with ⟨rfl, heq⟩ | ⟨-, hold₁⟩
    · obtain ⟨rfl, rfl, rfl⟩ := heq
      rcases hnew hl' with ⟨rfl, -⟩ | ⟨-, hold₂⟩
      · rfl
      · exact absurd (d.lt_of_cqs (hs.cqs _ _ _ _ hold₂).1) (lt_irrefl _)
    · rcases hnew hl' with ⟨rfl, heq⟩ | ⟨-, hold₂⟩
      · obtain ⟨rfl, rfl, rfl⟩ := heq
        exact absurd (d.lt_of_cqs (hs.cqs _ _ _ _ hold₁).1) (lt_irrefl _)
      · exact hs.sends_inj h h' s r r' x' x'' hold₁ hold₂
  · rcases hnew hl with ⟨rfl, heq⟩ | ⟨-, hl⟩
    · obtain ⟨rfl, rfl, rfl⟩ := heq
      exact ⟨Function.update_self _ _ _, hcqs _ hlive⟩
    · obtain ⟨hsend, hrecv⟩ := hs.cqs h s r x' hl
      exact ⟨hcqs s hsend, hcqs r hrecv⟩
  · obtain ⟨x', c', rfl, hx', hlt'⟩ := hs.srqs_live k' srq hlook
    exact ⟨x', c', rfl, hx', by rw [sharedPair_next]; omega⟩
  · rcases eq_or_ne c' d.next with rfl | hne
    · right
      refine ⟨d.next + 1, c, some x, ?_⟩
      rw [links_sharedPair, Function.update_self]
    · have hold : d.cqs c' = true := (Function.update_of_ne hne _ _).symm.trans hc'
      refine (hs.cqs_owned c' hold).imp_right ?_
      rintro ⟨h, r, x', hl⟩
      exact ⟨h, r, x', hkept hl⟩
  · exact Ledger.mono (Ledger.make hs.cq_ledger) (Nat.le_succ _)
  · exact Ledger.mono hs.srq_ledger (Nat.le_add_right _ 2)

/-! ## A queue pair less -/

theorem links_dropQp : (d.tick.dropQp h).links = Function.update d.links h none := by
  funext i
  rw [Device.links, dropQp_qps]
  rcases eq_or_ne i h with rfl | hne
  · rw [Function.update_self, Function.update_self]
    rfl
  · rw [Function.update_of_ne hne, Function.update_of_ne hne]
    rfl

/-- The device after the tear-down of the queue pair `h` with its queues. -/
def tornDown (d : Device) (h s r : ℕ) : Device := ((d.tick.dropQp h).reap s).reap r

theorem reaped_tornDown (d : Device) (h s r : ℕ) :
    (d.tick.dropQp h).Reaped (tornDown d h s r) :=
  (reaped_reap _ s).trans (reaped_reap _ r)

theorem links_tornDown {s r : ℕ} :
    (tornDown d h s r).links = Function.update d.links h none := by
  rw [(reaped_tornDown d h s r).links, links_dropQp]

/-- The queues after a tear-down: the send queue goes, and the receive
queue stays as long as another queue pair uses it. -/
theorem Shared.cqs_tornDown (hs : Shared d tab srqs) {s r : ℕ} {x : Option ℕ}
    (hl : d.links h = some (s, r, x)) :
    (tornDown d h s r).cqs s = false ∧
      ((tornDown d h s r).cqs r = true ↔ (tornDown d h s r).Attached r) ∧
      (∀ c, c ≠ s → c ≠ r → (tornDown d h s r).cqs c = d.cqs c) ∧ (tornDown d h s r).CqLedger := by
  obtain ⟨hsend, hrecv⟩ := hs.cqs h s r x hl
  have hne : s ≠ r := by
    rintro rfl
    exact hs.sends h s s x hl (hs.entry h s s x hl)
  -- no other queue pair sends to the send queue
  have hfree : ¬ (d.tick.dropQp h).Attached s := by
    rw [attached_iff_links]
    rintro ⟨h', s', r', x', hl', heq⟩
    rw [links_dropQp] at hl'
    have hne' : h' ≠ h := by
      rintro rfl
      rw [Function.update_self] at hl'
      simp at hl'
    rw [Function.update_of_ne hne'] at hl'
    rcases heq with rfl | rfl
    · exact hne' (hs.sends_inj h' h s' r' r x' x hl' hl)
    · exact hs.sends h r' r x hl (hs.entry h' s' r' x' hl')
  have hreap : (d.tick.dropQp h).reap s = (d.tick.dropQp h).tick.dropCq s := if_neg hfree
  have hsendCqs : ((d.tick.dropQp h).reap s).cqs = Function.update d.cqs s false := by
    rw [hreap]
    rfl
  have hrecvLive : ((d.tick.dropQp h).reap s).cqs r = true := by
    rw [hsendCqs, Function.update_of_ne hne.symm, hrecv]
  have hledger : ((d.tick.dropQp h).reap s).CqLedger :=
    CqLedger.reap (d := d.tick.dropQp h) hs.cq_ledger hsend
  refine ⟨?_, ?_, fun c hcs hcr => ?_, hledger.reap hrecvLive⟩
  · rw [tornDown, reap_cqs_of_ne hne, hsendCqs, Function.update_self]
  · rw [tornDown, reap_cqs_self, attached_iff_links, attached_iff_links, (reaped_reap _ r).links]
    exact ⟨fun hboth => hboth.1, fun hattached => ⟨hattached, hrecvLive⟩⟩
  · rw [tornDown, reap_cqs_of_ne hcr, hsendCqs, Function.update_of_ne hcs]

/-- **One queue pair is torn down.** -/
theorem Shared.tearDown (hs : Shared d tab srqs) (hqp : (tab i).qp = some h) {s r : ℕ}
    {x : Option ℕ} (hl : d.links h = some (s, r, x)) :
    Shared (tornDown d h s r) (fun j => if j = i then { tab i with qp := none } else tab j) srqs := by
  obtain ⟨hsend, hrecv, hother, hledger⟩ := hs.cqs_tornDown hl
  have hreaped := reaped_tornDown d h s r
  have hlinks : ∀ {h' l}, (tornDown d h s r).links h' = some l → h' ≠ h ∧ d.links h' = some l := by
    intro h' l hl'
    rw [links_tornDown] at hl'
    have hne : h' ≠ h := by
      rintro rfl
      rw [Function.update_self] at hl'
      simp at hl'
    rw [Function.update_of_ne hne] at hl'
    exact ⟨hne, hl'⟩
  have hkept : ∀ {h' l}, h' ≠ h → d.links h' = some l → (tornDown d h s r).links h' = some l := by
    intro h' l hne hl'
    rw [links_tornDown, Function.update_of_ne hne, hl']
  have htab : ∀ {j h'}, (if j = i then ({ tab i with qp := none } : IbQp) else tab j).qp = some h' →
      j ≠ i ∧ h' ≠ h ∧ (tab j).qp = some h' := by
    intro j h' hqp'
    split_ifs at hqp' with hj
    refine ⟨hj, ?_, hqp'⟩
    rintro rfl
    exact hj (hs.tables_inj j i h' hqp' hqp)
  refine ⟨fun n => ?_, fun j h' hqp' => ?_, fun j j' h' hj hj' => ?_, fun h' l hl' => ?_,
    fun h' s' r' x' hl' => hs.entry h' s' r' x' (hlinks hl').2,
    fun h' s' r' x' hl' => hs.sends h' s' r' x' (hlinks hl').2,
    fun h₁ h₂ s' r₁ r₂ x₁ x₂ hl₁ hl₂ =>
      hs.sends_inj h₁ h₂ s' r₁ r₂ x₁ x₂ (hlinks hl₁).2 (hlinks hl₂).2,
    fun h' s' r' x' hl' => ?_, fun k srq hlookup => ?_, hs.srqs_inj, fun c hc => ?_, fun x' hx' => ?_,
    hledger, ?_⟩
  · rw [hreaped.errno]
    exact hs.succeeds n
  · obtain ⟨hj, hne, hqp'⟩ := htab hqp'
    obtain ⟨s', r', x', hl', hat⟩ := hs.tables j h' hqp'
    exact ⟨s', r', x', hkept hne hl', (if_neg hj).trans hat⟩
  · exact hs.tables_inj j j' h' (htab hj).2.2 (htab hj').2.2
  · obtain ⟨hne, hl'⟩ := hlinks hl'
    obtain ⟨j, hqp'⟩ := hs.live h' l hl'
    have hj : j ≠ i := by
      rintro rfl
      rw [hqp] at hqp'
      exact hne (Option.some.inj hqp').symm
    exact ⟨j, by rw [if_neg hj, hqp']⟩
  · -- a queue pair that is left keeps both its queues
    obtain ⟨hne, hold⟩ := hlinks hl'
    obtain ⟨hsend', hrecv'⟩ := hs.cqs h' s' r' x' hold
    have hss : s' ≠ s := by
      rintro rfl
      exact hne (hs.sends_inj h' h s' r' r x' x hold hl)
    have hsr : s' ≠ r := by
      rintro rfl
      exact hs.sends h' s' r' x' hold (hs.entry h s s' x hl)
    have hrs : r' ≠ s := by
      rintro rfl
      exact hs.sends h r' r x hl (hs.entry h' s' r' x' hold)
    refine ⟨(hother s' hss hsr).trans hsend', ?_⟩
    rcases eq_or_ne r' r with rfl | hrr
    · rw [hrecv, attached_iff_links]
      exact ⟨h', s', r', x', hl', Or.inr rfl⟩
    · exact (hother r' hrs hrr).trans hrecv'
  · obtain ⟨x', c, rfl, hx', hlt⟩ := hs.srqs_live k srq hlookup
    refine ⟨x', c, rfl, ?_, ?_⟩
    · rw [hreaped.srqs]
      exact hx'
    · rw [hreaped.next]
      exact hlt
  · rcases eq_or_ne c s with rfl | hcs
    · rw [hsend] at hc
      simp at hc
    rcases eq_or_ne c r with rfl | hcr
    · exact Or.inl (hs.entry h s c x hl)
    rw [hother c hcs hcr] at hc
    refine (hs.cqs_owned c hc).imp_right ?_
    rintro ⟨h', r', x', hl'⟩
    refine ⟨h', r', x', hkept ?_ hl'⟩
    rintro rfl
    rw [hl] at hl'
    exact hcs (Prod.ext_iff.mp (Option.some.inj hl')).1.symm
  · rw [hreaped.srqs] at hx'
    exact hs.srqs_owned x' hx'
  · rw [SrqLedger, hreaped.srqsMade, hreaped.srqsDestroyed, hreaped.srqs, hreaped.next]
    exact hs.srq_ledger

end ReliableRDMA

end RdmaManager
