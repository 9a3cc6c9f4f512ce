import RdmaManager.Rdma.Sharing
/-!
# `ReliableRDMA::destroyQPs`

The first loop destroys the queue pairs one by one, each with its send
queue, and the receive queue of an entry with its last user. An entry
that has no queue pair keeps its receive queue, and nothing destroys it
later; the second loop destroys the shared receive queues only.
-/

namespace RdmaManager

namespace ReliableRDMA

open BaseRDMA Act Device

variable {s : BaseRDMA} {d : Device} {tab : ℕ → IbQp} {srqs : Finmap fun _ : ℕ => SharedRq}
variable {i n h : ℕ}

/-- Every completion queue of an entry is one that a queue pair uses. -/
def Served (d : Device) (srqs : Finmap fun _ : ℕ => SharedRq) : Prop :=
  ∀ c, ReceivesTo srqs c → d.cqs c = true → d.Attached c

/-- A tear-down leaves no completion queue of an entry unused. -/
theorem Served.tearDown (hserved : Served d srqs) (hs : Shared d tab srqs) {c r : ℕ} {x : Option ℕ}
    (hl : d.links h = some (c, r, x)) : Served (tornDown d h c r) srqs := by
  obtain ⟨hsend, hrecv, hother, -⟩ := hs.cqs_tornDown hl
  intro c' hc' hlive
  have hcs : c' ≠ c := by
    rintro rfl
    rw [hsend] at hlive
    simp at hlive
  rcases eq_or_ne c' r with rfl | hcr
  · exact hrecv.mp hlive
  rw [hother c' hcs hcr] at hlive
  obtain ⟨h', s', r', x', hl', heq⟩ := attached_iff_links.mp (hserved c' hc' hlive)
  refine attached_iff_links.mpr ⟨h', s', r', x', ?_, heq⟩
  rw [links_tornDown, Function.update_of_ne, hl']
  rintro rfl
  rw [hl, Option.some.injEq, Prod.mk.injEq, Prod.mk.injEq] at hl'
  rcases heq with rfl | rfl
  · exact hcs hl'.1.symm
  · exact hcr hl'.2.1.symm

theorem links_of_live {qp : Qp} (hqp : d.qps h = some qp) :
    d.links h = some (qp.sendCq, qp.recvCq, qp.srq) := by
  rw [Device.links, hqp]
  rfl

/-- The first loop: the entries from `i` on are torn down. -/
theorem wp_destroyQPsFrom (hs : Shared s.device s.qpAt srqs) (hserved : Served s.device srqs)
    (hlen : i + n = s.qps.length) (hdone : ∀ j < i, (s.qpAt j).qp = none) :
    wp (destroyQPsFrom i n)
      (fun _ s' => Shared s'.device s'.qpAt srqs ∧ Served s'.device srqs ∧
        ∀ j, (s'.qpAt j).qp = none)
      (fun _ _ => False) s := by
  induction n generalizing s i with
  | zero =>
      refine ⟨hs, hserved, fun j => ?_⟩
      rcases lt_or_ge j i with hj | hj
      · exact hdone j hj
      · rw [qpAt, List.getD_eq_default _ _ (by omega)]
        rfl
  | succ n ih =>
      unfold destroyQPsFrom
      simp only [wp_bind, wp_get, wp_ite, wp_throw, wp_modify, wp_onDevice]
      have hlt : i < s.qps.length := by omega
      refine ⟨fun hqp => ?_, fun hqp => ?_⟩
      · obtain ⟨h, hh⟩ := Option.ne_none_iff_exists'.mp hqp
        obtain ⟨c, r, x, hl, hat⟩ := hs.tables i h hh
        obtain ⟨qp, hqp', hlinks⟩ := Option.map_eq_some_iff.mp hl
        obtain ⟨hsend, hrecv⟩ := hs.cqs h c r (some x) hl
        have hne : c ≠ r := by
          rintro rfl
          exact hs.sends h c c (some x) hl (hs.entry h c c (some x) hl)
        rw [hat, wp_ibvDestroyQp hqp']
        refine ⟨fun _ => ⟨fun hbad => absurd rfl hbad.2, fun _ => ?_⟩,
          fun herr => absurd (hs.succeeds _) herr⟩
        refine wp_destroyCQ hs.succeeds hsend hrecv hne ?_
        have htab : (disconnected s i (tornDown s.device h c r)).qpAt =
            fun j => if j = i then { s.qpAt i with qp := none } else s.qpAt j :=
          funext (qpAt_disconnected hlt)
        have hkept : Shared (tornDown s.device h c r)
            (disconnected s i (tornDown s.device h c r)).qpAt srqs := by
          rw [htab]
          exact hs.tearDown hh hl
        have hstate : disconnected s i (tornDown s.device h c r) =
            { s with
              device := tornDown s.device h c r
              qps := s.qps.set i ⟨none, some c, some r⟩ } := by
          rw [disconnected, hat]
        change wp (destroyQPsFrom (i + 1) n) _ _
          { s with
            device := tornDown s.device h c r
            qps := s.qps.set i ⟨none, some c, some r⟩ }
        rw [← hstate]
        refine ih hkept (hserved.tearDown hs hl) ?_ fun j hj => ?_
        · change i + 1 + n = (s.qps.set i _).length
          rw [List.length_set]
          omega
        · rw [htab]
          change (if j = i then ({ s.qpAt i with qp := none } : IbQp) else s.qpAt j).qp = none
          split_ifs with hji
          · rfl
          · exact hdone j (by omega)
      · refine ih hs hserved (by omega) fun j hj => ?_
        rcases eq_or_ne j i with rfl | hji
        · exact not_not.mp hqp
        · exact hdone j (by omega)

/-- The second loop: the shared receive queues of the keys are destroyed,
where no queue pair is left. -/
theorem wp_destroySrqs {keys : List ℕ} (hsucc : s.device.Succeeds) (hcq : s.device.CqLedger)
    (hsrq : s.device.SrqLedger) (hfree : ∀ h, s.device.links h = none)
    (hinj : ∀ k k' x c c', srqs.lookup k = some ⟨some x, c⟩ → srqs.lookup k' = some ⟨some x, c'⟩ →
      k = k')
    (hkeys : keys.Nodup)
    (hlive : ∀ k ∈ keys, ∃ x c, srqs.lookup k = some ⟨some x, c⟩ ∧ s.device.srqs x = true) :
    wp (destroySrqs srqs keys)
      (fun _ s' => s'.device.cqs = s.device.cqs ∧ s'.device.CqLedger ∧ s'.device.SrqLedger ∧
        ∀ x, s'.device.srqs x = true → s.device.srqs x = true ∧
          ∀ k ∈ keys, ∀ c, srqs.lookup k ≠ some ⟨some x, c⟩)
      (fun _ _ => False) s := by
  induction keys generalizing s with
  | nil => exact ⟨rfl, hcq, hsrq, fun x hx => ⟨hx, fun k hk => absurd hk List.not_mem_nil⟩⟩
  | cons k keys ih =>
      obtain ⟨x, c, hlookup, hx⟩ := hlive k List.mem_cons_self
      obtain ⟨hk, hkeys⟩ := List.nodup_cons.mp hkeys
      unfold destroySrqs
      simp only [wp_bind, wp_ite, wp_throw, wp_onDevice, hlookup, Option.getD_some]
      rw [wp_ibvDestroySrq hx]
      refine ⟨fun hbusy => absurd hbusy (not_attachedSrq_of_links hfree), fun _ =>
        ⟨fun _ => ⟨fun hbad => absurd rfl hbad, fun _ => ?_⟩, fun herr => absurd (hsucc _) herr⟩⟩
      have hrest : ∀ k' ∈ keys, ∃ x' c', srqs.lookup k' = some ⟨some x', c'⟩ ∧
          Function.update s.device.srqs x false x' = true := by
        intro k' hk'
        obtain ⟨x', c', hlookup', hx'⟩ := hlive k' (List.mem_cons_of_mem k hk')
        refine ⟨x', c', hlookup', ?_⟩
        rw [Function.update_of_ne, hx']
        rintro rfl
        rw [hinj k' k x' c' c hlookup' hlookup] at hk'
        exact hk hk'
      refine wp_mono (ih (s := { s with device := s.device.tick.dropSrq x }) hsucc hcq
        (Ledger.destroy hsrq hx (s.device.lt_of_srqs hx)) hfree hkeys hrest)
        (fun _ s' hdone => ?_) fun _ _ hfalse => hfalse
      obtain ⟨hcqs, hcq', hsrq', hgone⟩ := hdone
      refine ⟨hcqs, hcq', hsrq', fun x' hx' => ?_⟩
      obtain ⟨hlive', hother⟩ := hgone x' hx'
      change Function.update s.device.srqs x false x' = true at hlive'
      have hne : x' ≠ x := by
        rintro rfl
        rw [Function.update_self] at hlive'
        simp at hlive'
      rw [Function.update_of_ne hne] at hlive'
      refine ⟨hlive', fun k' hk' => ?_⟩
      rcases List.mem_cons.mp hk' with rfl | hk'
      · intro c' hlookup'
        rw [hlookup, Option.some.injEq, SharedRq.mk.injEq, Option.some.injEq] at hlookup'
        exact hne hlookup'.1.symm
      · exact hother k' hk'

/-- **`destroyQPs` destroys everything once**, where every completion
queue of an entry is one that a queue pair uses. -/
theorem wp_destroyQPs {o : ReliableRDMA} (hs : Shared o.device o.qpAt o.srqs)
    (hserved : Served o.device o.srqs) :
    wp destroyQPs
      (fun _ o' => (∀ c ∈ o'.device.cqsMade, o'.device.cqsDestroyed.count c = 1) ∧
        ∀ x ∈ o'.device.srqsMade, o'.device.srqsDestroyed.count x = 1)
      (fun _ _ => False) o := by
  unfold destroyQPs
  simp only [wp_bind, wp_get, wp_modify, wp_onBase]
  refine wp_mono (wp_destroyQPsFrom hs hserved (Nat.zero_add _) fun j hj => absurd hj (by omega))
    (fun _ s hdone => ?_) fun _ _ hfalse => hfalse
  obtain ⟨hs', hserved', hdone⟩ := hdone
  -- no queue pair is left, and so no completion queue
  have hfree : ∀ h, s.device.links h = none := by
    intro h
    cases hl : s.device.links h with
    | none => rfl
    | some l =>
        obtain ⟨j, hqp⟩ := hs'.live h l hl
        rw [hdone j] at hqp
        simp at hqp
  have hnot : ∀ c, s.device.cqs c = false := by
    intro c
    rw [← Bool.not_eq_true]
    intro hlive
    rcases hs'.cqs_owned c hlive with hc | ⟨h, r, x, hl⟩
    · obtain ⟨h, s', r, x, hl, -⟩ := attached_iff_links.mp (hserved' c hc hlive)
      rw [hfree h] at hl
      simp at hl
    · rw [hfree h] at hl
      simp at hl
  have hlive : ∀ k ∈ o.srqs.keys.sort, ∃ x c, o.srqs.lookup k = some ⟨some x, c⟩ ∧
      s.device.srqs x = true := by
    intro k hk
    rw [Finset.mem_sort, Finmap.mem_keys] at hk
    obtain ⟨srq, hlookup⟩ := Finmap.mem_iff.mp hk
    obtain ⟨x, c, rfl, hx, -⟩ := hs'.srqs_live k srq hlookup
    exact ⟨x, some c, hlookup, hx⟩
  refine wp_mono (wp_destroySrqs (s := { s with qps := [] }) hs'.succeeds hs'.cq_ledger
    hs'.srq_ledger hfree hs'.srqs_inj (Finset.sort_nodup _ _) hlive) (fun _ s₂ hgone => ?_)
    fun _ _ hfalse => hfalse
  obtain ⟨hcqs, hcq, hsrq, hgone⟩ := hgone
  refine ⟨fun c hc => Ledger.count_eq_one hcq hc ?_, fun x hx => Ledger.count_eq_one hsrq hx ?_⟩
  · rw [hcqs]
    exact hnot c
  · rw [← Bool.not_eq_true]
    intro hlive'
    obtain ⟨hx', hother⟩ := hgone x hlive'
    obtain ⟨k, c, hlookup⟩ := hs'.srqs_owned x hx'
    refine hother k ?_ c hlookup
    rw [Finset.mem_sort, Finmap.mem_keys]
    exact Finmap.mem_of_lookup_eq_some hlookup

end ReliableRDMA

end RdmaManager
