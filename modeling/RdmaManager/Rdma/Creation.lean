import Mathlib.Tactic.IntervalCases
import RdmaManager.Rdma.Multicast
import RdmaManager.Rdma.SharedReceiveQueue
/-!
# Creation is not all or nothing

The functions that make objects on a device make several of them, one call
after the other, and throw at the first call that fails. None of them
destroys what was made before that call, and what was made is in no table
yet, so nobody can. `AllOrNothing` is what they would have to be.
-/

namespace RdmaManager

/-- The live objects of a device. -/
def Device.objects (d : Device) : Set (ObjectKind × ℕ) :=
  {o | match o.1 with
    | .qp => d.qps o.2 ≠ none
    | .cq => d.cqs o.2 = true
    | .srq => d.srqs o.2 = true
    | .ah => d.ahs o.2 ≠ none
    | _ => False}

/-- The objects that an `ib_qp_t` names. -/
def IbQp.objects (qp : IbQp) : Set (ObjectKind × ℕ) :=
  {o | o.1 = .qp ∧ qp.qp = some o.2 ∨ o.1 = .cq ∧ (qp.sendCq = some o.2 ∨ qp.recvCq = some o.2)}

/-- The objects that a `sharedrq_t` names. -/
def SharedRq.objects (rq : SharedRq) : Set (ObjectKind × ℕ) :=
  {o | o.1 = .srq ∧ rq.sharedRq = some o.2 ∨ o.1 = .cq ∧ rq.recvCq = some o.2}

/-- The objects that the entry of a group names. -/
def MCastEntry.objects (conn : MCastEntry) : Set (ObjectKind × ℕ) :=
  {o | o.1 = .channel ∧ conn.channel = some o.2 ∨ o.1 = .cmId ∧ conn.id = some o.2 ∨
    o.1 = .pd ∧ conn.pd = some o.2 ∨ o.1 = .mr ∧ conn.mr = some o.2 ∨
    o.1 = .cq ∧ (conn.scq = some o.2 ∨ conn.rcq = some o.2) ∨
    o.1 = .qp ∧ conn.qp = some o.2 ∨ o.1 = .ah ∧ conn.ah = some o.2}

/-- **An object that makes objects on a device**: those that are live, those
that its tables name, and when its tables are the same. -/
structure Owner (σ : Type) where
  live : σ → Set (ObjectKind × ℕ)
  named : σ → Set (ObjectKind × ℕ)
  Same : σ → σ → Prop

namespace Owner

variable {σ α : Type}

/-- The language defines what the call does. -/
def Defined (f : Act σ α) (s : σ) : Prop := ∀ what, (f s).1 ≠ .error (.undefined what)

/-- **All or nothing**: what a call that returns has made is named by the
tables, or by what it returns (`out`); a call that throws has made nothing
and left the tables alone. -/
def AllOrNothing (O : Owner σ) (out : α → Set (ObjectKind × ℕ)) (f : Act σ α) (s : σ) : Prop :=
  match f s with
  | (.ok a, s') => ∀ o ∈ O.live s', o ∉ O.live s → o ∈ O.named s' ∪ out a
  | (.error _, s') => O.live s' = O.live s ∧ O.Same s s'

/-- A call that returns is spared, and has left nothing unnamed. -/
def Returns (O : Owner σ) (out : α → Set (ObjectKind × ℕ)) (s : σ) (spared : Prop) (a : α) (s' : σ) :
    Prop :=
  spared ∧ ∀ x ∈ O.live s', x ∉ O.live s → x ∈ O.named s' ∪ out a

/-- A call that throws has left everything as it was exactly if it is
spared. -/
def Throws (O : Owner σ) (s : σ) (spared : Prop) (e : Exn) (s' : σ) : Prop :=
  (∃ what, e = .undefined what) ∨ (O.live s' = O.live s ∧ O.Same s s' ↔ spared)

/-- Such calls are all or nothing exactly if they are spared. -/
theorem allOrNothing_iff {O : Owner σ} {out : α → Set (ObjectKind × ℕ)} {f : Act σ α} {s : σ}
    {spared : Prop} (h : Act.wp f (O.Returns out s spared) (O.Throws s spared) s)
    (hdefined : Defined f s) : O.AllOrNothing out f s ↔ spared := by
  unfold AllOrNothing
  unfold Act.wp at h
  rcases hres : f s with ⟨e | a, s'⟩ <;> rw [hres] at h
  · rcases h with ⟨what, rfl⟩ | hiff
    · exact absurd (congrArg Prod.fst hres) (hdefined what)
    · exact hiff
  · exact iff_of_true h.2 h.1

/-- Of the calls whose behaviour is defined those are all or nothing that
are spared. -/
def WholeIff (O : Owner σ) (out : α → Set (ObjectKind × ℕ)) (f : Act σ α) (spared : σ → Prop) : Prop :=
  ∀ s, Defined f s → (O.AllOrNothing out f s ↔ spared s)

theorem wholeIff_of_wp {O : Owner σ} {out : α → Set (ObjectKind × ℕ)} {f : Act σ α} {spared : σ → Prop}
    (h : ∀ s, Act.wp f (O.Returns out s (spared s)) (O.Throws s (spared s)) s) :
    O.WholeIff out f spared :=
  fun s => allOrNothing_iff (h s)

end Owner

/-- The first `n` calls succeed. -/
def Device.Spares (d : Device) (n : ℕ) : Prop := ∀ k < n, d.errno (d.calls + k) = 0

/-- An object that was not live is. -/
theorem live_ne {S T : Set (ObjectKind × ℕ)} {P : Prop} (o : ObjectKind × ℕ) (ho : o ∈ S)
    (hnot : o ∉ T) : ¬ (S = T ∧ P) := by
  rintro ⟨rfl, -⟩
  exact hnot ho

/-- A fresh handle is of no object. -/
theorem Device.notMem_objects (d : Device) (kind : ObjectKind) {h : ℕ} (hle : d.next ≤ h) :
    (kind, h) ∉ d.objects := by
  obtain ⟨hqp, hcq, hsrq, hah⟩ := d.fresh h hle
  cases kind <;> simp [Device.objects, hqp, hcq, hsrq, hah]

/-- Where nothing is new but a queue pair and its completion queues, it
names what is new. -/
theorem mem_made {d d' : Device} {q s r : ℕ} {x : ObjectKind × ℕ}
    (hx : x ∈ d'.objects) (hnot : x ∉ d.objects) (hsrqs : ∀ h, d'.srqs h = d.srqs h)
    (hahs : ∀ h, d'.ahs h = d.ahs h)
    (hqps : ∀ h, h ≠ q → d'.qps h = d.qps h) (hcqs : ∀ h, h ≠ s → h ≠ r → d'.cqs h = d.cqs h) :
    x ∈ (IbQp.mk (some q) (some s) (some r)).objects := by
  obtain ⟨kind, h⟩ := x
  cases kind with
  | qp =>
      rcases eq_or_ne h q with rfl | hne
      · exact Or.inl ⟨rfl, rfl⟩
      · have hlive : d'.qps h ≠ none := hx
        rw [hqps h hne] at hlive
        exact absurd hlive hnot
  | cq =>
      by_cases hs : h = s
      · exact Or.inr ⟨rfl, Or.inl (by rw [hs])⟩
      by_cases hr : h = r
      · exact Or.inr ⟨rfl, Or.inr (by rw [hr])⟩
      · have hlive : d'.cqs h = true := hx
        rw [hcqs h hs hr] at hlive
        exact absurd hlive hnot
  | srq =>
      have hlive : d'.srqs h = true := hx
      rw [hsrqs h] at hlive
      exact absurd hlive hnot
  | ah =>
      have hlive : d'.ahs h ≠ none := hx
      rw [hahs h] at hlive
      exact absurd hlive hnot
  | pd | mr | cmId | channel => exact absurd hx fun h => h

/-! ## Reliable objects -/

/-- A `ReliableRDMA`. -/
def reliableOwner : Owner ReliableRDMA where
  live o := o.device.objects
  named o := {x | (∃ id, x ∈ (o.qpAt id).objects) ∨ ∃ k rq, o.srqs.lookup k = some rq ∧ x ∈ rq.objects}
  Same o o' := o'.qps = o.qps ∧ o'.rconns = o.rconns ∧ o'.lconns = o.lconns ∧
    o'.countWR = o.countWR ∧ o'.connected = o.connected ∧ o'.qpNum2connID = o.qpNum2connID ∧
    o'.srqs = o.srqs ∧ o'.srqCounter = o.srqCounter ∧ o'.connectedQPs = o.connectedQPs

namespace ReliableRDMA

open BaseRDMA Act Device

variable {o : ReliableRDMA} {id : ℕ}

/-- The first of the `n` calls fails, or none does. -/
def FirstOrNone (n : ℕ) (d : Device) : Prop := d.errno d.calls ≠ 0 ∨ d.Spares n

theorem not_firstOrNone {n k : ℕ} {d : Device} (hfirst : d.errno d.calls = 0) (hk : k < n)
    (herr : d.errno (d.calls + k) ≠ 0) : ¬ FirstOrNone n d := by
  rintro (hbad | hspares)
  · exact hbad hfirst
  · exact herr (hspares k hk)

/-- What is new on a device with a new queue pair. -/
theorem mem_madeQp {d : Device} {type : QpType} {x : ObjectKind × ℕ}
    (hx : x ∈ (d.queuePair type).objects) (hnot : x ∉ d.objects) : x ∈ (madeQp d).objects := by
  refine mem_made hx hnot (fun _ => rfl) (fun _ => rfl) (fun h hq => ?_) fun h hs hr => ?_
  · rw [queuePair_qps, Function.update_of_ne hq]
  · rw [queuePair_cqs, Function.update_of_ne hr, Function.update_of_ne hs]

/-- The first completion queue of a call that fails later is left. -/
theorem leaks_cq {d d' : Device} (hgrown : d.tick.addCq.Grown d') {P : Prop} :
    ¬ (d'.objects = d.objects ∧ P) := by
  refine live_ne (.cq, d.next) ?_ (d.notMem_objects .cq le_rfl)
  show d'.cqs d.next = true
  rw [hgrown.cqs d.next (Nat.lt_succ_self _)]
  exact Function.update_self _ _ _

/-- A failure of the first call leaves no trace. -/
theorem throws_first {o : ReliableRDMA} {n : ℕ} (h : o.device.errno o.device.calls ≠ 0) (e : Exn) :
    reliableOwner.Throws o (FirstOrNone n o.device) e
      { o with toBaseRDMA := { o.toBaseRDMA with device := o.device.tick } } :=
  Or.inr (iff_of_true ⟨rfl, rfl, rfl, rfl, rfl, rfl, rfl, rfl, rfl, rfl⟩ (Or.inl h))

theorem wp_initQPDetached_whole (qp : IbQp) (localConn : IbConn) (o : ReliableRDMA) :
    wp (onBase (initQPDetached qp localConn))
      (reliableOwner.Returns (fun a => a.1.objects) o (FirstOrNone 5 o.device))
      (reliableOwner.Throws o (FirstOrNone 5 o.device)) o := by
  rw [wp_onBase]
  refine wp_initQPDetached_cases (fun hspares => ?_) throws_first fun k hk h₀ herr e d' hgrown => ?_
  · exact ⟨Or.inr hspares, fun x hx hnot => Or.inr (mem_madeQp hx hnot)⟩
  · exact Or.inr (iff_of_false (leaks_cq hgrown) (not_firstOrNone h₀ hk herr))

theorem wp_initQPWithSuppliedID_whole (id : ℕ) (o : ReliableRDMA) :
    wp (onBase (initQPWithSuppliedID id))
      (reliableOwner.Returns (fun _ => ∅) o (FirstOrNone 5 o.device))
      (reliableOwner.Throws o (FirstOrNone 5 o.device)) o := by
  rw [wp_onBase]
  unfold initQPWithSuppliedID
  simp only [wp_bind, wp_get]
  refine wp_initQPDetached_cases (fun hspares => ?_) throws_first fun k hk h₀ herr e d' hgrown => ?_
  · refine wp_setQP rfl (fun s hset => ?_) fun what _ => Or.inl ⟨what, rfl⟩
    refine wp_setLocalConnData (fun lconns _ _ => ⟨Or.inr hspares, fun x hx hnot => ?_⟩) fun what _ =>
      Or.inl ⟨what, rfl⟩
    have hlive : x ∈ s.device.objects := hx
    rw [hset.device] at hlive
    have hentry : s.qpAt id = madeQp o.device := by rw [hset.qpAt, if_pos rfl]
    refine Or.inl (Or.inl ⟨id, ?_⟩)
    show x ∈ (s.qpAt id).objects
    rw [hentry]
    exact mem_madeQp hlive hnot
  · exact Or.inr (iff_of_false (leaks_cq hgrown) (not_firstOrNone h₀ hk herr))

theorem wp_initQP_whole (o : ReliableRDMA) :
    wp (onBase initQP) (reliableOwner.Returns (fun _ => ∅) o (FirstOrNone 5 o.device))
      (reliableOwner.Throws o (FirstOrNone 5 o.device)) o := by
  have hcall := wp_initQPWithSuppliedID_whole o.nextConnKey o
  rw [wp_onBase] at hcall ⊢
  unfold initQP
  simp only [wp_bind, wp_get, wp_pure]
  exact hcall

/-- The shared receive queue is left if its completion queue is not made. -/
theorem wp_createSharedReceiveQueue_whole (o : ReliableRDMA) :
    wp createSharedReceiveQueue (reliableOwner.Returns (fun _ => ∅) o (FirstOrNone 2 o.device))
      (reliableOwner.Throws o (FirstOrNone 2 o.device)) o := by
  unfold createSharedReceiveQueue
  simp only [wp_bind, wp_ite, wp_pure, wp_throw, wp_get, wp_modify, wp_onBase, wp_onDevice,
    wp_ibvCreateSrq, wp_ibvCreateCq, reduceCtorEq, not_false_eq_true, not_true_eq_false,
    false_implies, true_implies, true_and, and_true]
  refine ⟨fun h₀ => ⟨fun h₁ => ⟨Or.inr fun k hk => ?_, fun x hx hnot => ?_⟩, fun h₁ => ?_⟩, fun h₀ => ?_⟩
  · have hcases : k = 0 ∨ k = 1 := by omega
    rcases hcases with rfl | rfl
    exacts [h₀, h₁]
  · refine Or.inl (Or.inr ⟨o.srqCounter, _, Finmap.lookup_insert _, ?_⟩)
    obtain ⟨kind, h⟩ := x
    cases kind with
    | srq =>
        have hlive : Function.update o.device.srqs o.device.next true h = true := hx
        have hdead : ¬ o.device.srqs h = true := hnot
        rcases eq_or_ne h o.device.next with rfl | hne
        · exact Or.inl ⟨rfl, rfl⟩
        · rw [Function.update_of_ne hne] at hlive
          exact absurd hlive hdead
    | cq =>
        have hlive : Function.update o.device.cqs (o.device.next + 1) true h = true := hx
        have hdead : ¬ o.device.cqs h = true := hnot
        rcases eq_or_ne h (o.device.next + 1) with rfl | hne
        · exact Or.inr ⟨rfl, rfl⟩
        · rw [Function.update_of_ne hne] at hlive
          exact absurd hlive hdead
    | qp => exact absurd hx hnot
    | ah => exact absurd hx hnot
    | pd | mr | cmId | channel => exact absurd hx fun h => h
  · refine Or.inr (iff_of_false ?_ (not_firstOrNone h₀ (k := 1) (by omega) h₁))
    exact live_ne (.srq, o.device.next) (Function.update_self _ _ _) (o.device.notMem_objects .srq le_rfl)
  · exact throws_first h₀ _

/-- What is new on a device with a new queue pair of a shared receive queue. -/
theorem mem_sharedPair {d : Device} {type : QpType} {c : ℕ} {srq : Option ℕ} {x : ObjectKind × ℕ}
    (hx : x ∈ ((d.addCq.tick.addQp ⟨type, .reset, none, d.next, c, srq⟩).tick.setQp (d.next + 1)
      ⟨type, .init, none, d.next, c, srq⟩).objects) (hnot : x ∉ d.objects) :
    x ∈ (IbQp.mk (some (d.next + 1)) (some d.next) (some c)).objects := by
  refine mem_made hx hnot (fun _ => rfl) (fun _ => rfl) (fun h hq => ?_) fun h hs _ => ?_
  · show Function.update (Function.update d.qps (d.next + 1) _) (d.next + 1) _ h = _
    rw [Function.update_of_ne hq, Function.update_of_ne hq]
  · exact Function.update_of_ne hs _ _

/-- The first two calls, of which the first makes nothing, fail, or none
of the four does. -/
def SparedSrq (d : Device) : Prop :=
  d.errno d.calls ≠ 0 ∨ d.errno (d.calls + 1) ≠ 0 ∨ d.Spares 4

theorem wp_initQPForSRQWithSuppliedID_whole (k id : ℕ) (o : ReliableRDMA) :
    wp (initQPForSRQWithSuppliedID k id)
      (reliableOwner.Returns (fun _ => ∅) o (SparedSrq o.device))
      (reliableOwner.Throws o (SparedSrq o.device)) o := by
  refine wp_initQPForSRQWithSuppliedID_cases (fun srq c s lconns connectedQPs hnone _ hset => ?_)
    (fun h₀ e => ?_) (fun h₁ e => ?_) (fun j hj h₀ h₁ herr e d hgrown => ?_)
    fun what _ _ _ _ _ => Or.inl ⟨what, rfl⟩
  · refine ⟨Or.inr (Or.inr hnone), fun x hx hnot => ?_⟩
    have hnew : x ∈ s.device.objects := hx
    rw [hset.device] at hnew
    have hentry := hset.qpAt id
    rw [if_pos rfl] at hentry
    refine Or.inl (Or.inl ⟨id, ?_⟩)
    show x ∈ (s.qpAt id).objects
    rw [hentry]
    exact mem_sharedPair (d := o.device.tick.tick) hnew hnot
  · exact Or.inr (iff_of_true ⟨rfl, rfl, rfl, rfl, rfl, rfl, rfl, rfl, rfl, rfl⟩ (Or.inl h₀))
  · exact Or.inr (iff_of_true ⟨rfl, rfl, rfl, rfl, rfl, rfl, rfl, rfl, rfl, rfl⟩ (Or.inr (Or.inl h₁)))
  · -- the send completion queue is left
    refine Or.inr (iff_of_false (leaks_cq (d := o.device.tick) hgrown) ?_)
    rintro (hbad | hbad | hspares)
    · exact hbad h₀
    · exact hbad h₁
    · exact herr (hspares j hj)

end ReliableRDMA

/-! ## Unreliable objects -/

/-- An `UnreliableRDMA`, but for its groups. -/
def unreliableOwner : Owner UnreliableRDMA where
  live u := u.device.objects
  named u := {x | x ∈ u.udqp.objects ∨ ∃ id, x ∈ (u.qpAt id).objects}
  Same u u' := u'.qps = u.qps ∧ u'.rconns = u.rconns ∧ u'.lconns = u.lconns ∧
    u'.countWR = u.countWR ∧ u'.connected = u.connected ∧ u'.qpNum2connID = u.qpNum2connID ∧
    u'.udqp = u.udqp ∧ u'.udqpConn = u.udqpConn

namespace UnreliableRDMA

open BaseRDMA Act Device

/-- There is a queue pair, or none of the six calls fails, or the first one
does and the object names no send completion queue from an earlier try. -/
def Spared (u : UnreliableRDMA) : Prop :=
  u.udqp.qp ≠ none ∨ u.device.Spares 6 ∨ u.device.errno u.device.calls ≠ 0 ∧ u.udqp.sendCq = none

/-- What is new on a device with the one queue pair. -/
theorem mem_onePair {d : Device} {type : QpType} {x : ObjectKind × ℕ}
    (hx : x ∈ (onePair d type).objects) (hnot : x ∉ d.objects) :
    x ∈ (IbQp.mk (some (d.next + 2)) (some d.next) (some (d.next + 1))).objects := by
  refine mem_made hx hnot (fun h => ?_) (fun h => ?_) (fun h hq => ?_) fun h hs hr => ?_
  · simp only [onePair, setQp_srqs, tick_srqs, addQp_srqs, addCq_srqs]
  · simp only [onePair, setQp_ahs, tick_ahs, addQp_ahs, addCq_ahs]
  · simp only [onePair, setQp_qps, tick_qps, addQp_qps, addCq_qps, addCq_next, tick_next,
      Function.update_of_ne hq]
  · simp only [onePair, setQp_cqs, tick_cqs, addQp_cqs, addCq_cqs, addCq_next, tick_next,
      Function.update_of_ne hs, Function.update_of_ne hr]

/-- What `makeUdqp` does, whatever is entered in the tables then. -/
theorem wp_makeUdqp_whole {α : Type} {u : UnreliableRDMA} {out : α → Set (ObjectKind × ℕ)}
    {f : Unit → Act UnreliableRDMA α}
    (hf : ∀ u', (∀ x ∈ u'.device.objects, x ∉ u.device.objects → x ∈ u'.udqp.objects) → Spared u →
      wp (f ()) (unreliableOwner.Returns out u (Spared u)) (unreliableOwner.Throws u (Spared u)) u') :
    wp (makeUdqp >>= f) (unreliableOwner.Returns out u (Spared u))
      (unreliableOwner.Throws u (Spared u)) u := by
  rw [wp_bind]
  cases hqp : u.udqp.qp with
  | some h =>
      have hspared : Spared u := Or.inl (by simp [hqp])
      exact wp_makeUdqp hqp (hf u (fun x hx hnot => absurd hx hnot) hspared)
  | none =>
      refine wp_makeUdqp_cases hqp (fun hspares udqpConn => ?_) (fun hfirst e => ?_)
        fun k hk h₀ herr e u' hgrown => ?_
      · exact hf _ (fun x hx hnot => mem_onePair hx hnot) (Or.inr (Or.inl hspares))
      · refine Or.inr ⟨fun hsame => Or.inr (Or.inr ⟨hfirst, ?_⟩), fun hspared => ?_⟩
        · obtain ⟨-, -, -, -, -, -, -, hudqp, -⟩ := hsame
          exact (congrArg IbQp.sendCq hudqp).symm
        · have hnull : u.udqp.sendCq = none := by
            rcases hspared with hbad | hspares | ⟨-, hnull⟩
            · exact absurd hqp hbad
            · exact absurd (hspares 0 (by omega)) hfirst
            · exact hnull
          have hudqp : { u.udqp with sendCq := none } = u.udqp := by rw [← hnull]
          exact ⟨rfl, rfl, rfl, rfl, rfl, rfl, rfl, hudqp, rfl⟩
      · refine Or.inr (iff_of_false (ReliableRDMA.leaks_cq hgrown) ?_)
        rintro (hbad | hspares | ⟨hbad, -⟩)
        · exact hbad hqp
        · exact herr (hspares k hk)
        · exact hbad h₀

theorem wp_initQPDetached_whole (u : UnreliableRDMA) :
    wp initQPDetached (unreliableOwner.Returns (fun a => a.1.objects) u (Spared u))
      (unreliableOwner.Throws u (Spared u)) u := by
  refine wp_makeUdqp_whole fun u' hnew hspared => ?_
  simp only [wp_bind, wp_get, wp_pure]
  exact ⟨hspared, fun x hx hnot => Or.inl (Or.inl (hnew x hx hnot))⟩

theorem wp_initQPWithSuppliedID_whole (id : ℕ) (u : UnreliableRDMA) :
    wp (initQPWithSuppliedID id) (unreliableOwner.Returns (fun _ => ∅) u (Spared u))
      (unreliableOwner.Throws u (Spared u)) u := by
  refine wp_makeUdqp_whole fun u' hnew hspared => ?_
  simp only [wp_bind, wp_get, wp_onBase]
  refine wp_setQP_any (fun s hset => ?_) fun what _ => Or.inl ⟨what, rfl⟩
  refine wp_setLocalConnData (fun lconns _ _ => ⟨hspared, fun x hx hnot => ?_⟩) fun what _ =>
    Or.inl ⟨what, rfl⟩
  have hlive : x ∈ s.device.objects := hx
  rw [hset.device] at hlive
  exact Or.inl (Or.inl (hnew x hlive hnot))

theorem wp_initQP_whole (u : UnreliableRDMA) :
    wp initQP (unreliableOwner.Returns (fun _ => ∅) u (Spared u))
      (unreliableOwner.Throws u (Spared u)) u := by
  unfold initQP
  simp only [wp_bind, wp_get, wp_pure]
  exact wp_initQPWithSuppliedID_whole u.nextConnKey u

end UnreliableRDMA

/-! ## Multicast groups -/

/-- The groups of an `UnreliableRDMA`. `leaveMCastGroup` looks at the
active ones. -/
def mcastOwner : Owner MCastGroups where
  live g := {x | x ∈ g.cm.live}
  named g := {x | ∃ conn ∈ g.udpMcastConns, conn.active = true ∧ x ∈ conn.objects}
  Same g g' := g'.udpMcastConns = g.udpMcastConns ∧ g'.sendMCastCount = g.sendMCastCount

namespace MCastGroups

open CmDevice Act

/-- The first of the thirteen calls fails, or none does and both events are
those that are waited for. -/
def Spared (d : CmDevice) : Prop :=
  d.errno d.calls ≠ 0 ∨ (∀ k < 13, d.errno (d.calls + k) = 0) ∧
    (d.event (d.calls + 4)).event = RDMA_CM_EVENT_ADDR_RESOLVED ∧
    (d.event (d.calls + 11)).event = RDMA_CM_EVENT_MULTICAST_JOIN

/-- What a call that fails later has left: the event channel. -/
theorem throws_later {g g' : MCastGroups} {c n : ℕ} {new : List (ObjectKind × ℕ)} (hspared : ¬ Spared g.cm)
    (hafter : After g.cm new n g'.cm) (hchannel : (.channel, c) ∈ new) (e : Exn) :
    mcastOwner.Throws g (Spared g.cm) e g' := by
  refine Or.inr (iff_of_false (live_ne (.channel, c) ?_ (hafter.apart _ hchannel)) hspared)
  show _ ∈ g'.cm.live
  rw [hafter.live]
  exact List.mem_append_left _ hchannel

theorem wp_joinMCastGroup_whole (mCastAddress : String) (g : MCastGroups) :
    wp (joinMCastGroup mCastAddress) (mcastOwner.Returns (fun _ => ∅) g (Spared g.cm))
      (mcastOwner.Throws g (Spared g.cm)) g := by
  unfold joinMCastGroup nextMCastConnKey
  simp only [wp_bind, wp_get, wp_modify, wp_pure, wp_onCm, wp_ite, wp_throw]
  refine (After.start g.cm).wp_made (fun h₀ c d a => ?_) fun h₀ e d a => ?_
  swap
  · refine Or.inr (iff_of_true ⟨?_, rfl, rfl⟩ (Or.inl h₀))
    show {x | x ∈ d.live} = _
    rw [a.live]
    rfl
  -- from here on the event channel `c` stays behind if a call fails
  have hfails : ∀ k < 13, g.cm.errno (g.cm.calls + k) ≠ 0 → ¬ Spared g.cm := by
    rintro k hk herr (hbad | ⟨hnone, -⟩)
    · exact hbad h₀
    · exact herr (hnone k hk)
  have hlater : ∀ {k n : ℕ} {new : List (ObjectKind × ℕ)} {e : Exn} {g' : MCastGroups}, k < 13 →
      g.cm.errno (g.cm.calls + k) ≠ 0 → After g.cm new n g'.cm → (.channel, c) ∈ new →
      mcastOwner.Throws g (Spared g.cm) e g' :=
    fun hk herr hafter hchannel => throws_later (hfails _ hk herr) hafter hchannel _
  refine a.wp_made (fun h₁ i d a => ?_) fun h₁ e d a => ?_
  swap
  · exact hlater (by omega) h₁ a (by simp)
  refine a.wp_done (fun h₂ d a => ?_) fun h₂ e d a => ?_
  swap
  · exact hlater (by omega) h₂ a (by simp)
  refine a.wp_done (fun h₃ d a => ?_) fun h₃ e d a => ?_
  swap
  · exact hlater (by omega) h₃ a (by simp)
  refine wp_getCmEvent a (fun h₄ hresolved event d a => ?_) fun h₄ e d a => ?_
  swap
  · refine throws_later (c := c) (fun hspared => ?_) a (by simp) e
    rcases h₄ with herr | htype
    · exact hfails 4 (by omega) herr hspared
    · exact htype (hspared.resolve_left fun hbad => hbad h₀).2.1
  refine a.wp_made (fun h₅ pd d a => ?_) fun h₅ e d a => ?_
  swap
  · exact hlater (by omega) h₅ a (by simp)
  refine a.wp_made (fun h₆ mr d a => ?_) fun h₆ e d a => ?_
  swap
  · exact hlater (by omega) h₆ a (by simp)
  -- both completion queues are asked for
  refine a.wp_create (fun h₇ scq d a => ?_) fun h₇ d a => ?_
  swap
  · refine a.wp_create (fun h₈ rcq d a => ⟨fun _ => ?_, fun hbad => ?_⟩) fun h₈ d a =>
      ⟨fun _ => ?_, fun hbad => ?_⟩
    · exact hlater (by omega) h₇ a (by simp)
    · exact absurd (Or.inl rfl) hbad
    · exact hlater (by omega) h₇ a (by simp)
    · exact absurd (Or.inl rfl) hbad
  refine a.wp_create (fun h₈ rcq d a => ⟨fun hbad => ?_, fun _ => ?_⟩) fun h₈ d a =>
    ⟨fun _ => ?_, fun hbad => ?_⟩
  · exact absurd hbad (by simp)
  swap
  · exact hlater (by omega) h₈ a (by simp)
  swap
  · exact absurd (Or.inr rfl) hbad
  refine a.wp_made (fun h₉ qp d a => ?_) fun h₉ e d a => ?_
  swap
  · exact hlater (by omega) h₉ a (by simp)
  refine a.wp_done (fun h₁₀ d a => ?_) fun h₁₀ e d a => ?_
  swap
  · exact hlater (by omega) h₁₀ a (by simp)
  refine wp_getCmEvent a (fun h₁₁ hjoined event d a => ?_) fun h₁₁ e d a => ?_
  swap
  · refine throws_later (c := c) (fun hspared => ?_) a (by simp) e
    rcases h₁₁ with herr | htype
    · exact hfails 11 (by omega) herr hspared
    · exact htype (hspared.resolve_left fun hbad => hbad h₀).2.2
  refine a.wp_made (fun h₁₂ ah d a => ?_) fun h₁₂ e d a => ?_
  swap
  · exact hlater (by omega) h₁₂ a (by simp)
  have hspared : Spared g.cm := by
    refine Or.inr ⟨fun k hk => ?_, hresolved, hjoined⟩
    interval_cases k
    exacts [h₀, h₁, h₂, h₃, h₄, h₅, h₆, h₇, h₈, h₉, h₁₀, h₁₁, h₁₂]
  refine wp_setMCastConn (fun g' hcm hconn => ⟨hspared, fun x hx hnot => ?_⟩) fun what =>
    Or.inl ⟨what, rfl⟩
  have hlive : x ∈ g'.cm.live := hx
  rw [hcm] at hlive
  change x ∈ d.live at hlive
  rw [a.live] at hlive
  refine Or.inl ⟨_, hconn, rfl, ?_⟩
  have hmade := (List.mem_append.mp hlive).resolve_right hnot
  simp only [List.mem_cons, List.not_mem_nil, or_false] at hmade
  rcases hmade with rfl | rfl | rfl | rfl | rfl | rfl | rfl | rfl <;> simp [MCastEntry.objects]

end MCastGroups

/-! ## All of them -/

/-- **Creation is all or nothing** for none of the functions: only where no
call fails, or a call that fails comes before any object was made. -/
theorem creations_whole_iff (id srqId : ℕ) (qp : IbQp) (localConn : IbConn) (mCastAddress : String) :
    reliableOwner.WholeIff (fun _ => ∅) (ReliableRDMA.onBase ReliableRDMA.initQP)
        (fun o => ReliableRDMA.FirstOrNone 5 o.device) ∧
      reliableOwner.WholeIff (fun _ => ∅)
        (ReliableRDMA.onBase (ReliableRDMA.initQPWithSuppliedID id))
        (fun o => ReliableRDMA.FirstOrNone 5 o.device) ∧
      reliableOwner.WholeIff (fun a => a.1.objects)
        (ReliableRDMA.onBase (ReliableRDMA.initQPDetached qp localConn))
        (fun o => ReliableRDMA.FirstOrNone 5 o.device) ∧
      reliableOwner.WholeIff (fun _ => ∅) (ReliableRDMA.initQPForSRQWithSuppliedID srqId id)
        (fun o => ReliableRDMA.SparedSrq o.device) ∧
      reliableOwner.WholeIff (fun _ => ∅) ReliableRDMA.createSharedReceiveQueue
        (fun o => ReliableRDMA.FirstOrNone 2 o.device) ∧
      unreliableOwner.WholeIff (fun _ => ∅) UnreliableRDMA.initQP UnreliableRDMA.Spared ∧
      unreliableOwner.WholeIff (fun _ => ∅) (UnreliableRDMA.initQPWithSuppliedID id)
        UnreliableRDMA.Spared ∧
      unreliableOwner.WholeIff (fun a => a.1.objects) UnreliableRDMA.initQPDetached
        UnreliableRDMA.Spared ∧
      mcastOwner.WholeIff (fun _ => ∅) (MCastGroups.joinMCastGroup mCastAddress)
        (fun g => MCastGroups.Spared g.cm) :=
  ⟨Owner.wholeIff_of_wp ReliableRDMA.wp_initQP_whole,
    Owner.wholeIff_of_wp (ReliableRDMA.wp_initQPWithSuppliedID_whole id),
    Owner.wholeIff_of_wp (ReliableRDMA.wp_initQPDetached_whole qp localConn),
    Owner.wholeIff_of_wp (ReliableRDMA.wp_initQPForSRQWithSuppliedID_whole srqId id),
    Owner.wholeIff_of_wp ReliableRDMA.wp_createSharedReceiveQueue_whole,
    Owner.wholeIff_of_wp UnreliableRDMA.wp_initQP_whole,
    Owner.wholeIff_of_wp (UnreliableRDMA.wp_initQPWithSuppliedID_whole id),
    Owner.wholeIff_of_wp UnreliableRDMA.wp_initQPDetached_whole,
    Owner.wholeIff_of_wp (MCastGroups.wp_joinMCastGroup_whole mCastAddress)⟩

/-- An object on a device whose second call fails for want of memory. -/
def scarce : ReliableRDMA :=
  ReliableRDMA.fresh (ReliableRDMA.blank
    (Device.opened (fun n => if n = 1 then 12 else 0) fun _ => 0) 4096 1 1 IbConn.zero)

/-- The send completion queue of a queue pair that was not made. -/
theorem initQP_leaks :
    (ReliableRDMA.onBase ReliableRDMA.initQP scarce).1 =
        .error (.runtimeError "Cannot create receive CQ!") ∧
      (ReliableRDMA.onBase ReliableRDMA.initQP scarce).2.qps = [] ∧
      (ReliableRDMA.onBase ReliableRDMA.initQP scarce).2.device.cqs 0 = true ∧
      ¬ reliableOwner.AllOrNothing (fun _ => ∅) (ReliableRDMA.onBase ReliableRDMA.initQP) scarce := by
  have hcall : (ReliableRDMA.onBase ReliableRDMA.initQP scarce).1 =
      .error (.runtimeError "Cannot create receive CQ!") := by decide +kernel
  refine ⟨hcall, by decide +kernel, by decide +kernel, fun h => ?_⟩
  have hdefined : Owner.Defined (ReliableRDMA.onBase ReliableRDMA.initQP) scarce := by
    intro what hbad
    rw [hcall] at hbad
    exact absurd hbad (by simp)
  rcases (Owner.allOrNothing_iff (ReliableRDMA.wp_initQP_whole scarce) hdefined).mp h with hbad | hbad
  · exact absurd rfl hbad
  · exact absurd (hbad 1 (by omega)) (by decide)

end RdmaManager
