import Mathlib.Data.Finset.Sort
import RdmaManager.Rdma.Reliable
/-!
# `ReliableRDMA`: shared receive queues

Several queue pairs may receive from one shared receive queue, and then
they complete their receives to the one completion queue made with it.
Their send completion queues are their own. `destroyQPs` is what the
destructor does.
-/

namespace RdmaManager

/-- `sharedrq_t`: handles, `none` for `nullptr`. -/
structure SharedRq where
  sharedRq : Option ℕ
  recvCq : Option ℕ
  deriving DecidableEq, Repr

/-- `sharedrq_t()`. -/
def SharedRq.null : SharedRq := ⟨none, none⟩

/-- The fields of `ReliableRDMA`. -/
structure ReliableRDMA extends BaseRDMA where
  srqs : Finmap fun _ : ℕ => SharedRq
  srqCounter : ℕ
  connectedQPs : Finmap fun _ : ℕ => List ℕ

namespace ReliableRDMA

open BaseRDMA

/-- Call a function that uses the fields of the base class only. -/
def onBase {α : Type} (x : Act BaseRDMA α) : Act ReliableRDMA α :=
  Act.zoom ReliableRDMA.toBaseRDMA (fun o s => { o with toBaseRDMA := s }) x

/-- `ReliableRDMA::createSharedReceiveQueue`. -/
def createSharedReceiveQueue : Act ReliableRDMA ℕ := do
  let sharedRq ← onBase (onDevice ibvCreateSrq)
  if sharedRq = none then throw (.runtimeError "Error, ibv_create_srq() failed!")
  let recvCq ← onBase (onDevice ibvCreateCq)
  if recvCq = none then throw (.runtimeError "Cannot create receive CQ!")
  let o ← Act.get
  Act.modify fun o => { o with
    srqs := o.srqs.insert o.srqCounter ⟨sharedRq, recvCq⟩
    srqCounter := wrap64 (o.srqCounter + 1) }
  return o.srqCounter

/-- `ReliableRDMA::createQP(size_t, ib_qp_t &)`: what it makes of the
caller's queue pair. -/
def createQPForSRQ (srqId : ℕ) : Act ReliableRDMA IbQp := do
  let err ← onBase (onDevice ibvQueryDevice)
  if err ≠ 0 then throw (.runtimeError "Error, ibv_query_device() failed")
  let sendCq ← onBase (onDevice ibvCreateCq)
  if sendCq = none then throw (.runtimeError "Cannot create send CQ!")
  let o ← Act.get
  let (srq, srqs) := subscript SharedRq.null srqId o.srqs
  Act.modify fun o => { o with srqs }
  let qp ← onBase (onDevice (ibvCreateQp o.qpType sendCq srq.recvCq srq.sharedRq))
  if qp = none then throw (.runtimeError "Cannot create queue pair!")
  return ⟨qp, sendCq, srq.recvCq⟩

/-- `ReliableRDMA::initQPForSRQWithSuppliedID`. -/
def initQPForSRQWithSuppliedID (srqId id : ℕ) : Act ReliableRDMA Unit := do
  let qp ← createQPForSRQ srqId
  let o ← Act.get
  let localConn ← onBase (fillConn qp.qp o.stack)
  onBase (onDevice (modifyQPToInit qp.qp))
  onBase (setQP id qp)
  onBase (setLocalConnData id localConn)
  Act.modify fun o =>
    let (ids, connectedQPs) := subscript [] srqId o.connectedQPs
    { o with connectedQPs := connectedQPs.insert srqId (ids ++ [id]) }

/-- `ReliableRDMA::initQPForSRQ`. -/
def initQPForSRQ (srqId : ℕ) : Act ReliableRDMA ℕ := do
  let o ← Act.get
  initQPForSRQWithSuppliedID srqId o.nextConnKey
  return o.nextConnKey

/-- The first loop of `ReliableRDMA::destroyQPs`, from the entry `i` on. -/
def destroyQPsFrom (i : ℕ) : ℕ → Act BaseRDMA Unit
  | 0 => return ()
  | n + 1 => do
      let s ← Act.get
      let qp := s.qpAt i
      if qp.qp ≠ none then
        let err ← onDevice (ibvDestroyQp qp.qp)
        if err ≠ EBUSY ∧ err ≠ 0 then
          throw (.runtimeError
            ("Error, ibv_destroy_qp() failed while destroying QPs. errno: " ++ toString err))
        Act.modify fun s => { s with qps := s.qps.set i { qp with qp := none } }
        onDevice (destroyCQ qp.sendCq qp.recvCq)
      destroyQPsFrom (i + 1) n

/-- The second loop, over entries of `m_srqs`. -/
def destroySrqs (srqs : Finmap fun _ : ℕ => SharedRq) : List ℕ → Act BaseRDMA Unit
  | [] => return ()
  | k :: keys => do
      let err ← onDevice (ibvDestroySrq ((srqs.lookup k).getD SharedRq.null).sharedRq)
      if err ≠ 0 then
        throw (.runtimeError "ReliableRDMASRQ::destroyQPs: ibv_destroy_srq() failed")
      destroySrqs srqs keys

/-- `ReliableRDMA::destroyQPs`. A `map` is in the order of its keys. -/
def destroyQPs : Act ReliableRDMA Unit := do
  let o ← Act.get
  onBase (destroyQPsFrom 0 o.qps.length)
  Act.modify fun o => { o with qps := [] }
  let o ← Act.get
  onBase (destroySrqs o.srqs (o.srqs.keys.sort))
  Act.modify fun o => { o with srqs := ∅ }

/-- A newly constructed object. -/
def fresh (s : BaseRDMA) : ReliableRDMA := { s with srqs := ∅, srqCounter := 0, connectedQPs := ∅ }

/-! ## What the functions return -/

open Act Device

variable {o : ReliableRDMA} {E : Exn → ReliableRDMA → Prop}

theorem wp_onBase {α : Type} {x : Act BaseRDMA α} {Q : α → ReliableRDMA → Prop} :
    wp (onBase x) Q E o ↔ wp x (fun a s => Q a { o with toBaseRDMA := s })
      (fun e s => E e { o with toBaseRDMA := s }) o.toBaseRDMA :=
  wp_zoom

theorem wp_createSharedReceiveQueue {Q : ℕ → ReliableRDMA → Prop} (hsucc : o.device.Succeeds)
    (hQ : Q o.srqCounter { o with
      device := o.device.tick.addSrq.tick.addCq
      srqs := o.srqs.insert o.srqCounter ⟨some o.device.next, some (o.device.next + 1)⟩
      srqCounter := wrap64 (o.srqCounter + 1) }) : wp createSharedReceiveQueue Q E o := by
  unfold createSharedReceiveQueue
  simp only [wp_bind, wp_ite, wp_pure, wp_throw, wp_get, wp_modify, wp_onBase, wp_onDevice,
    wp_ibvCreateSrq, wp_ibvCreateCq, reduceCtorEq, not_false_eq_true, false_implies, true_implies,
    true_and]
  refine ⟨fun _ => ⟨fun _ => hQ, fun herr => absurd (hsucc _) herr⟩, fun herr => absurd (hsucc _) herr⟩

/-- The device after the calls that make a queue pair of a shared receive
queue, which may be null. -/
def sharedQp (d : Device) (type : QpType) (srq : Option ℕ) (c : ℕ) : Device :=
  (d.tick.tick.addCq.tick.addQp ⟨type, .reset, none, d.next, c, srq⟩).tick.setQp (d.next + 1)
    ⟨type, .init, none, d.next, c, srq⟩

/-- An entry that names a completion queue was found. -/
theorem lookup_of_subscript {k : ℕ} {srqs srqs' : Finmap fun _ : ℕ => SharedRq} {rq : SharedRq}
    (h : subscript SharedRq.null k srqs = (rq, srqs')) (hrecv : rq.recvCq ≠ none) :
    srqs.lookup k = some rq ∧ srqs' = srqs := by
  cases hlookup : srqs.lookup k with
  | none =>
      rw [subscript, hlookup] at h
      obtain rfl := (Prod.mk.inj h).1
      exact absurd rfl hrecv
  | some value =>
      rw [subscript_of_some hlookup] at h
      obtain ⟨rfl, rfl⟩ := Prod.mk.inj h
      exact ⟨rfl, rfl⟩

/-- **The four calls succeed, or one of them fails**, or there is no such
queue, or no room for the entry. From the third call on there is a new
completion queue. -/
theorem wp_initQPForSRQWithSuppliedID_cases {k id : ℕ} {Q : Unit → ReliableRDMA → Prop}
    (hQ : ∀ srq c s lconns connectedQPs, (∀ j < 4, o.device.errno (o.device.calls + j) = 0) →
      o.srqs.lookup k = some ⟨srq, some c⟩ →
      ({ o.toBaseRDMA with device := sharedQp o.device o.qpType srq c } : BaseRDMA).QpSet id
        ⟨some (o.device.next + 1), some o.device.next, some c⟩ s →
      Q () { o with toBaseRDMA := { s with lconns }, connectedQPs })
    (hfirst : o.device.errno o.device.calls ≠ 0 →
      ∀ e, E e { o with toBaseRDMA := { o.toBaseRDMA with device := o.device.tick } })
    (hsecond : o.device.errno (o.device.calls + 1) ≠ 0 →
      ∀ e, E e { o with toBaseRDMA := { o.toBaseRDMA with device := o.device.tick.tick } })
    (hlater : ∀ j < 4, o.device.errno o.device.calls = 0 → o.device.errno (o.device.calls + 1) = 0 →
      o.device.errno (o.device.calls + j) ≠ 0 → ∀ e d, o.device.tick.tick.addCq.Grown d →
        E e { o with toBaseRDMA := { o.toBaseRDMA with device := d } })
    (hundef : ∀ what o' d, o.device.tick.tick.addCq.Grown d →
      o'.toBaseRDMA = { o.toBaseRDMA with device := d } →
      (∀ x c, o.srqs.lookup k = some ⟨some x, some c⟩ → o.device.srqs x = true →
        o.device.cqs c = true → 2 ^ 64 ≤ id + 1) → E (.undefined what) o') :
    wp (initQPForSRQWithSuppliedID k id) Q E o := by
  unfold initQPForSRQWithSuppliedID createQPForSRQ
  simp only [wp_bind, wp_ite, wp_pure, wp_throw, wp_get, wp_modify, wp_onBase, wp_onDevice,
    wp_ibvQueryDevice, wp_ibvCreateCq, reduceCtorEq, not_false_eq_true, not_true_eq_false,
    false_implies, true_implies, true_and, and_true]
  refine ⟨fun h₀ => hfirst h₀ _, fun h₀ => ⟨fun h₁ => ?_, fun h₁ => hsecond h₁ _⟩⟩
  have h₀ : o.device.errno o.device.calls = 0 := not_not.mp h₀
  rcases hfound : subscript SharedRq.null k o.srqs with ⟨⟨srq, recvCq⟩, srqs⟩
  unfold wp ibvCreateQp
  cases recvCq with
  | none =>
      refine hundef _ _ _ (grown_tick _) rfl fun x c hlookup => ?_
      rw [subscript_of_some hlookup] at hfound
      cases hfound
  | some c =>
      -- a queue that was found is not inserted
      obtain ⟨hlookup, rfl⟩ := lookup_of_subscript hfound (Option.some_ne_none c)
      have hgrown := (grown_tick o.device.tick.tick.addCq).trans
        (grown_addQp _ ⟨o.qpType, .reset, none, o.device.next, c, srq⟩)
      simp only
      split_ifs with hlive h₂
      · refine ⟨fun hbad => absurd hbad (by simp), fun _ => ?_⟩
        change wp (modifyQPToInit (some (o.device.next + 1))) _ _ _
        refine wp_modifyQPToInit (Function.update_self _ _ _) rfl (fun h₃ => ?_) fun h₃ e =>
          hlater 3 (by omega) h₀ h₁ h₃ e _ (hgrown.trans (grown_tick _))
        have hnone : ∀ j < 4, o.device.errno (o.device.calls + j) = 0 := by
          intro j hj
          have hcases : j = 0 ∨ j = 1 ∨ j = 2 ∨ j = 3 := by omega
          rcases hcases with rfl | rfl | rfl | rfl
          exacts [h₀, h₁, h₂, h₃]
        refine wp_setQP rfl (fun s hset => ?_) fun what hid =>
          hundef what _ _ ((hgrown.trans (grown_tick _)).setQp le_rfl _) rfl fun _ _ _ _ _ => hid
        exact wp_setLocalConnData (fun lconns _ _ => hQ srq c s lconns _ hnone hlookup hset)
          fun what hbad => absurd hset.bound (by omega)
      · exact ⟨fun _ => hlater 2 (by omega) h₀ h₁ h₂ _ _ (grown_tick _), fun hbad => absurd rfl hbad⟩
      · refine hundef _ _ _ (grown_tick _) rfl fun x c' hlookup' hx hc => ?_
        obtain ⟨rfl, rfl⟩ : srq = some x ∧ c = c' := by
          simpa using hlookup.symm.trans hlookup'
        refine absurd ⟨Function.update_self _ _ _, ?_, ?_⟩ hlive
        · have hlt := o.device.lt_of_cqs hc
          exact (Function.update_of_ne (by change c ≠ o.device.next; omega) _ _).trans hc
        · rintro y ⟨⟩
          exact hx

theorem wp_initQPForSRQWithSuppliedID {k id x c : ℕ} {Q : Unit → ReliableRDMA → Prop}
    (hsucc : o.device.Succeeds) (hlookup : o.srqs.lookup k = some ⟨some x, some c⟩)
    (hx : o.device.srqs x = true) (hc : o.device.cqs c = true) (hid : id + 1 < 2 ^ 64)
    (hQ : ∀ s lconns connectedQPs,
      ({ o.toBaseRDMA with device := o.device.sharedPair o.qpType x c } : BaseRDMA).QpSet id
        ⟨some (o.device.next + 1), some o.device.next, some c⟩ s →
      Q () { o with toBaseRDMA := { s with lconns }, connectedQPs }) :
    wp (initQPForSRQWithSuppliedID k id) Q E o := by
  refine wp_initQPForSRQWithSuppliedID_cases (fun srq c' s lconns connectedQPs _ hlookup' hset => ?_)
    (fun herr => absurd (hsucc _) herr) (fun herr => absurd (hsucc _) herr)
    (fun _ _ _ _ herr => absurd (hsucc _) herr) fun _ _ _ _ _ hbad => ?_
  · obtain ⟨rfl, rfl⟩ : srq = some x ∧ c' = c := by
      simpa using hlookup'.symm.trans hlookup
    rw [sharedQp, sharedPair_eq] at hset
    exact hQ s lconns connectedQPs hset
  · exact absurd (hbad x c hlookup hx hc) (by omega)

end ReliableRDMA

end RdmaManager
