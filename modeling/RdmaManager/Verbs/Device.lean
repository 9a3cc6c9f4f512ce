import Mathlib.Logic.Function.Basic
import Mathlib.Tactic.Simps.Basic
import RdmaManager.Common.Cpp
import RdmaManager.Common.Ledger
/-!
# The verbs device

What the source relies on of `libibverbs`: objects are made under fresh
handles, a queue pair goes through the states of its state machine in
order, an object in use is not destroyed (`EBUSY`), and any call may fail
with an `errno`. Which calls fail is a parameter of the device, by the
number of the call. A handle that is null or of a destroyed object makes
the behaviour of the call undefined; a destroying call on such a handle
is still counted among the destructions, so that a double destruction can
be seen.
-/

namespace RdmaManager

/-- `IBV_QPT_RC` and `IBV_QPT_UD`. -/
inductive QpType
  | rc
  | ud
  deriving DecidableEq, Repr

/-- `IBV_QPS_RESET`, `_INIT`, `_RTR` and `_RTS`. -/
inductive QpState
  | reset
  | init
  | rtr
  | rts
  deriving DecidableEq, Repr

/-- A queue pair of the device. `dest` is the `dest_qp_num` and the `dlid`
it was moved to `IBV_QPS_RTR` with. -/
structure Qp where
  type : QpType
  state : QpState
  dest : Option (UInt32 × UInt16)
  sendCq : ℕ
  recvCq : ℕ
  srq : Option ℕ
  deriving DecidableEq, Repr

/-- The attributes the source hands to `ibv_modify_qp`. -/
inductive QpAttr
  | toInit
  | toRTR (dest : Option (UInt32 × UInt16))
  | toRTS
  deriving DecidableEq, Repr

/-- The transition `ibv_modify_qp` makes, if it is a legal one. -/
def Qp.modify (qp : Qp) : QpAttr → Option Qp
  | .toInit => if qp.state = .reset ∨ qp.state = .init then some { qp with state := .init } else none
  | .toRTR dest => if qp.state = .init then some { qp with state := .rtr, dest } else none
  | .toRTS => if qp.state = .rtr ∨ qp.state = .rts then some { qp with state := .rts } else none

def EINVAL : ℕ := 22

def EBUSY : ℕ := 16

/-- **The device**: its live objects by handle, and the handles that were
made and those that a destroying call went through on, latest first. -/
structure Device where
  /-- What the `n`th call fails with, `0` for success. -/
  errno : ℕ → ℕ
  /-- The number the device gives to the queue pair of a handle. -/
  qpNum : ℕ → UInt32
  calls : ℕ
  next : ℕ
  qps : ℕ → Option Qp
  cqs : ℕ → Bool
  srqs : ℕ → Bool
  ahs : ℕ → Option UInt16
  cqsMade : List ℕ
  srqsMade : List ℕ
  qpsDestroyed : List ℕ
  cqsDestroyed : List ℕ
  srqsDestroyed : List ℕ
  ahsDestroyed : List ℕ
  fresh : ∀ h, next ≤ h → qps h = none ∧ cqs h = false ∧ srqs h = false ∧ ahs h = none
  /-- No handle is of a queue pair and of a completion queue. -/
  apart : ∀ h, cqs h = true → qps h = none

namespace Device

variable {d d' d'' : Device} {h c : ℕ}

/-- A newly opened device. -/
@[simps] def opened (errno : ℕ → ℕ) (qpNum : ℕ → UInt32) : Device where
  errno := errno
  qpNum := qpNum
  calls := 0
  next := 0
  qps _ := none
  cqs _ := false
  srqs _ := false
  ahs _ := none
  cqsMade := []
  srqsMade := []
  qpsDestroyed := []
  cqsDestroyed := []
  srqsDestroyed := []
  ahsDestroyed := []
  fresh _ _ := ⟨rfl, rfl, rfl, rfl⟩
  apart _ _ := rfl

/-- No call fails. -/
def Succeeds (d : Device) : Prop := ∀ n, d.errno n = 0

/-- A live queue pair completes to the completion queue. -/
def Attached (d : Device) (cq : ℕ) : Prop :=
  ∃ h, h < d.next ∧ (d.qps h).any fun qp => decide (qp.sendCq = cq ∨ qp.recvCq = cq)

instance (d : Device) : DecidablePred d.Attached := fun cq =>
  inferInstanceAs (Decidable (∃ h, h < d.next ∧
    (d.qps h).any fun qp => decide (qp.sendCq = cq ∨ qp.recvCq = cq)))

/-- A live queue pair receives from the shared receive queue. -/
def AttachedSrq (d : Device) (srq : ℕ) : Prop :=
  ∃ h, h < d.next ∧ (d.qps h).any fun qp => decide (qp.srq = some srq)

instance (d : Device) : DecidablePred d.AttachedSrq := fun srq =>
  inferInstanceAs (Decidable (∃ h, h < d.next ∧ (d.qps h).any fun qp => decide (qp.srq = some srq)))

theorem lt_of_qps {qp : Qp} (hqp : d.qps h = some qp) : h < d.next := by
  by_contra hge
  rw [(d.fresh h (by omega)).1] at hqp
  simp at hqp

theorem lt_of_cqs (hc : d.cqs c = true) : c < d.next := by
  by_contra hge
  rw [(d.fresh c (by omega)).2.1] at hc
  simp at hc

theorem lt_of_srqs (hc : d.srqs c = true) : c < d.next := by
  by_contra hge
  rw [(d.fresh c (by omega)).2.2.1] at hc
  simp at hc

theorem lt_of_ahs {dlid : UInt16} (hah : d.ahs h = some dlid) : h < d.next := by
  by_contra hge
  rw [(d.fresh h (by omega)).2.2.2] at hah
  simp at hah

theorem attached_iff : d.Attached c ↔
    ∃ h qp, d.qps h = some qp ∧ (qp.sendCq = c ∨ qp.recvCq = c) := by
  constructor
  · rintro ⟨h, -, hany⟩
    cases hqp : d.qps h with
    | none => simp [hqp] at hany
    | some qp => exact ⟨h, qp, hqp, by simpa [hqp] using hany⟩
  · rintro ⟨h, qp, hqp, hcq⟩
    exact ⟨h, lt_of_qps hqp, by simp [hqp, hcq]⟩

theorem attachedSrq_iff : d.AttachedSrq c ↔ ∃ h qp, d.qps h = some qp ∧ qp.srq = some c := by
  constructor
  · rintro ⟨h, -, hany⟩
    cases hqp : d.qps h with
    | none => simp [hqp] at hany
    | some qp => exact ⟨h, qp, hqp, by simpa [hqp] using hany⟩
  · rintro ⟨h, qp, hqp, hcq⟩
    exact ⟨h, lt_of_qps hqp, by simp [hqp, hcq]⟩

/-- The two completion queues of a queue pair, and its shared receive
queue if it has one. -/
def links (d : Device) (h : ℕ) : Option (ℕ × ℕ × Option ℕ) :=
  (d.qps h).map fun qp => (qp.sendCq, qp.recvCq, qp.srq)

theorem links_eq_none : d.links h = none ↔ d.qps h = none := Option.map_eq_none_iff

theorem lt_of_links {l : ℕ × ℕ × Option ℕ} (hl : d.links h = some l) : h < d.next := by
  obtain ⟨qp, hqp, -⟩ := Option.map_eq_some_iff.mp hl
  exact lt_of_qps hqp

theorem attached_iff_links :
    d.Attached c ↔ ∃ h s r q, d.links h = some (s, r, q) ∧ (s = c ∨ r = c) := by
  rw [attached_iff]
  constructor
  · rintro ⟨h, qp, hqp, hcq⟩
    exact ⟨h, qp.sendCq, qp.recvCq, qp.srq, by rw [links, hqp]; rfl, hcq⟩
  · rintro ⟨h, s, r, q, hl, hcq⟩
    obtain ⟨qp, hqp, hlinks⟩ := Option.map_eq_some_iff.mp hl
    obtain ⟨rfl, rfl, rfl⟩ := hlinks
    exact ⟨h, qp, hqp, hcq⟩

theorem not_attachedSrq_of_links (hnone : ∀ h, d.links h = none) : ¬ d.AttachedSrq c := by
  rw [attachedSrq_iff]
  rintro ⟨h, qp, hqp, -⟩
  have := links_eq_none.mp (hnone h)
  rw [hqp] at this
  simp at this

/-! ## What a call does to the device -/

/-- One call more. -/
@[simps] def tick (d : Device) : Device := { d with calls := d.calls + 1 }

@[simps] def addCq (d : Device) : Device :=
  { d with
    next := d.next + 1
    cqs := Function.update d.cqs d.next true
    cqsMade := d.next :: d.cqsMade
    fresh := fun h hle => by
      rw [Function.update_of_ne (by omega)]
      exact d.fresh h (by omega)
    apart := fun h hcq => by
      rcases eq_or_ne h d.next with rfl | hne
      · exact (d.fresh d.next le_rfl).1
      · rw [Function.update_of_ne hne] at hcq
        exact d.apart h hcq }

@[simps] def addQp (d : Device) (qp : Qp) : Device :=
  { d with
    next := d.next + 1
    qps := Function.update d.qps d.next (some qp)
    fresh := fun h hle => by
      rw [Function.update_of_ne (by omega)]
      exact d.fresh h (by omega)
    apart := fun h hcq => by
      rw [Function.update_of_ne (by have := d.lt_of_cqs hcq; omega)]
      exact d.apart h hcq }

@[simps] def addSrq (d : Device) : Device :=
  { d with
    next := d.next + 1
    srqs := Function.update d.srqs d.next true
    srqsMade := d.next :: d.srqsMade
    fresh := fun h hle => by
      rw [Function.update_of_ne (by omega)]
      exact d.fresh h (by omega) }

@[simps] def addAh (d : Device) (dlid : UInt16) : Device :=
  { d with
    next := d.next + 1
    ahs := Function.update d.ahs d.next (some dlid)
    fresh := fun h hle => by
      rw [Function.update_of_ne (by omega)]
      exact d.fresh h (by omega) }

/-- Rewrite a live queue pair. -/
@[simps] def setQp (d : Device) (h : ℕ) (qp : Qp) : Device :=
  { d with
    qps := Function.update d.qps h ((d.qps h).map fun _ => qp)
    fresh := fun i hle => by
      obtain ⟨hqps, hrest⟩ := d.fresh i hle
      refine ⟨?_, hrest⟩
      rcases eq_or_ne i h with rfl | hne
      · rw [Function.update_self, hqps]
        rfl
      · rw [Function.update_of_ne hne, hqps]
    apart := fun i hcq => by
      rcases eq_or_ne i h with rfl | hne
      · rw [Function.update_self, d.apart i hcq]
        rfl
      · rw [Function.update_of_ne hne]
        exact d.apart i hcq }

/-- Count a destruction of `h`, and forget the queue pair there was. -/
@[simps] def dropQp (d : Device) (h : ℕ) : Device :=
  { d with
    qps := Function.update d.qps h none
    qpsDestroyed := h :: d.qpsDestroyed
    fresh := fun i hle => by
      refine ⟨?_, (d.fresh i hle).2⟩
      rw [Function.update_apply, (d.fresh i hle).1, ite_self]
    apart := fun i hcq => by rw [Function.update_apply, d.apart i hcq, ite_self] }

@[simps] def dropCq (d : Device) (h : ℕ) : Device :=
  { d with
    cqs := Function.update d.cqs h false
    cqsDestroyed := h :: d.cqsDestroyed
    fresh := fun i hle => by
      refine ⟨(d.fresh i hle).1, ?_, (d.fresh i hle).2.2⟩
      rw [Function.update_apply, (d.fresh i hle).2.1, ite_self]
    apart := fun i hcq => by
      rcases eq_or_ne i h with rfl | hne
      · rw [Function.update_self] at hcq
        simp at hcq
      · rw [Function.update_of_ne hne] at hcq
        exact d.apart i hcq }

@[simps] def dropSrq (d : Device) (h : ℕ) : Device :=
  { d with
    srqs := Function.update d.srqs h false
    srqsDestroyed := h :: d.srqsDestroyed
    fresh := fun i hle => by
      refine ⟨(d.fresh i hle).1, (d.fresh i hle).2.1, ?_, (d.fresh i hle).2.2.2⟩
      rw [Function.update_apply, (d.fresh i hle).2.2.1, ite_self] }

@[simps] def dropAh (d : Device) (h : ℕ) : Device :=
  { d with
    ahs := Function.update d.ahs h none
    ahsDestroyed := h :: d.ahsDestroyed
    fresh := fun i hle => by
      refine ⟨(d.fresh i hle).1, (d.fresh i hle).2.1, (d.fresh i hle).2.2.1, ?_⟩
      rw [Function.update_apply, (d.fresh i hle).2.2.2, ite_self] }

/-! ## Devices that only grew -/

/-- `d'` is `d` after calls that made objects and changed none that was
there. -/
structure Grown (d d' : Device) : Prop where
  errno : d'.errno = d.errno
  qpNum : d'.qpNum = d.qpNum
  calls : d.calls ≤ d'.calls
  next : d.next ≤ d'.next
  qps : ∀ h < d.next, d'.qps h = d.qps h
  cqs : ∀ h < d.next, d'.cqs h = d.cqs h
  srqs : ∀ h < d.next, d'.srqs h = d.srqs h
  ahs : ∀ h < d.next, d'.ahs h = d.ahs h
  destroyed : d'.qpsDestroyed = d.qpsDestroyed ∧ d'.cqsDestroyed = d.cqsDestroyed ∧
    d'.srqsDestroyed = d.srqsDestroyed ∧ d'.ahsDestroyed = d.ahsDestroyed

theorem Grown.trans (h : d.Grown d') (h' : d'.Grown d'') : d.Grown d'' where
  errno := h'.errno.trans h.errno
  qpNum := h'.qpNum.trans h.qpNum
  calls := h.calls.trans h'.calls
  next := h.next.trans h'.next
  qps i hi := (h'.qps i (lt_of_lt_of_le hi h.next)).trans (h.qps i hi)
  cqs i hi := (h'.cqs i (lt_of_lt_of_le hi h.next)).trans (h.cqs i hi)
  srqs i hi := (h'.srqs i (lt_of_lt_of_le hi h.next)).trans (h.srqs i hi)
  ahs i hi := (h'.ahs i (lt_of_lt_of_le hi h.next)).trans (h.ahs i hi)
  destroyed := by
    obtain ⟨hqps, hcqs, hsrqs, hahs⟩ := h.destroyed
    obtain ⟨hqps', hcqs', hsrqs', hahs'⟩ := h'.destroyed
    exact ⟨hqps'.trans hqps, hcqs'.trans hcqs, hsrqs'.trans hsrqs, hahs'.trans hahs⟩

theorem grown_tick (d : Device) : d.Grown d.tick :=
  ⟨rfl, rfl, Nat.le_succ _, le_rfl, fun _ _ => rfl, fun _ _ => rfl, fun _ _ => rfl,
    fun _ _ => rfl, rfl, rfl, rfl, rfl⟩

theorem grown_addCq (d : Device) : d.Grown d.addCq where
  errno := rfl
  qpNum := rfl
  calls := le_rfl
  next := Nat.le_succ _
  qps _ _ := rfl
  cqs i hi := Function.update_of_ne (by omega) _ _
  srqs _ _ := rfl
  ahs _ _ := rfl
  destroyed := ⟨rfl, rfl, rfl, rfl⟩

theorem grown_addQp (d : Device) (qp : Qp) : d.Grown (d.addQp qp) where
  errno := rfl
  qpNum := rfl
  calls := le_rfl
  next := Nat.le_succ _
  qps i hi := Function.update_of_ne (by omega) _ _
  cqs _ _ := rfl
  srqs _ _ := rfl
  ahs _ _ := rfl
  destroyed := ⟨rfl, rfl, rfl, rfl⟩

/-- A queue pair that was made in the meantime may be rewritten. -/
theorem Grown.setQp (hgrown : d.Grown d') (hle : d.next ≤ h) (qp : Qp) :
    d.Grown (d'.setQp h qp) where
  errno := hgrown.errno
  qpNum := hgrown.qpNum
  calls := hgrown.calls
  next := hgrown.next
  qps i hi := by
    rw [setQp_qps, Function.update_of_ne (by omega)]
    exact hgrown.qps i hi
  cqs := hgrown.cqs
  srqs := hgrown.srqs
  ahs := hgrown.ahs
  destroyed := hgrown.destroyed

/-- A device that grew succeeds as the one it grew from. -/
theorem Grown.succeeds (hgrown : d.Grown d') (hsucc : d.Succeeds) : d'.Succeeds := by
  intro n
  rw [hgrown.errno]
  exact hsucc n

/-- The device with a queue pair in `IBV_QPS_INIT` made on it, with its
send and its receive completion queue. -/
@[simps] def queuePair (d : Device) (type : QpType) : Device :=
  { d with
    calls := d.calls + 5
    next := d.next + 3
    qps := Function.update d.qps (d.next + 2) (some ⟨type, .init, none, d.next, d.next + 1, none⟩)
    cqs := Function.update (Function.update d.cqs d.next true) (d.next + 1) true
    cqsMade := (d.next + 1) :: d.next :: d.cqsMade
    fresh := fun h hle => by
      rw [Function.update_of_ne (by omega), Function.update_of_ne (by omega),
        Function.update_of_ne (by omega)]
      exact d.fresh h (by omega)
    apart := ((d.addCq.addCq).addQp ⟨type, .init, none, d.next, d.next + 1, none⟩).apart }

/-- The device with a queue pair in `IBV_QPS_INIT` made on it that
receives from the shared receive queue `x` and completes its receives to
`c`, with its send completion queue. -/
@[simps] def sharedPair (d : Device) (type : QpType) (x c : ℕ) : Device :=
  { d with
    calls := d.calls + 4
    next := d.next + 2
    qps := Function.update d.qps (d.next + 1) (some ⟨type, .init, none, d.next, c, some x⟩)
    cqs := Function.update d.cqs d.next true
    cqsMade := d.next :: d.cqsMade
    fresh := fun h hle => by
      rw [Function.update_of_ne (by omega), Function.update_of_ne (by omega)]
      exact d.fresh h (by omega)
    apart := (d.addCq.addQp ⟨type, .init, none, d.next, c, some x⟩).apart }

/-- It is what the four calls leave that make one. -/
theorem sharedPair_eq (d : Device) (type : QpType) (x c : ℕ) :
    ((d.tick.tick.addCq.tick.addQp ⟨type, .reset, none, d.next, c, some x⟩).tick.setQp (d.next + 1)
      ⟨type, .init, none, d.next, c, some x⟩) = d.sharedPair type x c := by
  simp [setQp, addQp, addCq, tick, sharedPair]

theorem grown_queuePair (d : Device) (type : QpType) : d.Grown (d.queuePair type) where
  errno := rfl
  qpNum := rfl
  calls := Nat.le_add_right _ _
  next := Nat.le_add_right _ _
  qps i hi := Function.update_of_ne (by omega) _ _
  cqs i hi := by
    rw [queuePair_cqs, Function.update_of_ne (by omega), Function.update_of_ne (by omega)]
  srqs _ _ := rfl
  ahs _ _ := rfl
  destroyed := ⟨rfl, rfl, rfl, rfl⟩

/-- It is what the five calls leave that make one. -/
theorem queuePair_eq (d : Device) (type : QpType) :
    ((d.tick.addCq.tick.addCq.tick.tick.addQp
        ⟨type, .reset, none, d.next, d.next + 1, none⟩).tick.setQp (d.next + 2)
          ⟨type, .init, none, d.next, d.next + 1, none⟩) = d.queuePair type := by
  simp [setQp, addQp, addCq, tick, queuePair]

/-- The device with a queue pair moved through `IBV_QPS_RTR` to
`IBV_QPS_RTS`. -/
@[simps] def readied (d : Device) (h : ℕ) (qp : Qp) (dest : Option (UInt32 × UInt16)) : Device :=
  { d with
    calls := d.calls + 2
    qps := Function.update d.qps h
      ((d.qps h).map fun _ => { qp with state := .rts, dest := dest })
    fresh := (d.setQp h { qp with state := .rts, dest := dest }).fresh
    apart := (d.setQp h { qp with state := .rts, dest := dest }).apart }

/-- It is what the two calls leave that move one. -/
theorem readied_eq (d : Device) (h : ℕ) (qp : Qp) (dest : Option (UInt32 × UInt16)) :
    (d.tick.setQp h { qp with state := .rtr, dest := dest }).tick.setQp h
      { qp with state := .rts, dest := dest } = d.readied h qp dest := by
  simp [setQp, tick, readied, Function.comp_def]

/-- `d'` is `d` after calls that may have moved queue pairs on and that
made and destroyed nothing. -/
structure Moved (d d' : Device) : Prop where
  errno : d'.errno = d.errno
  qpNum : d'.qpNum = d.qpNum
  next : d'.next = d.next
  qps : ∀ h, d'.qps h = none ↔ d.qps h = none
  cqs : d'.cqs = d.cqs
  srqs : d'.srqs = d.srqs
  ahs : d'.ahs = d.ahs

theorem moved_tick (d : Device) : d.Moved d.tick :=
  ⟨rfl, rfl, rfl, fun _ => Iff.rfl, rfl, rfl, rfl⟩

theorem Moved.tick (h : d.Moved d') : d.Moved d'.tick :=
  ⟨h.errno, h.qpNum, h.next, h.qps, h.cqs, h.srqs, h.ahs⟩

theorem Moved.setQp (hmoved : d.Moved d') (i : ℕ) (qp : Qp) : d.Moved (d'.setQp i qp) where
  errno := hmoved.errno
  qpNum := hmoved.qpNum
  next := hmoved.next
  qps h := by
    rw [setQp_qps, ← hmoved.qps h]
    rcases eq_or_ne h i with rfl | hne
    · rw [Function.update_self, Option.map_eq_none_iff]
    · rw [Function.update_of_ne hne]
  cqs := hmoved.cqs
  srqs := hmoved.srqs
  ahs := hmoved.ahs

/-- `d'` is `d` after destructions of completion queues. -/
structure Reaped (d d' : Device) : Prop where
  errno : d'.errno = d.errno
  qpNum : d'.qpNum = d.qpNum
  next : d'.next = d.next
  qps : d'.qps = d.qps
  srqs : d'.srqs = d.srqs
  ahs : d'.ahs = d.ahs
  cqsMade : d'.cqsMade = d.cqsMade
  srqsMade : d'.srqsMade = d.srqsMade
  qpsDestroyed : d'.qpsDestroyed = d.qpsDestroyed
  srqsDestroyed : d'.srqsDestroyed = d.srqsDestroyed
  ahsDestroyed : d'.ahsDestroyed = d.ahsDestroyed

theorem Reaped.refl (d : Device) : d.Reaped d :=
  ⟨rfl, rfl, rfl, rfl, rfl, rfl, rfl, rfl, rfl, rfl, rfl⟩

theorem Reaped.tick (h : d.Reaped d') : d.Reaped d'.tick :=
  ⟨h.errno, h.qpNum, h.next, h.qps, h.srqs, h.ahs, h.cqsMade, h.srqsMade, h.qpsDestroyed,
    h.srqsDestroyed, h.ahsDestroyed⟩

theorem Reaped.dropCq (h : d.Reaped d') (c : ℕ) : d.Reaped (d'.dropCq c) :=
  ⟨h.errno, h.qpNum, h.next, h.qps, h.srqs, h.ahs, h.cqsMade, h.srqsMade, h.qpsDestroyed,
    h.srqsDestroyed, h.ahsDestroyed⟩

theorem Reaped.trans (h : d.Reaped d') (h' : d'.Reaped d'') : d.Reaped d'' :=
  ⟨h'.errno.trans h.errno, h'.qpNum.trans h.qpNum, h'.next.trans h.next, h'.qps.trans h.qps,
    h'.srqs.trans h.srqs, h'.ahs.trans h.ahs, h'.cqsMade.trans h.cqsMade,
    h'.srqsMade.trans h.srqsMade, h'.qpsDestroyed.trans h.qpsDestroyed,
    h'.srqsDestroyed.trans h.srqsDestroyed, h'.ahsDestroyed.trans h.ahsDestroyed⟩

theorem Reaped.links (hreaped : d.Reaped d') : d'.links = d.links := by
  funext h
  rw [Device.links, hreaped.qps, Device.links]

/-- What a destruction of a live completion queue that may be busy leaves,
if it does not fail otherwise. -/
def reap (d : Device) (c : ℕ) : Device := if d.Attached c then d.tick else d.tick.dropCq c

theorem reaped_reap (d : Device) (c : ℕ) : d.Reaped (d.reap c) := by
  unfold reap
  split_ifs
  · exact (Reaped.refl d).tick
  · exact (Reaped.refl d).tick.dropCq c

/-- A live completion queue is destroyed unless it is in use. -/
theorem reap_cqs_self : (d.reap c).cqs c = true ↔ d.Attached c ∧ d.cqs c = true := by
  unfold reap
  split_ifs with hbusy
  · simp [hbusy]
  · simp [hbusy]

/-- The books of the completion queues. -/
def CqLedger (d : Device) : Prop := Ledger d.cqsMade d.cqsDestroyed d.cqs d.next

/-- The books of the shared receive queues. -/
def SrqLedger (d : Device) : Prop := Ledger d.srqsMade d.srqsDestroyed d.srqs d.next

theorem CqLedger.reap (hd : d.CqLedger) (hlive : d.cqs c = true) : (d.reap c).CqLedger := by
  unfold Device.reap
  split_ifs
  · exact hd
  · exact Ledger.destroy hd hlive (d.lt_of_cqs hlive)

theorem reap_cqs_of_ne {c c' : ℕ} (hne : c' ≠ c) : (d.reap c).cqs c' = d.cqs c' := by
  unfold reap
  split_ifs
  · rfl
  · exact Function.update_of_ne hne _ _

end Device

/-! ## The calls -/

open Device

/-- `ibv_query_device`, for the error it returns. -/
def ibvQueryDevice : Act Device ℕ := fun d => (.ok (d.errno d.calls), d.tick)

def ibvCreateCq : Act Device (Option ℕ) := fun d =>
  if d.errno d.calls = 0 then (.ok (some d.next), d.tick.addCq) else (.ok none, d.tick)

def ibvCreateSrq : Act Device (Option ℕ) := fun d =>
  if d.errno d.calls = 0 then (.ok (some d.next), d.tick.addSrq) else (.ok none, d.tick)

def ibvCreateAh (dlid : UInt16) : Act Device (Option ℕ) := fun d =>
  if d.errno d.calls = 0 then (.ok (some d.next), d.tick.addAh dlid) else (.ok none, d.tick)

/-- `ibv_create_qp`, of two live completion queues and, where there is
one, a live shared receive queue. -/
def ibvCreateQp (type : QpType) (sendCq recvCq srq : Option ℕ) : Act Device (Option ℕ) := fun d =>
  match sendCq, recvCq with
  | some s, some r =>
      if d.cqs s ∧ d.cqs r ∧ ∀ x ∈ srq, d.srqs x then
        if d.errno d.calls = 0 then
          (.ok (some d.next), d.tick.addQp ⟨type, .reset, none, s, r, srq⟩)
        else (.ok none, d.tick)
      else (.error (.undefined "ibv_create_qp of a dead queue"), d.tick)
  | _, _ => (.error (.undefined "ibv_create_qp of a null queue"), d.tick)

/-- `ibv_modify_qp`: the error it returns. -/
def ibvModifyQp (qp : Option ℕ) (attr : QpAttr) : Act Device ℕ := fun d =>
  match qp with
  | none => (.error (.undefined "ibv_modify_qp of a null queue pair"), d.tick)
  | some h =>
      match d.qps h with
      | none => (.error (.undefined "ibv_modify_qp of a dead queue pair"), d.tick)
      | some old =>
          if d.errno d.calls = 0 then
            match old.modify attr with
            | some new => (.ok 0, d.tick.setQp h new)
            | none => (.ok EINVAL, d.tick)
          else (.ok (d.errno d.calls), d.tick)

/-- A destroying call: `live` says whether there is an object of its kind
under the handle, `busy` whether the object is in use. -/
def destroyWith (live busy : Device → ℕ → Bool) (drop : Device → ℕ → Device)
    (handle : Option ℕ) : Act Device ℕ := fun d =>
  match handle with
  | none => (.error (.undefined "destruction of a null object"), d.tick)
  | some h =>
      if live d h then
        if busy d h then (.ok EBUSY, d.tick)
        else if d.errno d.calls = 0 then (.ok 0, drop d.tick h)
        else (.ok (d.errno d.calls), d.tick)
      else (.error (.undefined "destruction of a dead object"), drop d.tick h)

def ibvDestroyQp : Option ℕ → Act Device ℕ :=
  destroyWith (fun d h => (d.qps h).isSome) (fun _ _ => false) dropQp

def ibvDestroyCq : Option ℕ → Act Device ℕ :=
  destroyWith (fun d h => d.cqs h) (fun d h => decide (d.Attached h)) dropCq

def ibvDestroySrq : Option ℕ → Act Device ℕ :=
  destroyWith (fun d h => d.srqs h) (fun d h => decide (d.AttachedSrq h)) dropSrq

def ibvDestroyAh : Option ℕ → Act Device ℕ :=
  destroyWith (fun d h => (d.ahs h).isSome) (fun _ _ => false) dropAh

/-! ## What a call returns -/

section wp

variable {d : Device} {h : ℕ} {E : Exn → Device → Prop}

theorem wp_ibvQueryDevice {Q : ℕ → Device → Prop} :
    Act.wp ibvQueryDevice Q E d ↔ Q (d.errno d.calls) d.tick := Iff.rfl

theorem wp_ibvCreateCq {Q : Option ℕ → Device → Prop} :
    Act.wp ibvCreateCq Q E d ↔ (d.errno d.calls = 0 → Q (some d.next) d.tick.addCq) ∧
      (d.errno d.calls ≠ 0 → Q none d.tick) := by
  unfold Act.wp ibvCreateCq
  split_ifs with herr <;> simp [herr]

theorem wp_ibvCreateSrq {Q : Option ℕ → Device → Prop} :
    Act.wp ibvCreateSrq Q E d ↔ (d.errno d.calls = 0 → Q (some d.next) d.tick.addSrq) ∧
      (d.errno d.calls ≠ 0 → Q none d.tick) := by
  unfold Act.wp ibvCreateSrq
  split_ifs with herr <;> simp [herr]

theorem wp_ibvCreateAh {dlid : UInt16} {Q : Option ℕ → Device → Prop} :
    Act.wp (ibvCreateAh dlid) Q E d ↔
      (d.errno d.calls = 0 → Q (some d.next) (d.tick.addAh dlid)) ∧
        (d.errno d.calls ≠ 0 → Q none d.tick) := by
  unfold Act.wp ibvCreateAh
  split_ifs with herr <;> simp [herr]

/-- A queue pair is made of live queues. -/
theorem wp_ibvCreateQp {type : QpType} {s r : ℕ} {srq : Option ℕ} {Q : Option ℕ → Device → Prop}
    (hs : d.cqs s = true) (hr : d.cqs r = true) (hsrq : ∀ x ∈ srq, d.srqs x = true) :
    Act.wp (ibvCreateQp type (some s) (some r) srq) Q E d ↔
      (d.errno d.calls = 0 →
          Q (some d.next) (d.tick.addQp ⟨type, .reset, none, s, r, srq⟩)) ∧
        (d.errno d.calls ≠ 0 → Q none d.tick) := by
  unfold Act.wp ibvCreateQp
  simp only [hs, hr, true_and, if_pos hsrq]
  split_ifs with herr <;> simp [herr]

/-- A live queue pair makes a legal transition. -/
theorem wp_ibvModifyQp {attr : QpAttr} {old new : Qp} {Q : ℕ → Device → Prop}
    (hold : d.qps h = some old) (hnew : old.modify attr = some new) :
    Act.wp (ibvModifyQp (some h) attr) Q E d ↔
      (d.errno d.calls = 0 → Q 0 (d.tick.setQp h new)) ∧
        (d.errno d.calls ≠ 0 → Q (d.errno d.calls) d.tick) := by
  unfold Act.wp ibvModifyQp
  simp only [hold, hnew]
  split_ifs with herr <;> simp [herr]

theorem wp_ibvDestroyQp {qp : Qp} {Q : ℕ → Device → Prop} (hqp : d.qps h = some qp) :
    Act.wp (ibvDestroyQp (some h)) Q E d ↔ (d.errno d.calls = 0 → Q 0 (d.tick.dropQp h)) ∧
      (d.errno d.calls ≠ 0 → Q (d.errno d.calls) d.tick) := by
  unfold Act.wp ibvDestroyQp destroyWith
  simp only [hqp, Option.isSome_some, if_true]
  split_ifs with herr <;> simp_all

theorem wp_ibvDestroyCq {Q : ℕ → Device → Prop} (hcq : d.cqs h = true) :
    Act.wp (ibvDestroyCq (some h)) Q E d ↔ (d.Attached h → Q EBUSY d.tick) ∧
      (¬ d.Attached h → (d.errno d.calls = 0 → Q 0 (d.tick.dropCq h)) ∧
        (d.errno d.calls ≠ 0 → Q (d.errno d.calls) d.tick)) := by
  unfold Act.wp ibvDestroyCq destroyWith
  simp only [hcq, if_true, decide_eq_true_eq]
  split_ifs with hbusy herr <;> simp_all

/-- Whatever happens to a completion queue, nothing else is touched. -/
theorem wp_ibvDestroyCq_frame {d₀ : Device} {cq : Option ℕ} {Q : ℕ → Device → Prop}
    (hd : d₀.Reaped d) (hQ : ∀ err d', d₀.Reaped d' → Q err d')
    (hE : ∀ e d', d₀.Reaped d' → E e d') : Act.wp (ibvDestroyCq cq) Q E d := by
  unfold Act.wp ibvDestroyCq destroyWith
  cases cq with
  | none => exact hE _ _ hd.tick
  | some c =>
      simp only
      split_ifs
      · exact hQ _ _ hd.tick
      · exact hQ _ _ (hd.tick.dropCq c)
      · exact hQ _ _ hd.tick
      · exact hE _ _ (hd.tick.dropCq c)

theorem wp_ibvDestroySrq {Q : ℕ → Device → Prop} (hsrq : d.srqs h = true) :
    Act.wp (ibvDestroySrq (some h)) Q E d ↔ (d.AttachedSrq h → Q EBUSY d.tick) ∧
      (¬ d.AttachedSrq h → (d.errno d.calls = 0 → Q 0 (d.tick.dropSrq h)) ∧
        (d.errno d.calls ≠ 0 → Q (d.errno d.calls) d.tick)) := by
  unfold Act.wp ibvDestroySrq destroyWith
  simp only [hsrq, if_true, decide_eq_true_eq]
  split_ifs with hbusy herr <;> simp_all

theorem wp_ibvDestroyAh {dlid : UInt16} {Q : ℕ → Device → Prop} (hah : d.ahs h = some dlid) :
    Act.wp (ibvDestroyAh (some h)) Q E d ↔ (d.errno d.calls = 0 → Q 0 (d.tick.dropAh h)) ∧
      (d.errno d.calls ≠ 0 → Q (d.errno d.calls) d.tick) := by
  unfold Act.wp ibvDestroyAh destroyWith
  simp only [hah, Option.isSome_some, if_true]
  split_ifs with herr <;> simp_all

end wp

end RdmaManager
