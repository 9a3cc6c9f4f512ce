import RdmaManager.Common.Cpp
/-!
# The connection manager

What a multicast group relies on of `librdmacm`, and of the verbs on the
devices it finds: objects of several kinds are made under fresh handles,
events arrive, and any call may fail. As on a `Device`, which calls fail
and what the events say is a parameter, by the number of the call.
-/

namespace RdmaManager

/-- The kinds of objects that a device holds. -/
inductive ObjectKind
  | qp
  | cq
  | srq
  | ah
  | pd
  | mr
  | cmId
  | channel
  deriving DecidableEq, Repr

/-- `rdma_cm_event`: its type, and what it names of a group that was
joined. -/
structure CmEvent where
  event : ℕ
  qpNum : UInt32
  qkey : UInt32
  deriving DecidableEq, Repr

def RDMA_CM_EVENT_ADDR_RESOLVED : ℕ := 0

def RDMA_CM_EVENT_MULTICAST_JOIN : ℕ := 12

/-- **The connection manager**, with its live objects. -/
structure CmDevice where
  /-- What the `n`th call fails with, `0` for success. -/
  errno : ℕ → ℕ
  /-- The event that the `n`th call finds. -/
  event : ℕ → CmEvent
  /-- The number of a queue pair, by its handle. -/
  qpNum : ℕ → UInt32
  /-- The `lkey` of a memory region, by its handle. -/
  lkey : ℕ → UInt32
  calls : ℕ
  next : ℕ
  live : List (ObjectKind × ℕ)
  fresh : ∀ o ∈ live, o.2 < next

namespace CmDevice

variable {d : CmDevice} {kind : ObjectKind}

/-- One call more. -/
def tick (d : CmDevice) : CmDevice := { d with calls := d.calls + 1 }

/-- One object more. -/
def add (d : CmDevice) (kind : ObjectKind) : CmDevice :=
  { d with
    next := d.next + 1
    live := (kind, d.next) :: d.live
    fresh := fun o ho => by
      rcases List.mem_cons.mp ho with rfl | ho
      · exact Nat.lt_succ_self d.next
      · exact (d.fresh o ho).trans (Nat.lt_succ_self d.next) }

/-- A call that makes an object. -/
def create (kind : ObjectKind) : Act CmDevice (Option ℕ) := fun d =>
  if d.errno d.calls = 0 then (.ok (some d.next), d.tick.add kind) else (.ok none, d.tick)

/-- A call that makes none: the error it returns. -/
def request : Act CmDevice ℕ := fun d => (.ok (d.errno d.calls), d.tick)

def rdmaCreateEventChannel := create .channel

def rdmaCreateId := create .cmId

def rdmaGetaddrinfo := request

def rdmaResolveAddr := request

def ibvAllocPd := create .pd

def ibvRegMr := create .mr

def ibvCreateCq := create .cq

def rdmaCreateQp := create .qp

def rdmaJoinMulticast := request

def ibvCreateAh := create .ah

/-- `rdma_get_cm_event`, with the event it finds. -/
def rdmaGetCmEvent : Act CmDevice (ℕ × CmEvent) := fun d =>
  (.ok (d.errno d.calls, d.event d.calls), d.tick)

/-- `if (!(h = x)) throw runtime_error(what);` -/
def made (what : String) (x : Act CmDevice (Option ℕ)) : Act CmDevice ℕ := do
  match ← x with
  | some h => return h
  | none => throw (.runtimeError what)

/-- `if (x != 0) throw runtime_error(what);` -/
def done (what : String) (x : Act CmDevice ℕ) : Act CmDevice Unit := do
  let err ← x
  if err ≠ 0 then throw (.runtimeError what)

/-! ## What the calls return -/

open Act

variable {E : Exn → CmDevice → Prop} {what : String}

theorem wp_create {Q : Option ℕ → CmDevice → Prop} :
    wp (create kind) Q E d ↔ (d.errno d.calls = 0 → Q (some d.next) (d.tick.add kind)) ∧
      (d.errno d.calls ≠ 0 → Q none d.tick) := by
  unfold wp create
  split_ifs with herr <;> simp [herr]

/-- **`n` calls after `d₀`**, which have made the objects `new`. -/
structure After (d₀ : CmDevice) (new : List (ObjectKind × ℕ)) (n : ℕ) (d : CmDevice) : Prop where
  errno : d.errno = d₀.errno
  event : d.event = d₀.event
  calls : d.calls = d₀.calls + n
  next : d₀.next ≤ d.next
  live : d.live = new ++ d₀.live
  apart : ∀ o ∈ new, o ∉ d₀.live

namespace After

variable {d₀ : CmDevice} {new : List (ObjectKind × ℕ)} {n : ℕ}

theorem start (d₀ : CmDevice) : After d₀ [] 0 d₀ :=
  ⟨rfl, rfl, rfl, le_rfl, rfl, fun _ ho => absurd ho List.not_mem_nil⟩

theorem tick (h : After d₀ new n d) : After d₀ new (n + 1) d.tick :=
  ⟨h.errno, h.event, congrArg Nat.succ h.calls, h.next, h.live, h.apart⟩

theorem add (h : After d₀ new n d) (kind : ObjectKind) :
    After d₀ ((kind, d.next) :: new) (n + 1) (d.tick.add kind) where
  errno := h.errno
  event := h.event
  calls := congrArg Nat.succ h.calls
  next := h.next.trans (Nat.le_succ _)
  live := congrArg (List.cons _) h.live
  apart o ho := by
    rcases List.mem_cons.mp ho with rfl | ho
    · intro hlive
      exact absurd (d₀.fresh _ hlive) (Nat.not_lt.mpr h.next)
    · exact h.apart o ho

/-- Whether the next call fails. -/
theorem errno_eq (h : After d₀ new n d) : d.errno d.calls = d₀.errno (d₀.calls + n) := by
  rw [h.errno, h.calls]

theorem event_eq (h : After d₀ new n d) : d.event d.calls = d₀.event (d₀.calls + n) := by
  rw [h.event, h.calls]

theorem wp_create (h : After d₀ new n d) {Q : Option ℕ → CmDevice → Prop}
    (hQ : d₀.errno (d₀.calls + n) = 0 → ∀ x d', After d₀ ((kind, x) :: new) (n + 1) d' → Q (some x) d')
    (hfail : d₀.errno (d₀.calls + n) ≠ 0 → ∀ d', After d₀ new (n + 1) d' → Q none d') :
    wp (create kind) Q E d := by
  rw [CmDevice.wp_create, h.errno_eq]
  exact ⟨fun herr => hQ herr _ _ (h.add kind), fun herr => hfail herr _ h.tick⟩

theorem wp_made (h : After d₀ new n d) {Q : ℕ → CmDevice → Prop}
    (hQ : d₀.errno (d₀.calls + n) = 0 → ∀ x d', After d₀ ((kind, x) :: new) (n + 1) d' → Q x d')
    (hE : d₀.errno (d₀.calls + n) ≠ 0 → ∀ e d', After d₀ new (n + 1) d' → E e d') :
    wp (made what (create kind)) Q E d := by
  unfold made
  rw [wp_bind]
  exact h.wp_create hQ fun herr d' hafter => hE herr _ d' hafter

theorem wp_done (h : After d₀ new n d) {Q : Unit → CmDevice → Prop}
    (hQ : d₀.errno (d₀.calls + n) = 0 → ∀ d', After d₀ new (n + 1) d' → Q () d')
    (hE : d₀.errno (d₀.calls + n) ≠ 0 → ∀ e d', After d₀ new (n + 1) d' → E e d') :
    wp (done what request) Q E d := by
  unfold done
  rw [wp_bind]
  show wp _ Q E d.tick
  rw [wp_ite, wp_throw, wp_pure, h.errno_eq]
  exact ⟨fun herr => hE herr _ _ h.tick, fun herr => hQ (not_not.mp herr) _ h.tick⟩

end After

end CmDevice

end RdmaManager
