import Mathlib.Data.Finset.Insert
import Mathlib.Logic.Function.Basic
/-!
# Messages that need a receive

A message goes over a connection only if the other end has posted a
receive for it, and is polled there once. `Paired` says so of the two ends
of a connection: what was polled was sent, and what was sent has found a
receive. Every call at either end keeps it.

A program that makes each of its calls once for every peer leaves ends
that three sets describe (`Mailbox.once`), which its calls make larger one
peer at a time.
-/

namespace RdmaManager

/-- The calls at one end of a connection. -/
inductive MailCall
  | receive
  | send
  | pollReceive
  deriving DecidableEq, Repr

/-- **One end of a connection**: how many receives were posted, how many
messages were sent to the other end, and how many from there were polled. -/
structure Mailbox where
  posted : ℕ
  sent : ℕ
  polled : ℕ
  deriving DecidableEq, Repr

namespace Mailbox

variable {a b : Mailbox} {call : MailCall}

/-- The call can succeed: a message needs a receive, a completion needs a
message. -/
def Allows (own peer : Mailbox) : MailCall → Prop
  | .receive => True
  | .send => own.sent < peer.posted
  | .pollReceive => own.polled < peer.sent

instance (own peer : Mailbox) : ∀ call, Decidable (own.Allows peer call)
  | .receive => inferInstanceAs (Decidable True)
  | .send => inferInstanceAs (Decidable (_ < _))
  | .pollReceive => inferInstanceAs (Decidable (_ < _))

/-- The end after a call that succeeded. -/
def after (own : Mailbox) : MailCall → Mailbox
  | .receive => { own with posted := own.posted + 1 }
  | .send => { own with sent := own.sent + 1 }
  | .pollReceive => { own with polled := own.polled + 1 }

/-- How many calls were made at the end. -/
def total (own : Mailbox) : ℕ := own.posted + own.sent + own.polled

theorem total_after (own : Mailbox) (call : MailCall) : (own.after call).total = own.total + 1 := by
  cases call <;> simp only [after, total] <;> omega

/-! ## Both ends -/

/-- **What was polled was sent, and what was sent has found a receive.** -/
structure Paired (a b : Mailbox) : Prop where
  polled : a.polled ≤ b.sent
  found : b.sent ≤ a.posted
  polled' : b.polled ≤ a.sent
  found' : a.sent ≤ b.posted

theorem Paired.symm (h : Paired a b) : Paired b a := ⟨h.polled', h.found', h.polled, h.found⟩

theorem Paired.after (h : Paired a b) (hcan : a.Allows b call) : Paired (a.after call) b := by
  have hpolled := h.polled
  have hfound := h.found
  have hpolled' := h.polled'
  have hfound' := h.found'
  cases call with
  | receive => exact ⟨hpolled, Nat.le_succ_of_le hfound, hpolled', hfound'⟩
  | send =>
      have hroom : a.sent < b.posted := hcan
      exact ⟨hpolled, hfound, Nat.le_succ_of_le hpolled', hroom⟩
  | pollReceive =>
      have hcome : a.polled < b.sent := hcan
      exact ⟨hcome, hfound, hpolled', hfound'⟩

variable {ι : Type*} [DecidableEq ι] {ends peers : ι → Mailbox} {id i : ι}

/-- One of many connections goes on. -/
theorem Paired.update (h : ∀ i, Paired (ends i) (peers i)) (hcan : (ends id).Allows (peers id) call)
    (i : ι) : Paired (Function.update ends id ((ends id).after call) i) (peers i) := by
  rcases eq_or_ne i id with rfl | hne
  · rw [Function.update_self]
    exact (h i).after hcan
  · rw [Function.update_of_ne hne]
    exact h i

/-! ## The ends of a program -/

/-- The ends after a call of the program, if it makes one and it succeeds. -/
def made (ends : ι → Mailbox) (success : Bool) : Option (ι × MailCall) → ι → Mailbox
  | some (id, call) => if success then Function.update ends id ((ends id).after call) else ends
  | none => ends

/-- The call may succeed, or it fails. -/
def Can (ends peers : ι → Mailbox) (success : Bool) : Option (ι × MailCall) → Prop
  | some (id, call) => success = true → (ends id).Allows (peers id) call
  | none => True

instance (ends peers : ι → Mailbox) (success : Bool) :
    ∀ call, Decidable (Can ends peers success call)
  | some (_, _) => inferInstanceAs (Decidable (_ → _))
  | none => inferInstanceAs (Decidable True)

/-- A poll waits for its message. -/
def Ready (ends peers : ι → Mailbox) : Option (ι × MailCall) → Prop
  | some (id, .pollReceive) => (ends id).Allows (peers id) .pollReceive
  | _ => True

instance (ends peers : ι → Mailbox) : ∀ call, Decidable (Ready ends peers call)
  | some (_, .receive) => inferInstanceAs (Decidable True)
  | some (_, .send) => inferInstanceAs (Decidable True)
  | some (id, .pollReceive) => inferInstanceAs (Decidable ((ends id).Allows (peers id) .pollReceive))
  | none => inferInstanceAs (Decidable True)

/-- A message that finds no receive fails, and nothing else does. -/
def succeeds (ends peers : ι → Mailbox) : Option (ι × MailCall) → Bool
  | some (id, .send) => decide ((ends id).Allows (peers id) .send)
  | _ => true

omit [DecidableEq ι] in
theorem Ready.can {call : Option (ι × MailCall)} (h : Ready ends peers call) :
    Can ends peers (succeeds ends peers call) call := by
  rcases call with _ | ⟨id, call⟩
  · trivial
  · cases call with
    | receive => exact fun _ => trivial
    | send => exact of_decide_eq_true
    | pollReceive => exact fun _ => h

theorem Paired.made (h : ∀ i, Paired (ends i) (peers i)) {success : Bool}
    {call : Option (ι × MailCall)} (hcan : Can ends peers success call) (i : ι) :
    Paired (Mailbox.made ends success call i) (peers i) := by
  rcases call with _ | ⟨id, call⟩
  · exact h i
  · cases success with
    | false => exact h i
    | true => exact Paired.update h (hcan rfl) i

/-! ## One call of each kind for every peer -/

/-- How often an id is in a set. -/
def mark (ids : Finset ι) (id : ι) : ℕ := if id ∈ ids then 1 else 0

/-- **The ends** of a program that has posted one receive for each of the
first ids, has sent one message to each of the second and has polled one
from each of the third. -/
def once (posted sent polled : Finset ι) (id : ι) : Mailbox :=
  ⟨mark posted id, mark sent id, mark polled id⟩

variable {ids posted sent polled : Finset ι}

theorem mark_of_mem (h : id ∈ ids) : mark ids id = 1 := if_pos h

theorem mark_of_notMem (h : id ∉ ids) : mark ids id = 0 := if_neg h

theorem mem_of_mark_pos (h : 0 < mark ids id) : id ∈ ids := by
  by_contra hout
  rw [mark_of_notMem hout] at h
  omega

/-- A call for one more id. -/
theorem mark_insert_self (h : id ∉ ids) : mark (insert id ids) id = mark ids id + 1 := by
  rw [mark_of_notMem h, mark_of_mem (Finset.mem_insert_self _ _)]

theorem mark_insert_of_ne (hne : i ≠ id) : mark (insert id ids) i = mark ids i := by
  unfold mark
  simp only [Finset.mem_insert, hne, false_or]

theorem update_receive (h : id ∉ posted) :
    Function.update (once posted sent polled) id ((once posted sent polled id).after .receive) =
      once (insert id posted) sent polled := by
  refine Function.update_eq_iff.mpr ⟨?_, fun i hne => ?_⟩
  · rw [once, once, mark_insert_self h]
    rfl
  · rw [once, once, mark_insert_of_ne hne]

theorem update_send (h : id ∉ sent) :
    Function.update (once posted sent polled) id ((once posted sent polled id).after .send) =
      once posted (insert id sent) polled := by
  refine Function.update_eq_iff.mpr ⟨?_, fun i hne => ?_⟩
  · rw [once, once, mark_insert_self h]
    rfl
  · rw [once, once, mark_insert_of_ne hne]

theorem update_pollReceive (h : id ∉ polled) :
    Function.update (once posted sent polled) id ((once posted sent polled id).after .pollReceive) =
      once posted sent (insert id polled) := by
  refine Function.update_eq_iff.mpr ⟨?_, fun i hne => ?_⟩
  · rw [once, once, mark_insert_self h]
    rfl
  · rw [once, once, mark_insert_of_ne hne]

end Mailbox

end RdmaManager
