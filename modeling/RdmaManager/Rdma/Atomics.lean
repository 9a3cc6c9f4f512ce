import RdmaManager.Rdma.FailedPosts
import RdmaManager.Rdma.RequestRead
import RdmaManager.Rdma.Transfers
/-!
# Atomic operations on remote words

The device compares and swaps 64 bits, and `compareAndSwap` is documented
to do so. Its two operands are `int`s: what a caller passes is reduced to
32 bits, and its sign is extended when the request is made.
-/

namespace RdmaManager

/-- **What the device makes of the words of the remote memory** by an atomic
request. The other requests are none of its business here. -/
def SendWr.execute (wr : SendWr) (mem : ℕ → ℕ) : ℕ → ℕ :=
  match wr.opcode with
  | .cmpAndSwp =>
      if mem wr.remoteAddr = wr.compareAdd then Function.update mem wr.remoteAddr wr.swap else mem
  | .fetchAndAdd =>
      Function.update mem wr.remoteAddr (wrap64 (mem wr.remoteAddr + wr.compareAdd))
  | _ => mem

/-- The requests that a queue has and an earlier state of it had not. -/
def SendQueue.since (q q' : SendQueue) : List SendWr := q'.wrs.drop q.wrs.length

/-- The remote memory after the requests that were posted in between. -/
def remoteAfter (q q' : SendQueue) (mem : ℕ → ℕ) : ℕ → ℕ :=
  (q.since q').foldl (fun mem wr => wr.execute mem) mem

/-- **Compare-and-swap** of one word. -/
def casWord (expected desired word : ℕ) : ℕ := if word = expected then desired else word

/-- What an `int` parameter is, of an argument of a wider type. -/
def intArg (n : ℤ) : ℤ := n.bmod (2 ^ 32)

/-- The argument is a value of `int`, if it is read as signed. -/
def FitsInt (n : ℤ) : Prop := -2 ^ 31 ≤ n.bmod (2 ^ 64) ∧ n.bmod (2 ^ 64) < 2 ^ 31

instance (n : ℤ) : Decidable (FitsInt n) := inferInstanceAs (Decidable (_ ∧ _))

namespace ReliableRDMA

/-- The field of the request that comes of an argument. -/
def operand (n : ℤ) : ℕ := uint64OfInt (intArg n)

/-- The two overloads. -/
inductive CasOverload
  | sized (size : ℕ)
  | int64
  deriving DecidableEq, Repr

/-- `ReliableRDMA::compareAndSwap(rdmaConnID, size_t, const void *, int, int, bool)`,
which is for the size of an `int64_t`. -/
def compareAndSwapInt64 (c : SendConfig) (id offset memAddr : ℕ) (signaled : Bool) (v : Verbs)
    (toCompare toSwap : ℤ) : BaseRDMA × SendQueue → Outcome × (BaseRDMA × SendQueue) :=
  compareAndSwap c id offset memAddr 8 signaled v toCompare toSwap

/-- A call of an overload, with arguments of any integer type. -/
def CasOverload.call (c : SendConfig) (id offset memAddr : ℕ) (signaled : Bool) (v : Verbs)
    (expected desired : ℤ) : CasOverload → BaseRDMA × SendQueue → Outcome × (BaseRDMA × SendQueue)
  | sized size => compareAndSwap c id offset memAddr size signaled v (intArg expected) (intArg desired)
  | int64 => compareAndSwapInt64 c id offset memAddr signaled v (intArg expected) (intArg desired)

/-- `compareAndSwap(n, n - 1)` for every `n` from the first down to one. -/
def countDown (c : SendConfig) (id offset memAddr : ℕ) (signaled : Bool) (v : ℕ → Verbs)
    (o : CasOverload) : ℕ → BaseRDMA × SendQueue → BaseRDMA × SendQueue
  | 0, p => p
  | n + 1, p =>
      countDown c id offset memAddr signaled v o n
        (o.call c id offset memAddr signaled (v (n + 1)) (n + 1) n p).2

/-- The connection `id` is there: its counter, its queue pair and its remote
data. -/
structure Ready (id : ℕ) (s : BaseRDMA) : Prop where
  counter : id < s.countWR.length
  qp : (s.qpAt id).qp ≠ none
  rconn : id < s.rconns.length

/-- The remote address of an operation. -/
def remoteAddr (s : BaseRDMA) (id offset : ℕ) : ℕ :=
  wrap64 ((s.rconnAt id).buffer.toNat + offset)

/-! ## What is posted -/

variable {c : SendConfig} {id offset memAddr : ℕ} {signaled : Bool} {v : Verbs}
  {s : BaseRDMA} {p : BaseRDMA × SendQueue}

/-- A call whose request is made and not refused posts it. -/
theorem wrs_posting {σ : Type} {check : Act σ Bool} {request : Bool → σ → Except Exn SendWr}
    {wr : SendWr} {b : Bool} {s : σ} {p : σ × SendQueue} (texts : SendTexts) (wait : Bool)
    (herr : v.errno = 0) (hcheck : check p.1 = (.ok b, s)) (hrequest : request b s = .ok wr) :
    (posting check request texts wait v p).2.2.wrs = p.2.wrs ++ [wr] := by
  unfold posting
  rw [hcheck]
  simp only [hrequest]
  unfold postAndAwait
  rw [if_neg (not_not_intro herr)]
  split_ifs
  · rw [TransferFn.wrs_await]
    rfl
  · rfl

/-- The counters aside, a call leaves the object as it is. -/
theorem Ready.counted (h : Ready id s) (maxWr : UInt32) (signaled : Bool) :
    Ready id (BaseRDMA.checkSignaled maxWr id signaled s).2 := by
  rw [checkSignaled_of_lt maxWr h.counter]
  exact ⟨by rw [List.length_set]; exact h.counter, h.qp, h.rconn⟩

variable (c offset memAddr signaled) in
/-- **What a call posts**, of either overload: one request, that compares
with and swaps for what is left of the arguments. -/
theorem CasOverload.call_posts (h : Ready id p.1) (herr : v.errno = 0) (o : CasOverload)
    (expected desired : ℤ) :
    ∃ wr, (o.call c id offset memAddr signaled v expected desired p).2.2.wrs = p.2.wrs ++ [wr] ∧
      wr.opcode = .cmpAndSwp ∧ wr.remoteAddr = remoteAddr p.1 id offset ∧
      wr.compareAdd = operand expected ∧ wr.swap = operand desired := by
  have hcheck := checkSignaled_of_lt c.maxWr h.counter signaled
  have hready : ¬ ((p.1.qpAt id).qp = none ∨ p.1.rconns.length ≤ id) := by
    rintro (hqp | hlen)
    · exact h.qp hqp
    · exact absurd h.rconn (by omega)
  cases o with
  | sized size =>
      exact ⟨_, wrs_posting _ true herr hcheck (if_neg hready), rfl, rfl, rfl, rfl⟩
  | int64 =>
      exact ⟨_, wrs_posting _ true herr hcheck (if_neg hready), rfl, rfl, rfl, rfl⟩

theorem CasOverload.call_object (o : CasOverload) (expected desired : ℤ) :
    (o.call c id offset memAddr signaled v expected desired p).2.1 =
      (BaseRDMA.checkSignaled c.maxWr id signaled p.1).2 := by
  cases o with
  | sized size => exact posting_object _ true v p
  | int64 => exact posting_object _ true v p

/-- The address of the remote word is the same after a call. -/
theorem remoteAddr_call (h : Ready id p.1) (o : CasOverload) (expected desired : ℤ) :
    remoteAddr (o.call c id offset memAddr signaled v expected desired p).2.1 id offset =
      remoteAddr p.1 id offset := by
  rw [o.call_object, checkSignaled_of_lt c.maxWr h.counter]
  rfl

theorem execute_cas {wr : SendWr} (hop : wr.opcode = .cmpAndSwp) (mem : ℕ → ℕ) :
    wr.execute mem wr.remoteAddr = casWord wr.compareAdd wr.swap (mem wr.remoteAddr) := by
  unfold SendWr.execute casWord
  rw [hop]
  simp only
  split_ifs
  · rw [Function.update_self]
  · rfl

/-- **A call is a compare-and-swap of the operands.** -/
theorem remoteAfter_call (h : Ready id p.1) (herr : v.errno = 0) (o : CasOverload)
    (expected desired : ℤ) (mem : ℕ → ℕ) :
    remoteAfter p.2 (o.call c id offset memAddr signaled v expected desired p).2.2 mem
        (remoteAddr p.1 id offset) =
      casWord (operand expected) (operand desired) (mem (remoteAddr p.1 id offset)) := by
  obtain ⟨wr, hwrs, hop, haddr, hcompare, hswap⟩ :=
    o.call_posts c offset memAddr signaled h herr expected desired
  unfold remoteAfter SendQueue.since
  rw [hwrs, List.drop_left, List.foldl_cons, List.foldl_nil, ← haddr, execute_cas hop, hcompare,
    hswap]

/-! ## What is left of an argument -/

theorem intArg_eq (n : ℤ) :
    intArg n = n % 2 ^ 32 - if 2 ^ 31 ≤ n % 2 ^ 32 then 2 ^ 32 else 0 := by
  unfold intArg
  rw [Int.bmod_eq_emod]
  split_ifs <;> omega

theorem fitsInt_iff (n : ℤ) : FitsInt n ↔ n % 2 ^ 64 < 2 ^ 31 ∨ 2 ^ 64 - 2 ^ 31 ≤ n % 2 ^ 64 := by
  unfold FitsInt
  rw [Int.bmod_eq_emod]
  split_ifs <;> omega

/-- An argument comes through if and only if it is a value of `int`. -/
theorem operand_eq_iff (n : ℤ) : operand n = uint64OfInt n ↔ FitsInt n := by
  unfold operand uint64OfInt
  rw [intArg_eq, fitsInt_iff]
  split_ifs <;> omega

/-- What is left of an argument is a value of `int`. -/
theorem fitsInt_operand (n : ℤ) : FitsInt (operand n) := by
  unfold operand uint64OfInt
  rw [intArg_eq, fitsInt_iff]
  split_ifs <;> omega

theorem uint64OfInt_lt (n : ℤ) : uint64OfInt n < 2 ^ 64 := by
  unfold uint64OfInt
  omega

theorem uint64OfInt_natCast {n : ℕ} (h : n < 2 ^ 64) : uint64OfInt n = n := by
  unfold uint64OfInt
  omega

/-- What is left depends on the 64 bits of the argument. -/
theorem operand_congr {m n : ℤ} (h : uint64OfInt m = uint64OfInt n) : operand m = operand n := by
  unfold uint64OfInt at h
  have hlow : m % 2 ^ 32 = n % 2 ^ 32 := by omega
  unfold operand
  rw [intArg_eq, intArg_eq, hlow]

/-- **When the operands are as good as the arguments**: both come through,
or nothing is to be swapped. -/
theorem casWord_operand_iff (expected desired : ℤ) :
    (∀ word < 2 ^ 64, casWord (operand expected) (operand desired) word =
        casWord (uint64OfInt expected) (uint64OfInt desired) word) ↔
      uint64OfInt expected = uint64OfInt desired ∨ FitsInt expected ∧ FitsInt desired := by
  rw [← operand_eq_iff, ← operand_eq_iff]
  constructor
  · intro h
    by_cases hexpected : operand expected = uint64OfInt expected
    · -- the word that is expected is swapped, for what is left of the other
      have hswap := h (uint64OfInt expected) (uint64OfInt_lt expected)
      rw [casWord, casWord, if_pos hexpected.symm, if_pos rfl] at hswap
      exact Or.inr ⟨hexpected, hswap⟩
    · -- the word that is expected is left alone
      have hkept := h (uint64OfInt expected) (uint64OfInt_lt expected)
      rw [casWord, casWord, if_neg (Ne.symm hexpected), if_pos rfl] at hkept
      exact Or.inl hkept
  · rintro (hsame | ⟨hexpected, hdesired⟩) word -
    · rw [operand_congr hsame, hsame]
      unfold casWord
      split_ifs with h₁ h₂ h₂
      · rw [← h₁, h₂]
      · exact h₁.symm
      · exact h₂
      · rfl
    · rw [hexpected, hdesired]

/-! ## Counting down -/

/-- The words that the requests of `countDown` make of a word. -/
def countWord : ℕ → ℕ → ℕ
  | 0, word => word
  | n + 1, word => countWord n (casWord (operand (n + 1)) (operand n) word)

/-- From what is left of the first number, each request finds what the one
before it has left. -/
theorem countWord_operand (n : ℕ) : countWord n (operand n) = 0 := by
  induction n with
  | zero => rfl
  | succ n ih =>
      have hcast : ((n + 1 : ℕ) : ℤ) = n + 1 := Int.natCast_succ n
      rw [countWord, hcast, casWord, if_pos rfl]
      exact ih

/-- A word that is no value of `int` is never found. -/
theorem countWord_of_not_fitsInt {word : ℕ} (hword : ¬ FitsInt word) (n : ℕ) :
    countWord n word = word := by
  induction n with
  | zero => rfl
  | succ n ih =>
      have hmiss : word ≠ operand (n + 1) := by
        intro heq
        exact hword (heq ▸ fitsInt_operand _)
      rw [countWord, casWord, if_neg hmiss, ih]

/-- **A counter is counted down to zero** if and only if it is a value of
`int`. -/
theorem countWord_self_iff {n : ℕ} (hn : n < 2 ^ 64) : countWord n n = 0 ↔ FitsInt n := by
  constructor
  · intro h
    by_contra hfits
    rw [countWord_of_not_fitsInt hfits] at h
    subst h
    exact hfits (by decide)
  · intro hfits
    have hself : operand n = n := by
      rw [(operand_eq_iff n).mpr hfits, uint64OfInt_natCast hn]
    have hcount := countWord_operand n
    rwa [hself] at hcount

/-- The memory after two stretches of requests. -/
theorem remoteAfter_trans {q q' q'' : SendQueue} {wrs wrs' : List SendWr}
    (h : q'.wrs = q.wrs ++ wrs) (h' : q''.wrs = q'.wrs ++ wrs') (mem : ℕ → ℕ) :
    remoteAfter q q'' mem = remoteAfter q' q'' (remoteAfter q q' mem) := by
  unfold remoteAfter SendQueue.since
  rw [h', List.drop_left, h, List.drop_left, List.append_assoc, List.drop_left, List.foldl_append]

variable (c offset memAddr signaled) in
theorem Ready.call (h : Ready id p.1) (o : CasOverload) (expected desired : ℤ) :
    Ready id (o.call c id offset memAddr signaled v expected desired p).2.1 := by
  rw [o.call_object]
  exact h.counted c.maxWr signaled

variable {vs : ℕ → Verbs}

variable (c offset memAddr signaled) in
theorem countDown_wrs (h : Ready id p.1) (herr : ∀ n, (vs n).errno = 0) (o : CasOverload) (n : ℕ) :
    ∃ wrs, (countDown c id offset memAddr signaled vs o n p).2.wrs = p.2.wrs ++ wrs := by
  induction n generalizing p with
  | zero => exact ⟨[], (List.append_nil _).symm⟩
  | succ n ih =>
      obtain ⟨wr, hwr, -⟩ :=
        o.call_posts c offset memAddr signaled h (herr (n + 1)) (n + 1) n
      obtain ⟨wrs, hwrs⟩ :=
        ih (h.call c offset memAddr signaled (v := vs (n + 1)) o (n + 1) n)
      exact ⟨wr :: wrs, by rw [countDown, hwrs, hwr, List.append_assoc, List.singleton_append]⟩

/-- **What counting down makes of the word.** -/
theorem remoteAfter_countDown (h : Ready id p.1) (herr : ∀ n, (vs n).errno = 0) (o : CasOverload)
    (n : ℕ) (mem : ℕ → ℕ) :
    remoteAfter p.2 (countDown c id offset memAddr signaled vs o n p).2 mem
        (remoteAddr p.1 id offset) = countWord n (mem (remoteAddr p.1 id offset)) := by
  induction n generalizing p mem with
  | zero =>
      unfold remoteAfter SendQueue.since
      rw [countDown, List.drop_length, List.foldl_nil, countWord]
  | succ n ih =>
      obtain ⟨wr, hwr, -⟩ :=
        o.call_posts c offset memAddr signaled h (herr (n + 1)) (n + 1) n
      have hready := h.call c offset memAddr signaled (v := vs (n + 1)) o (n + 1) n
      obtain ⟨wrs, hwrs⟩ :=
        countDown_wrs c offset memAddr signaled hready herr o n
      have hrest := ih hready (remoteAfter p.2
        (o.call c id offset memAddr signaled (vs (n + 1)) (n + 1) n p).2.2 mem)
      rw [remoteAddr_call h, remoteAfter_call h (herr (n + 1))] at hrest
      rw [countDown, remoteAfter_trans hwr hwrs, hrest, countWord]

/-- **When `compareAndSwap` is a compare-and-swap of 64 bits**: both
arguments are values of `int`, or they are the same. A counter is counted
down to zero from the values of `int`. -/
theorem compareAndSwap_iff (h : Ready id p.1) (herr : ∀ n, (vs n).errno = 0) (o : CasOverload) :
    (∀ expected desired : ℤ,
      (∀ mem : ℕ → ℕ, mem (remoteAddr p.1 id offset) < 2 ^ 64 →
        remoteAfter p.2 (o.call c id offset memAddr signaled (vs 0) expected desired p).2.2 mem
            (remoteAddr p.1 id offset) =
          casWord (uint64OfInt expected) (uint64OfInt desired) (mem (remoteAddr p.1 id offset))) ↔
        uint64OfInt expected = uint64OfInt desired ∨ FitsInt expected ∧ FitsInt desired) ∧
      ∀ (n : ℕ) (mem : ℕ → ℕ), n < 2 ^ 64 → mem (remoteAddr p.1 id offset) = n →
        (remoteAfter p.2 (countDown c id offset memAddr signaled vs o n p).2 mem
          (remoteAddr p.1 id offset) = 0 ↔ FitsInt n) := by
  constructor
  · intro expected desired
    rw [← casWord_operand_iff]
    constructor
    · intro hcas word hword
      have hmem := hcas (fun _ => word) hword
      rwa [remoteAfter_call h (herr 0)] at hmem
    · intro hcas mem hmem
      rw [remoteAfter_call h (herr 0)]
      exact hcas _ hmem
  · intro n mem hn hmem
    rw [remoteAfter_countDown h herr, hmem]
    exact countWord_self_iff hn

/-- The remote address of the connection of `oneConnection`, at its first
byte. -/
def wordOf (p : BaseRDMA × SendQueue) : ℕ := remoteAddr p.1 0 0

theorem compareAndSwap_two :
    (remoteAfter SendQueue.empty (CasOverload.int64.call defaultSend 0 0 8192 false ⟨0, [], 0⟩ 2 0
        (oneConnection, SendQueue.empty)).2.2 (fun _ => 2) (wordOf (oneConnection, SendQueue.empty)) =
      casWord (uint64OfInt 2) (uint64OfInt 0) 2) ∧
    remoteAfter SendQueue.empty (countDown defaultSend 0 0 8192 false (fun _ => ⟨0, [], 0⟩)
      (.sized 8) 2 (oneConnection, SendQueue.empty)).2 (fun _ => 2)
        (wordOf (oneConnection, SendQueue.empty)) = 0 := by
  have hready : Ready 0 oneConnection := ⟨by decide, by decide, by decide⟩
  have herr : ∀ n, ((fun _ => ⟨0, [], 0⟩ : ℕ → Verbs) n).errno = 0 := fun _ => rfl
  exact ⟨((compareAndSwap_iff (p := (oneConnection, SendQueue.empty)) hready herr .int64).1 2 0).mpr
      (Or.inr ⟨by decide, by decide⟩) (fun _ => 2) (by decide),
    ((compareAndSwap_iff (p := (oneConnection, SendQueue.empty)) hready herr (.sized 8)).2 2
      (fun _ => 2) (by decide) rfl).mpr (by decide)⟩

/-- A word is swapped that is not the expected one: `2`, where `2 ^ 32 + 2`
is expected. And a counter of `2 ^ 31` is never counted down. -/
theorem compareAndSwap_truncated :
    remoteAfter SendQueue.empty (CasOverload.int64.call defaultSend 0 0 8192 false ⟨0, [], 0⟩
        (2 ^ 32 + 2) 0 (oneConnection, SendQueue.empty)).2.2 (fun _ => 2)
        (wordOf (oneConnection, SendQueue.empty)) = 0 ∧
      casWord (uint64OfInt (2 ^ 32 + 2)) (uint64OfInt 0) 2 = 2 ∧
      remoteAfter SendQueue.empty (CasOverload.int64.call defaultSend 0 0 8192 false ⟨0, [], 0⟩
        (2 ^ 31) (2 ^ 31 - 1) (oneConnection, SendQueue.empty)).2.2 (fun _ => 2 ^ 31)
        (wordOf (oneConnection, SendQueue.empty)) = 2 ^ 31 := by
  decide

end ReliableRDMA

end RdmaManager
