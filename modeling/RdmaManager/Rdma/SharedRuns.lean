import RdmaManager.Common.System
import RdmaManager.Rdma.Destruction
/-!
# Runs with shared receive queues

A queue pair's tear-down relies on `EBUSY` to keep the completion queue
it shares, so the last queue pair of a shared receive queue takes the
completion queue with it although the entry in `m_srqs` stays. In a run
that never disconnects the last one, the completion queue of every entry
is live in every state, and `destroyQPs` destroys everything once if
every entry has a queue pair by then (`recvCq_outlives`).
-/

namespace RdmaManager

/-- The calls that set up and tear down queue pairs of shared receive
queues. -/
inductive SrqCall
  | createSharedReceiveQueue
  | initQPForSRQ (srqId : ℕ)
  | initQPForSRQWithSuppliedID (srqId id : ℕ)
  | setRemoteConnData (id : ℕ) (conn : IbConn)
  | connectQP (id : ℕ)
  | disconnectQP (id : ℕ)
  deriving DecidableEq, Repr

namespace ReliableRDMA

open BaseRDMA Act Device

variable {o : ReliableRDMA} {call : SrqCall}

/-- The object after a call, whatever it returned or threw. -/
def execSrq (o : ReliableRDMA) : SrqCall → ReliableRDMA
  | .createSharedReceiveQueue => (createSharedReceiveQueue o).2
  | .initQPForSRQ k => (initQPForSRQ k o).2
  | .initQPForSRQWithSuppliedID k id => (initQPForSRQWithSuppliedID k id o).2
  | .setRemoteConnData id conn => (onBase (setRemoteConnData id conn) o).2
  | .connectQP id => (onBase (connectQP id) o).2
  | .disconnectQP id => (onBase (disconnectQP id) o).2

/-- The runs of calls on an object whose device never fails. -/
def srqRuns : System ReliableRDMA SrqCall where
  Init o := ∃ errno qpNum pointer rkey lid stack, (∀ n, errno n = 0) ∧
    o = fresh (blank (Device.opened errno qpNum) pointer rkey lid stack)
  Step o call o' := o' = execSrq o call

/-- A queue pair is set up for an entry of `m_srqs` and under an id
without a live one, and no id is disconnected whose queue pair is the
last to complete to its receive queue. -/
def SoundSrq (o : ReliableRDMA) : SrqCall → Prop
  | .createSharedReceiveQueue => o.srqCounter + 1 < 2 ^ 64
  | .initQPForSRQ k => k ∈ o.srqs ∧ o.nextConnKey + 1 < 2 ^ 64
  | .initQPForSRQWithSuppliedID k id => k ∈ o.srqs ∧ id + 1 < 2 ^ 64 ∧ (o.qpAt id).qp = none
  | .disconnectQP id => ∀ h qp, o.connected.lookup id = some true → (o.qpAt id).qp = some h →
      o.device.qps h = some qp →
        ∃ h' qp', h' ≠ h ∧ o.device.qps h' = some qp' ∧ qp'.recvCq = qp.recvCq
  | _ => True

/-- The runs whose calls are all sound. -/
def soundSrqRuns : System ReliableRDMA SrqCall := srqRuns.restrict SoundSrq

/-- The completion queue of every entry of `m_srqs` is live. -/
def RecvCqsLive (o : ReliableRDMA) : Prop :=
  ∀ k srq, o.srqs.lookup k = some srq → ∃ c, srq.recvCq = some c ∧ o.device.cqs c = true

/-- Every entry of `m_srqs` has a live queue pair. -/
def AllUsed (o : ReliableRDMA) : Prop :=
  ∀ k srq, o.srqs.lookup k = some srq →
    ∃ h qp, o.device.qps h = some qp ∧ srq.recvCq = some qp.recvCq

/-- Each completion queue and each shared receive queue that was made has
been destroyed exactly once. -/
def DestroyedOnce (d : Device) : Prop :=
  (∀ c ∈ d.cqsMade, d.cqsDestroyed.count c = 1) ∧ ∀ x ∈ d.srqsMade, d.srqsDestroyed.count x = 1

/-! ## The invariant -/

/-- **What a run of sound calls keeps.** -/
structure SharedInv (o : ReliableRDMA) : Prop where
  shared : Shared o.device o.qpAt o.srqs
  live : ∀ c, ReceivesTo o.srqs c → o.device.cqs c = true
  counter : ∀ k ∈ o.srqs, k < o.srqCounter

/-- A call that leaves the maps alone and changes nothing of the device
that matters. -/
theorem SharedInv.kept (hinv : SharedInv o) {s : BaseRDMA} (hshared : Shared s.device s.qpAt o.srqs)
    (hcqs : s.device.cqs = o.device.cqs) : SharedInv { o with toBaseRDMA := s } := by
  refine ⟨hshared, fun c hc => ?_, hinv.counter⟩
  change s.device.cqs c = true
  rw [hcqs]
  exact hinv.live c hc

theorem SharedInv.createSharedReceiveQueue (hinv : SharedInv o)
    (hbound : o.srqCounter + 1 < 2 ^ 64) :
    wp createSharedReceiveQueue (fun _ => SharedInv) (fun _ => SharedInv) o := by
  have hk : o.srqCounter ∉ o.srqs := fun hmem => absurd (hinv.counter _ hmem) (lt_irrefl _)
  refine wp_createSharedReceiveQueue hinv.shared.succeeds
    ⟨hinv.shared.addSrq hk, fun c hc => ?_, fun k hmem => ?_⟩
  · rw [receivesTo_insert hk] at hc
    rcases hc with rfl | hc
    · exact Function.update_self _ _ _
    · have hlt := hinv.shared.lt_of_receivesTo hc
      exact (Function.update_of_ne (by change c ≠ o.device.next + 1; omega) _ _).trans (hinv.live c hc)
  · change k < wrap64 (o.srqCounter + 1)
    rw [wrap64_of_lt hbound]
    rw [Finmap.mem_insert] at hmem
    rcases hmem with rfl | hmem
    · exact Nat.lt_succ_self _
    · exact Nat.lt_succ_of_lt (hinv.counter k hmem)

theorem SharedInv.initQPForSRQWithSuppliedID (hinv : SharedInv o) {k id : ℕ} (hk : k ∈ o.srqs)
    (hid : id + 1 < 2 ^ 64) (hfree : (o.qpAt id).qp = none) :
    wp (initQPForSRQWithSuppliedID k id) (fun _ => SharedInv) (fun _ => SharedInv) o := by
  obtain ⟨srq, hlookup⟩ := Finmap.mem_iff.mp hk
  obtain ⟨x, c, rfl, hx, -⟩ := hinv.shared.srqs_live k srq hlookup
  have hc := hinv.live c ⟨k, _, hlookup, rfl⟩
  refine wp_initQPForSRQWithSuppliedID hinv.shared.succeeds hlookup hx hc hid
    fun s lconns connectedQPs hset => ⟨?_, fun c' hc' => ?_, hinv.counter⟩
  · change Shared s.device s.qpAt o.srqs
    rw [hset.device, show s.qpAt = _ from funext hset.qpAt]
    exact hinv.shared.addQp hlookup hc hfree
  · change s.device.cqs c' = true
    have hlt := hinv.shared.lt_of_receivesTo hc'
    rw [hset.device]
    exact (Function.update_of_ne (by omega) _ _).trans (hinv.live c' hc')

theorem SharedInv.connectQP (hinv : SharedInv o) (id : ℕ) :
    wp (onBase (connectQP id)) (fun _ => SharedInv) (fun _ => SharedInv) o := by
  rw [wp_onBase]
  refine wp_connectQP (fun _ => hinv) (fun h old _ hable => ?_)
    (fun e d' _ hbad => absurd hinv.shared.succeeds hbad) fun e _ _ => ⟨hinv, ?_⟩
  · exact hinv.kept (hinv.shared.readied hable.2.1 _) rfl
  · exact hinv.kept (s := { o.toBaseRDMA with device := o.device.tick })
      (hinv.shared.congr rfl rfl rfl rfl rfl rfl rfl rfl rfl) rfl

theorem SharedInv.setRemoteConnData (hinv : SharedInv o) (id : ℕ) (conn : IbConn) :
    wp (onBase (setRemoteConnData id conn)) (fun _ => SharedInv) (fun _ => SharedInv) o := by
  rw [wp_onBase]
  exact wp_setRemoteConnData (fun _ _ _ _ => hinv.kept hinv.shared rfl) fun _ _ => hinv

theorem SharedInv.disconnectQP (hinv : SharedInv o) {id : ℕ} (hsound : SoundSrq o (.disconnectQP id)) :
    wp (onBase (disconnectQP id)) (fun _ => SharedInv) (fun _ => SharedInv) o := by
  rw [wp_onBase]
  have hs := hinv.shared
  by_cases hlive : o.connected.lookup id = some true ∧ ∃ h, (o.qpAt id).qp = some h
  · obtain ⟨hconn, h, hqp⟩ := hlive
    obtain ⟨c, r, x, hl, hat⟩ := hs.tables id h hqp
    obtain ⟨old, hold, hlinks⟩ := Option.map_eq_some_iff.mp hl
    rw [Prod.mk.injEq, Prod.mk.injEq] at hlinks
    obtain ⟨rfl, rfl, -⟩ := hlinks
    obtain ⟨hsend, hrecv⟩ := hs.cqs h _ _ _ hl
    have hne : old.sendCq ≠ old.recvCq := by
      intro heq
      have hentry := hs.entry h _ _ _ hl
      rw [← heq] at hentry
      exact hs.sends h _ _ _ hl hentry
    have hlt : id < o.qps.length := by
      by_contra hge
      rw [qpAt, List.getD_eq_default _ _ (by omega)] at hqp
      simp [IbQp.null] at hqp
    refine wp_disconnectQP_of_live hs.succeeds hconn hlt hat hold hsend hrecv hne
      ⟨?_, fun c' hc' => ?_, hinv.counter⟩
    · change Shared (tornDown o.device h old.sendCq old.recvCq)
        (disconnected o.toBaseRDMA id (tornDown o.device h old.sendCq old.recvCq)).qpAt o.srqs
      rw [show BaseRDMA.qpAt _ = _ from funext (qpAt_disconnected hlt)]
      exact hs.tearDown hqp hl
    · -- another queue pair keeps the shared queue
      change (tornDown o.device h old.sendCq old.recvCq).cqs c' = true
      obtain ⟨-, hshared, hother, -⟩ := hs.cqs_tornDown hl
      have hcs : c' ≠ old.sendCq := by
        rintro rfl
        exact hs.sends h _ _ _ hl hc'
      rcases eq_or_ne c' old.recvCq with rfl | hcr
      · obtain ⟨h', qp', hne', hqp', heq⟩ := hsound h old hconn hqp hold
        rw [hshared, attached_iff_links]
        refine ⟨h', qp'.sendCq, qp'.recvCq, qp'.srq, ?_, Or.inr heq⟩
        rw [links_tornDown, Function.update_of_ne hne', links_of_live hqp']
      · rw [hother c' hcs hcr]
        exact hinv.live c' hc'
  · refine wp_disconnectQP (fun _ => hinv) (fun _ _ => hinv.kept hs rfl)
      (fun h d' hconn _ hqp _ => absurd ⟨hconn, h, hqp⟩ hlive) (fun e _ => ⟨hinv, ?_⟩)
      fun h e hconn hqp _ => absurd ⟨hconn, h, hqp⟩ hlive
    exact hinv.kept (s := { o.toBaseRDMA with device := o.device.tick })
      (hs.congr rfl rfl rfl rfl rfl rfl rfl rfl rfl) rfl

/-! ## Every run -/

theorem SharedInv.init (hinit : srqRuns.Init o) : SharedInv o := by
  obtain ⟨errno, qpNum, pointer, rkey, lid, stack, hsucc, rfl⟩ := hinit
  have hnone : ∀ i, ¬ ReceivesTo (∅ : Finmap fun _ : ℕ => SharedRq) i := by
    rintro i ⟨k, srq, hlookup, -⟩
    simp at hlookup
  refine ⟨⟨hsucc, ?_, ?_, ?_, ?_, ?_, ?_, ?_, ?_, ?_, ?_, ?_, Ledger.empty, Ledger.empty⟩,
    fun c hc => absurd hc (hnone c), fun k hk => absurd hk Finmap.notMem_empty⟩ <;>
    simp [fresh, blank, Device.links, qpAt, IbQp.null]

theorem initQPForSRQ_snd {k : ℕ} :
    (initQPForSRQ k o).2 = (initQPForSRQWithSuppliedID k o.nextConnKey o).2 := by
  unfold initQPForSRQ
  rw [bind_of_ok get_apply]
  rcases hx : ReliableRDMA.initQPForSRQWithSuppliedID k o.nextConnKey o with ⟨e | u, o'⟩
  · rw [bind_of_error hx]
  · rw [bind_of_ok hx]
    rfl

/-- **A sound call keeps the invariant.** -/
theorem SharedInv.execSrq (hinv : SharedInv o) (hsound : SoundSrq o call) :
    SharedInv (execSrq o call) := by
  cases call with
  | createSharedReceiveQueue => exact wp_snd.mp (hinv.createSharedReceiveQueue hsound)
  | initQPForSRQ k =>
      change SharedInv (initQPForSRQ k o).2
      rw [initQPForSRQ_snd]
      refine wp_snd.mp (hinv.initQPForSRQWithSuppliedID hsound.1 hsound.2 ?_)
      rw [qpAt, nextConnKey, List.getD_eq_default _ _ le_rfl]
      rfl
  | initQPForSRQWithSuppliedID k id =>
      exact wp_snd.mp (hinv.initQPForSRQWithSuppliedID hsound.1 hsound.2.1 hsound.2.2)
  | setRemoteConnData id conn => exact wp_snd.mp (hinv.setRemoteConnData id conn)
  | connectQP id => exact wp_snd.mp (hinv.connectQP id)
  | disconnectQP id => exact wp_snd.mp (hinv.disconnectQP hsound)

theorem sharedInv_invariant : soundSrqRuns.Invariant SharedInv where
  init _ := SharedInv.init
  step o call o' _ hinv hstep := by
    obtain ⟨hsound, rfl⟩ := hstep
    exact hinv.execSrq hsound

/-- **The completion queue of a shared receive queue outlives its queue
pairs**, and the destructor destroys everything once. -/
theorem recvCq_outlives (hreach : soundSrqRuns.Reachable o) :
    RecvCqsLive o ∧
      (AllUsed o → ∃ o', destroyQPs o = (.ok (), o') ∧ DestroyedOnce o'.device) := by
  have hinv := sharedInv_invariant.reachable hreach
  refine ⟨fun k srq hlookup => ?_, fun hused => ?_⟩
  · obtain ⟨x, c, rfl, -, -⟩ := hinv.shared.srqs_live k srq hlookup
    exact ⟨c, rfl, hinv.live c ⟨k, _, hlookup, rfl⟩⟩
  · have hserved : Served o.device o.srqs := by
      rintro c ⟨k, srq, hlookup, hrecv⟩ -
      obtain ⟨h, qp, hqp, heq⟩ := hused k srq hlookup
      rw [hrecv, Option.some.injEq] at heq
      exact attached_iff.mpr ⟨h, qp, hqp, Or.inr heq.symm⟩
    have hdone : wp destroyQPs (fun _ o' => DestroyedOnce o'.device) (fun _ _ => False) o :=
      wp_destroyQPs hinv.shared hserved
    rcases hx : destroyQPs o with ⟨e | u, o'⟩
    · exact (wp_error hdone hx).elim
    · have honce := wp_ok hdone hx
      exact ⟨o', rfl, honce⟩

/-! ## Three runs -/

/-- A newly constructed object on a device that never fails. -/
def steadySrq : ReliableRDMA :=
  fresh (blank (Device.opened (fun _ => 0) fun h => h.toUInt32) 4096 7 1 IbConn.zero)

theorem steadySrq_init : srqRuns.Init steadySrq := ⟨_, _, _, _, _, _, fun _ => rfl, rfl⟩

/-- The object after calls. -/
def afterSrq (calls : List SrqCall) : ReliableRDMA := calls.foldl execSrq steadySrq

/-- Two queue pairs share a queue, and one of them is connected. -/
def shareQueue : List SrqCall :=
  [.createSharedReceiveQueue, .initQPForSRQWithSuppliedID 0 0, .initQPForSRQ 0,
    .setRemoteConnData 0 IbConn.zero, .connectQP 0]

/-- The only queue pair of a queue is connected and disconnected. -/
def dropOnly : List SrqCall :=
  [.createSharedReceiveQueue, .initQPForSRQ 0, .setRemoteConnData 0 IbConn.zero, .connectQP 0,
    .disconnectQP 0]

/-- Then the connected one of the two is disconnected. -/
def leaveShared : ReliableRDMA := afterSrq (shareQueue ++ [.disconnectQP 0])

theorem shareQueue_sound : soundSrqRuns.StepsAlong execSrq steadySrq shareQueue := by
  refine ⟨⟨show _ < _ from ?_, rfl⟩, ⟨⟨?_, ?_, ?_⟩, rfl⟩, ⟨⟨?_, ?_⟩, rfl⟩, ⟨trivial, rfl⟩,
    ⟨trivial, rfl⟩, trivial⟩ <;> decide +kernel

theorem leaveShared_reachable : soundSrqRuns.Reachable leaveShared := by
  have hshared : soundSrqRuns.Reachable (afterSrq shareQueue) :=
    (System.Reachable.init (M := soundSrqRuns) steadySrq_init).along shareQueue_sound
  refine hshared.step (l := .disconnectQP 0) ⟨fun h qp _ hqp hlive => ?_, rfl⟩
  have hself : ((afterSrq shareQueue).qpAt 0).qp = some 3 ∧
      (afterSrq shareQueue).device.qps 3 = some ⟨.rc, .rts, some (0, 0), 2, 1, some 0⟩ ∧
      (afterSrq shareQueue).device.qps 5 = some ⟨.rc, .init, none, 4, 1, some 0⟩ := by decide +kernel
  obtain ⟨hqp₀, hlive₀, hother⟩ := hself
  rw [hqp₀] at hqp
  obtain rfl := Option.some.inj hqp
  rw [hlive₀] at hlive
  obtain rfl := Option.some.inj hlive
  exact ⟨5, _, by decide, hother, rfl⟩

theorem leaveShared_allUsed : AllUsed leaveShared := by
  intro k srq hlookup
  have hsrqs : leaveShared.srqs = (∅ : Finmap fun _ : ℕ => SharedRq).insert 0 ⟨some 0, some 1⟩ := by
    decide +kernel
  have hother : leaveShared.device.qps 5 = some ⟨.rc, .init, none, 4, 1, some 0⟩ := by decide +kernel
  rw [hsrqs] at hlookup
  rcases eq_or_ne k 0 with rfl | hne
  · rw [Finmap.lookup_insert] at hlookup
    obtain rfl := Option.some.inj hlookup
    exact ⟨5, _, hother, rfl⟩
  · rw [Finmap.lookup_insert_of_ne _ hne] at hlookup
    simp at hlookup

/-- The queue that is left with one of its two queue pairs. -/
theorem recvCq_outlives_first :
    RecvCqsLive leaveShared ∧
      ∃ o', destroyQPs leaveShared = (.ok (), o') ∧ DestroyedOnce o'.device :=
  ⟨(recvCq_outlives leaveShared_reachable).1,
    (recvCq_outlives leaveShared_reachable).2 leaveShared_allUsed⟩

theorem afterSrq_reachable (calls : List SrqCall) : srqRuns.Reachable (afterSrq calls) := by
  refine (System.Reachable.init (M := srqRuns) steadySrq_init).along ?_
  generalize steadySrq = o
  induction calls generalizing o with
  | nil => exact trivial
  | cons call calls ih => exact ⟨rfl, ih (execSrq o call)⟩

/-- **The last queue pair takes the shared completion queue with it**, and
a queue without queue pairs keeps it beyond the destructor. -/
theorem recvCq_does_not_outlive :
    (srqRuns.Reachable (afterSrq dropOnly) ∧ ¬ RecvCqsLive (afterSrq dropOnly)) ∧
      srqRuns.Reachable (afterSrq [.createSharedReceiveQueue]) ∧
        ¬ DestroyedOnce (destroyQPs (afterSrq [.createSharedReceiveQueue])).2.device := by
  refine ⟨⟨afterSrq_reachable _, fun hlive => ?_⟩, afterSrq_reachable _, fun honce => ?_⟩
  · have hentry : (afterSrq dropOnly).srqs.lookup 0 = some ⟨some 0, some 1⟩ ∧
        (afterSrq dropOnly).device.cqs 1 = false := by decide +kernel
    obtain ⟨c, hc, hcq⟩ := hlive 0 _ hentry.1
    obtain rfl := Option.some.inj hc
    rw [hentry.2] at hcq
    simp at hcq
  · have hleft : 1 ∈ (destroyQPs (afterSrq [.createSharedReceiveQueue])).2.device.cqsMade ∧
        (destroyQPs (afterSrq [.createSharedReceiveQueue])).2.device.cqsDestroyed.count 1 = 0 := by
      decide +kernel
    have hone := honce.1 1 hleft.1
    rw [hleft.2] at hone
    simp at hone

end ReliableRDMA

end RdmaManager
