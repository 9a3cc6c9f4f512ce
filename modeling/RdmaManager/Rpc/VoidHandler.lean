import Mathlib.Data.List.Perm.Basic
import RdmaManager.Common.System
import RdmaManager.Rdma.Receiving
/-!
# `RPCVoidHandlerThread`

The thread owns a buffer of message slots. It posts a receive for every
slot, with the index of the slot for its `wr_id`; then it polls, hands
the slot a completion names to the handler, and posts it again. The
messages come from the queue pairs of the server, in any order, while the
server connects and disconnects clients. Every slot is in one place: posted,
arrived, or being handled (`Owned`).
-/

namespace RdmaManager

/-- The constant fields of `RPCVoidHandlerThread`, with the `lkey` of the
buffer and `std::strerror`. -/
structure RPCVoidHandlerThread where
  srqID : ℕ
  msgSize : ℕ
  maxNumberMsgs : ℕ
  rpcBuffer : ℕ
  lkey : UInt32
  strerror : ℕ → String

/-- Where the thread stands. A call of `handleRDMARPCVoid` carries its
arguments, the index of the slot, and the arrival that was polled. -/
inductive HandlerStage
  /-- `initMemory`, about to test its loop. -/
  | initialising (i : ℕ)
  /-- The object is constructed. -/
  | idle
  /-- `run`, about to test whether the thread was killed. -/
  | testing
  | polling
  | handling (memIndex message nodeId : ℕ) (arrival : Option Arrival)
  | ended
  | threw (e : Exn)
  deriving DecidableEq, Repr

/-- The slot that is being handled. -/
def HandlerStage.held : HandlerStage → List ℕ
  | .handling memIndex _ _ _ => [memIndex]
  | _ => []

/-- How many of `n` slots have been posted for the first time. -/
def HandlerStage.posts (n : ℕ) : HandlerStage → ℕ
  | .initialising i => i
  | _ => n

/-- The thread, the server and the shared receive queue. -/
structure Handler where
  server : ReliableRDMA
  queue : ReceiveQueue
  stage : HandlerStage
  kill : Bool
  poll : Bool
  processing : Bool

/-- What the thread does, what is done to it, and what the device and the
server do. -/
inductive HandlerEvent
  /-- An iteration of `initMemory`, or its end. -/
  | post
  /-- `run` begins. -/
  | start
  /-- The test of the loop of `run`. -/
  | test
  /-- A poll of `pollReceiveSRQ`, with what its local variables and the two
  of `run` held. -/
  | poll (wc : Wc) (out : Outputs)
  /-- The handler returns and the slot is posted again. -/
  | repost
  /-- `stopHandler`, up to the `join`. -/
  | stop
  /-- The end of `stopHandler`. -/
  | joined
  /-- A message takes the receive `wr`, on the queue pair `h` of `id`. -/
  | arrive (wr : RecvWr) (id h : ℕ) (immData : UInt32)
  /-- The server calls the device. -/
  | device (d : Device)
  | setQP (id : ℕ) (qp : IbQp)
  | disconnectQP (id : ℕ)

namespace RPCVoidHandlerThread

variable (t : RPCVoidHandlerThread)

/-- `m_rpcBuffer + i * m_msgSize`. -/
def slot (i : ℕ) : ℕ := wrap64 (t.rpcBuffer + wrap64 (i * t.msgSize))

/-- Post the slot `i`, whose address is `message`, and go on to `next`. -/
def postSlot (i message : ℕ) (next : HandlerStage) (s : Handler) : Handler :=
  match s.server.receiveSRQ t.strerror t.lkey t.srqID i message t.msgSize s.queue with
  | (.ok (), queue) => { s with queue, stage := next }
  | (.error e, queue) => { s with queue, stage := .threw e }

/-- A poll of `pollReceiveSRQ` in `run`. -/
def pollOnce (wc : Wc) (out : Outputs) (s : Handler) : Handler :=
  match s.server.pollReceiveSRQIndex t.srqID (fun _ => s.poll) [s.queue.polled] wc out with
  | none => s
  | some e =>
      let queue := if e.took.isSome then { s.queue with cq := s.queue.cq.tail } else s.queue
      match e.ret with
      | .error x => { s with queue, stage := .threw x }
      | .ok ret =>
          if ret ≠ 0 then
            { s with
              queue
              stage := .handling e.out.retMemoryIdx (t.slot e.out.retMemoryIdx) e.out.retRdmaConnID
                s.queue.cq.head? }
          else { s with queue, stage := .testing }

/-- What an event makes of the state. -/
def exec (s : Handler) : HandlerEvent → Handler
  | .post =>
      match s.stage with
      | .initialising i =>
          if i < t.maxNumberMsgs then t.postSlot i (t.slot i) (.initialising (i + 1)) s
          else { s with stage := .idle }
      | _ => s
  | .start => { s with stage := .testing, processing := true }
  | .test =>
      if s.kill then { s with stage := .ended, processing := false }
      else { s with stage := .polling }
  | .poll wc out => t.pollOnce wc out s
  | .repost =>
      match s.stage with
      | .handling memIndex message _ _ => t.postSlot memIndex message .testing s
      | _ => s
  | .stop => { s with kill := true, poll := false }
  | .joined => { s with poll := true }
  | .arrive wr id h immData =>
      { s with queue := s.queue.arrive wr (s.server.device.qpNum h) immData id }
  | .device device => { s with server := { s.server with device } }
  | .setQP id qp => { s with server := (ReliableRDMA.onBase (BaseRDMA.setQP id qp) s.server).2 }
  | .disconnectQP id =>
      { s with server := (ReliableRDMA.onBase (ReliableRDMA.disconnectQP id) s.server).2 }

end RPCVoidHandlerThread

namespace Handler

/-- What the device sees to: no two queue pairs have one number, and no
queue pair has that of a completion of another connection's that waits. -/
structure Apart (s : Handler) : Prop where
  qps : ∀ id id' h h', (s.server.qpAt id).qp = some h → (s.server.qpAt id').qp = some h' →
    s.server.device.qpNum h = s.server.device.qpNum h' → id = id'
  waiting : ∀ a ∈ s.queue.cq, ∀ id h, (s.server.qpAt id).qp = some h →
    s.server.device.qpNum h = a.wc.qpNum → id = a.connID

end Handler

namespace RPCVoidHandlerThread

variable (t : RPCVoidHandlerThread)

/-- When an event may happen. -/
def Enabled (s : Handler) : HandlerEvent → Prop
  | .post => ∃ i, s.stage = .initialising i
  | .start => s.stage = .idle ∨ s.stage = .ended
  | .test => s.stage = .testing
  | .poll _ _ => s.stage = .polling
  | .repost => ∃ i message nodeId a, s.stage = .handling i message nodeId a
  | .stop => s.processing = true
  | .joined => s.stage = .ended
  | .arrive wr id h _ => wr ∈ s.queue.posted ∧ (s.server.qpAt id).qp = some h
  | .device d => d.qpNum = s.server.device.qpNum
  | .setQP id qp => (ReliableRDMA.onBase (BaseRDMA.setQP id qp) s.server).1 = .ok () ∧
      Handler.Apart (t.exec s (.setQP id qp))
  | .disconnectQP _ => True

/-- Every queue pair of the server is known under its connection id. -/
def Registered (o : ReliableRDMA) : Prop :=
  ∀ id h, (o.qpAt id).qp = some h → o.qpNum2connID.lookup (o.device.qpNum h).toNat = some id

/-- **The runs** from the constructor on, with a receive queue of `maxWr`
receives that nobody else posts to. -/
def runs (maxWr : ℕ) : System Handler HandlerEvent where
  Init s := t.srqID ∈ s.server.srqs ∧ Registered s.server ∧ s.queue = ⟨maxWr, [], []⟩ ∧
    s.stage = .initialising 0 ∧ s.kill = false ∧ s.poll = true ∧ s.processing = false
  Step s e s' := t.Enabled s e ∧ s' = t.exec s e

/-! ## The invariant -/

/-- **Every slot is in one place**, and what is known of it there. -/
structure Owned (s : Handler) : Prop where
  srq : t.srqID ∈ s.server.srqs
  registered : Registered s.server
  room : t.maxNumberMsgs ≤ s.queue.maxWr
  bound : ∀ i, s.stage = .initialising i → i ≤ t.maxNumberMsgs
  once : (s.queue.posted.map RecvWr.wrId ++ s.queue.cq.map (fun a => a.wc.wrId) ++
    s.stage.held).Perm (List.range (s.stage.posts t.maxNumberMsgs))
  posted : ∀ wr ∈ s.queue.posted, wr = ⟨wr.wrId, t.slot wr.wrId, t.msgSize.toUInt32, t.lkey⟩
  arrived : ∀ a ∈ s.queue.cq, a.wc.status = IBV_WC_SUCCESS ∧ a.addr = t.slot a.wc.wrId ∧
    s.server.qpNum2connID.lookup a.wc.qpNum.toNat = some a.connID
  handling : ∀ i message nodeId a, s.stage = .handling i message nodeId a →
    message = t.slot i ∧ ∃ b, a = some b ∧ b.wc.wrId = i ∧ b.addr = message ∧ b.connID = nodeId
  returned : ∀ e, s.stage ≠ .threw e

variable {t} {s : Handler} {maxWr : ℕ}

theorem owned_init (hfit : t.maxNumberMsgs ≤ maxWr) (h : (t.runs maxWr).Init s) : t.Owned s := by
  obtain ⟨hsrq, hreg, hqueue, hstage, -, -, -⟩ := h
  refine ⟨hsrq, hreg, by rw [hqueue]; exact hfit, fun i hi => ?_, ?_, ?_, ?_, ?_, ?_⟩
  · rw [hstage] at hi
    obtain rfl := HandlerStage.initialising.inj hi
    exact Nat.zero_le _
  · rw [hqueue, hstage]
    exact List.Perm.refl _
  · rw [hqueue]
    intro wr hwr
    exact absurd hwr List.not_mem_nil
  · rw [hqueue]
    intro a ha
    exact absurd ha List.not_mem_nil
  · intro i message nodeId a hhandling
    rw [hstage] at hhandling
    exact HandlerStage.noConfusion hhandling
  · intro e hthrew
    rw [hstage] at hthrew
    exact HandlerStage.noConfusion hthrew

/-- The receives that are out are no more than the slots. -/
theorem Owned.length (h : t.Owned s) :
    s.queue.posted.length + s.queue.cq.length + s.stage.held.length =
      s.stage.posts t.maxNumberMsgs := by
  have hlen := h.once.length_eq
  rwa [List.length_append, List.length_append, List.length_map, List.length_map,
    List.length_range] at hlen

/-- A slot that is nowhere is posted. -/
theorem Owned.postSlot (h : t.Owned s) {i : ℕ} {next : HandlerStage}
    (hroom : s.queue.posted.length < t.maxNumberMsgs)
    (honce : (s.queue.posted.map RecvWr.wrId ++ s.queue.cq.map (fun a => a.wc.wrId) ++
      [i]).Perm (List.range (next.posts t.maxNumberMsgs)))
    (hbound : ∀ j, next = .initialising j → j ≤ t.maxNumberMsgs) (hheld : next.held = [])
    (hhandling : ∀ i message nodeId a, next ≠ .handling i message nodeId a)
    (hnext : ∀ e, next ≠ .threw e) : t.Owned (t.postSlot i (t.slot i) next s) := by
  have hpost : t.postSlot i (t.slot i) next s = { s with
      queue := { s.queue with
        posted := s.queue.posted ++ [⟨i, t.slot i, t.msgSize.toUInt32, t.lkey⟩] }
      stage := next } := by
    unfold RPCVoidHandlerThread.postSlot
    rw [ReliableRDMA.receiveSRQ_of_room h.srq (lt_of_lt_of_le hroom h.room)]
  rw [hpost]
  refine ⟨h.srq, h.registered, h.room, hbound, ?_, fun wr hwr => ?_, h.arrived,
    fun i message nodeId a hs => absurd hs (hhandling i message nodeId a), hnext⟩
  · show ((s.queue.posted ++ [_]).map RecvWr.wrId ++ s.queue.cq.map (fun a => a.wc.wrId) ++
      next.held).Perm _
    rw [hheld, List.append_nil, List.map_append, List.append_assoc]
    refine List.Perm.trans ?_ honce
    rw [List.append_assoc]
    exact List.Perm.append_left _ List.perm_append_comm
  · rcases List.mem_append.mp hwr with hold | hnew
    · exact h.posted wr hold
    · obtain rfl := List.mem_singleton.mp hnew
      rfl

theorem Owned.post (h : t.Owned s) (henabled : t.Enabled s .post) : t.Owned (t.exec s .post) := by
  obtain ⟨i, hstage⟩ := henabled
  have hlen := h.length
  have honce := h.once
  rw [hstage] at hlen honce
  simp only [HandlerStage.held, HandlerStage.posts, List.length_nil, List.append_nil,
    Nat.add_zero] at hlen honce
  simp only [RPCVoidHandlerThread.exec, hstage]
  by_cases hi : i < t.maxNumberMsgs
  · rw [if_pos hi]
    refine h.postSlot (by omega) ?_ (fun j hj => ?_) rfl (by simp) (by simp)
    · rw [HandlerStage.posts, List.range_succ]
      exact List.Perm.append_right _ honce
    · obtain rfl := HandlerStage.initialising.inj hj
      exact hi
  · rw [if_neg hi]
    -- every slot has been posted once
    have hdone : i = t.maxNumberMsgs := le_antisymm (h.bound i hstage) (Nat.not_lt.mp hi)
    refine ⟨h.srq, h.registered, h.room, by simp, ?_, h.posted, h.arrived, by simp, by simp⟩
    simpa only [HandlerStage.held, HandlerStage.posts, List.append_nil, ← hdone] using honce

theorem Owned.repost (h : t.Owned s) (henabled : t.Enabled s .repost) :
    t.Owned (t.exec s .repost) := by
  obtain ⟨i, message, nodeId, a, hstage⟩ := henabled
  obtain ⟨rfl, -⟩ := h.handling i message nodeId a hstage
  have hlen := h.length
  have honce := h.once
  rw [hstage] at hlen honce
  simp only [HandlerStage.held, HandlerStage.posts, List.length_singleton] at hlen honce
  simp only [RPCVoidHandlerThread.exec, hstage]
  exact h.postSlot (by omega) honce (by simp) rfl (by simp) (by simp)

/-- A change of stage in which no slot moves. -/
theorem Owned.move (h : t.Owned s) {stage : HandlerStage} {kill poll processing : Bool}
    (hheld : stage.held = s.stage.held)
    (hposts : stage.posts t.maxNumberMsgs = s.stage.posts t.maxNumberMsgs)
    (hbound : ∀ j, stage = .initialising j → j ≤ t.maxNumberMsgs)
    (hhandling : ∀ i message nodeId a, stage = .handling i message nodeId a →
      s.stage = .handling i message nodeId a)
    (hnext : ∀ e, stage ≠ .threw e) :
    t.Owned { s with stage, kill, poll, processing } :=
  ⟨h.srq, h.registered, h.room, hbound, by rw [hheld, hposts]; exact h.once, h.posted, h.arrived,
    fun i message nodeId a hs => h.handling i message nodeId a (hhandling i message nodeId a hs),
    hnext⟩

theorem Owned.poll (h : t.Owned s) {wc : Wc} {out : Outputs}
    (henabled : t.Enabled s (.poll wc out)) : t.Owned (t.exec s (.poll wc out)) := by
  have hstage : s.stage = .polling := henabled
  have honce := h.once
  rw [hstage] at honce
  simp only [HandlerStage.held, HandlerStage.posts, List.append_nil] at honce
  show t.Owned (t.pollOnce wc out s)
  unfold RPCVoidHandlerThread.pollOnce
  rw [ReliableRDMA.pollReceiveSRQIndex_once h.srq fun a ha => ⟨(h.arrived a ha).1, (h.arrived a ha).2.2⟩]
  cases hcq : s.queue.cq with
  | nil =>
      cases s.poll with
      | true => exact h
      | false => exact h.move (by rw [hstage]; rfl) (by rw [hstage]; rfl) (by simp) (by simp) (by simp)
  | cons a rest =>
      -- the completion in front names the slot its message was written to
      obtain ⟨-, haddr, -⟩ := h.arrived a (by rw [hcq]; exact List.mem_cons_self)
      refine ⟨h.srq, h.registered, h.room, by simp, ?_, h.posted, fun b hb => ?_,
        fun i message nodeId c hs => ?_, by simp⟩
      · rw [hcq, List.map_cons] at honce
        refine List.Perm.trans ?_ honce
        show (s.queue.posted.map RecvWr.wrId ++ rest.map (fun a => a.wc.wrId) ++ [a.wc.wrId]).Perm _
        rw [List.append_assoc]
        exact List.Perm.append_left _ (List.perm_append_singleton _ _)
      · refine h.arrived b ?_
        rw [hcq]
        exact List.mem_cons_of_mem _ hb
      · obtain ⟨rfl, rfl, rfl, rfl⟩ := HandlerStage.handling.inj hs
        exact ⟨rfl, a, rfl, rfl, haddr, rfl⟩

theorem Owned.arrive (h : t.Owned s) {wr : RecvWr} {id qp : ℕ} {immData : UInt32}
    (henabled : t.Enabled s (.arrive wr id qp immData)) :
    t.Owned (t.exec s (.arrive wr id qp immData)) := by
  obtain ⟨hwr, hqp⟩ := henabled
  refine ⟨h.srq, h.registered, h.room, h.bound, ?_, fun wr' hwr' => ?_, fun a ha => ?_, h.handling,
    h.returned⟩
  · -- the receive goes from the posted ones to the end of the queue
    refine List.Perm.trans ?_ h.once
    refine List.Perm.append_right _ ?_
    show ((s.queue.posted.erase wr).map RecvWr.wrId ++ (s.queue.cq ++ [_]).map _).Perm _
    rw [List.map_append, ← List.append_assoc]
    refine (List.perm_append_singleton _ _).trans ?_
    rw [← List.cons_append]
    exact List.Perm.append_right _ ((List.perm_cons_erase hwr).map RecvWr.wrId).symm
  · exact h.posted wr' (List.mem_of_mem_erase hwr')
  · rcases List.mem_append.mp ha with hold | hnew
    · exact h.arrived a hold
    · obtain rfl := List.mem_singleton.mp hnew
      have haddr := congrArg RecvWr.addr (h.posted wr hwr)
      exact ⟨rfl, haddr, h.registered id qp hqp⟩

/-- A change of the server that keeps its map, except for the number of
the queue pair of one id. -/
theorem Owned.serve (h : t.Owned s) {server : ReliableRDMA} (hsrqs : server.srqs = s.server.srqs)
    (hreg : Registered server) (hwaiting : ∀ a ∈ s.queue.cq,
      s.server.qpNum2connID.lookup a.wc.qpNum.toNat = some a.connID →
        server.qpNum2connID.lookup a.wc.qpNum.toNat = some a.connID) :
    t.Owned { s with server } :=
  ⟨by rw [hsrqs]; exact h.srq, hreg, h.room, h.bound, h.once, h.posted,
    fun a ha => ⟨(h.arrived a ha).1, (h.arrived a ha).2.1, hwaiting a ha (h.arrived a ha).2.2⟩,
    h.handling, h.returned⟩

/-- A successful `setQP` writes one entry of `m_qps` and one of the map. -/
theorem setQP_eq {b : BaseRDMA} {id : ℕ} {qp : IbQp} (hok : (BaseRDMA.setQP id qp b).1 = .ok ()) :
    ∃ hqp, qp.qp = some hqp ∧ (BaseRDMA.setQP id qp b).2.device = b.device ∧
      (BaseRDMA.setQP id qp b).2.qpNum2connID =
        b.qpNum2connID.insert (b.device.qpNum hqp).toNat id ∧
      ∀ i, (BaseRDMA.setQP id qp b).2.qpAt i = if i = id then qp else b.qpAt i := by
  unfold BaseRDMA.setQP at hok ⊢
  cases hgrow : BaseRDMA.growSet IbQp.null qp id b.qps with
  | none =>
      rw [hgrow] at hok
      exact absurd hok (by simp)
  | some qps =>
      cases hqp : qp.qp with
      | none =>
          rw [hgrow, hqp] at hok
          exact absurd hok (by simp)
      | some h => exact ⟨h, rfl, rfl, rfl, BaseRDMA.getD_growSet hgrow⟩

theorem toNat_ne {a b : UInt32} (h : a ≠ b) : a.toNat ≠ b.toNat := fun heq => h (UInt32.toNat_inj.mp heq)

theorem Owned.setQP (h : t.Owned s) {id : ℕ} {qp : IbQp} (henabled : t.Enabled s (.setQP id qp)) :
    t.Owned (t.exec s (.setQP id qp)) := by
  obtain ⟨hok, hapart⟩ := henabled
  obtain ⟨hqp, hsome, hdevice, hmap, hqps⟩ := setQP_eq hok
  have hself : ((BaseRDMA.setQP id qp s.server.toBaseRDMA).2.qpAt id).qp = some hqp := by
    rw [hqps, if_pos rfl, hsome]
  refine h.serve rfl (fun i hi hat => ?_) fun a ha hold => ?_
  · show (BaseRDMA.setQP id qp s.server.toBaseRDMA).2.qpNum2connID.lookup
      ((BaseRDMA.setQP id qp s.server.toBaseRDMA).2.device.qpNum hi).toNat = some i
    rw [hmap, hdevice]
    by_cases heq : s.server.device.qpNum hi = s.server.device.qpNum hqp
    · -- two queue pairs of one number are of one id
      have hid : i = id := hapart.qps i id hi hqp hat hself (by
        show (BaseRDMA.setQP id qp s.server.toBaseRDMA).2.device.qpNum hi =
          (BaseRDMA.setQP id qp s.server.toBaseRDMA).2.device.qpNum hqp
        rw [hdevice]
        exact heq)
      rw [heq, Finmap.lookup_insert, hid]
    · rw [Finmap.lookup_insert_of_ne _ (toNat_ne heq)]
      have hne : i ≠ id := by
        rintro rfl
        exact heq (by rw [Option.some.inj (hat.symm.trans hself)])
      refine h.registered i hi ?_
      have hold : (BaseRDMA.setQP id qp s.server.toBaseRDMA).2.qpAt i = s.server.qpAt i := by
        rw [hqps, if_neg hne]
      rw [← hold]
      exact hat
  · show (BaseRDMA.setQP id qp s.server.toBaseRDMA).2.qpNum2connID.lookup _ = _
    rw [hmap]
    by_cases heq : a.wc.qpNum = s.server.device.qpNum hqp
    · -- a completion that waits keeps its connection
      have hid : id = a.connID := hapart.waiting a ha id hqp hself (by
        show (BaseRDMA.setQP id qp s.server.toBaseRDMA).2.device.qpNum hqp = _
        rw [hdevice]
        exact heq.symm)
      rw [heq, Finmap.lookup_insert, hid]
    · rw [Finmap.lookup_insert_of_ne _ (toNat_ne heq)]
      exact hold

/-- `disconnectQP` leaves the map alone and sets no queue pair. -/
theorem disconnectQP_frame (b : BaseRDMA) (id : ℕ) :
    (ReliableRDMA.disconnectQP id b).2.device.qpNum = b.device.qpNum ∧
      (ReliableRDMA.disconnectQP id b).2.qpNum2connID = b.qpNum2connID ∧
      ∀ i h, ((ReliableRDMA.disconnectQP id b).2.qpAt i).qp = some h → (b.qpAt i).qp = some h := by
  refine (Act.wp_snd (x := ReliableRDMA.disconnectQP id) (I := fun b' : BaseRDMA =>
    b'.device.qpNum = b.device.qpNum ∧ b'.qpNum2connID = b.qpNum2connID ∧
      ∀ i h, (b'.qpAt i).qp = some h → (b.qpAt i).qp = some h)).mp ?_
  refine ReliableRDMA.wp_disconnectQP (fun _ => ⟨rfl, rfl, fun _ _ h => h⟩)
    (fun _ _ => ⟨rfl, rfl, fun _ _ h => h⟩) (fun h d' _ hlt _ hreaped => ?_)
    (fun e _ => ⟨⟨rfl, rfl, fun _ _ h => h⟩, rfl, rfl, fun _ _ h => h⟩)
    fun h e _ _ _ => ⟨rfl, rfl, fun _ _ h => h⟩
  have hframe : (ReliableRDMA.disconnected b id d').device.qpNum = b.device.qpNum ∧
      (ReliableRDMA.disconnected b id d').qpNum2connID = b.qpNum2connID ∧
      ∀ i h, ((ReliableRDMA.disconnected b id d').qpAt i).qp = some h → (b.qpAt i).qp = some h := by
    refine ⟨hreaped.qpNum, rfl, fun i h' hat => ?_⟩
    rw [ReliableRDMA.qpAt_disconnected hlt] at hat
    split_ifs at hat
    exact hat
  exact ⟨hframe, fun _ => hframe⟩

theorem Owned.disconnectQP (h : t.Owned s) (id : ℕ) : t.Owned (t.exec s (.disconnectQP id)) := by
  obtain ⟨hnum, hmap, hqps⟩ := disconnectQP_frame s.server.toBaseRDMA id
  refine h.serve rfl (fun i hi hat => ?_) fun a _ hold => ?_
  · show (ReliableRDMA.disconnectQP id s.server.toBaseRDMA).2.qpNum2connID.lookup
      ((ReliableRDMA.disconnectQP id s.server.toBaseRDMA).2.device.qpNum hi).toNat = some i
    rw [hmap, hnum]
    exact h.registered i hi (hqps i hi hat)
  · show (ReliableRDMA.disconnectQP id s.server.toBaseRDMA).2.qpNum2connID.lookup _ = _
    rw [hmap]
    exact hold

/-- **Every event keeps every slot in one place.** -/
theorem Owned.exec (h : t.Owned s) {e : HandlerEvent} (henabled : t.Enabled s e) :
    t.Owned (t.exec s e) := by
  cases e with
  | post => exact h.post henabled
  | start =>
      have hrest : s.stage.held = [] ∧ s.stage.posts t.maxNumberMsgs = t.maxNumberMsgs := by
        rcases henabled with hstage | hstage <;> rw [hstage] <;> exact ⟨rfl, rfl⟩
      exact h.move hrest.1.symm hrest.2.symm (by simp) (by simp) (by simp)
  | test =>
      have hstage : s.stage = .testing := henabled
      simp only [RPCVoidHandlerThread.exec]
      split_ifs
      · exact h.move (by rw [hstage]; rfl) (by rw [hstage]; rfl) (by simp) (by simp) (by simp)
      · exact h.move (by rw [hstage]; rfl) (by rw [hstage]; rfl) (by simp) (by simp) (by simp)
  | poll wc out => exact h.poll henabled
  | repost => exact h.repost henabled
  | stop => exact h.move rfl rfl h.bound (fun _ _ _ _ hs => hs) h.returned
  | joined => exact h.move rfl rfl h.bound (fun _ _ _ _ hs => hs) h.returned
  | arrive wr id qp immData => exact h.arrive henabled
  | device d =>
      have hnum : d.qpNum = s.server.device.qpNum := henabled
      refine h.serve rfl (fun i hi hat => ?_) fun _ _ hold => hold
      show s.server.qpNum2connID.lookup (d.qpNum hi).toNat = some i
      rw [hnum]
      exact h.registered i hi hat
  | setQP id qp => exact h.setQP henabled
  | disconnectQP id => exact h.disconnectQP id

theorem owned_invariant (hfit : t.maxNumberMsgs ≤ maxWr) : (t.runs maxWr).Invariant t.Owned where
  init s hinit := owned_init hfit hinit
  step s e s' _ h hstep := by
    obtain ⟨henabled, rfl⟩ := hstep
    exact h.exec henabled

/-! ## The slots -/

/-- Inside the buffer no address wraps around. -/
theorem slot_eq {size i : ℕ} (hbuffer : t.msgSize * t.maxNumberMsgs ≤ size)
    (hmem : t.rpcBuffer + size < 2 ^ 64) (hi : i < t.maxNumberMsgs) :
    t.slot i = t.rpcBuffer + i * t.msgSize := by
  have hle : i * t.msgSize ≤ t.msgSize * t.maxNumberMsgs := by
    rw [Nat.mul_comm]
    exact Nat.mul_le_mul_left _ hi.le
  unfold slot
  rw [wrap64_of_lt (n := i * t.msgSize) (by omega), wrap64_of_lt (by omega)]

/-- The slots lie in the buffer, one after the other. -/
theorem slots_apart {size i : ℕ} (hbuffer : t.msgSize * t.maxNumberMsgs ≤ size)
    (hmem : t.rpcBuffer + size < 2 ^ 64) (hi : i < t.maxNumberMsgs) :
    t.rpcBuffer ≤ t.slot i ∧ t.slot i + t.msgSize ≤ t.rpcBuffer + size ∧
      ∀ j < i, t.slot j + t.msgSize ≤ t.slot i := by
  rw [slot_eq hbuffer hmem hi]
  have hlast : (i + 1) * t.msgSize ≤ t.msgSize * t.maxNumberMsgs := by
    rw [Nat.mul_comm]
    exact Nat.mul_le_mul_left _ hi
  rw [Nat.succ_mul] at hlast
  refine ⟨Nat.le_add_right _ _, by omega, fun j hj => ?_⟩
  rw [slot_eq hbuffer hmem (hj.trans hi)]
  have hstep : (j + 1) * t.msgSize ≤ i * t.msgSize := Nat.mul_le_mul_right _ hj
  rw [Nat.succ_mul] at hstep
  omega

/-- **What the thread may rely on** in a state: the handler is called with
the slot its message was written to and the connection it arrived on, a
slot is posted, has arrived or is being handled, and in one of these
places once, and all are out when the loop is about to poll. -/
structure Exclusive (t : RPCVoidHandlerThread) (size : ℕ) (s : Handler) : Prop where
  called : ∀ i message nodeId a, s.stage = .handling i message nodeId a →
    message = t.slot i ∧ ∃ b, a = some b ∧ b.wc.wrId = i ∧ b.addr = message ∧ b.connID = nodeId
  once : ∀ i, (s.queue.posted.map RecvWr.wrId).count i +
    (s.queue.cq.map fun a => a.wc.wrId).count i + s.stage.held.count i =
      if i < s.stage.posts t.maxNumberMsgs then 1 else 0
  posted : ∀ wr ∈ s.queue.posted, wr = ⟨wr.wrId, t.slot wr.wrId, t.msgSize.toUInt32, t.lkey⟩
  all_out : s.stage = .testing ∨ s.stage = .polling →
    s.queue.posted.length + s.queue.cq.length = t.maxNumberMsgs
  returned : ∀ e, s.stage ≠ .threw e
  apart : ∀ i < t.maxNumberMsgs, t.rpcBuffer ≤ t.slot i ∧
    t.slot i + t.msgSize ≤ t.rpcBuffer + size ∧ ∀ j < i, t.slot j + t.msgSize ≤ t.slot i

/-- **Slot ownership**, in every state of every run. -/
theorem slots_owned {size : ℕ} (hfit : t.maxNumberMsgs ≤ maxWr)
    (hbuffer : t.msgSize * t.maxNumberMsgs ≤ size) (hmem : t.rpcBuffer + size < 2 ^ 64)
    (hreach : (t.runs maxWr).Reachable s) : t.Exclusive size s := by
  have h := (owned_invariant hfit).reachable hreach
  refine ⟨fun i message nodeId a hs => ?_, fun i => ?_, h.posted, fun hs => ?_, h.returned,
    fun i hi => slots_apart hbuffer hmem hi⟩
  · exact h.handling i message nodeId a hs
  · have hcount := h.once.count_eq i
    rw [List.count_append, List.count_append] at hcount
    rw [hcount]
    by_cases hi : i < s.stage.posts t.maxNumberMsgs
    · rw [if_pos hi, List.count_eq_one_of_mem List.nodup_range (List.mem_range.mpr hi)]
    · rw [if_neg hi, List.count_eq_zero_of_not_mem fun hmem => hi (List.mem_range.mp hmem)]
  · have hlen := h.length
    rcases hs with hs | hs <;> rw [hs] at hlen <;>
      simpa only [HandlerStage.held, HandlerStage.posts, List.length_nil, Nat.add_zero] using hlen

/-- Two slots of 64 bytes. -/
def twoSlots : RPCVoidHandlerThread := ⟨0, 64, 2, 4096, 1, fun _ => "ENOMEM"⟩

/-- The thread at its constructor, on a server with one client. -/
def constructed : Handler :=
  ⟨PollFn.served, ⟨4, [], []⟩, .initialising 0, false, true, false⟩

/-- Both slots are posted, `run` begins, and the client's message takes the
slot that was posted last. -/
def secondSlotFirst : List HandlerEvent :=
  [.post, .post, .post, .start, .test, .poll ⟨0, 0, 0, 0⟩ ⟨0, 0, 0⟩,
    .arrive ⟨1, 4160, 64, 1⟩ 0 3 5, .poll ⟨0, 0, 0, 0⟩ ⟨0, 0, 0⟩]

theorem constructed_init : (twoSlots.runs 4).Init constructed := by
  refine ⟨by decide +kernel, fun id h hat => ?_, rfl, rfl, rfl, rfl, rfl⟩
  have hqps : PollFn.served.qps = [⟨some 3, some 2, some 1⟩] := by decide +kernel
  change ((PollFn.served.qps.getD id IbQp.null).qp = some h) at hat
  rw [hqps] at hat
  cases id with
  | zero =>
      obtain rfl := Option.some.inj hat
      decide +kernel
  | succ id => exact absurd hat (by simp [IbQp.null])

theorem slots_owned_secondSlotFirst :
    twoSlots.Exclusive 128 (secondSlotFirst.foldl twoSlots.exec constructed) ∧
      (secondSlotFirst.foldl twoSlots.exec constructed).stage =
        .handling 1 4160 0 (some ⟨⟨1, IBV_WC_SUCCESS, 7, 5⟩, 4160, 0⟩) := by
  refine ⟨slots_owned (show twoSlots.maxNumberMsgs ≤ 4 by decide) (by decide) (by decide) ?_,
    by decide +kernel⟩
  refine System.Reachable.along (System.Reachable.init constructed_init) ?_
  refine ⟨⟨⟨0, rfl⟩, rfl⟩, ⟨⟨1, by decide +kernel⟩, rfl⟩, ⟨⟨2, by decide +kernel⟩, rfl⟩,
    ⟨Or.inl (by decide +kernel), rfl⟩, ⟨show _ = HandlerStage.testing by decide +kernel, rfl⟩,
    ⟨show _ = HandlerStage.polling by decide +kernel, rfl⟩,
    ⟨⟨by decide +kernel, by decide +kernel⟩, rfl⟩,
    ⟨show _ = HandlerStage.polling by decide +kernel, rfl⟩, trivial⟩

end RPCVoidHandlerThread

end RdmaManager
