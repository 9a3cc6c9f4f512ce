import RdmaManager.Rdma.Receiving
import RdmaManager.Rdma.SendBound
/-!
# The length of a transfer

The operations take the size of a transfer as a `size_t` and hand it to
the verbs in the `uint32_t` of a scatter/gather entry. The receives of a
queue pair are here; the operations that send are `posting`s.
-/

namespace RdmaManager

/-- `Config::RDMA_UD_OFFSET`: the room in front of a datagram that the
global routing header is written to. -/
def RDMA_UD_OFFSET : ℕ := 40

/-- `ibv_post_recv` on the receives of a queue pair, with what it returns. -/
def ibvPostRecv (errno : ℕ) (wr : RecvWr) : Act (List RecvWr) ℕ := fun posted =>
  if errno = 0 then (.ok 0, posted ++ [wr]) else (.ok errno, posted)

/-- The body of `receive`, on the queue pair `qp`. -/
def postRecv (c : SendConfig) (qp : Option ℕ) (wr : RecvWr) (errno : ℕ) :
    Act (List RecvWr) Unit := do
  if qp = none then throw (.undefined "localQP")
  let errno ← ibvPostRecv errno wr
  if errno ≠ 0 then
    throw (.runtimeError ("RECV has not been posted successfully in receive()! errno: " ++
      c.strerror errno))

/-- `ReliableRDMA::receive`. -/
def ReliableRDMA.receive (s : BaseRDMA) (c : SendConfig) (id memAddr size errno : ℕ) :
    Act (List RecvWr) Unit :=
  postRecv c (s.qpAt id).qp ⟨0, memAddr, size.toUInt32, c.lkey⟩ errno

/-- The request of `UnreliableRDMA::receive`, which starts at the header. -/
def UnreliableRDMA.recvWr (lkey : UInt32) (memAddr size : ℕ) : RecvWr :=
  ⟨0, wrap64 (memAddr + 2 ^ 64 - RDMA_UD_OFFSET), (wrap64 (size + RDMA_UD_OFFSET)).toUInt32, lkey⟩

/-- `UnreliableRDMA::receive`. The connection id is ignored. -/
def UnreliableRDMA.receive (u : UnreliableRDMA) (c : SendConfig) (memAddr size errno : ℕ) :
    Act (List RecvWr) Unit :=
  postRecv c u.udqp.qp (UnreliableRDMA.recvWr c.lkey memAddr size) errno

/-- `UnreliableRDMA::receiveMCast`, of the memory region of `size` bytes that
starts at the pointer of the object. The error of the verbs is not read. -/
def MulticastRDMA.receiveMCast (m : MulticastRDMA) (bufferSize id memAddr size errno : ℕ) :
    Act (List RecvWr) Unit := do
  match m.udpMcastConns[id]? with
  | none => throw (.undefined "m_udpMcastConns past its end")
  | some conn =>
      let wr := UnreliableRDMA.recvWr conn.lkey memAddr size
      if ¬ (m.pointer.toNat < wr.addr ∨ wr.addr + size < m.pointer.toNat + bufferSize) then
        throw (.undefined "assert")
      let errno ← ibvPostRecv errno wr
      if errno ≠ 0 then throw (.runtimeError "Receiving multicast data failed")

/-- The objects of both kinds, and the queues of the queue pair that a call
is about. -/
structure Endpoint where
  rc : BaseRDMA
  ud : MulticastRDMA
  sends : SendQueue
  receives : List RecvWr

/-- The functions that ask for a transfer of a number of bytes. -/
inductive TransferFn
  | write
  | writeImm
  | read
  | requestRead
  | send
  | sendImm
  | receive
  | udSend
  | udReceive
  | sendMCast
  deriving DecidableEq, Repr

/-- Their arguments. -/
structure TransferArgs where
  id : ℕ
  offset : ℕ
  memAddr : ℕ
  size : ℕ
  imm : UInt32
  signaled : Bool
  deriving DecidableEq, Repr

namespace Endpoint

/-- An operation of the reliable object that sends. -/
def onRc (x : BaseRDMA × SendQueue → Outcome × (BaseRDMA × SendQueue)) (s : Endpoint) :
    Outcome × Endpoint :=
  ((x (s.rc, s.sends)).1, { s with rc := (x (s.rc, s.sends)).2.1, sends := (x (s.rc, s.sends)).2.2 })

/-- An operation of the unreliable object that sends. -/
def onUd (x : UnreliableRDMA × SendQueue → Outcome × (UnreliableRDMA × SendQueue)) (s : Endpoint) :
    Outcome × Endpoint :=
  ((x (s.ud.toUnreliableRDMA, s.sends)).1,
    { s with
      ud := { s.ud with toUnreliableRDMA := (x (s.ud.toUnreliableRDMA, s.sends)).2.1 }
      sends := (x (s.ud.toUnreliableRDMA, s.sends)).2.2 })

/-- An operation on a multicast connection. -/
def onMCast (x : MulticastRDMA × SendQueue → Outcome × (MulticastRDMA × SendQueue)) (s : Endpoint) :
    Outcome × Endpoint :=
  ((x (s.ud, s.sends)).1, { s with ud := (x (s.ud, s.sends)).2.1, sends := (x (s.ud, s.sends)).2.2 })

/-- A receive. -/
def onReceives (x : Act (List RecvWr) Unit) (s : Endpoint) : Outcome × Endpoint :=
  match x s.receives with
  | (.ok (), receives) => (.returned, { s with receives })
  | (.error e, receives) => (.threw e, { s with receives })

end Endpoint

namespace TransferFn

/-- Call the function. -/
def call (c : SendConfig) (a : TransferArgs) (v : Verbs) (s : Endpoint) : TransferFn → Outcome × Endpoint
  | write => s.onRc (ReliableRDMA.write c a.id a.offset a.memAddr a.size a.signaled v)
  | writeImm => s.onRc (ReliableRDMA.writeImm c a.id a.offset a.memAddr a.size a.signaled v a.imm)
  | read => s.onRc (ReliableRDMA.read c a.id a.offset a.memAddr a.size a.signaled v)
  | requestRead => s.onRc (ReliableRDMA.requestRead c a.id a.offset a.memAddr a.size v)
  | send => s.onRc (ReliableRDMA.send c a.id a.memAddr a.size a.signaled v)
  | sendImm => s.onRc (ReliableRDMA.sendImm c a.id a.memAddr a.size a.signaled v a.imm)
  | receive => s.onReceives (ReliableRDMA.receive s.rc c a.id a.memAddr a.size v.errno)
  | udSend => s.onUd (UnreliableRDMA.send c a.id a.memAddr a.size a.signaled v)
  | udReceive => s.onReceives (UnreliableRDMA.receive s.ud.toUnreliableRDMA c a.memAddr a.size v.errno)
  | sendMCast => s.onMCast (MulticastRDMA.sendMCast c a.id a.memAddr a.size a.signaled v)

/-- The lengths of the requests in the queue that the function posts to. -/
def lengths (s : Endpoint) : TransferFn → List ℕ
  | receive | udReceive => s.receives.map fun wr => wr.length.toNat
  | _ => s.sends.wrs.map fun wr => wr.length.toNat

/-- How many bytes the request is to name. -/
def wanted (size : ℕ) : TransferFn → ℕ
  | udReceive => size + RDMA_UD_OFFSET
  | _ => size

/-- **The length is the one that was asked for**: the call throws, or it
posts one request of `n` bytes. -/
def Exact (fn : TransferFn) (n : ℕ) (s : Endpoint) (r : Outcome × Endpoint) : Prop :=
  (∃ e, r.1 = .threw e) ∨ fn.lengths r.2 = fn.lengths s ++ [n]

/-! ## What is posted -/

/-- Waiting for a completion posts nothing. -/
theorem wrs_await (texts : SendTexts) (polls : List SendPoll) (q : SendQueue) :
    (await texts polls q).2.wrs = q.wrs := by
  rcases await_cases texts polls q with ⟨-, hlater⟩ | ⟨i, htook⟩
  · exact hlater.wrs
  · exact htook.wrs

/-- **A call that sends** throws, or posts the request it has made. -/
theorem posting_posts {σ : Type} {n : ℕ} {check : Act σ Bool}
    {request : Bool → σ → Except Exn SendWr} (texts : SendTexts) (wait : Bool) (v : Verbs)
    (p : σ × SendQueue) (hlength : ∀ b s wr, request b s = .ok wr → wr.length.toNat = n) :
    (∃ e, (posting check request texts wait v p).1 = .threw e) ∨
      (posting check request texts wait v p).2.2.wrs.map (fun wr => wr.length.toNat) =
        p.2.wrs.map (fun wr => wr.length.toNat) ++ [n] := by
  unfold posting
  rcases check p.1 with ⟨e | b, s⟩
  · exact Or.inl ⟨e, rfl⟩
  · cases hreq : request b s with
    | error e => exact Or.inl ⟨e, by simp only [hreq]⟩
    | ok wr =>
        simp only [hreq]
        unfold postAndAwait
        have hposted : (p.2.post wr).wrs.map (fun wr => wr.length.toNat) =
            p.2.wrs.map (fun wr => wr.length.toNat) ++ [n] := by
          rw [← hlength b s wr hreq]
          exact List.map_append
        by_cases herr : v.errno ≠ 0
        · rw [if_pos herr]
          exact Or.inl ⟨_, rfl⟩
        · rw [if_neg herr]
          refine Or.inr ?_
          split_ifs
          · rw [wrs_await]
            exact hposted
          · exact hposted

theorem remoteRequest_length {id n : ℕ} {wr : Bool → IbConn → SendWr}
    (hwr : ∀ b conn, (wr b conn).length.toNat = n) (b : Bool) (s : BaseRDMA) (r : SendWr)
    (h : ReliableRDMA.remoteRequest id (wr b) s = .ok r) : r.length.toNat = n := by
  unfold ReliableRDMA.remoteRequest at h
  split_ifs at h
  obtain rfl := Except.ok.inj h
  exact hwr b _

theorem localRequest_length {id n : ℕ} {wr : Bool → SendWr} (hwr : ∀ b, (wr b).length.toNat = n)
    (b : Bool) (s : BaseRDMA) (r : SendWr)
    (h : ReliableRDMA.localRequest id (wr b) s = .ok r) : r.length.toNat = n := by
  unfold ReliableRDMA.localRequest at h
  split_ifs at h
  obtain rfl := Except.ok.inj h
  exact hwr b

theorem toNat_toUInt32 (n : ℕ) : n.toUInt32.toNat = n % 2 ^ 32 := UInt32.toNat_ofNat'

/-- **A call that receives** throws, or posts its request. -/
theorem postRecv_posts (c : SendConfig) (qp : Option ℕ) (wr : RecvWr) (errno : ℕ) (s : Endpoint) :
    (∃ e, (s.onReceives (postRecv c qp wr errno)).1 = .threw e) ∨
      (s.onReceives (postRecv c qp wr errno)).2.receives.map (fun wr => wr.length.toNat) =
        s.receives.map (fun wr => wr.length.toNat) ++ [wr.length.toNat] := by
  have hwp : Act.wp (postRecv c qp wr errno) (fun _ receives => receives = s.receives ++ [wr])
      (fun _ _ => True) s.receives := by
    unfold postRecv
    simp only [Act.wp_bind, Act.wp_ite, Act.wp_pure, Act.wp_throw]
    refine ⟨fun _ => trivial, fun _ => ?_⟩
    unfold Act.wp ibvPostRecv
    split_ifs with herr
    · exact ⟨fun _ => trivial, fun _ => rfl⟩
    · exact ⟨fun _ => trivial, fun hzero => absurd (not_not.mp hzero) herr⟩
  unfold Act.wp at hwp
  unfold Endpoint.onReceives
  rcases hres : postRecv c qp wr errno s.receives with ⟨e | ⟨⟩, receives⟩ <;> rw [hres] at hwp
  · exact Or.inl ⟨e, rfl⟩
  · obtain rfl : receives = s.receives ++ [wr] := hwp
    exact Or.inr List.map_append

/-- **What a call posts**: the size modulo `2 ^ 32`. -/
theorem call_posts (fn : TransferFn) (c : SendConfig) (a : TransferArgs) (v : Verbs) (s : Endpoint) :
    fn.Exact (fn.wanted a.size % 2 ^ 32) s (fn.call c a v s) := by
  cases fn with
  | write | writeImm | read | requestRead =>
      exact posting_posts _ _ v _ (remoteRequest_length fun _ _ => toNat_toUInt32 a.size)
  | send | sendImm => exact posting_posts _ _ v _ (localRequest_length fun _ => toNat_toUInt32 a.size)
  | udSend =>
      refine posting_posts _ _ v _ fun b u wr h => ?_
      split_ifs at h
      obtain rfl := Except.ok.inj h
      exact toNat_toUInt32 a.size
  | sendMCast =>
      refine posting_posts _ _ v _ fun b m wr h => ?_
      split at h
      · exact absurd h (by simp)
      · obtain rfl := Except.ok.inj h
        exact toNat_toUInt32 a.size
  | receive =>
      show _ ∨ _ = _ ++ [a.size % 2 ^ 32]
      rw [← toNat_toUInt32 a.size]
      exact postRecv_posts c _ _ v.errno s
  | udReceive =>
      have hlength : (UnreliableRDMA.recvWr c.lkey a.memAddr a.size).length.toNat =
          (a.size + RDMA_UD_OFFSET) % 2 ^ 32 := by
        rw [UnreliableRDMA.recvWr, toNat_toUInt32, wrap64]
        omega
      show _ ∨ _ = _ ++ [(a.size + RDMA_UD_OFFSET) % 2 ^ 32]
      rw [← hlength]
      exact postRecv_posts c _ _ v.errno s

/-- Of a call that does not throw, the length is the one that was asked for
exactly if it fits the field. -/
theorem exact_iff {fn : TransferFn} {c : SendConfig} {a : TransferArgs} {v : Verbs} {s : Endpoint}
    (h : ∀ e, (fn.call c a v s).1 ≠ .threw e) :
    fn.Exact (fn.wanted a.size) s (fn.call c a v s) ↔ fn.wanted a.size < 2 ^ 32 := by
  have hposts := (fn.call_posts c a v s).resolve_left fun ⟨e, he⟩ => h e he
  constructor
  · intro hexact
    have hsame := hposts.symm.trans (hexact.resolve_left fun ⟨e, he⟩ => h e he)
    have hmod := List.head_eq_of_cons_eq (List.append_cancel_left hsame)
    rw [← hmod]
    exact Nat.mod_lt _ (by decide)
  · intro hlt
    rw [Nat.mod_eq_of_lt hlt] at hposts
    exact Or.inr hposts

/-! ## Calls that return -/

/-- Objects with one connection of each kind, all queues empty. -/
def connected : Endpoint where
  rc := { ReliableRDMA.blank (Device.opened (fun _ => 0) fun _ => 0) 4096 1 1 IbConn.zero with
    qps := [⟨some 2, some 1, some 0⟩]
    rconns := [IbConn.zero]
    countWR := [0] }
  ud :=
    { UnreliableRDMA.blank (Device.opened (fun _ => 0) fun _ => 0) 4096 1 1 IbConn.zero
        (fun _ => 0) with
      rconns := [IbConn.zero]
      countWR := [0]
      udqp := ⟨some 2, some 1, some 0⟩
      udpMcastConns := [⟨2, 1, some 3, 0, 0⟩]
      sendMCastCount := [0] }
  sends := SendQueue.empty
  receives := []

/-- `RDMA_MAX_WR` is 16. -/
def config : SendConfig := ⟨16, 1, fun _ => "error"⟩

/-- On those objects a call returns, whatever it asks for, if the verbs
succeed. -/
theorem call_returns (fn : TransferFn) (offset memAddr size : ℕ) (imm : UInt32) :
    (fn.call config ⟨0, offset, memAddr, size, imm, false⟩ ⟨0, [.after 1 0 0], 0⟩ connected).1 =
      .returned := by
  cases fn <;> rfl

/-- **The length of a transfer** is the size that was asked for exactly if
the size, with the header of a datagram that is received, is less than
`2 ^ 32`: of every call that does not throw, and so of the function. -/
theorem transfer_exact_iff (fn : TransferFn) (size : ℕ) :
    (∀ c a v s, a.size = size → (∀ e, (fn.call c a v s).1 ≠ .threw e) →
      (fn.Exact (fn.wanted size) s (fn.call c a v s) ↔ fn.wanted size < 2 ^ 32)) ∧
      ((∀ c a v s, a.size = size → fn.Exact (fn.wanted size) s (fn.call c a v s)) ↔
        fn.wanted size < 2 ^ 32) := by
  refine ⟨fun c a v s hsize h => ?_, fun h => ?_, fun hlt c a v s hsize => ?_⟩
  · subst hsize
    exact exact_iff h
  · have hreturns := fn.call_returns 0 0 size 0
    refine (exact_iff fun e he => ?_).mp
      (h config ⟨0, 0, 0, size, 0, false⟩ ⟨0, [.after 1 0 0], 0⟩ connected rfl)
    rw [hreturns] at he
    exact Outcome.noConfusion he
  · subst hsize
    have hposts := fn.call_posts c a v s
    rwa [Nat.mod_eq_of_lt hlt] at hposts

/-- A write of `2 ^ 32` bytes returns, and the request it has posted is of
none. -/
theorem write_truncated :
    let r := write.call config ⟨0, 0, 8192, 2 ^ 32, 0, false⟩ ⟨0, [], 0⟩ connected
    r.1 = .returned ∧ write.lengths r.2 = [0] ∧ ¬ write.Exact (2 ^ 32) connected r := by
  have hreturned : (write.call config ⟨0, 0, 8192, 2 ^ 32, 0, false⟩ ⟨0, [], 0⟩ connected).1 =
      .returned := by decide +kernel
  refine ⟨hreturned, by decide +kernel, ?_⟩
  rintro (⟨e, he⟩ | hexact)
  · exact Outcome.noConfusion (hreturned.symm.trans he)
  · exact absurd hexact (by decide +kernel)

end TransferFn

end RdmaManager
