import RdmaManager.Node.Exchange
/-!
# What is known of an exchange

`Traffic` is what the two calls have come to: their phases, the queue
pair that each of them has made (`own`), and the one that the handler of
each server has made for the other (`got`). `At` says what this means for
one server, its call and its message, and what a server does by itself
concerns the other one only so far as `Agrees` says.
-/

namespace RdmaManager

/-- What there was on a device is as it was. -/
structure Device.Untouched (d d' : Device) : Prop where
  qps : ∀ h < d.next, d'.qps h = d.qps h
  cqs : ∀ c < d.next, d'.cqs c = d.cqs c

theorem Device.Grown.untouched {d d' : Device} (h : d.Grown d') : d.Untouched d' := ⟨h.qps, h.cqs⟩

/-- A queue pair that was not there may be moved on. -/
theorem Device.Untouched.readied {d d' : Device} {h : ℕ} {old : Qp}
    {dest : Option (UInt32 × UInt16)} (huntouched : d.Untouched d') (hle : d.next ≤ h) :
    d.Untouched (d'.readied h old dest) where
  qps i hi := by
    rw [readied_qps, Function.update_of_ne (by omega)]
    exact huntouched.qps i hi
  cqs := huntouched.cqs

namespace Exchange

/-! ## What a server has -/

variable {d d' : Device} {qp : IbQp} {b : BaseRDMA} {id h : ℕ} {num : UInt64}

/-- A live queue pair that was not moved on yet. -/
def Unused (d : Device) (h : ℕ) : Prop := ∃ old, d.qps h = some old ∧ old.state = .init

/-- The two completion queues of a queue pair are live. -/
def Queued (d : Device) (qp : IbQp) : Prop :=
  ∃ c₁ c₂, qp.sendCq = some c₁ ∧ qp.recvCq = some c₂ ∧ d.cqs c₁ = true ∧ d.cqs c₂ = true ∧ c₁ ≠ c₂

/-- What a call has made and not entered in the tables. -/
def Spare (d : Device) (qp : IbQp) (h : ℕ) : Prop := qp.qp = some h ∧ Unused d h ∧ Queued d qp

/-- What `setQP` has entered. -/
def Entered (b : BaseRDMA) (id h : ℕ) : Prop :=
  (b.qpAt id).qp = some h ∧ id < b.qps.length ∧ Unused b.device h

/-- An id is connected to the queue pair with a number. -/
structure Linked (b : BaseRDMA) (id h : ℕ) (num : UInt64) : Prop where
  qp : (b.qpAt id).qp = some h
  live : b.device.qps h ≠ none
  connected : b.connected.lookup id = some true
  route : (b.rconnAt id).qpNum = num

theorem Unused.keep (hunused : Unused d h) (huntouched : d.Untouched d') : Unused d' h := by
  obtain ⟨old, hold, hinit⟩ := hunused
  exact ⟨old, by rw [huntouched.qps h (d.lt_of_qps hold), hold], hinit⟩

theorem Queued.keep (hqueued : Queued d qp) (huntouched : d.Untouched d') : Queued d' qp := by
  obtain ⟨c₁, c₂, hsend, hrecv, h₁, h₂, hne⟩ := hqueued
  refine ⟨c₁, c₂, hsend, hrecv, ?_, ?_, hne⟩
  · rw [huntouched.cqs c₁ (d.lt_of_cqs h₁), h₁]
  · rw [huntouched.cqs c₂ (d.lt_of_cqs h₂), h₂]

theorem Spare.keep (hspare : Spare d qp h) (huntouched : d.Untouched d') : Spare d' qp h :=
  ⟨hspare.1, hspare.2.1.keep huntouched, hspare.2.2.keep huntouched⟩

/-! ## The two servers -/

/-- What does not change of a server. -/
structure Steady (s₀ s : RDMAServer ReliableRDMA) : Prop where
  ownNodeID : s.ownNodeID = s₀.ownNodeID
  ownIpPort : s.ownIpPort = s₀.ownIpPort
  sequencerIpPort : s.sequencerIpPort = s₀.sequencerIpPort
  opened : s₀.sequencerIpPort ∈ s.sockets
  currentSRQ : s.currentSRQ = sizeMax

/-- **What the two calls have come to.** -/
structure Traffic where
  phase : Side → Phase
  own : Side → Option ℕ
  got : Side → Option ℕ

variable {p₀ : Exchange} {T T' : Traffic} {x : Side}

/-- The number that a device gives to a queue pair. -/
def number (p₀ : Exchange) (x : Side) (h : ℕ) : UInt64 :=
  ((p₀.node x).base.device.qpNum h).toUInt64

/-- The server with the larger id. -/
def winner (p₀ : Exchange) : Side :=
  if (p₀.node .left).ownNodeID < (p₀.node .right).ownNodeID then .right else .left

/-- **What is known of the tables of a server**, where `theirs` is the queue
pair that the call of the other one has made. -/
structure Tables (p₀ : Exchange) (x : Side) (phase : Phase) (own got theirs : Option ℕ)
    (b : BaseRDMA) : Prop where
  succeeds : b.device.Succeeds
  qpNum : b.device.qpNum = (p₀.node x).base.device.qpNum
  next : (p₀.node x).base.device.next ≤ b.device.next
  /-- Nothing else is left of what the exchange has made. -/
  new : ∀ h, (p₀.node x).base.device.next ≤ h → b.device.qps h ≠ none → own = some h ∨ got = some h
  since : ∀ h, own = some h ∨ got = some h →
    (p₀.node x).base.device.next ≤ h ∧ h < b.device.next
  apart : ∀ h, own = some h → got ≠ some h
  unlinked : got = none → phase ≠ .through → p₀.peerID x ∉ b.connected
  linked : ∀ g, got = some g → ∃ h, theirs = some h ∧
    Linked b (p₀.peerID x) g (p₀.number x.other h)

/-- The number of the queue pair that the other server has made for this one. -/
def Offered (p₀ : Exchange) (x : Side) (theirs : Option ℕ) (num : UInt64) : Prop :=
  ∃ g, theirs = some g ∧ num = p₀.number x.other g

/-- The message of a call that looks the other server up. -/
def Asked (p₀ : Exchange) (x : Side) : Mail → Prop
  | .none => True
  | .request receiver request => receiver = (p₀.node x).sequencerIpPort ∧
      request = .getNodeIDForIpPortRequest (p₀.peerIpPort x)
  | .reply answer => ∃ resp, answer = .ok (.getNodeIDForIpPortResponse resp) ∧
      resp.nodeId = (p₀.node x.other).ownNodeID ∧ resp.ip = p₀.peerIpPort x ∧
      resp.return_ = MessageErrors.noError.code

/-- The message of a call that asks the other server, where `theirs` is the
queue pair it has made for this one. -/
def Crossed (p₀ : Exchange) (x : Side) (phase : Phase) (theirs : Option ℕ) (localConn : IbConn) :
    Mail → Prop
  | .none => phase = .raised
  | .request receiver request => phase = .raised ∧ receiver = p₀.peerIpPort x ∧
      request = .rdmaConnRequest (RDMAClient.requestOf (p₀.node x).ownNodeID localConn)
  | .reply answer =>
      (phase = .accepted ∧ ∃ resp, answer = .ok (.rdmaConnResponse resp) ∧
        Offered p₀ x theirs resp.qpNum.toUInt64) ∨
      (phase = .refused ∧ answer = .ok (.errorMessage MessageErrors.noError.code))

/-- **What is known of a call** at its stage, where `theirs` is the queue
pair that the other server has made for this one. -/
def Stands (p₀ : Exchange) (x : Side) (phase : Phase) (own theirs : Option ℕ)
    (s : RDMAServer ReliableRDMA) (mail : Mail) (call : Call) : Prop :=
  match call.stage with
  | .entered => phase = .idle ∧ own = none ∧ mail = .none ∧ p₀.peerIpPort x ∉ s.sockets
  | .identified => phase = .idle ∧ own = none ∧ mail = .none ∧ p₀.peerIpPort x ∉ s.sockets
  | .lookingUp none => phase = .idle ∧ own = none ∧ Asked p₀ x mail
  | .lookedUp => phase = .idle ∧ own = none ∧ mail = .none
  | .marking => phase = .idle ∧ own = none ∧ mail = .none
  | .initializing => phase = .raised ∧ own = none ∧ mail = .none
  | .requesting qp qpPt localConn => qpPt = qp ∧ Crossed p₀ x phase theirs localConn mail ∧
      ∃ h, own = some h ∧ Spare s.base.device qp h ∧ localConn.qpNum = p₀.number x h
  | .settingQP qpPt _ remoteConn => phase = .accepted ∧ mail = .none ∧
      Offered p₀ x theirs remoteConn.qpNum ∧ ∃ h, own = some h ∧ Spare s.base.device qpPt h
  | .settingLocalConnData _ remoteConn => phase = .accepted ∧ mail = .none ∧
      Offered p₀ x theirs remoteConn.qpNum ∧ ∃ h, own = some h ∧ Entered s.base (p₀.peerID x) h
  | .settingRemoteConnData remoteConn => phase = .accepted ∧ mail = .none ∧
      Offered p₀ x theirs remoteConn.qpNum ∧ ∃ h, own = some h ∧ Entered s.base (p₀.peerID x) h
  | .connecting => phase = .accepted ∧ mail = .none ∧
      Offered p₀ x theirs (s.base.rconnAt (p₀.peerID x)).qpNum ∧
      p₀.peerID x < s.base.rconns.length ∧ ∃ h, own = some h ∧ Entered s.base (p₀.peerID x) h
  | .destroyingQP qp => phase = .refused ∧ mail = .none ∧
      ∃ h, own = some h ∧ Spare s.base.device qp h
  | .destroyingCQ qp => phase = .refused ∧ mail = .none ∧ own = none ∧ Queued s.base.device qp
  | .returned true => mail = .none ∧
      ((own = none ∧ (phase = .refused ∨ phase = .yielded)) ∨
        (phase = .through ∧ ∃ h g, own = some h ∧ theirs = some g ∧
          Linked s.base (p₀.peerID x) h (p₀.number x.other g)))
  | _ => False

/-- Only a call that looks an id up or requests a connection has a message. -/
theorem Stands.waits {p₀ : Exchange} {x : Side} {phase : Phase} {own theirs : Option ℕ}
    {s : RDMAServer ReliableRDMA} {mail : Mail} {call : Call}
    (h : Stands p₀ x phase own theirs s mail call) (hmail : mail ≠ .none) :
    call.stage = .lookingUp none ∨ ∃ qp qpPt localConn, call.stage = .requesting qp qpPt localConn := by
  unfold Stands at h
  cases hstage : call.stage with
  | requesting qp qpPt localConn => exact Or.inr ⟨qp, qpPt, localConn, rfl⟩
  | lookingUp retry =>
      cases retry with
      | some retry =>
          rw [hstage] at h
          exact h.elim
      | none => exact Or.inl rfl
  | returned success =>
      rw [hstage] at h
      cases success with
      | false => exact h.elim
      | true => exact absurd h.1 hmail
  | entered | identified | lookedUp | marking | initializing =>
      rw [hstage] at h
      exact absurd h.2.2 (by simp [hmail])
  | settingQP | settingLocalConnData | settingRemoteConnData | connecting | destroyingQP | destroyingCQ =>
      rw [hstage] at h
      exact absurd h.2.1 hmail
  | requestingNodeID | threw =>
      rw [hstage] at h
      exact h.elim

/-- The stages at which the id of the other server is known. -/
def knows (stage : Stage) : Bool :=
  match stage with
  | .entered => false
  | .identified => false
  | .lookingUp _ => false
  | _ => true

/-- And of one that may not have been made yet. -/
def Standing (p₀ : Exchange) (x : Side) (phase : Phase) (own theirs : Option ℕ)
    (s : RDMAServer ReliableRDMA) (mail : Mail) : Option Call → Prop
  | none => phase = .idle ∧ own = none ∧ mail = .none ∧ p₀.peerIpPort x ∉ s.sockets
  | some call => call.ipPort = p₀.peerIpPort x ∧
      (knows call.stage = true → call.retServerNodeID = (p₀.node x.other).ownNodeID) ∧
      Stands p₀ x phase own theirs s mail call

/-- **What is known of one of the servers.** -/
structure At (p₀ : Exchange) (T : Traffic) (x : Side) (s : RDMAServer ReliableRDMA)
    (call : Option Call) (mail : Mail) : Prop where
  steady : Steady (p₀.node x) s
  tables : Tables p₀ x (T.phase x) (T.own x) (T.got x) (T.own x.other) s.base
  flag : s.marked (p₀.peerID x) = Crossing.flag T.phase x
  standing : Standing p₀ x (T.phase x) (T.own x) (T.got x.other) s mail call

/-- The traffic is that of crossing calls. -/
structure Traffic.Sane (p₀ : Exchange) (T : Traffic) : Prop where
  reachable : (Crossing.calls p₀.winner).Reachable T.phase
  /-- Who accepts a call has made a queue pair for it. -/
  taken : ∀ x, (T.got x).isSome = (T.phase x.other).engaged

/-- What matters to a server of the traffic is the same. -/
structure Traffic.Agrees (x : Side) (T T' : Traffic) : Prop where
  phase : T'.phase x = T.phase x
  own : T'.own x = T.own x
  got : T'.got = T.got
  engaged : (T'.phase x.other).engaged = (T.phase x.other).engaged
  served : T.got x = none ∨ T'.own x.other = T.own x.other

theorem At.agree {s : RDMAServer ReliableRDMA} {call : Option Call} {mail : Mail}
    (hat : At p₀ T x s call mail) (hagrees : T.Agrees x T') : At p₀ T' x s call mail := by
  obtain ⟨hsteady, htables, hflag, hstanding⟩ := hat
  refine ⟨hsteady, ?_, ?_, ?_⟩
  · rw [hagrees.phase, hagrees.own, hagrees.got]
    refine ⟨htables.succeeds, htables.qpNum, htables.next, htables.new, htables.since, htables.apart,
      htables.unlinked, fun g hg => ?_⟩
    rcases hagrees.served with hnone | hown
    · rw [hnone] at hg
      exact absurd hg (by simp)
    · rw [hown]
      exact htables.linked g hg
  · rw [hflag]
    unfold Crossing.flag
    rw [hagrees.phase, hagrees.engaged]
  · rw [hagrees.phase, hagrees.own, hagrees.got]
    exact hstanding

/-- **What is known of both.** -/
def Inv (p₀ p : Exchange) : Prop :=
  p.sequencer = p₀.sequencer ∧
    ∃ T, Traffic.Sane p₀ T ∧ ∀ x, At p₀ T x (p.node x) (p.call x) (p.mail x)

end Exchange

end RdmaManager
