import RdmaManager.Common.Termination
import RdmaManager.Common.Turns
import RdmaManager.Perf.BusyWait
/-!
# Packets and echoes take turns

With one connection the busy-waits are enough. Neither thread is ahead of
the other by more than a packet, so that a word in a slot of the server
thread is that of the packet it waits for, or of the other parity. A packet
is written, answered and found before the next (`in_turn`), and all of them
come through unless the first one is there before the server thread resets
the node id in its place (`complete_iff`).
-/

namespace RdmaManager

namespace WritePair

variable {p : WritePair} {r : BusyWait} {missed : Bool}

/-! ## The invariant -/

/-- What the slots of the server thread hold after `m` packets. -/
def slotsAfter (p : WritePair) (m : ℕ) : ℕ → ℕ := heldAfter p.client.bufferSlots p.word (fun _ => 0) m

/-- **The invariant of the loops.** Neither thread is ahead of the other, the
words that the client polls are zero until the echo arrives, and the slots
of the server thread hold the last packets, unless the first of them was
`missed`: then nothing goes on. -/
structure Inv (p : WritePair) (missed : Bool) (r : BusyWait) : Prop where
  begun : r.server.atLoop = false → r.j = 0
  i_le : r.i ≤ p.iterations
  client : r.client ≠ .begin → r.i < p.iterations
  j_le : r.j ≤ p.iterations
  server : r.server = .posted ∨ r.server = .landed → r.j < p.iterations
  found : r.i ≤ r.returned
  answered : r.answered ≤ r.arrived
  sent : r.client = .posted → getUInt32 r.mem (p.sendPlace r.i) = p.word r.i
  quiet : (r.client ≠ .begin ∨ r.i % p.client.bufferSlots ≠ 0) → ∀ m, r.returned ≤ m →
    m / p.client.bufferSlots = r.i / p.client.bufferSlots → getUInt32 r.mem (p.receivePlace m) = 0
  echo : r.i < r.returned → getUInt32 r.mem (p.receivePlace r.i) = p.word r.i
  clientID : r.server = .begin → r.arrived = 0 → getUInt32 r.remote p.remOffset = p.clientID
  slots : missed = false → ∀ slot < p.client.bufferSlots, (r.server.atLoop = false → 0 < slot) →
    getUInt32 r.remote (p.remotePlace slot) = p.slotsAfter r.arrived slot
  respond : missed = false → r.server ≠ .begin → (r.server = .received → r.arrived = 0) →
    r.respondConnID = p.clientID
  target : r.server = .posted → r.remoteOffset = p.receivePlace r.j
  missed : missed = true → r.i = 0 ∧ r.j = 0 ∧ r.server = .polling ∧ r.arrived = 1 ∧
    getUInt32 r.remote (p.remotePlace 0) = 0

theorem Start.inv (h : p.Start r) : p.Inv false r where
  begun _ := h.j
  i_le := by rw [h.i]; exact Nat.zero_le _
  client hne := absurd h.client hne
  j_le := by rw [h.j]; exact Nat.zero_le _
  server hstage := by simp [h.server] at hstage
  found := by rw [h.i]; exact Nat.zero_le _
  answered := by simp [BusyWait.answered, h.server, h.j, ServeStage.answered]
  sent hstage := by simp [h.client] at hstage
  quiet hbegun := by simp [h.client, h.i] at hbegun
  echo hlt := by simp [BusyWait.returned, h.server, h.j, ServeStage.returned] at hlt
  clientID _ _ := h.clientID
  slots _ slot hslot hpos := by
    have harrived : r.arrived = 0 := by simp [BusyWait.arrived, h.client, h.i, WriteStage.arrived]
    rw [harrived]
    exact h.zero slot (hpos (by rw [h.server]; rfl)) hslot
  respond _ hne := absurd h.server hne
  target hstage := by simp [h.server] at hstage
  missed hmissed := by simp at hmissed

namespace Inv

variable (h : p.Inv missed r)

include h

/-- Nothing was missed if the first packet is not there, or an echo is. -/
theorem not_missed (hnot : ¬ (r.i = 0 ∧ r.j = 0 ∧ r.server = .polling ∧ r.arrived = 1)) :
    missed = false := by
  by_contra hmissed
  obtain ⟨hi, hj, hserver, harrived, -⟩ := h.missed (Bool.eq_true_of_not_eq_false hmissed)
  exact hnot ⟨hi, hj, hserver, harrived⟩

/-- What a slot of the server thread holds. -/
theorem slotWord (hsound : p.Sound) (hmissed : missed = false) (hserver : r.server.atLoop = true)
    (m : ℕ) :
    getUInt32 r.remote (p.remotePlace m) =
      p.slotsAfter r.arrived (m % p.client.bufferSlots) := by
  have hslot := h.slots hmissed _ (Nat.mod_lt m hsound.bufferSlots) fun hfalse => by simp [hserver] at hfalse
  have hplace : p.remotePlace (m % p.client.bufferSlots) = p.remotePlace m := by
    unfold remotePlace
    rw [Nat.mod_mod]
  rwa [hplace] at hslot

/-- Before the packet of the client has arrived, its echo has not. -/
theorem returned_eq (hclient : r.client.arrived = 0) : r.returned = r.i := by
  have hfound := h.found
  have hanswered := h.answered
  have hreturned := r.returned_le
  unfold BusyWait.arrived at hanswered
  omega

theorem writes (hclient : r.client = .begin) (hlt : r.i < p.iterations) (hsound : p.Sound) :
    p.Inv missed (p.exec r .writes) := by
  have hreturned : r.returned = r.i := h.returned_eq (by rw [hclient]; rfl)
  have harrived : (p.exec r .writes).arrived = r.arrived := by
    unfold BusyWait.arrived
    rw [hclient]
    rfl
  exact {
    begun := h.begun
    i_le := h.i_le
    client := fun _ => hlt
    j_le := h.j_le
    server := h.server
    found := h.found
    answered := harrived.symm ▸ h.answered
    sent := fun _ => Sound.sendWord_writes
    quiet := fun _ m hm hround => by
      rw [hsound.receiveWord_writes]
      split_ifs with hslot
      · rfl
      · exact h.quiet (Or.inr hslot) m hm hround
    echo := fun hecho => absurd hecho (Nat.not_lt_of_ge (Nat.le_of_eq hreturned))
    clientID := fun hserver _ => h.clientID hserver (by rw [← harrived]; assumption)
    slots := fun hmissed => harrived.symm ▸ h.slots hmissed
    respond := fun hmissed hne hzero => h.respond hmissed hne fun hstage => harrived ▸ hzero hstage
    target := h.target
    missed := fun hmissed => harrived.symm ▸ h.missed hmissed }

theorem packetLands (hclient : r.client = .posted) (hsound : p.Sound) :
    p.Inv missed (p.exec r .packetLands) := by
  have hold : r.arrived = r.i := by
    unfold BusyWait.arrived
    rw [hclient]
    rfl
  have hnew : (p.exec r .packetLands).arrived = r.i + 1 := rfl
  have hnot := h.not_missed fun hstage => by omega
  exact {
    begun := h.begun
    i_le := h.i_le
    client := fun _ => h.client (by simp [hclient])
    j_le := h.j_le
    server := h.server
    found := h.found
    answered := by
      have hanswered := h.answered
      show r.answered ≤ r.i + 1
      omega
    sent := fun hstage => by cases hstage
    quiet := fun _ => h.quiet (Or.inl (by simp [hclient]))
    echo := h.echo
    clientID := fun _ hzero => by omega
    slots := fun hmissed slot hslot hpos => by
      rw [hsound.remoteWord_packetLands, hnew, slotsAfter, heldAfter_succ, h.sent hclient,
        Nat.mod_eq_of_lt hslot]
      split_ifs with heq
      · rw [heq, Function.update_self]
      · rw [Function.update_of_ne heq, h.slots hmissed slot hslot hpos, hold]
        rfl
    respond := fun hmissed hne hzero => h.respond hmissed hne fun hstage => by
      have hnone := hzero hstage
      omega
    target := h.target
    missed := fun hmissed => by simp [hnot] at hmissed }

theorem completes (hclient : r.client = .landed) : p.Inv missed (p.exec r .completes) := by
  have harrived : (p.exec r .completes).arrived = r.arrived := by
    unfold BusyWait.arrived
    rw [hclient]
    rfl
  exact {
    begun := h.begun
    i_le := h.i_le
    client := fun _ => h.client (by simp [hclient])
    j_le := h.j_le
    server := h.server
    found := h.found
    answered := harrived.symm ▸ h.answered
    sent := fun hstage => by cases hstage
    quiet := fun _ => h.quiet (Or.inl (by simp [hclient]))
    echo := h.echo
    clientID := fun hserver hzero => h.clientID hserver (harrived ▸ hzero)
    slots := fun hmissed => harrived.symm ▸ h.slots hmissed
    respond := fun hmissed hne hzero => h.respond hmissed hne fun hstage => harrived ▸ hzero hstage
    target := h.target
    missed := fun hmissed => harrived.symm ▸ h.missed hmissed }

/-- The word that is found is the one that the echo has brought. -/
theorem returned_of_found (hclient : r.client = .polling)
    (hpos : 0 < getUInt32 r.mem (p.receivePlace r.i)) : r.returned = r.i + 1 := by
  have hreturned := r.returned_le
  have hanswered := h.answered
  have harrived := r.arrived_le
  have hwritten := r.written_le
  have hecho : ¬ r.returned ≤ r.i := by
    intro hle
    have hquiet := h.quiet (Or.inl (by simp [hclient])) r.i hle rfl
    omega
  omega

theorem finds (hclient : r.client = .polling) (hpos : 0 < getUInt32 r.mem (p.receivePlace r.i)) :
    p.Inv missed (p.exec r .finds) := by
  have hreturned := h.returned_of_found hclient hpos
  have harrived : (p.exec r .finds).arrived = r.arrived := by
    unfold BusyWait.arrived
    rw [hclient]
    rfl
  have hnew : (p.exec r .finds).arrived = r.i + 1 := rfl
  have hnot := h.not_missed fun hstage => by
    obtain ⟨hi, hj, hserver, -⟩ := hstage
    rw [BusyWait.returned, hi, hj, hserver] at hreturned
    simp [ServeStage.returned] at hreturned
  exact {
    begun := h.begun
    i_le := h.client (by simp [hclient])
    client := fun hne => absurd rfl hne
    j_le := h.j_le
    server := h.server
    found := hreturned.ge
    answered := harrived.symm ▸ h.answered
    sent := fun hstage => by cases hstage
    quiet := fun hslot m hm hround => by
      have hnext : (r.i + 1) % p.client.bufferSlots ≠ 0 := hslot.resolve_left fun hne => absurd rfl hne
      refine h.quiet (Or.inl (by simp [hclient])) m hm (hround.trans ?_)
      exact Nat.succ_div_of_not_dvd fun hdvd => hnext (Nat.mod_eq_zero_of_dvd hdvd)
    echo := fun hecho => absurd hecho (Nat.not_lt_of_ge hreturned.le)
    clientID := fun _ hzero => by omega
    slots := fun hmissed => harrived.symm ▸ h.slots hmissed
    respond := fun hmissed hne hzero => h.respond hmissed hne fun hstage => harrived ▸ hzero hstage
    target := h.target
    missed := fun hmissed => by simp [hnot] at hmissed }

theorem receives (hserver : r.server = .begin) (hsound : p.Sound) :
    p.Inv missed (p.exec r .receives) := by
  have hnot := h.not_missed fun hstage => by simp [hserver] at hstage
  have hsame : (p.exec r .receives).returned = r.returned := by
    unfold BusyWait.returned
    rw [hserver]
    rfl
  have hanswered : (p.exec r .receives).answered = r.answered := by
    unfold BusyWait.answered
    rw [hserver]
    rfl
  exact {
    begun := fun _ => h.begun (by rw [hserver]; rfl)
    i_le := h.i_le
    client := h.client
    j_le := h.j_le
    server := fun hstage => by rcases hstage with hstage | hstage <;> cases hstage
    found := hsame.symm ▸ h.found
    answered := hanswered.symm ▸ h.answered
    sent := h.sent
    quiet := hsame.symm ▸ h.quiet
    echo := hsame.symm ▸ h.echo
    clientID := fun hstage => by cases hstage
    slots := fun hmissed slot hslot hpos => h.slots hmissed slot hslot fun _ => hpos rfl
    respond := fun _ _ hzero => by
      have hnone : r.arrived = 0 := by
        have hafter := hzero rfl
        unfold BusyWait.arrived at hafter ⊢
        exact hafter
      simp only [exec]
      exact getInt32_of_word (h.clientID hserver hnone) hsound.clientID
    target := fun hstage => by cases hstage
    missed := fun hmissed => by simp [hnot] at hmissed }

theorem resets (hserver : r.server = .received) (hsound : p.Sound) :
    p.Inv (missed || decide (0 < r.arrived)) (p.exec r .resets) := by
  have hj := h.begun (by rw [hserver]; rfl)
  have hnot := h.not_missed fun hstage => by simp [hserver] at hstage
  have hsame : (p.exec r .resets).returned = r.returned := by
    unfold BusyWait.returned
    rw [hserver]
    rfl
  have hanswered : (p.exec r .resets).answered = r.answered := by
    unfold BusyWait.answered
    rw [hserver]
    rfl
  have hi : r.i = 0 := by
    have hfound := h.found
    rw [BusyWait.returned, hj, hserver] at hfound
    exact Nat.le_zero.mp hfound
  have harrived : r.arrived ≤ 1 := by
    have hle := r.arrived_le.trans r.written_le
    omega
  exact {
    begun := fun hstage => by cases hstage
    i_le := h.i_le
    client := h.client
    j_le := h.j_le
    server := fun hstage => by rcases hstage with hstage | hstage <;> cases hstage
    found := hsame.symm ▸ h.found
    answered := hanswered.symm ▸ h.answered
    sent := h.sent
    quiet := hsame.symm ▸ h.quiet
    echo := hsame.symm ▸ h.echo
    clientID := fun hstage => by cases hstage
    slots := fun hmissed slot hslot _ => by
      have hzero : r.arrived = 0 := by
        simp only [Bool.or_eq_false_iff, decide_eq_false_iff_not] at hmissed
        omega
      have hafter : (p.exec r .resets).arrived = 0 := hzero
      rw [hsound.remoteWord_resets, hafter, Nat.mod_eq_of_lt hslot]
      split_ifs with heq
      · rfl
      · rw [h.slots hnot slot hslot fun _ => Nat.pos_of_ne_zero heq, hzero]
    respond := fun hmissed _ _ => by
      simp only [Bool.or_eq_false_iff, decide_eq_false_iff_not] at hmissed
      exact h.respond hnot (by simp [hserver]) fun _ => by omega
    target := fun hstage => by cases hstage
    missed := fun hmissed => by
      rw [hnot, Bool.false_or, decide_eq_true_eq] at hmissed
      refine ⟨hi, hj, rfl, Nat.le_antisymm harrived hmissed, ?_⟩
      rw [hsound.remoteWord_resets, if_pos (Nat.zero_mod _)] }

/-- **The parity tells**: a word that the busy-wait of the server thread ends
with is that of the packet it waits for, which has arrived. -/
theorem detects (hsound : p.Sound) (hserver : r.server = .polling)
    (hparity : getUInt32 r.remote (p.remotePlace r.j) % 2 = p.client.flip r.j % 2)
    (hpos : 0 < getUInt32 r.remote (p.remotePlace r.j)) :
    missed = false ∧ r.arrived = r.j + 1 ∧ r.i = r.j ∧
      getUInt32 r.remote (p.remotePlace r.j) = p.word r.j := by
  have hslots := hsound.bufferSlots
  have hmissed : missed = false := by
    by_contra htrue
    obtain ⟨-, hj, -, -, hzero⟩ := h.missed (Bool.eq_true_of_not_eq_false htrue)
    rw [hj, hzero] at hpos
    exact Nat.lt_irrefl 0 hpos
  have hslot := h.slotWord hsound hmissed (by rw [hserver]; rfl) r.j
  have hfound := h.found
  have hanswered := h.answered
  have harrived := r.arrived_le.trans r.written_le
  have hj : r.returned = r.j ∧ r.answered = r.j := by
    unfold BusyWait.returned BusyWait.answered
    rw [hserver]
    exact ⟨rfl, rfl⟩
  -- else the slot holds the packet of the round before, or none
  have hnext : r.arrived = r.j + 1 := by
    by_contra hne
    have hsame : r.arrived = r.j := by omega
    rw [hsame] at hslot
    rcases Nat.lt_or_ge r.j p.client.bufferSlots with hlt | hge
    · have hzero : p.slotsAfter r.j (r.j % p.client.bufferSlots) = 0 :=
        heldAfter_of_le (Nat.mod_lt r.j hslots) (Nat.mod_eq_of_lt hlt).ge
      omega
    · have hbefore : p.slotsAfter r.j (r.j % p.client.bufferSlots) =
          p.word (r.j - p.client.bufferSlots) := by
        rw [Nat.mod_eq_sub_mod hge]
        exact heldAfter_of_recent (by omega) (by omega)
      rw [hslot, hbefore, hsound.word_parity] at hparity
      exact hsound.flip_ne hge hparity
  refine ⟨hmissed, hnext, by omega, ?_⟩
  rw [hslot, hnext]
  exact heldAfter_of_recent (Nat.lt_succ_self _) (by omega)

theorem answers (hsound : p.Sound) (hserver : r.server = .polling) (hlt : r.j < p.iterations)
    (hparity : getUInt32 r.remote (p.remotePlace r.j) % 2 = p.client.flip r.j % 2)
    (hpos : 0 < getUInt32 r.remote (p.remotePlace r.j)) : p.Inv missed (p.exec r .answers) := by
  obtain ⟨hmissed, hnext, -, hword⟩ := h.detects hsound hserver hparity hpos
  have hsame : (p.exec r .answers).returned = r.returned := by
    unfold BusyWait.returned
    rw [hserver]
    rfl
  exact {
    begun := fun hstage => by cases hstage
    i_le := h.i_le
    client := h.client
    j_le := h.j_le
    server := fun _ => hlt
    found := hsame.symm ▸ h.found
    answered := hnext.ge
    sent := h.sent
    quiet := hsame.symm ▸ h.quiet
    echo := hsame.symm ▸ h.echo
    clientID := fun hstage => by cases hstage
    slots := fun _ slot hslot _ => h.slots hmissed slot hslot fun hfalse => by simp [hserver, ServeStage.atLoop] at hfalse
    respond := fun _ _ _ => h.respond hmissed (by simp [hserver]) (by simp [hserver])
    target := fun _ => by
      show p.client.remoteOffset r.j (getUInt32 r.remote (p.remotePlace r.j)) = _
      rw [hword]
      exact hsound.remoteOffset_word r.j
    missed := fun htrue => by simp [hmissed] at htrue }

theorem echoLands (hsound : p.Sound) (hserver : r.server = .posted) :
    p.Inv missed (p.exec r .echoLands) := by
  have hmissed := h.not_missed fun hstage => by simp [hserver] at hstage
  have hid := h.respond hmissed (by simp [hserver]) (by simp [hserver])
  have hold : r.returned = r.j ∧ r.answered = r.j + 1 := by
    unfold BusyWait.returned BusyWait.answered
    rw [hserver]
    exact ⟨rfl, rfl⟩
  have hnew : (p.exec r .echoLands).returned = r.j + 1 := rfl
  have hfound := h.found
  have hanswered := h.answered
  have harrived := r.arrived_le.trans r.written_le
  have hi : r.i = r.j := by omega
  have hclient : r.client ≠ .begin ∧ r.client ≠ .posted := by
    unfold BusyWait.arrived at hanswered
    constructor <;> intro hstage <;> rw [hstage] at hanswered <;>
      simp only [WriteStage.arrived] at hanswered <;> omega
  have hword : getUInt32 r.remote (p.remotePlace r.j) = p.word r.j := by
    have hslots := hsound.bufferSlots
    rw [h.slotWord hsound hmissed (by rw [hserver]; rfl) r.j]
    exact heldAfter_of_recent (by omega) (by omega)
  exact {
    begun := fun hstage => by cases hstage
    i_le := h.i_le
    client := h.client
    j_le := h.j_le
    server := fun _ => h.server (Or.inl hserver)
    found := by
      show r.i ≤ r.j + 1
      omega
    answered := by
      show r.j + 1 ≤ r.arrived
      omega
    sent := fun hstage => absurd hstage hclient.2
    quiet := fun _ m hm hround => by
      have hne : m % p.client.bufferSlots ≠ r.j % p.client.bufferSlots := by
        intro hslot
        have hm' := Nat.div_add_mod m p.client.bufferSlots
        have hj' := Nat.div_add_mod r.j p.client.bufferSlots
        have hround' : m / p.client.bufferSlots = r.j / p.client.bufferSlots := hi ▸ hround
        rw [hround', hslot] at hm'
        omega
      rw [hsound.receiveWord_echoLands hid (h.target hserver), if_neg hne]
      exact h.quiet (Or.inl hclient.1) m (by omega) hround
    echo := fun _ => by
      show getUInt32 (p.exec r .echoLands).mem (p.receivePlace r.i) = p.word r.i
      rw [hsound.receiveWord_echoLands hid (h.target hserver), if_pos (by rw [hi]), hword, hi]
    clientID := fun hstage => by cases hstage
    slots := fun _ slot hslot _ => h.slots hmissed slot hslot fun hfalse => by simp [hserver, ServeStage.atLoop] at hfalse
    respond := fun _ _ _ => hid
    target := fun hstage => by cases hstage
    missed := fun htrue => by simp [hmissed] at htrue }

theorem goesOn (hserver : r.server = .landed) : p.Inv missed (p.exec r .goesOn) := by
  have hmissed := h.not_missed fun hstage => by simp [hserver] at hstage
  have hreturned : (p.exec r .goesOn).returned = r.returned := by
    unfold BusyWait.returned
    rw [hserver]
    rfl
  have hanswered : (p.exec r .goesOn).answered = r.answered := by
    unfold BusyWait.answered
    rw [hserver]
    rfl
  exact {
    begun := fun hstage => by cases hstage
    i_le := h.i_le
    client := h.client
    j_le := h.server (Or.inr hserver)
    server := fun hstage => by rcases hstage with hstage | hstage <;> cases hstage
    found := hreturned.symm ▸ h.found
    answered := hanswered.symm ▸ h.answered
    sent := h.sent
    quiet := hreturned.symm ▸ h.quiet
    echo := hreturned.symm ▸ h.echo
    clientID := fun hstage => by cases hstage
    slots := fun _ slot hslot _ => h.slots hmissed slot hslot fun hfalse => by simp [hserver, ServeStage.atLoop] at hfalse
    respond := fun _ _ _ => h.respond hmissed (by simp [hserver]) (by simp [hserver])
    target := fun hstage => by cases hstage
    missed := fun htrue => by simp [hmissed] at htrue }

end Inv

/-! ## The runs -/

/-- What the threads do in turn. -/
inductive Turn
  /-- A packet is written, with its first word. -/
  | wrote (i word : ℕ)
  /-- The packet with the word is answered, to the place in the buffer of the
  client. -/
  | answered (j word remoteOffset : ℕ)
  | found (i : ℕ)
  deriving DecidableEq, Repr

/-- What an event does in turn. -/
def turnOf (p : WritePair) (r : BusyWait) : BusyWaitEvent → Option Turn
  | .writes => some (.wrote r.i (getUInt32 (p.exec r .writes).mem (p.sendPlace r.i)))
  | .answers => some (.answered r.j (getUInt32 r.remote (p.remotePlace r.j))
      (p.exec r .answers).remoteOffset)
  | .finds => some (.found r.i)
  | _ => none

/-- **The turns**: a packet is written, answered and found, and then the
next one. -/
def turn (p : WritePair) (k : ℕ) : Turn :=
  if k % 3 = 0 then .wrote (k / 3) (p.word (k / 3))
  else if k % 3 = 1 then .answered (k / 3) (p.word (k / 3)) (p.receivePlace (k / 3))
  else .found (k / 3)

/-- Whether the first packet was there before the server thread reset the
node id, and what was done in turn. -/
structure History where
  missed : Bool
  turns : List Turn

/-- An event goes into the history. -/
def write (p : WritePair) (r : BusyWait) (e : BusyWaitEvent) (_ : BusyWait) (history : History) :
    History where
  missed := history.missed || decide (e = .resets ∧ 0 < r.arrived)
  turns := history.turns ++ (p.turnOf r e).toList

/-- **The runs, with their history.** -/
def recorded (p : WritePair) : System (BusyWait × History) BusyWaitEvent :=
  p.runs.record (fun _ => ⟨false, []⟩) p.write

/-- **Every event keeps the invariant.** -/
theorem Inv.step (hsound : p.Sound) (h : p.Inv missed r) {e : BusyWaitEvent} (hen : p.Enabled r e) :
    p.Inv (missed || decide (e = .resets ∧ 0 < r.arrived)) (p.exec r e) := by
  cases e with
  | receives => simpa using h.receives hen hsound
  | resets => simpa using h.resets hen hsound
  | writes => simpa using h.writes hen.1 hen.2 hsound
  | packetLands => simpa using h.packetLands hen hsound
  | completes => simpa using h.completes hen
  | finds => simpa using h.finds hen.1 hen.2.2
  | answers => simpa using h.answers hsound hen.1 hen.2.1 hen.2.2.1 hen.2.2.2
  | echoLands => simpa using h.echoLands hsound hen
  | goesOn => simpa using h.goesOn hen

theorem inv_invariant (hsound : p.Sound) :
    p.recorded.Invariant fun x => p.Inv x.2.missed x.1 where
  init x hinit := by
    rw [hinit.2]
    exact hinit.1.inv
  step x e y _ h hstep := by
    obtain ⟨⟨hen, hnext⟩, hhistory⟩ := hstep
    rw [hnext, hhistory]
    exact h.step hsound hen

/-- **An event is the next turn, or none.** -/
theorem Inv.turnOf_cases (hsound : p.Sound) (h : p.Inv missed r) {e : BusyWaitEvent}
    (hen : p.Enabled r e) :
    p.turnOf r e = none ∧ (p.exec r e).turnCount = r.turnCount ∨
      p.turnOf r e = some (p.turn r.turnCount) ∧ (p.exec r e).turnCount = r.turnCount + 1 := by
  have hreturned := r.returned_le
  have hanswered := h.answered
  have hfound := h.found
  have harrived := r.arrived_le.trans r.written_le
  cases e with
  | writes =>
      obtain ⟨hclient, -⟩ := hen
      have hwritten : r.written = r.i ∧ r.arrived = r.i := by
        unfold BusyWait.written BusyWait.arrived
        rw [hclient]
        exact ⟨rfl, rfl⟩
      have hcount : r.turnCount = 3 * r.i := by
        unfold BusyWait.turnCount
        omega
      refine Or.inr ⟨?_, ?_⟩
      · show some (Turn.wrote r.i (getUInt32 (p.exec r .writes).mem (p.sendPlace r.i))) = _
        rw [hcount, Sound.sendWord_writes, turn, if_pos (Nat.mul_mod_right 3 r.i),
          Nat.mul_div_cancel_left r.i (by decide)]
      · show r.i + r.answered + (r.i + 1) = r.i + r.answered + r.written + 1
        omega
  | answers =>
      obtain ⟨hserver, hlt, hparity, hpos⟩ := hen
      obtain ⟨-, hnext, hi, hword⟩ := h.detects hsound hserver hparity hpos
      have hold : r.answered = r.j := by
        unfold BusyWait.answered
        rw [hserver]
        rfl
      have hwritten := r.arrived_le
      have hcount : r.turnCount = 3 * r.j + 1 := by
        have hle := r.written_le
        unfold BusyWait.turnCount
        omega
      refine Or.inr ⟨?_, ?_⟩
      · show some (Turn.answered r.j (getUInt32 r.remote (p.remotePlace r.j))
          (p.client.remoteOffset r.j (getUInt32 r.remote (p.remotePlace r.j)))) = _
        have hmod : (3 * r.j + 1) % 3 = 1 := by omega
        have hdiv : (3 * r.j + 1) / 3 = r.j := by omega
        rw [hword, hsound.remoteOffset_word, hcount, turn, if_neg (by omega), if_pos hmod, hdiv]
      · show r.i + (r.j + 1) + r.written = r.i + r.answered + r.written + 1
        omega
  | finds =>
      obtain ⟨hclient, -, hpos⟩ := hen
      have hecho := h.returned_of_found hclient hpos
      have hwritten : r.written = r.i + 1 := by
        unfold BusyWait.written
        rw [hclient]
        rfl
      have hcount : r.turnCount = 3 * r.i + 2 := by
        unfold BusyWait.turnCount
        omega
      refine Or.inr ⟨?_, ?_⟩
      · show some (Turn.found r.i) = _
        have hdiv : (3 * r.i + 2) / 3 = r.i := by omega
        rw [hcount, turn, if_neg (by omega), if_neg (by omega), hdiv]
      · show r.i + 1 + r.answered + (r.i + 1) = r.i + r.answered + r.written + 1
        omega
  | packetLands | completes =>
      refine Or.inl ⟨rfl, ?_⟩
      have hclient : r.client = _ := hen
      unfold BusyWait.turnCount BusyWait.written
      rw [hclient]
      rfl
  | receives | resets | echoLands | goesOn =>
      refine Or.inl ⟨rfl, ?_⟩
      have hserver : r.server = _ := hen
      unfold BusyWait.turnCount BusyWait.answered
      rw [hserver]
      rfl

/-- **The turns of any run**: a packet is answered when it has arrived, by
the word it was sent with and to the place where the client waits; it is
found when its echo has arrived; and only then comes the next. -/
theorem in_turn (hsound : p.Sound) {history : History} (h : p.recorded.Reachable (r, history)) :
    history.turns = (List.range r.turnCount).map p.turn ∧ r.answered ≤ r.arrived ∧ r.i ≤ r.returned := by
  have hinv : p.recorded.Invariant fun x => x.2.turns = (List.range x.1.turnCount).map p.turn := by
    refine ⟨fun x hinit => ?_, fun x e y hreach hturns hstep => ?_⟩
    · rw [hinit.2]
      have hcount : x.1.turnCount = 0 := by
        have hstart := hinit.1
        simp [BusyWait.turnCount, BusyWait.answered, BusyWait.written, hstart.i, hstart.j,
          hstart.client, hstart.server, ServeStage.answered, WriteStage.written]
      rw [hcount]
      rfl
    · have hbefore := (inv_invariant hsound).reachable hreach
      obtain ⟨⟨hen, hnext⟩, hhistory⟩ := hstep
      rw [hnext, hhistory]
      rcases hbefore.turnOf_cases hsound hen with ⟨hturn, hcount⟩ | ⟨hturn, hcount⟩
      · simp only [write, hturn, hcount, Option.toList_none, List.append_nil]
        exact hturns
      · simp only [write, hturn, hcount, Option.toList_some, List.range_succ, List.map_append,
          List.map_cons, List.map_nil]
        rw [hturns]
  have hend := (inv_invariant hsound).reachable h
  exact ⟨hinv.reachable h, hend.answered, hend.found⟩

/-! ## The end -/

/-- The steps that the client has made for its packet. -/
def clientSteps : WriteStage → ℕ
  | .begin => 0
  | .posted => 1
  | .landed => 2
  | .polling => 3

/-- The steps that the server thread has made for its packet, with the first
steps of all. -/
def serverSteps : ServeStage → ℕ
  | .begin => 0
  | .received => 1
  | .polling => 2
  | .posted => 3
  | .landed => 4

/-- **The steps that are left.** -/
def stepsLeft (p : WritePair) (r : BusyWait) : ℕ :=
  (4 * p.iterations - (4 * r.i + clientSteps r.client)) +
    (3 * p.iterations + 2 - (3 * r.j + serverSteps r.server))

/-- **Every event leaves fewer.** -/
theorem Inv.stepsLeft_lt (h : p.Inv missed r) {e : BusyWaitEvent} (hen : p.Enabled r e) :
    p.stepsLeft (p.exec r e) < p.stepsLeft r := by
  have hi := h.i_le
  have hj := h.j_le
  unfold stepsLeft
  cases e with
  | writes =>
      obtain ⟨hclient, hlt⟩ := hen
      simp only [exec, hclient, clientSteps]
      omega
  | packetLands | completes =>
      have hclient : r.client = _ := hen
      have hlt := h.client (by simp [hclient])
      simp only [exec, hclient, clientSteps]
      omega
  | finds =>
      obtain ⟨hclient, -⟩ := hen
      have hlt := h.client (by simp [hclient])
      simp only [exec, hclient, clientSteps]
      omega
  | receives | resets =>
      have hserver : r.server = _ := hen
      simp only [exec, hserver, serverSteps]
      omega
  | answers =>
      obtain ⟨hserver, hlt, -⟩ := hen
      simp only [exec, hserver, serverSteps]
      omega
  | echoLands =>
      have hserver : r.server = _ := hen
      have hlt := h.server (Or.inl hserver)
      simp only [exec, hserver, serverSteps]
      omega
  | goesOn =>
      have hserver : r.server = _ := hen
      have hlt := h.server (Or.inr hserver)
      simp only [exec, hserver, serverSteps]
      omega

/-- **Where nothing was missed**, nothing is left to do at the end. -/
theorem Inv.finished (hsound : p.Sound) (h : p.Inv false r) (hstuck : ∀ e, ¬ p.Enabled r e) :
    r.i = p.iterations ∧ r.j = p.iterations := by
  have hi := h.i_le
  have hj := h.j_le
  have hfound := h.found
  have hanswered := h.answered
  have hreturned := r.returned_le
  have hserver : r.server = .polling := by
    cases hstage : r.server with
    | begin => exact absurd hstage (hstuck .receives)
    | received => exact absurd hstage (hstuck .resets)
    | posted => exact absurd hstage (hstuck .echoLands)
    | landed => exact absurd hstage (hstuck .goesOn)
    | polling => rfl
  have hcounts : r.returned = r.j ∧ r.answered = r.j := by
    unfold BusyWait.returned BusyWait.answered
    rw [hserver]
    exact ⟨rfl, rfl⟩
  have hclient : r.client = .begin ∨ r.client = .polling := by
    cases hstage : r.client with
    | begin => exact Or.inl rfl
    | posted => exact absurd hstage (hstuck .packetLands)
    | landed => exact absurd hstage (hstuck .completes)
    | polling => exact Or.inr rfl
  rcases hclient with hclient | hclient
  · have harrived : r.arrived = r.i := by
      unfold BusyWait.arrived
      rw [hclient]
      rfl
    have hlast : ¬ r.i < p.iterations := fun hlt => hstuck .writes ⟨hclient, hlt⟩
    omega
  · -- the client waits, and so the packet it waits for is there to be answered
    have harrived : r.arrived = r.i + 1 := by
      unfold BusyWait.arrived
      rw [hclient]
      rfl
    have hlt := h.client (by simp [hclient])
    have hecho : ¬ r.i < r.returned := by
      intro hecho
      have hword := h.echo hecho
      exact hstuck .finds ⟨hclient, hword, hword ▸ hsound.word_pos r.i⟩
    have hslots := hsound.bufferSlots
    have hword : getUInt32 r.remote (p.remotePlace r.j) = p.word r.j := by
      rw [h.slotWord hsound rfl (by rw [hserver]; rfl) r.j]
      exact heldAfter_of_recent (by omega) (by omega)
    refine absurd ⟨hserver, by omega, ?_, ?_⟩ (hstuck .answers)
    · rw [hword, hsound.word_parity]
    · rw [hword]
      exact hsound.word_pos r.j

/-- **When the busy-waits end**: every run comes to its end, and there all
packets were found and answered if and only if the first of them was not
there before the server thread reset the node id in its place. -/
theorem complete_iff (hsound : p.Sound) {history : History}
    (h : p.recorded.Reachable (r, history)) :
    p.runs.Ends r ∧
      (p.runs.Stuck r → (r.i = p.iterations ∧ r.j = p.iterations ↔ history.missed = false)) := by
  have hinv : p.Inv history.missed r := (inv_invariant hsound).reachable h
  refine ⟨?_, fun hstuck => ?_⟩
  · refine h.of_record.ends p.stepsLeft ?_
    rintro a e b hreach ⟨hen, rfl⟩
    obtain ⟨history', hrecorded⟩ := hreach.record (fun _ => ⟨false, []⟩) p.write
    exact ((inv_invariant hsound).reachable hrecorded).stepsLeft_lt hen
  · have hnone : ∀ e, ¬ p.Enabled r e := fun e hen => hstuck e _ ⟨hen, rfl⟩
    refine ⟨fun hend => ?_, fun hmissed => ?_⟩
    · by_contra hmissed
      obtain ⟨hi, -, -, harrived, -⟩ := hinv.missed (Bool.eq_true_of_not_eq_false hmissed)
      -- the client waits for the first echo for ever
      have hclient : r.client ≠ .begin := by
        intro hclient
        simp [BusyWait.arrived, hi, hclient, WriteStage.arrived] at harrived
      have hlt := hinv.client hclient
      omega
    · exact (hmissed ▸ hinv).finished hsound hnone

/-! ## A run -/

/-- What an event does, with the history. -/
def next (p : WritePair) (x : BusyWait × History) (e : BusyWaitEvent) : BusyWait × History :=
  (p.exec x.1 e, p.write x.1 e (p.exec x.1 e) x.2)

theorem recorded_step {x : BusyWait × History} {e : BusyWaitEvent} (hen : p.Enabled x.1 e) :
    p.recorded.Step x e (p.next x e) :=
  ⟨⟨hen, rfl⟩, rfl⟩

/-- Two slots of eight bytes, for three packets. -/
def threePackets : WritePair := ⟨⟨8, 2, 1, 0⟩, 5, 0, 16, 3⟩

theorem threePackets_sound : threePackets.Sound := by
  constructor <;> decide

/-- The threads are at their loops. -/
def threePacketsStart : BusyWait where
  i := 0
  client := .begin
  mem := fun _ => 0
  j := 0
  server := .begin
  remote := fun offset => if offset = 16 then 5 else 0
  respondConnID := -1
  remoteOffset := 0

/-- The first packet is written while the server thread begins, and comes
back; then the others, the last one in the slot of the first. -/
def threePacketsEvents : List BusyWaitEvent :=
  [.writes, .receives, .resets] ++
    (List.replicate 2 [.packetLands, .answers, .completes, .echoLands, .finds, .goesOn, .writes]).flatten ++
      [.packetLands, .answers, .completes, .echoLands, .finds, .goesOn]

def threePacketsEnd : BusyWait × History :=
  threePacketsEvents.foldl threePackets.next (threePacketsStart, ⟨false, []⟩)

theorem threePacketsEnd_reachable : threePackets.recorded.Reachable threePacketsEnd := by
  have hstart : threePackets.Start threePacketsStart := by
    refine ⟨rfl, rfl, rfl, rfl, by decide, fun slot hpos hlt => ?_⟩
    obtain rfl : slot = 1 := Nat.le_antisymm (Nat.le_of_lt_succ hlt) hpos
    decide
  have hmeets : System.MeetsAlong (fun x e => threePackets.Enabled x.1 e) threePackets.next
      (threePacketsStart, ⟨false, []⟩) threePacketsEvents := by decide +kernel
  exact System.Reachable.along (.init ⟨hstart, rfl⟩) (hmeets.steps fun _ _ => recorded_step)

theorem in_turn_threePackets : threePacketsEnd.2.turns =
    [.wrote 0 1, .answered 0 1 0, .found 0, .wrote 1 5, .answered 1 5 16, .found 1,
      .wrote 2 2, .answered 2 2 0, .found 2] := by
  refine (in_turn threePackets_sound threePacketsEnd_reachable).1.trans ?_
  decide +kernel

theorem complete_iff_threePackets : threePacketsEnd.1.i = 3 ∧ threePacketsEnd.1.j = 3 := by
  have hstuck : threePackets.runs.Stuck threePacketsEnd.1 := by
    rintro e r' ⟨hen, -⟩
    revert hen
    cases e <;> decide +kernel
  exact ((complete_iff threePackets_sound threePacketsEnd_reachable).2 hstuck).mpr (by decide +kernel)

end WritePair

end RdmaManager
