import RdmaManager.Common.Text
/-!
# `Config::load`

A configuration file is a list of lines. A line is cut at its first `=`
into a key and a value, and the key decides which setting the value is
stored in. The position of the `=` is kept in an `int`, which is `-1` where
there is none: then key and value are both the whole line.
-/

namespace RdmaManager

open Text

namespace Config

/-- The settings that a file can change. -/
structure Settings where
  rdmaServerAddresses : List Char
  rdmaPort : ℕ
  rdmaMemsize : ℕ
  rdmaNumaregion : ℕ
  rdmaIbport : ℕ
  loggingLevel : ℤ
  mlx5SingleThreaded : ℕ
  rdmaInterface : List Char
  sequencerIp : List Char
  sequencerPort : ℕ
  rdmaGetNodeIdRetries : ℕ
  deriving DecidableEq, Repr

/-- What the settings are before a file is loaded. -/
def initial : Settings where
  rdmaServerAddresses := "172.18.94.20".toList
  rdmaPort := 5200
  rdmaMemsize := 1024 * 1024 * 1024 * 8
  rdmaNumaregion := 1
  rdmaIbport := 1
  loggingLevel := 1
  mlx5SingleThreaded := 1
  rdmaInterface := "ib1".toList
  sequencerIp := "192.168.94.21".toList
  sequencerPort := 5600
  rdmaGetNodeIdRetries := 5

/-- The conversion to an unsigned integer of `w` bits. -/
def narrow (w : ℕ) (z : ℤ) : ℕ := (z % 2 ^ w).toNat

/-- `trim`. -/
def trim (str : List Char) : List Char := (str.dropWhile (· = ' ')).rdropWhile (· = ' ')

/-- **`Config::set`.** -/
def set (key value : List Char) (s : Settings) : Except ParseError Settings :=
  if key = "RDMA_SERVER_ADDRESSES".toList then .ok { s with rdmaServerAddresses := value }
  else if key = "RDMA_PORT".toList then
    (stoi value).map fun z => { s with rdmaPort := narrow 16 z }
  else if key = "RDMA_MEMSIZE".toList then .ok { s with rdmaMemsize := narrow 64 (strtoul value) }
  else if key = "RDMA_NUMAREGION".toList then
    (stoi value).map fun z => { s with rdmaNumaregion := narrow 32 z }
  else if key = "RDMA_IBPORT".toList then
    (stoi value).map fun z => { s with rdmaIbport := narrow 32 z }
  else if key = "LOGGING_LEVEL".toList then (stoi value).map fun z => { s with loggingLevel := z }
  else if key = "MLX5_SINGLE_THREADED".toList then
    (stoi value).map fun z => { s with mlx5SingleThreaded := narrow 32 z }
  else if key = "RDMA_INTERFACE".toList then .ok { s with rdmaInterface := value }
  else if key = "NODE_SEQUENCER_IP".toList then .ok { s with sequencerIp := value }
  else if key = "NODE_SEQUENCER_PORT".toList then
    (stoi value).map fun z => { s with sequencerPort := narrow 16 z }
  else if key = "RDMA_GET_NODE_ID_RETRIES".toList then
    (stoi value).map fun z => { s with rdmaGetNodeIdRetries := narrow 32 z }
  else .ok s

/-- `line.find('=')`. -/
def findEqual (line : List Char) : Option ℕ :=
  if '=' ∈ line then some (line.idxOf '=') else none

/-- `int posEqual = line.find('=');` -/
def posEqual (line : List Char) : ℤ :=
  match findEqual line with
  | some p => (p : ℤ).bmod (2 ^ 32)
  | none => -1

/-- One round of the loop of `Config::load`. A negative position is beyond
the end of every line. -/
def loadLine (line : List Char) (s : Settings) : Except ParseError Settings :=
  if line.length = 0 then .ok s
  else if line.head? = some '#' then .ok s
  else if line.head? = some ';' then .ok s
  else
    let pos := posEqual line
    let key := if pos < 0 then line else line.take pos.toNat
    if pos = 2 ^ 31 - 1 then .error .undefined
    else if pos + 1 < 0 then .error .outOfRange
    else set (trim key) (trim (line.drop (pos + 1).toNat)) s

/-- **`Config::load`**, from the file on: the settings afterwards, and what
it throws. -/
def load : List (List Char) → Settings → Settings × Option ParseError
  | [], s => (s, none)
  | line :: lines, s =>
      match loadLine line s with
      | .ok s' => load lines s'
      | .error e => (s, some e)

/-! ## What a file says -/

/-- The keys that a file can name. -/
inductive Key
  | rdmaServerAddresses
  | rdmaPort
  | rdmaMemsize
  | rdmaNumaregion
  | rdmaIbport
  | loggingLevel
  | mlx5SingleThreaded
  | rdmaInterface
  | nodeSequencerIp
  | nodeSequencerPort
  | rdmaGetNodeIdRetries
  deriving DecidableEq, Repr

/-- What a setting is. -/
inductive Value
  | text (s : List Char)
  | number (z : ℤ)
  deriving DecidableEq, Repr

namespace Key

def name : Key → List Char
  | rdmaServerAddresses => "RDMA_SERVER_ADDRESSES".toList
  | rdmaPort => "RDMA_PORT".toList
  | rdmaMemsize => "RDMA_MEMSIZE".toList
  | rdmaNumaregion => "RDMA_NUMAREGION".toList
  | rdmaIbport => "RDMA_IBPORT".toList
  | loggingLevel => "LOGGING_LEVEL".toList
  | mlx5SingleThreaded => "MLX5_SINGLE_THREADED".toList
  | rdmaInterface => "RDMA_INTERFACE".toList
  | nodeSequencerIp => "NODE_SEQUENCER_IP".toList
  | nodeSequencerPort => "NODE_SEQUENCER_PORT".toList
  | rdmaGetNodeIdRetries => "RDMA_GET_NODE_ID_RETRIES".toList

def all : List Key :=
  [rdmaServerAddresses, rdmaPort, rdmaMemsize, rdmaNumaregion, rdmaIbport, loggingLevel,
    mlx5SingleThreaded, rdmaInterface, nodeSequencerIp, nodeSequencerPort, rdmaGetNodeIdRetries]

/-- The key of a name. -/
def ofName (key : List Char) : Option Key := all.find? fun k => k.name = key

/-- The type of the setting of a key. -/
inductive Kind
  | text
  | unsigned (bits : ℕ)
  | int
  | size
  deriving DecidableEq, Repr

def kind : Key → Kind
  | rdmaServerAddresses | rdmaInterface | nodeSequencerIp => .text
  | rdmaPort | nodeSequencerPort => .unsigned 16
  | rdmaNumaregion | rdmaIbport | mlx5SingleThreaded | rdmaGetNodeIdRetries => .unsigned 32
  | loggingLevel => .int
  | rdmaMemsize => .size

end Key

/-- The setting of a key. -/
def Settings.value (s : Settings) : Key → Value
  | .rdmaServerAddresses => .text s.rdmaServerAddresses
  | .rdmaPort => .number s.rdmaPort
  | .rdmaMemsize => .number s.rdmaMemsize
  | .rdmaNumaregion => .number s.rdmaNumaregion
  | .rdmaIbport => .number s.rdmaIbport
  | .loggingLevel => .number s.loggingLevel
  | .mlx5SingleThreaded => .number s.mlx5SingleThreaded
  | .rdmaInterface => .text s.rdmaInterface
  | .nodeSequencerIp => .text s.sequencerIp
  | .nodeSequencerPort => .number s.sequencerPort
  | .rdmaGetNodeIdRetries => .number s.rdmaGetNodeIdRetries

/-- What a value says: the text, or the number that it begins with. -/
def written (k : Key) (value : List Char) : Option Value :=
  match k.kind with
  | .text => some (.text value)
  | .size => (integerAuto value).map Value.number
  | .unsigned _ | .int => (integer value).map fun p => Value.number p.1

/-- **A value is parseable**: a number begins it, and for `stoi` one of an
`int`. -/
def Parseable (k : Key) (value : List Char) : Prop :=
  match k.kind with
  | .text => True
  | .size => (integerAuto value).isSome
  | .unsigned _ | .int => ∃ p ∈ integer value, IsInt p.1

instance (k : Key) (value : List Char) : Decidable (Parseable k value) :=
  match hkind : k.kind with
  | .text => isTrue (by unfold Parseable; rw [hkind]; trivial)
  | .size => decidable_of_iff ((integerAuto value).isSome = true) (by unfold Parseable; rw [hkind])
  | .unsigned _ => decidable_of_iff (∃ p ∈ integer value, IsInt p.1)
      (by unfold Parseable; rw [hkind])
  | .int => decidable_of_iff (∃ p ∈ integer value, IsInt p.1) (by unfold Parseable; rw [hkind])

/-- The numbers that the setting of a key can be. -/
def Key.Holds (k : Key) (z : ℤ) : Prop :=
  match k.kind with
  | .text => False
  | .unsigned bits => 0 ≤ z ∧ z < 2 ^ bits
  | .int => IsInt z
  | .size => 0 ≤ z ∧ z < 2 ^ 64

instance (k : Key) (z : ℤ) : Decidable (k.Holds z) :=
  match hkind : k.kind with
  | .text => isFalse (by unfold Key.Holds; rw [hkind]; exact id)
  | .size => decidable_of_iff (0 ≤ z ∧ z < 2 ^ 64) (by unfold Key.Holds; rw [hkind])
  | .unsigned bits => decidable_of_iff (0 ≤ z ∧ z < 2 ^ bits) (by unfold Key.Holds; rw [hkind])
  | .int => decidable_of_iff (IsInt z) (by unfold Key.Holds; rw [hkind])

/-- A line that is empty or a comment. -/
def Comment (line : List Char) : Prop :=
  line = [] ∨ line.head? = some '#' ∨ line.head? = some ';'

instance (line : List Char) : Decidable (Comment line) := inferInstanceAs (Decidable (_ ∨ _))

/-- A line of the form `key=value`: the two, stripped of blanks. -/
def assignment (line : List Char) : Option (List Char × List Char) :=
  if Comment line ∨ '=' ∉ line then none
  else some (trim (line.take (line.idxOf '=')), trim (line.drop (line.idxOf '=' + 1)))

/-- The key that a line assigns, and the value. -/
def assigned (line : List Char) : Option (Key × List Char) :=
  match assignment line with
  | some (key, value) => (Key.ofName key).map fun k => (k, value)
  | none => none

/-- The value that the last line naming a key assigns to it. -/
def lastValue (k : Key) : List (List Char) → Option (List Char)
  | [] => none
  | line :: lines =>
      match lastValue k lines with
      | some value => some value
      | none =>
          match assigned line with
          | some (k', value) => if k' = k then some value else none
          | none => none

/-- **What a file means**: every key has the last value assigned to it, or
the one from before. -/
def Means (lines : List (List Char)) (s s' : Settings) : Prop :=
  ∀ k, match lastValue k lines with
    | some value => written k value = some (s'.value k)
    | none => s'.value k = s.value k

/-! ## One line -/

variable {s s' : Settings} {k k' : Key} {key value line : List Char} {lines : List (List Char)}
variable {z : ℤ}

/-- What is stored of a value. -/
def stored (k : Key) (value : List Char) : Except ParseError Value :=
  match k.kind with
  | .text => .ok (.text value)
  | .unsigned bits => (stoi value).map fun z => .number (narrow bits z)
  | .int => (stoi value).map Value.number
  | .size => .ok (.number (narrow 64 (strtoul value)))

theorem ofName_name (k : Key) : Key.ofName k.name = some k := by
  cases k <;> decide

theorem name_of_ofName (h : Key.ofName key = some k) : k.name = key := by
  have hfound := List.find?_some h
  rwa [decide_eq_true_iff] at hfound

/-- The settings with one of them changed. -/
def put : Key → Value → Settings → Settings
  | .rdmaServerAddresses, .text v, s => { s with rdmaServerAddresses := v }
  | .rdmaPort, .number z, s => { s with rdmaPort := z.toNat }
  | .rdmaMemsize, .number z, s => { s with rdmaMemsize := z.toNat }
  | .rdmaNumaregion, .number z, s => { s with rdmaNumaregion := z.toNat }
  | .rdmaIbport, .number z, s => { s with rdmaIbport := z.toNat }
  | .loggingLevel, .number z, s => { s with loggingLevel := z }
  | .mlx5SingleThreaded, .number z, s => { s with mlx5SingleThreaded := z.toNat }
  | .rdmaInterface, .text v, s => { s with rdmaInterface := v }
  | .nodeSequencerIp, .text v, s => { s with sequencerIp := v }
  | .nodeSequencerPort, .number z, s => { s with sequencerPort := z.toNat }
  | .rdmaGetNodeIdRetries, .number z, s => { s with rdmaGetNodeIdRetries := z.toNat }
  | _, _, s => s

variable {v : Value}

theorem value_put_of_ne (h : k' ≠ k) : (put k v s).value k' = s.value k' := by
  cases k <;> cases v <;> cases k' <;> first | rfl | exact absurd rfl h

theorem value_put (h : stored k value = .ok v) : (put k v s).value k = v := by
  unfold stored at h
  cases hz : stoi value with
  | error e =>
      rw [hz] at h
      cases k <;> cases h <;> rfl
  | ok z =>
      rw [hz] at h
      cases k <;> cases h <;> rfl

/-- **`set` stores the value of a key**, in its setting. -/
theorem set_name (k : Key) (value : List Char) (s : Settings) :
    set k.name value s = (stored k value).map fun v => put k v s := by
  unfold stored
  cases k
  case rdmaServerAddresses => rfl
  case rdmaMemsize => rfl
  case rdmaInterface => rfl
  case nodeSequencerIp => rfl
  all_goals
    show (stoi value).map _ = ((stoi value).map _).map _
    cases stoi value <;> rfl

theorem set_unknown (h : Key.ofName key = none) : set key value s = .ok s := by
  have hne : ∀ k : Key, key ≠ k.name := by
    rintro k rfl
    rw [ofName_name] at h
    exact absurd h (by simp)
  unfold set
  iterate 11 rw [if_neg]
  · exact hne .rdmaGetNodeIdRetries
  · exact hne .nodeSequencerPort
  · exact hne .nodeSequencerIp
  · exact hne .rdmaInterface
  · exact hne .mlx5SingleThreaded
  · exact hne .loggingLevel
  · exact hne .rdmaIbport
  · exact hne .rdmaNumaregion
  · exact hne .rdmaMemsize
  · exact hne .rdmaPort
  · exact hne .rdmaServerAddresses

/-- The position of the first `=` is below the largest `int`. -/
def Near (line : List Char) : Prop := ¬ Comment line → '=' ∈ line → line.idxOf '=' < 2 ^ 31 - 1

instance (line : List Char) : Decidable (Near line) := inferInstanceAs (Decidable (_ → _ → _))

theorem loadLine_comment (h : Comment line) : loadLine line s = .ok s := by
  unfold loadLine
  rcases h with rfl | h | h
  · rfl
  · by_cases hlen : line.length = 0
    · rw [if_pos hlen]
    · rw [if_neg hlen, if_pos h]
  · by_cases hlen : line.length = 0
    · rw [if_pos hlen]
    · rw [if_neg hlen, if_pos h, ite_self]

/-- A line with an `=` in the reach of an `int` is cut there. -/
theorem loadLine_cut (hcomment : ¬ Comment line) (hmem : '=' ∈ line) (hnear : Near line) :
    loadLine line s =
      set (trim (line.take (line.idxOf '='))) (trim (line.drop (line.idxOf '=' + 1))) s := by
  have hsmall := hnear hcomment hmem
  have hpos : posEqual line = (line.idxOf '=' : ℤ) := by
    unfold posEqual findEqual
    rw [if_pos hmem]
    exact Int.bmod_eq_of_le (by omega) (by omega)
  unfold loadLine
  rw [if_neg fun h => hcomment (Or.inl (List.length_eq_zero_iff.mp h)),
    if_neg fun h => hcomment (Or.inr (Or.inl h)), if_neg fun h => hcomment (Or.inr (Or.inr h))]
  simp only
  rw [hpos, if_neg (by omega), if_neg (by omega), if_neg (by omega)]
  rfl

/-- Beyond it there is no position, or no end. -/
theorem loadLine_far (hnear : ¬ Near line) (hlong : line.length < 2 ^ 32) (s : Settings) :
    ∃ e, loadLine line s = .error e := by
  unfold Near at hnear
  push Not at hnear
  obtain ⟨hcomment, hmem, hfar⟩ := hnear
  have hlt := List.idxOf_lt_length_of_mem hmem
  have hpos : posEqual line = (line.idxOf '=' : ℤ).bmod (2 ^ 32) := by
    unfold posEqual findEqual
    rw [if_pos hmem]
  unfold loadLine
  rw [if_neg fun h => hcomment (Or.inl (List.length_eq_zero_iff.mp h)),
    if_neg fun h => hcomment (Or.inr (Or.inl h)), if_neg fun h => hcomment (Or.inr (Or.inr h))]
  simp only
  rcases Nat.eq_or_lt_of_le hfar with heq | hbeyond
  · rw [hpos, ← heq, if_pos (by decide)]
    exact ⟨_, rfl⟩
  · have hneg : (line.idxOf '=' : ℤ).bmod (2 ^ 32) = line.idxOf '=' - 2 ^ 32 := by
      rw [Int.bmod_def]
      omega
    rw [hpos, hneg, if_neg (by omega), if_pos (by omega)]
    exact ⟨_, rfl⟩

/-- **A line without an `=` is both its key and its value.** -/
theorem loadLine_bare (hcomment : ¬ Comment line) (hmem : '=' ∉ line) :
    loadLine line s = set (trim line) (trim line) s := by
  have hpos : posEqual line = -1 := by
    unfold posEqual findEqual
    rw [if_neg hmem]
  unfold loadLine
  rw [if_neg fun h => hcomment (Or.inl (List.length_eq_zero_iff.mp h)),
    if_neg fun h => hcomment (Or.inr (Or.inl h)), if_neg fun h => hcomment (Or.inr (Or.inr h))]
  simp only
  rw [hpos]
  rfl

theorem loadLine_assigned (hnear : Near line) (h : assigned line = some (k, value)) :
    loadLine line s = (stored k value).map fun v => put k v s := by
  unfold assigned assignment at h
  split_ifs at h with hsilent
  rw [not_or, not_not] at hsilent
  simp only [Option.map_eq_some_iff, Prod.mk.injEq] at h
  obtain ⟨k', hkey, rfl, hvalue⟩ := h
  rw [loadLine_cut hsilent.1 hsilent.2 hnear, hvalue, ← name_of_ofName hkey, set_name]

/-- A line that assigns nothing does nothing, unless it is a key itself. -/
theorem loadLine_silent (hnear : Near line) (h : assigned line = none)
    (hbare : ¬ Comment line → '=' ∉ line → Key.ofName (trim line) = none) :
    loadLine line s = .ok s := by
  by_cases hcomment : Comment line
  · exact loadLine_comment hcomment
  · by_cases hmem : '=' ∈ line
    · unfold assigned assignment at h
      rw [if_neg (by rw [not_or, not_not]; exact ⟨hcomment, hmem⟩)] at h
      rw [loadLine_cut hcomment hmem hnear]
      exact set_unknown (Option.map_eq_none_iff.mp h)
    · rw [loadLine_bare hcomment hmem]
      exact set_unknown (hbare hcomment hmem)

/-- A line without an `=` assigns nothing. -/
theorem assigned_bare (hmem : '=' ∉ line) : assigned line = none := by
  unfold assigned assignment
  rw [if_pos (Or.inr hmem)]

/-- What is stored is not what every setting is already. -/
theorem exists_value_ne (k : Key) (v : Value) : ∃ s : Settings, s.value k ≠ v := by
  by_contra hall
  have hsame : ∀ s s' : Settings, s.value k = s'.value k := by
    intro s s'
    have hs := not_not.mp (not_exists.mp hall s)
    have hs' := not_not.mp (not_exists.mp hall s')
    rw [hs, hs']
  have hdiff : initial.value k ≠ (⟨[], 0, 0, 0, 0, 0, 0, [], [], 0, 0⟩ : Settings).value k := by
    cases k <;> decide
  exact hdiff (hsame _ _)

/-- **A line that is a key does something.** -/
theorem exists_loadLine_ne (hcomment : ¬ Comment line) (hmem : '=' ∉ line)
    (hkey : Key.ofName (trim line) = some k) : ∃ s, loadLine line s ≠ .ok s := by
  have hset : ∀ s, loadLine line s = (stored k (trim line)).map fun v => put k v s := by
    intro s
    rw [loadLine_bare hcomment hmem]
    conv_lhs => rw [← name_of_ofName hkey]
    rw [set_name, name_of_ofName hkey]
  cases hstored : stored k (trim line) with
  | error e =>
      refine ⟨initial, fun h => ?_⟩
      rw [hset, hstored] at h
      exact absurd h (by simp [Except.map])
  | ok v =>
      obtain ⟨s, hs⟩ := exists_value_ne k v
      refine ⟨s, fun h => hs ?_⟩
      rw [hset, hstored] at h
      have hput : put k v s = s := Except.ok.inj h
      rw [← value_put hstored (s := s), hput]

/-! ## What is written and what is stored -/

/-- The number that a value begins with is one that the setting of its key
can be. -/
def Fits (k : Key) (value : List Char) : Prop :=
  ∀ z, written k value = some (.number z) → k.Holds z

instance (k : Key) (value : List Char) : Decidable (Fits k value) :=
  match hwritten : written k value with
  | some (.number z) => decidable_of_iff (k.Holds z) (by unfold Fits; rw [hwritten]; simp)
  | some (.text _) => isTrue (by unfold Fits; rw [hwritten]; simp)
  | none => isTrue (by unfold Fits; rw [hwritten]; simp)

theorem stoi_of_isInt {p : ℤ × List Char} (h : integer value = some p) (hint : IsInt p.1) :
    stoi value = .ok p.1 := by
  unfold stoi
  rw [h]
  exact if_pos hint

/-- **A parseable value is stored.** -/
theorem exists_stored (h : Parseable k value) : ∃ v, stored k value = .ok v := by
  unfold Parseable at h
  unfold stored
  cases hkind : k.kind with
  | text => exact ⟨_, rfl⟩
  | size => exact ⟨_, rfl⟩
  | unsigned bits =>
      rw [hkind] at h
      obtain ⟨p, hp, hint⟩ := h
      rw [stoi_of_isInt hp hint]
      exact ⟨_, rfl⟩
  | int =>
      rw [hkind] at h
      obtain ⟨p, hp, hint⟩ := h
      rw [stoi_of_isInt hp hint]
      exact ⟨_, rfl⟩

theorem narrow_eq_iff {w : ℕ} : (narrow w z : ℤ) = z ↔ 0 ≤ z ∧ z < 2 ^ w := by
  have hpos : (0 : ℤ) < 2 ^ w := Int.pow_pos (by decide)
  have hnonneg := Int.emod_nonneg z (Int.ne_of_gt hpos)
  have hlt := Int.emod_lt_of_pos z hpos
  unfold narrow
  rw [Int.toNat_of_nonneg hnonneg]
  refine ⟨fun h => ?_, fun h => Int.emod_eq_of_lt h.1 h.2⟩
  rw [h] at hnonneg hlt
  exact ⟨hnonneg, hlt⟩

theorem strtoul_eq_iff (h : integerAuto value = some z) :
    (narrow 64 (strtoul value) : ℤ) = z ↔ 0 ≤ z ∧ z < 2 ^ 64 := by
  unfold strtoul
  rw [h]
  simp only
  split_ifs with hsmall
  · rw [← narrow_eq_iff]
    unfold narrow
    rw [Int.emod_emod]
  · -- the largest value is not what is written
    have hlargest : (narrow 64 (2 ^ 64 - 1) : ℤ) = 2 ^ 64 - 1 := by decide
    rw [hlargest]
    omega

/-- **What is stored is what is written** if that is one of its values. -/
theorem written_eq_iff {v : Value} (hparse : Parseable k value) (hstored : stored k value = .ok v) :
    written k value = some v ↔ Fits k value := by
  unfold Fits Key.Holds
  unfold stored at hstored
  unfold Parseable at hparse
  unfold written
  cases hkind : k.kind with
  | text =>
      rw [hkind] at hstored
      rw [← Except.ok.inj hstored]
      simp
  | size =>
      rw [hkind] at hstored hparse
      obtain ⟨z, hz⟩ := Option.isSome_iff_exists.mp hparse
      rw [← Except.ok.inj hstored]
      simp only [hz, Option.map_some, Option.some.injEq, Value.number.injEq, forall_eq']
      rw [eq_comm]
      exact strtoul_eq_iff hz
  | unsigned bits =>
      rw [hkind] at hstored hparse
      obtain ⟨p, hp, hint⟩ := hparse
      simp only [stoi_of_isInt hp hint] at hstored
      rw [← Except.ok.inj hstored, Option.mem_def.mp hp]
      simp only [Option.map_some, Option.some.injEq, Value.number.injEq, forall_eq']
      rw [eq_comm]
      exact narrow_eq_iff
  | int =>
      rw [hkind] at hstored hparse
      obtain ⟨p, hp, hint⟩ := hparse
      simp only [stoi_of_isInt hp hint] at hstored
      rw [← Except.ok.inj hstored, Option.mem_def.mp hp]
      simp only [Option.map_some, Option.some.injEq, Value.number.injEq, forall_eq', true_iff]
      exact hint

/-! ## The whole file -/

theorem lastValue_cons (k : Key) (line : List Char) (lines : List (List Char)) :
    lastValue k (line :: lines) =
      match lastValue k lines with
      | some value => some value
      | none =>
          match assigned line with
          | some (k', value) => if k' = k then some value else none
          | none => none := rfl

/-- **A load stores the last value of every key**, where no line is a key
itself. -/
theorem load_stores (hnear : ∀ line ∈ lines, Near line)
    (hbare : ∀ line ∈ lines, ¬ Comment line → '=' ∉ line → Key.ofName (trim line) = none)
    (hparse : ∀ line ∈ lines, ∀ a ∈ assigned line, Parseable a.1 a.2) (s : Settings) :
    ∃ s', load lines s = (s', none) ∧ ∀ k, match lastValue k lines with
      | some value => stored k value = .ok (s'.value k)
      | none => s'.value k = s.value k := by
  induction lines generalizing s with
  | nil => exact ⟨s, rfl, fun k => rfl⟩
  | cons line lines ih =>
      rw [List.forall_mem_cons] at hnear hbare hparse
      cases hline : assigned line with
      | none =>
          have hload := loadLine_silent (s := s) hnear.1 hline hbare.1
          obtain ⟨s', hs', hvalues⟩ := ih hnear.2 hbare.2 hparse.2 s
          refine ⟨s', ?_, fun k => ?_⟩
          · unfold load
            rw [hload]
            exact hs'
          · have hk := hvalues k
            rw [lastValue_cons, hline]
            cases hlast : lastValue k lines with
            | none =>
                rw [hlast] at hk
                exact hk
            | some value =>
                rw [hlast] at hk
                exact hk
      | some a =>
          obtain ⟨v, hv⟩ := exists_stored (hparse.1 a hline)
          have hload := loadLine_assigned (s := s) hnear.1 hline
          rw [hv] at hload
          obtain ⟨s', hs', hvalues⟩ := ih hnear.2 hbare.2 hparse.2 (put a.1 v s)
          refine ⟨s', ?_, fun k => ?_⟩
          · unfold load
            rw [hload]
            exact hs'
          · have hk := hvalues k
            rw [lastValue_cons, hline]
            cases hlast : lastValue k lines with
            | some value =>
                rw [hlast] at hk
                exact hk
            | none =>
                -- no later line names the key: it keeps what this line leaves
                rw [hlast] at hk
                simp only at hk ⊢
                by_cases hkey : a.1 = k
                · rw [if_pos hkey]
                  simp only
                  rw [hk, ← hkey, value_put hv, hv]
                · rw [if_neg hkey]
                  simp only
                  rw [hk, value_put_of_ne (Ne.symm hkey)]

/-- A line that cannot be loaded ends the load. -/
theorem load_ends (hline : line ∈ lines) (hthrows : ∀ s, ∃ e, loadLine line s = .error e)
    (s : Settings) : (load lines s).2 ≠ none := by
  induction lines generalizing s with
  | nil => exact absurd hline List.not_mem_nil
  | cons first lines ih =>
      unfold load
      cases hfirst : loadLine first s with
      | error e => simp
      | ok s' =>
          rcases List.mem_cons.mp hline with rfl | hline
          · obtain ⟨e, he⟩ := hthrows s
            exact absurd (hfirst.symm.trans he) (by simp)
          · exact ih hline s'

theorem lastValue_mem (h : lastValue k lines = some value) :
    ∃ line ∈ lines, assigned line = some (k, value) := by
  induction lines with
  | nil => exact absurd h (by simp [lastValue])
  | cons line lines ih =>
      rw [lastValue_cons] at h
      cases hlast : lastValue k lines with
      | some value' =>
          rw [hlast] at h
          obtain ⟨line', hmem, hline'⟩ := ih (hlast.trans h)
          exact ⟨line', List.mem_cons_of_mem _ hmem, hline'⟩
      | none =>
          rw [hlast] at h
          cases hline : assigned line with
          | none =>
              rw [hline] at h
              exact absurd h (by simp)
          | some a =>
              rw [hline] at h
              simp only at h
              split_ifs at h with hkey
              refine ⟨line, List.mem_cons_self, ?_⟩
              rw [hline, ← hkey, ← Option.some.inj h]

/-- **A file means its assignments and nothing else**: a load stores them, and
a line that assigns nothing does nothing. -/
def MeansOnly (lines : List (List Char)) : Prop :=
  (∀ s, ∃ s', load lines s = (s', none) ∧ Means lines s s') ∧
    ∀ line ∈ lines, assigned line = none → ∀ s, loadLine line s = .ok s

/-- What a file needs to be read as it is written: every first `=` has a
position that is an `int`, no line without an `=` is a key, and the last number
assigned to a key is one of its setting's type. -/
structure Plain (lines : List (List Char)) : Prop where
  near : ∀ line ∈ lines, Near line
  bare : ∀ line ∈ lines, ¬ Comment line → '=' ∉ line → Key.ofName (trim line) = none
  fits : ∀ k value, lastValue k lines = some value → Fits k value

theorem Plain.meansOnly (h : Plain lines)
    (hparse : ∀ line ∈ lines, ∀ a ∈ assigned line, Parseable a.1 a.2) : MeansOnly lines := by
  refine ⟨fun s => ?_, fun line hline hnone s => ?_⟩
  · obtain ⟨s', hload, hvalues⟩ := load_stores h.near h.bare hparse s
    refine ⟨s', hload, fun k => ?_⟩
    have hstored := hvalues k
    cases hlast : lastValue k lines with
    | none =>
        rw [hlast] at hstored
        exact hstored
    | some value =>
        rw [hlast] at hstored
        obtain ⟨line, hmem, hline⟩ := lastValue_mem hlast
        exact (written_eq_iff (hparse line hmem _ hline) hstored).mpr (h.fits k value hlast)
  · exact loadLine_silent (h.near line hline) hnone (h.bare line hline)

theorem MeansOnly.plain (h : MeansOnly lines) (hlong : ∀ line ∈ lines, line.length < 2 ^ 32)
    (hparse : ∀ line ∈ lines, ∀ a ∈ assigned line, Parseable a.1 a.2) : Plain lines := by
  obtain ⟨hmeans, hsilent⟩ := h
  have hnear : ∀ line ∈ lines, Near line := by
    intro line hline
    by_contra hfar
    obtain ⟨s', hload, -⟩ := hmeans initial
    refine load_ends hline (loadLine_far hfar (hlong line hline)) initial ?_
    rw [hload]
  have hbare : ∀ line ∈ lines, ¬ Comment line → '=' ∉ line → Key.ofName (trim line) = none := by
    intro line hline hcomment hmem
    by_contra hsome
    obtain ⟨k, hk⟩ := Option.ne_none_iff_exists'.mp hsome
    obtain ⟨s, hs⟩ := exists_loadLine_ne hcomment hmem hk
    exact hs (hsilent line hline (assigned_bare hmem) s)
  refine ⟨hnear, hbare, fun k value hlast => ?_⟩
  -- both speak of the one load: the value stored is the one written
  obtain ⟨s', hload, hvalues⟩ := load_stores hnear hbare hparse initial
  obtain ⟨s'', hload', hmeans⟩ := hmeans initial
  have hsame : s'' = s' := congrArg Prod.fst (hload'.symm.trans hload)
  have hstored := hvalues k
  have hwritten := hmeans k
  rw [hlast] at hstored hwritten
  rw [hsame] at hwritten
  obtain ⟨line, hmem, hline⟩ := lastValue_mem hlast
  exact (written_eq_iff (hparse line hmem _ hline) hstored).mp hwritten

/-- **A plain file means its assignments and nothing else**, and no other file
of lines below `2 ^ 32` characters does. (In a longer line the position of the
first `=` can wrap around to another one of the line.) -/
theorem load_iff (lines : List (List Char))
    (hparse : ∀ line ∈ lines, ∀ a ∈ assigned line, Parseable a.1 a.2) :
    (Plain lines → MeansOnly lines) ∧
      ((∀ line ∈ lines, line.length < 2 ^ 32) → (MeansOnly lines ↔ Plain lines)) :=
  ⟨fun h => h.meansOnly hparse,
    fun hlong => ⟨fun h => h.plain hlong hparse, fun h => h.meansOnly hparse⟩⟩

/-- The file of `TestConfig`. -/
def testFile : List (List Char) :=
  [" ".toList, "    RDMA_NUMAREGION = 4 ".toList, "    RDMA_IBPORT = 6 ".toList,
    "    RDMA_PORT = 1234 ".toList, "    LOGGING_LEVEL=1 ".toList,
    "    RDMA_MEMSIZE = 1234567 ".toList, "  ".toList]

theorem load_testFile : MeansOnly testFile := by
  refine ((load_iff testFile (by decide)).2 (by decide)).mpr ⟨by decide, by decide, fun k value hlast => ?_⟩
  have hk : ∀ value ∈ lastValue k testFile, Fits k value := by
    cases k <;> decide
  exact hk value hlast

/-- The line `RDMA_INTERFACE` sets the interface to its own name, and the line
`RDMA_PORT` ends the load. -/
theorem load_bare :
    ¬ MeansOnly ["RDMA_INTERFACE".toList] ∧ ¬ MeansOnly ["RDMA_PORT".toList, "RDMA_IBPORT=6".toList] ∧
      load ["RDMA_INTERFACE".toList] initial =
        ({ initial with rdmaInterface := "RDMA_INTERFACE".toList }, none) ∧
      load ["RDMA_PORT".toList, "RDMA_IBPORT=6".toList] initial =
        (initial, some .invalidArgument) := by
  have hport : load ["RDMA_PORT".toList, "RDMA_IBPORT=6".toList] initial =
      (initial, some .invalidArgument) := by decide
  refine ⟨fun h => ?_, fun h => ?_, by decide, hport⟩
  · have hnone := h.2 _ (List.mem_singleton_self _) (by decide) initial
    exact absurd hnone (by decide)
  · obtain ⟨s', hload, -⟩ := h.1 initial
    rw [hport] at hload
    exact absurd (congrArg Prod.snd hload) (by simp)

end Config

end RdmaManager
