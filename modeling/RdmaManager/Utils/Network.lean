import RdmaManager.Common.Text
/-!
# Connection strings

A connection is named by a string, the address, a colon and the port. The
functions that take such a string apart look for the first colon, and read
the port as `stoi` does.
-/

namespace RdmaManager

open Text

namespace Network

variable {address conn : List Char} {port : ℤ}

/-- What `stringstream << port` prints. -/
def printInt (z : ℤ) : List Char := (if z < 0 then ['-'] else []) ++ Nat.toDigits 10 z.natAbs

/-- `(size_t)z` of an `int`. -/
def sizeOfInt (z : ℤ) : ℕ := (z % 2 ^ 64).toNat

/-- `Network::getConnection`. -/
def getConnection (address : List Char) (port : ℤ) : List Char := address ++ ':' :: printInt port

/-- `Network::getAddressOfConnection`. -/
def getAddressOfConnection (conn : List Char) : Except ParseError (List Char) :=
  if ':' ∈ conn then .ok (conn.takeWhile (· ≠ ':')) else .error .invalidArgument

/-- `Network::getPortOfConnection`. -/
def getPortOfConnection (conn : List Char) : Except ParseError ℕ :=
  if ':' ∈ conn then (stoi (conn.dropWhile (· ≠ ':')).tail).map sizeOfInt
  else .error .invalidArgument

/-! ## What is printed is read -/

theorem stoi_toDigits (n : ℕ) : stoi (Nat.toDigits 10 n) =
    if n < 2 ^ 31 then .ok (n : ℤ) else .error .outOfRange := by
  have hread := stoi_digits (w := []) (t := []) (by simp [Blank]) (digits_toDigits n) (by simp [Blank])
  rwa [List.nil_append, List.append_nil, decimal_toDigits] at hread

theorem stoi_printInt (h : IsInt port) : stoi (printInt port) = .ok port := by
  have hread : integer (printInt port) = some (port, []) := by
    unfold printInt
    have hends : Ends [] := by simp [Ends]
    split_ifs with hneg
    · have hminus := integer_minus_digits (digits_toDigits port.natAbs) hends
      rw [List.append_nil, decimal_toDigits] at hminus
      rw [List.singleton_append, hminus]
      congr
      omega
    · have hplus := integer_digits (w := []) (by simp [Blank]) (digits_toDigits port.natAbs) hends
      rw [List.nil_append, List.append_nil, decimal_toDigits] at hplus
      rw [List.nil_append, hplus]
      congr
      omega
  unfold stoi
  rw [hread]
  exact if_pos h

/-! ## The parts of a connection -/

theorem getAddressOfConnection_append (h : ':' ∉ address) (rest : List Char) :
    getAddressOfConnection (address ++ ':' :: rest) = .ok address := by
  have hall : ∀ c ∈ address, decide (c ≠ ':') = true := fun c hc =>
    decide_eq_true fun heq => h (heq ▸ hc)
  unfold getAddressOfConnection
  rw [if_pos (by simp), List.takeWhile_append_of_pos hall, List.takeWhile_cons_of_neg (by simp),
    List.append_nil]

theorem getPortOfConnection_append (h : ':' ∉ address) (rest : List Char) :
    getPortOfConnection (address ++ ':' :: rest) = (stoi rest).map sizeOfInt := by
  have hall : ∀ c ∈ address, decide (c ≠ ':') = true := fun c hc =>
    decide_eq_true fun heq => h (heq ▸ hc)
  unfold getPortOfConnection
  rw [if_pos (by simp), List.dropWhile_append_of_pos hall, List.dropWhile_cons_of_neg (by simp),
    List.tail_cons]

/-- The address of a connection has no colon. -/
theorem not_mem_of_getAddressOfConnection (h : getAddressOfConnection conn = .ok address) :
    ':' ∉ address := by
  unfold getAddressOfConnection at h
  split_ifs at h
  obtain rfl := Except.ok.inj h
  intro hmem
  simpa using List.mem_takeWhile_imp hmem

/-- A port is an `int`, whose digits are read as such. -/
theorem getPortOfConnection_toDigits_iff (h : ':' ∉ address) {port : ℕ} :
    getPortOfConnection (address ++ ':' :: Nat.toDigits 10 port) = .ok port ↔ port < 2 ^ 31 := by
  rw [getPortOfConnection_append h, stoi_toDigits]
  split_ifs with hlt
  · have hsize : sizeOfInt port = port := by
      unfold sizeOfInt
      omega
    exact iff_of_true (congrArg Except.ok hsize) hlt
  · exact iff_of_false (fun hport => by cases hport) hlt

/-- **A connection is taken apart as it was put together** if its address has
no colon, as one of version 6 has, and, where the port is printed as a
`size_t`, the port is not what becomes of a negative one. -/
theorem connection_parts_iff (address : List Char) :
    (∀ port : ℤ, IsInt port →
      (getAddressOfConnection (getConnection address port) = .ok address ∧
        getPortOfConnection (getConnection address port) = .ok (sizeOfInt port) ↔ ':' ∉ address)) ∧
    (∀ port : ℕ,
      (getAddressOfConnection (address ++ ':' :: Nat.toDigits 10 port) = .ok address ∧
        getPortOfConnection (address ++ ':' :: Nat.toDigits 10 port) = .ok port ↔
          ':' ∉ address ∧ port < 2 ^ 31)) := by
  refine ⟨fun port hport => ⟨fun hparts => not_mem_of_getAddressOfConnection hparts.1, fun h => ?_⟩,
    fun port => ⟨fun hparts => ?_, fun ⟨h, hlt⟩ => ?_⟩⟩
  · refine ⟨getAddressOfConnection_append h _, ?_⟩
    rw [getConnection, getPortOfConnection_append h, stoi_printInt hport]
    rfl
  · have h := not_mem_of_getAddressOfConnection hparts.1
    exact ⟨h, (getPortOfConnection_toDigits_iff h).mp hparts.2⟩
  · exact ⟨getAddressOfConnection_append h _, (getPortOfConnection_toDigits_iff h).mpr hlt⟩

theorem connection_parts_iff_loopback :
    getAddressOfConnection (getConnection "127.0.0.1".toList 5200) = .ok "127.0.0.1".toList ∧
      getPortOfConnection (getConnection "127.0.0.1".toList 5200) = .ok 5200 :=
  ((connection_parts_iff "127.0.0.1".toList).1 5200 (by decide)).mpr (by decide)

end Network

end RdmaManager
