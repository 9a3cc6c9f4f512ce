import Mathlib.Data.List.TakeDrop
import RdmaManager.Memory.CudaContext
/-!
# Copies from and to a memory object

`copyTo` and `copyFrom` without a number of bytes are for the whole memory.
They take the size of their pointer argument for the size of the buffer it
points to.
-/

namespace RdmaManager

/-- `MEMORY_TYPE`. -/
inductive MemoryType
  | main
  | gpuNuma
  | gpuDefault
  | gpu (index : Fin 5)
  deriving DecidableEq, Repr

/-- The value of a `MEMORY_TYPE`. -/
def MemoryType.value : MemoryType → ℤ
  | main => -3
  | gpuNuma => -2
  | gpuDefault => -1
  | gpu index => index

/-- `sizeof` a pointer. -/
def sizeofPointer : ℕ := 8

/-- `AbstractMainMemory` and `AbstractCudaMemory`. -/
inductive MemoryKind
  | main
  | cuda
  deriving DecidableEq, Repr

/-- Whether `CUDA_ENABLED` is defined, and what `cudaMemcpy` returns. -/
structure CopyConfig where
  cudaEnabled : Bool
  code : ℕ
  deriving DecidableEq, Repr

/-- The bytes of a buffer of a fixed length. -/
abbrev Bytes (n : ℕ) : Type := { l : List UInt8 // l.length = n }

/-- Where `memcpy` of `num` bytes stays within the two buffers. -/
def InRange (destOffset : ℕ) (src : List UInt8) (srcOffset num n : ℕ) : Prop :=
  srcOffset + num ≤ src.length ∧ destOffset + num ≤ n

instance (destOffset : ℕ) (src : List UInt8) (srcOffset num n : ℕ) :
    Decidable (InRange destOffset src srcOffset num n) := inferInstanceAs (Decidable (_ ∧ _))

/-- `memcpy` of `num` bytes; past the end of a buffer its behaviour is
undefined. -/
def memcpy {n : ℕ} (dest : Bytes n) (destOffset : ℕ) (src : List UInt8) (srcOffset num : ℕ) :
    Except Exn (Bytes n) :=
  if h : InRange destOffset src srcOffset num n then
    .ok ⟨dest.1.take destOffset ++ ((src.drop srcOffset).take num ++ dest.1.drop (destOffset + num)), by
      have hdest := dest.2
      obtain ⟨hsrc, hend⟩ := h
      simp only [List.length_append, List.length_take, List.length_drop]
      omega⟩
  else .error (.undefined "memcpy past the end")

/-- `cudaMemcpy`, and the check of what it returns. -/
def cudaMemcpy {n : ℕ} (code : ℕ) (msg : String) (dest : Bytes n) (destOffset : ℕ)
    (src : List UInt8) (srcOffset num : ℕ) : Except Exn (Bytes n) :=
  if code ≠ 0 then
    .error (.runtimeError ("CUDA-Error(" ++ toString code ++ ") has occurred: " ++ msg))
  else memcpy dest destOffset src srcOffset num

/-- **A memory object**: the fields of `AbstractBaseMemory`, where the buffer
is the bytes that are handled. -/
structure HandledMemory where
  memSize : ℕ
  buffer : Bytes memSize
  deriving DecidableEq, Repr

/-- A buffer that is handed to a memory object. -/
def bytesOf (l : List UInt8) : Bytes l.length := ⟨l, rfl⟩

namespace HandledMemory

variable (c : CopyConfig) (kind : MemoryKind) (m : HandledMemory)

/-- `AbstractMainMemory::copyTo` and `AbstractCudaMemory::copyTo`, with
offsets: the destination afterwards. -/
def copyToRange (destination : List UInt8) (destOffset srcOffset num : ℕ) (memtype : MemoryType) :
    Except Exn (Bytes destination.length) :=
  match kind with
  | .main =>
      if c.cudaEnabled = true ∧ memtype.value > MemoryType.main.value then
        cudaMemcpy c.code "AbstractMainMemory::copyTo could not copy data from MAIN TO GPU\n"
          (bytesOf destination) destOffset m.buffer.1 srcOffset num
      else memcpy (bytesOf destination) destOffset m.buffer.1 srcOffset num
  | .cuda =>
      if memtype.value ≤ MemoryType.main.value then
        cudaMemcpy c.code "AbstractCudaMemory::copyTo could not copy data from GPU to MAIN\n"
          (bytesOf destination) destOffset m.buffer.1 srcOffset num
      else
        cudaMemcpy c.code "AbstractCudaMemory::copyTo could not copy data from GPU to GPU\n"
          (bytesOf destination) destOffset m.buffer.1 srcOffset num

/-- `copyTo` with a number of bytes. -/
def copyToNum (destination : List UInt8) (num : ℕ) (memtype : MemoryType) :
    Except Exn (Bytes destination.length) :=
  m.copyToRange c kind destination 0 0 num memtype

/-- `(s < this->mem_size ? s : this->mem_size)`, for the size `s` of a
pointer. -/
def wholeNum : ℕ := if sizeofPointer < m.memSize then sizeofPointer else m.memSize

/-- `copyTo`. -/
def copyTo (destination : List UInt8) (memtype : MemoryType) :
    Except Exn (Bytes destination.length) :=
  m.copyToNum c kind destination m.wholeNum memtype

/-- `AbstractMainMemory::copyFrom` and `AbstractCudaMemory::copyFrom`, with
offsets: the bytes of the object afterwards. -/
def copyFromRange (source : List UInt8) (srcOffset destOffset num : ℕ) (memtype : MemoryType) :
    Except Exn (Bytes m.memSize) :=
  match kind with
  | .main =>
      if c.cudaEnabled = true ∧ memtype.value > MemoryType.main.value then
        cudaMemcpy c.code "AbstractMainMemory::copyFrom could not copy data from GPU TO MAIN\n"
          m.buffer destOffset source srcOffset num
      else memcpy m.buffer destOffset source srcOffset num
  | .cuda =>
      if memtype.value ≤ MemoryType.main.value then
        cudaMemcpy c.code "AbstractCudaMemory::copyFrom could not copy data from MAIN TO GPU\n"
          m.buffer destOffset source srcOffset num
      else
        cudaMemcpy c.code "AbstractCudaMemory::copyFrom could not copy data from GPU TO GPU\n"
          m.buffer destOffset source srcOffset num

/-- `copyFrom` with a number of bytes. -/
def copyFromNum (source : List UInt8) (num : ℕ) (memtype : MemoryType) :
    Except Exn (Bytes m.memSize) :=
  m.copyFromRange c kind source 0 0 num memtype

/-- `copyFrom`. -/
def copyFrom (source : List UInt8) (memtype : MemoryType) : Except Exn (Bytes m.memSize) :=
  m.copyFromNum c kind source m.wholeNum memtype

/-- `copyFrom(source)`, and then `copyTo(destination)`. -/
def throughObject (source destination : List UInt8) (memtype : MemoryType) :
    Except Exn (Bytes destination.length) :=
  match m.copyFrom c kind source memtype with
  | .ok buffer => copyTo c kind ⟨m.memSize, buffer⟩ destination memtype
  | .error e => .error e

/-! ## What a number of bytes copies -/

variable {c kind m} {src dst : List UInt8} {n k num : ℕ}

/-- Copying a prefix. -/
theorem memcpy_prefix (dest : Bytes n) (hsrc : num ≤ src.length) (hn : num ≤ n) :
    (memcpy dest 0 src 0 num).map Subtype.val = .ok (src.take num ++ dest.1.drop num) := by
  have hrange : InRange 0 src 0 num n := ⟨by omega, by omega⟩
  unfold memcpy
  rw [dif_pos hrange]
  simp [Except.map]

theorem copyToNum_main (hcode : kind = .cuda → c.code = 0) (hnum : num ≤ m.memSize)
    (hdst : num ≤ dst.length) :
    (m.copyToNum c kind dst num .main).map Subtype.val = .ok (m.buffer.1.take num ++ dst.drop num) := by
  have hsrc : num ≤ m.buffer.1.length := by rw [m.buffer.2]; exact hnum
  have hprefix := memcpy_prefix (bytesOf dst) hsrc hdst
  cases kind with
  | main =>
      unfold copyToNum copyToRange
      rw [if_neg fun h => absurd h.2 (lt_irrefl _)]
      exact hprefix
  | cuda =>
      unfold copyToNum copyToRange
      simp only [le_refl, if_true]
      unfold cudaMemcpy
      rw [if_neg (not_not_intro (hcode rfl))]
      exact hprefix

theorem copyFromNum_main (hcode : kind = .cuda → c.code = 0) (hnum : num ≤ m.memSize)
    (hsrc : num ≤ src.length) :
    (m.copyFromNum c kind src num .main).map Subtype.val = .ok (src.take num ++ m.buffer.1.drop num) := by
  have hprefix := memcpy_prefix m.buffer hsrc hnum
  cases kind with
  | main =>
      unfold copyFromNum copyFromRange
      rw [if_neg fun h => absurd h.2 (lt_irrefl _)]
      exact hprefix
  | cuda =>
      unfold copyFromNum copyFromRange
      simp only [le_refl, if_true]
      unfold cudaMemcpy
      rw [if_neg (not_not_intro (hcode rfl))]
      exact hprefix

theorem wholeNum_eq : m.wholeNum = min sizeofPointer m.memSize := by
  unfold wholeNum
  split_ifs <;> omega

/-- Where a prefix was copied, the whole is there if and only if the rest was
there before. -/
theorem prefix_append_iff (l : List UInt8) {l' : List UInt8} (hk : k ≤ n) (hl' : n ≤ l'.length) :
    l.take k ++ l'.drop k = l ++ l'.drop n ↔ (l'.take n).drop k = l.drop k := by
  have hrest : l'.drop k = (l'.take n).drop k ++ l'.drop n := by
    conv_lhs => rw [← List.take_append_drop n l']
    exact List.drop_append_of_le_length (by rw [List.length_take]; omega)
  have hwhole : l ++ l'.drop n = l.take k ++ (l.drop k ++ l'.drop n) := by
    rw [← List.append_assoc, List.take_append_drop]
  rw [hrest, hwhole, List.append_cancel_left_eq, List.append_cancel_right_eq]

/-- The rests are of one length. -/
theorem drop_take_eq_nil {l : List UInt8} (h : n ≤ k) : (l.take n).drop k = [] :=
  List.drop_of_length_le (by rw [List.length_take]; omega)

/-- `copyTo` of the whole memory. -/
theorem copyTo_iff (hcode : kind = .cuda → c.code = 0) (hdst : m.memSize ≤ dst.length) :
    (m.copyTo c kind dst .main).map Subtype.val = .ok (m.buffer.1 ++ dst.drop m.memSize) ↔
      (dst.take m.memSize).drop sizeofPointer = m.buffer.1.drop sizeofPointer := by
  have hnum : m.wholeNum ≤ m.memSize := by rw [wholeNum_eq]; exact min_le_right _ _
  have hlen := m.buffer.2
  unfold copyTo
  rw [copyToNum_main hcode hnum (by omega), Except.ok.injEq, prefix_append_iff _ hnum hdst, wholeNum_eq]
  rcases le_total sizeofPointer m.memSize with hle | hge
  · rw [min_eq_left hle]
  · -- a small memory has no rest
    rw [min_eq_right hge, drop_take_eq_nil le_rfl, drop_take_eq_nil hge,
      List.drop_of_length_le hlen.le, List.drop_of_length_le (by omega)]

/-- `copyFrom` of the whole memory. -/
theorem copyFrom_iff (hcode : kind = .cuda → c.code = 0) (hsrc : m.memSize ≤ src.length) :
    (m.copyFrom c kind src .main).map Subtype.val = .ok (src.take m.memSize) ↔
      m.buffer.1.drop sizeofPointer = (src.take m.memSize).drop sizeofPointer := by
  have hnum : m.wholeNum ≤ m.memSize := by rw [wholeNum_eq]; exact min_le_right _ _
  have hlen := m.buffer.2
  have hprefix := prefix_append_iff (src.take m.memSize) hnum hlen.ge
  rw [List.take_take, min_eq_left hnum, List.drop_of_length_le hlen.le, List.append_nil,
    List.take_of_length_le hlen.le] at hprefix
  unfold copyFrom
  rw [copyFromNum_main hcode hnum (by omega), Except.ok.injEq, hprefix, wholeNum_eq]
  rcases le_total sizeofPointer m.memSize with hle | hge
  · rw [min_eq_left hle]
  · rw [min_eq_right hge, drop_take_eq_nil le_rfl, drop_take_eq_nil hge,
      List.drop_of_length_le hlen.le, List.drop_of_length_le (by omega)]

/-- **A whole copy**: the object holds the bytes of the source, or the
destination those of the object and its own behind them. -/
def Whole (c : CopyConfig) (kind : MemoryKind) (m : HandledMemory) (src dst : List UInt8) : Prop :=
  (m.copyFrom c kind src .main).map Subtype.val = .ok (src.take m.memSize) ∧
    (m.copyTo c kind dst .main).map Subtype.val = .ok (m.buffer.1 ++ dst.drop m.memSize) ∧
    (m.throughObject c kind src dst .main).map Subtype.val =
      .ok (src.take m.memSize ++ dst.drop m.memSize)

/-- The overloads with offsets and a number of bytes, for the whole memory. -/
def WholeRange (c : CopyConfig) (kind : MemoryKind) (m : HandledMemory) (src dst : List UInt8) :
    Prop :=
  (m.copyFromRange c kind src 0 0 m.memSize .main).map Subtype.val = .ok (src.take m.memSize) ∧
    (m.copyToRange c kind dst 0 0 m.memSize .main).map Subtype.val =
      .ok (m.buffer.1 ++ dst.drop m.memSize)

theorem wholeRange (hcode : kind = .cuda → c.code = 0) (hsrc : m.memSize ≤ src.length)
    (hdst : m.memSize ≤ dst.length) : WholeRange c kind m src dst := by
  have hlen := m.buffer.2
  refine ⟨(copyFromNum_main hcode le_rfl hsrc).trans ?_, (copyToNum_main hcode le_rfl hdst).trans ?_⟩
  · rw [List.drop_of_length_le hlen.le, List.append_nil]
  · rw [List.take_of_length_le hlen.le]

/-- **Which whole copies are whole**: those where the bytes past the size of
a pointer are there already. -/
theorem whole_iff (hcode : kind = .cuda → c.code = 0) (hsrc : m.memSize ≤ src.length)
    (hdst : m.memSize ≤ dst.length) :
    Whole c kind m src dst ↔
      m.buffer.1.drop sizeofPointer = (src.take m.memSize).drop sizeofPointer ∧
        (dst.take m.memSize).drop sizeofPointer = m.buffer.1.drop sizeofPointer := by
  unfold Whole
  rw [copyFrom_iff hcode hsrc, copyTo_iff hcode hdst]
  constructor
  · rintro ⟨hfrom, hto, -⟩
    exact ⟨hfrom, hto⟩
  · rintro ⟨hfrom, hto⟩
    refine ⟨hfrom, hto, ?_⟩
    have hcopied := (copyFrom_iff hcode hsrc).mpr hfrom
    unfold throughObject
    cases hx : m.copyFrom c kind src .main with
    | error e =>
        rw [hx] at hcopied
        simp [Except.map] at hcopied
    | ok buffer =>
        rw [hx] at hcopied
        have hbuffer : buffer.1 = src.take m.memSize := by simpa [Except.map] using hcopied
        have hsecond := (copyTo_iff (m := ⟨m.memSize, buffer⟩) hcode hdst).mpr
          (by rw [hbuffer, hto, hfrom])
        rw [← hbuffer]
        exact hsecond

theorem ne_map_succ {l : List UInt8} (h : k < l.length) : l.drop k ≠ (l.map (· + 1)).drop k := by
  intro heq
  have hget := congrArg (fun l => l[0]?) heq
  simp [List.getElem?_eq_getElem h] at hget

/-- **When whole copies are whole**: one by one, where the bytes past the
size of a pointer are there already, and all of them where the memory has no
more bytes than a pointer. The overloads with offsets always copy all. -/
theorem copies_whole_iff (hcode : kind = .cuda → c.code = 0) :
    (∀ src dst, m.memSize ≤ src.length → m.memSize ≤ dst.length →
      WholeRange c kind m src dst ∧
        (Whole c kind m src dst ↔
          m.buffer.1.drop sizeofPointer = (src.take m.memSize).drop sizeofPointer ∧
            (dst.take m.memSize).drop sizeofPointer = m.buffer.1.drop sizeofPointer)) ∧
      ((∀ src dst, m.memSize ≤ src.length → m.memSize ≤ dst.length → Whole c kind m src dst) ↔
        m.memSize ≤ sizeofPointer) := by
  have hlen := m.buffer.2
  refine ⟨fun src dst hsrc hdst => ⟨wholeRange hcode hsrc hdst, whole_iff hcode hsrc hdst⟩, ?_⟩
  constructor
  · intro h
    by_contra hsize
    -- another byte in each place of the source
    have hother := h (m.buffer.1.map (· + 1)) m.buffer.1 (by rw [List.length_map, hlen]) hlen.ge
    have hrest := ((whole_iff hcode (by rw [List.length_map, hlen]) hlen.ge).mp hother).1
    rw [List.take_of_length_le (by rw [List.length_map, hlen])] at hrest
    exact ne_map_succ (by omega) hrest
  · intro hsize src dst hsrc hdst
    refine (whole_iff hcode hsrc hdst).mpr ?_
    rw [drop_take_eq_nil hsize, drop_take_eq_nil hsize, List.drop_of_length_le (by omega)]
    exact ⟨rfl, rfl⟩

/-- A memory of nine zero bytes. -/
def nineBytes : HandledMemory := ⟨9, ⟨List.replicate 9 0, rfl⟩⟩

/-- A memory of eight zero bytes. -/
def eightBytes : HandledMemory := ⟨8, ⟨List.replicate 8 0, rfl⟩⟩

theorem copies_whole_eight :
    Whole ⟨true, 0⟩ .cuda eightBytes (List.replicate 8 1) (List.replicate 9 2) :=
  have hcode : MemoryKind.cuda = .cuda → (⟨true, 0⟩ : CopyConfig).code = 0 := fun _ => rfl
  (copies_whole_iff (m := eightBytes) hcode).2.mpr le_rfl _ _ (by decide) (by decide)

/-- The ninth byte is neither copied to the object nor from it. -/
theorem ninth_byte_left :
    (nineBytes.copyFrom ⟨false, 0⟩ .main (List.replicate 9 1) .main).map Subtype.val =
        .ok (List.replicate 8 1 ++ [0]) ∧
      (nineBytes.throughObject ⟨false, 0⟩ .main (List.replicate 9 1) (List.replicate 9 2) .main).map
        Subtype.val = .ok (List.replicate 8 1 ++ [2]) :=
  ⟨rfl, rfl⟩

end HandledMemory

end RdmaManager
