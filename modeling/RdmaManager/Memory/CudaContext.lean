import Mathlib.Data.List.Count
import RdmaManager.Common.Cpp
import RdmaManager.Common.System
/-!
# The contexts of CUDA memory

`openContext` selects the device of an object, and `closeContext` selects
the one from before again. An object counts how often it is open, and only
the first `openContext` and the last `closeContext` select anything; the
selected device is one for all objects of a thread.
-/

namespace RdmaManager

/-- The fields of `AbstractCudaMemory` that its contexts read and write. -/
structure AbstractCudaMemory where
  deviceIndex : ℤ
  previousDeviceIndex : ℤ
  openContextCounter : ℤ
  deriving DecidableEq, Repr

/-- The largest `int`. -/
def INT_MAX : ℤ := 2 ^ 31 - 1

/-- `AbstractBaseMemory::checkCudaError`. -/
def checkCudaError {σ : Type} (code : ℕ) (msg : String) : Act σ Unit :=
  if code ≠ 0 then
    throw (.runtimeError ("CUDA-Error(" ++ toString code ++ ") has occurred: " ++ msg))
  else return ()

/-- `cudaGetDevice`, with what it returns. -/
def cudaGetDevice (code : ℕ) : Act (AbstractCudaMemory × ℤ) ℕ := fun p =>
  if code = 0 then (.ok 0, ({ p.1 with previousDeviceIndex := p.2 }, p.2)) else (.ok code, p)

/-- `cudaSetDevice`, with what it returns. -/
def cudaSetDevice (code : ℕ) (device : ℤ) : Act (AbstractCudaMemory × ℤ) ℕ := fun p =>
  if code = 0 then (.ok 0, (p.1, device)) else (.ok code, p)

namespace AbstractCudaMemory

/-- Write to the object. -/
def update (f : AbstractCudaMemory → AbstractCudaMemory) : Act (AbstractCudaMemory × ℤ) Unit :=
  Act.modify fun p => (f p.1, p.2)

/-- `AbstractCudaMemory::openContext`, where `get` and `set` are what the two
calls to CUDA return. An `int` has no value above the largest. -/
def openContext (get set : ℕ) : Act (AbstractCudaMemory × ℤ) Unit := do
  let p ← Act.get
  if p.1.deviceIndex < 0 then return ()
  else
    if p.1.openContextCounter = INT_MAX then throw (.undefined "open_context_counter++")
    update fun m => { m with openContextCounter := m.openContextCounter + 1 }
    if p.1.openContextCounter + 1 > 1 then return ()
    else
      update fun m => { m with previousDeviceIndex := -1 }
      let code ← cudaGetDevice get
      checkCudaError code "AbstractCudaMemory::openContext could not get selected device\n"
      let p ← Act.get
      if p.1.previousDeviceIndex = p.1.deviceIndex then return ()
      else
        let code ← cudaSetDevice set p.1.deviceIndex
        checkCudaError code "AbstractCudaMemory::openContext could not set selected device\n"

/-- `AbstractCudaMemory::closeContext`. -/
def closeContext (set : ℕ) : Act (AbstractCudaMemory × ℤ) Unit := do
  let p ← Act.get
  if p.1.deviceIndex < 0 ∨ p.1.openContextCounter = 0 then return ()
  else
    update fun m => { m with openContextCounter := m.openContextCounter - 1 }
    if p.1.openContextCounter - 1 > 0 then return ()
    else
      if p.1.deviceIndex ≠ p.1.previousDeviceIndex then
        let code ← cudaSetDevice set p.1.previousDeviceIndex
        checkCudaError code "AbstractCudaMemory::closeContext could not reset selected device\n"
      update fun m => { m with previousDeviceIndex := -1 }

/-! ## One call -/

variable {m : AbstractCudaMemory} {d : ℤ}

/-- The first `openContext` selects the device, and keeps the one from
before. -/
theorem openContext_first (hdev : 0 ≤ m.deviceIndex) (hcount : m.openContextCounter = 0) :
    openContext 0 0 (m, d) = (.ok (), (⟨m.deviceIndex, d, 1⟩, m.deviceIndex)) := by
  obtain ⟨deviceIndex, previousDeviceIndex, openContextCounter⟩ := m
  obtain rfl : openContextCounter = 0 := hcount
  have hneg : ¬ deviceIndex < 0 := not_lt.mpr hdev
  by_cases hsame : d = deviceIndex
  · subst hsame
    simp [openContext, hneg, INT_MAX, update, cudaGetDevice, checkCudaError, bind, pure, Act.get,
      Act.modify]
  · simp [openContext, hneg, INT_MAX, update, cudaGetDevice, cudaSetDevice, checkCudaError, bind,
      pure, Act.get, Act.modify, hsame]

/-- A further one only counts. -/
theorem openContext_again (hdev : 0 ≤ m.deviceIndex) (hcount : 0 < m.openContextCounter)
    (hmax : m.openContextCounter ≠ INT_MAX) :
    openContext 0 0 (m, d) =
      (.ok (), ({ m with openContextCounter := m.openContextCounter + 1 }, d)) := by
  have hneg : ¬ m.deviceIndex < 0 := not_lt.mpr hdev
  simp [openContext, hneg, hmax, hcount, update, bind, pure, Act.get, Act.modify]

/-- The last `closeContext` selects the device from before the first
`openContext`. -/
theorem closeContext_last (hdev : 0 ≤ m.deviceIndex) (hcount : m.openContextCounter = 1) :
    closeContext 0 (m, d) = (.ok (), (⟨m.deviceIndex, -1, 0⟩,
      if m.deviceIndex = m.previousDeviceIndex then d else m.previousDeviceIndex)) := by
  obtain ⟨deviceIndex, previousDeviceIndex, openContextCounter⟩ := m
  obtain rfl : openContextCounter = 1 := hcount
  have hneg : ¬ deviceIndex < 0 := not_lt.mpr hdev
  by_cases hsame : deviceIndex = previousDeviceIndex
  · subst hsame
    simp [closeContext, hneg, update, bind, Act.get, Act.modify]
  · simp [closeContext, hneg, update, cudaSetDevice, checkCudaError, bind, pure, Act.get,
      Act.modify, hsame]

/-- One before the last only counts. -/
theorem closeContext_again (hdev : 0 ≤ m.deviceIndex) (hcount : 1 < m.openContextCounter) :
    closeContext 0 (m, d) =
      (.ok (), ({ m with openContextCounter := m.openContextCounter - 1 }, d)) := by
  have hneg : ¬ m.deviceIndex < 0 := not_lt.mpr hdev
  have hzero : m.openContextCounter ≠ 0 := by omega
  simp [closeContext, hneg, hzero, hcount, update, bind, pure, Act.get, Act.modify]

end AbstractCudaMemory

open AbstractCudaMemory

/-- A context that is open: its object, and the device that was selected
before it was opened. -/
structure Frame where
  obj : ℕ
  before : ℤ
  deriving DecidableEq, Repr

/-- **A thread with its objects**: the selected device, the objects, and the
contexts that are open, the last one first. -/
structure CudaThread where
  device : ℤ
  objs : ℕ → AbstractCudaMemory
  stack : List Frame

/-- A call on an object. -/
inductive ContextCall
  | openContext (obj : ℕ)
  | closeContext (obj : ℕ)
  deriving DecidableEq, Repr

/-- The object of a call. -/
def ContextCall.obj : ContextCall → ℕ
  | openContext obj => obj
  | closeContext obj => obj

namespace CudaThread

variable (s : CudaThread)

/-- What a call returns and leaves, where the calls to CUDA succeed. -/
def result : ContextCall → Except Exn Unit × (AbstractCudaMemory × ℤ)
  | .openContext obj => openContext 0 0 (s.objs obj, s.device)
  | .closeContext obj => closeContext 0 (s.objs obj, s.device)

/-- The contexts that are open after a call. -/
def frames : ContextCall → List Frame
  | .openContext obj => ⟨obj, s.device⟩ :: s.stack
  | .closeContext _ => s.stack.tail

/-- The thread after a call. -/
def next (c : ContextCall) : CudaThread where
  device := (s.result c).2.2
  objs := Function.update s.objs c.obj (s.result c).2.1
  stack := s.frames c

/-- **Last opened, first closed.** -/
def Nests : ContextCall → Prop
  | .openContext _ => True
  | .closeContext obj => s.stack.head?.map Frame.obj = some obj

/-- **What a call is to do**: select the device of the object, or the one
from before the matching call. -/
def Right : ContextCall → Prop
  | .openContext obj => (s.result (.openContext obj)).1 = .ok () ∧
      (s.next (.openContext obj)).device = (s.objs obj).deviceIndex
  | .closeContext obj => (s.result (.closeContext obj)).1 = .ok () ∧
      s.stack.head?.map Frame.before = some (s.next (.closeContext obj)).device

/-- An object that is open is opened again only where its device is the
selected one, and not as often as an `int` counts. -/
def OnTop : ContextCall → Prop
  | .openContext obj => (s.objs obj).openContextCounter ≠ INT_MAX ∧
      ((s.objs obj).openContextCounter = 0 ∨ s.device = (s.objs obj).deviceIndex)
  | .closeContext _ => True

instance : DecidablePred s.Nests
  | .openContext _ => inferInstanceAs (Decidable True)
  | .closeContext _ => inferInstanceAs (Decidable (_ = _))

/-- **The runs of a thread**: from closed objects on devices, calls that nest
and return. -/
def runs : System CudaThread ContextCall where
  Init s := s.stack = [] ∧ ∀ obj, 0 ≤ (s.objs obj).deviceIndex ∧ (s.objs obj).openContextCounter = 0
  Step s c s' := s.Nests c ∧ (s.result c).1 = .ok () ∧ s.next c = s'

/-! ## What is selected while contexts are open -/

/-- **A stack of open contexts accounts for the selected device.** The first
context of an object has selected its device, and the object keeps the one
from before; a further one has selected nothing. -/
def Accounts (objs : ℕ → AbstractCudaMemory) : ℤ → List Frame → Prop
  | _, [] => True
  | device, f :: stack => Accounts objs f.before stack ∧
      if f.obj ∈ stack.map Frame.obj then device = f.before
      else device = (objs f.obj).deviceIndex ∧ (objs f.obj).previousDeviceIndex = f.before

/-- The invariant of a run. -/
structure Inv (s : CudaThread) : Prop where
  device : ∀ obj, 0 ≤ (s.objs obj).deviceIndex
  count : ∀ obj, (s.objs obj).openContextCounter = (s.stack.map Frame.obj).count obj
  accounts : Accounts s.objs s.device s.stack

variable {s} {objs objs' : ℕ → AbstractCudaMemory} {stack : List Frame} {obj : ℕ} {d : ℤ}

/-- What a call that returns leaves. -/
theorem next_of_result {c : ContextCall} {m : AbstractCudaMemory}
    (h : s.result c = (.ok (), (m, d))) :
    s.next c = ⟨d, Function.update s.objs c.obj m, s.frames c⟩ := by
  unfold next
  rw [h]

theorem Accounts.congr (h : Accounts objs d stack)
    (hsame : ∀ o ∈ stack.map Frame.obj, (objs' o).deviceIndex = (objs o).deviceIndex ∧
      (objs' o).previousDeviceIndex = (objs o).previousDeviceIndex) : Accounts objs' d stack := by
  induction stack generalizing d with
  | nil => trivial
  | cons f stack ih =>
      refine ⟨ih h.1 fun o ho => hsame o (List.mem_cons_of_mem _ ho), ?_⟩
      have hf := hsame f.obj List.mem_cons_self
      rw [hf.1, hf.2]
      exact h.2

/-- Another object in the place of one that is not open. -/
theorem Accounts.update (h : Accounts objs d stack) (hnot : obj ∉ stack.map Frame.obj)
    (m : AbstractCudaMemory) : Accounts (Function.update objs obj m) d stack := by
  refine h.congr fun o ho => ?_
  have hne : o ≠ obj := fun heq => hnot (heq ▸ ho)
  rw [Function.update_of_ne hne]
  exact ⟨rfl, rfl⟩

/-- Only the counter of an object changes. -/
theorem Accounts.recount (h : Accounts objs d stack) (k : ℤ) :
    Accounts (Function.update objs obj { objs obj with openContextCounter := k }) d stack := by
  refine h.congr fun o _ => ?_
  rcases eq_or_ne o obj with rfl | hne
  · rw [Function.update_self]
    exact ⟨rfl, rfl⟩
  · rw [Function.update_of_ne hne]
    exact ⟨rfl, rfl⟩

theorem Inv.count_eq_zero (h : s.Inv) :
    (s.objs obj).openContextCounter = 0 ↔ obj ∉ s.stack.map Frame.obj := by
  rw [h.count, ← List.count_eq_zero]
  omega

theorem Inv.count_nonneg (h : s.Inv) : 0 ≤ (s.objs obj).openContextCounter := by
  rw [h.count]
  omega

/-- The result of opening an object that is closed. -/
theorem Inv.result_first (h : s.Inv) (hcount : (s.objs obj).openContextCounter = 0) :
    s.result (.openContext obj) =
      (.ok (), (⟨(s.objs obj).deviceIndex, s.device, 1⟩, (s.objs obj).deviceIndex)) :=
  openContext_first (h.device obj) hcount

/-- The result of opening one that is open. -/
theorem Inv.result_again (h : s.Inv) (hcount : (s.objs obj).openContextCounter ≠ 0)
    (hmax : (s.objs obj).openContextCounter ≠ INT_MAX) :
    s.result (.openContext obj) = (.ok (), ({ s.objs obj with
      openContextCounter := (s.objs obj).openContextCounter + 1 }, s.device)) :=
  openContext_again (h.device obj) (lt_of_le_of_ne h.count_nonneg (Ne.symm hcount)) hmax

/-- **Closing the last context** selects the device from before it. -/
theorem Inv.result_close (h : s.Inv) {f : Frame} (hstack : s.stack = f :: stack)
    (hobj : f.obj = obj) :
    ∃ m, s.result (.closeContext obj) = (.ok (), (m, f.before)) ∧
      m.deviceIndex = (s.objs obj).deviceIndex ∧
      m.openContextCounter = (stack.map Frame.obj).count obj ∧
      Accounts (Function.update s.objs obj m) f.before stack := by
  subst hobj
  have hcount := h.count f.obj
  have haccounts := h.accounts
  rw [hstack] at hcount haccounts
  rw [List.map_cons, List.count_cons_self] at hcount
  obtain ⟨hrest, htop⟩ := haccounts
  by_cases hopen : f.obj ∈ stack.map Frame.obj
  · -- the object stays open, and the device is the one from before already
    rw [if_pos hopen] at htop
    have hpos := List.count_pos_iff.mpr hopen
    have hagain : s.result (.closeContext f.obj) = (.ok (), ({ s.objs f.obj with
        openContextCounter := (s.objs f.obj).openContextCounter - 1 }, s.device)) :=
      closeContext_again (h.device f.obj) (by omega)
    rw [htop] at hagain
    refine ⟨_, hagain, rfl, ?_, hrest.recount _⟩
    show (s.objs f.obj).openContextCounter - 1 = _
    omega
  · -- its last context: the device from before was kept in the object
    rw [if_neg hopen] at htop
    have hzero := List.count_eq_zero.mpr hopen
    have hlast : s.result (.closeContext f.obj) = (.ok (), (⟨(s.objs f.obj).deviceIndex, -1, 0⟩,
        if (s.objs f.obj).deviceIndex = (s.objs f.obj).previousDeviceIndex then s.device
        else (s.objs f.obj).previousDeviceIndex)) :=
      closeContext_last (h.device f.obj) (by omega)
    have hdevice : (if (s.objs f.obj).deviceIndex = (s.objs f.obj).previousDeviceIndex then s.device
        else (s.objs f.obj).previousDeviceIndex) = f.before := by
      split_ifs with hsame
      · rw [htop.1, hsame, htop.2]
      · exact htop.2
    rw [hdevice] at hlast
    refine ⟨_, hlast, rfl, ?_, hrest.update hopen _⟩
    rw [hzero]
    rfl

/-- A call leaves the counts right. -/
theorem count_update {m : AbstractCudaMemory} (h : s.Inv) {frames : List Frame}
    (hobj : m.openContextCounter = (frames.map Frame.obj).count obj)
    (hother : ∀ o ≠ obj, (frames.map Frame.obj).count o = (s.stack.map Frame.obj).count o) (o : ℕ) :
    (Function.update s.objs obj m o).openContextCounter = (frames.map Frame.obj).count o := by
  rcases eq_or_ne o obj with rfl | hne
  · rw [Function.update_self, hobj]
  · rw [Function.update_of_ne hne, h.count, hother o hne]

theorem device_update {m : AbstractCudaMemory} (h : s.Inv)
    (hdevice : m.deviceIndex = (s.objs obj).deviceIndex) (o : ℕ) :
    0 ≤ (Function.update s.objs obj m o).deviceIndex := by
  rcases eq_or_ne o obj with rfl | hne
  · rw [Function.update_self, hdevice]
    exact h.device o
  · rw [Function.update_of_ne hne]
    exact h.device o

/-- The counts after one more context. -/
theorem count_cons_of_ne {o : ℕ} (hne : o ≠ obj) (b : ℤ) (frames : List Frame) :
    ((⟨obj, b⟩ :: frames : List Frame).map Frame.obj).count o = (frames.map Frame.obj).count o := by
  rw [List.map_cons]
  exact List.count_cons_of_ne (Ne.symm hne)

/-- An `int` is not counted over its largest value. -/
theorem Inv.result_max (h : s.Inv) (hmax : (s.objs obj).openContextCounter = INT_MAX) :
    (s.result (.openContext obj)).1 ≠ .ok () := by
  have hneg : ¬ (s.objs obj).deviceIndex < 0 := not_lt.mpr (h.device obj)
  simp [result, openContext, hneg, hmax, bind]

theorem Inv.opens (h : s.Inv) (hok : (s.result (.openContext obj)).1 = .ok ()) :
    (s.next (.openContext obj)).Inv := by
  by_cases hcount : (s.objs obj).openContextCounter = 0
  · have hnot := h.count_eq_zero.mp hcount
    rw [next_of_result (h.result_first hcount)]
    refine ⟨device_update h rfl, count_update h ?_ fun o hne => count_cons_of_ne hne _ _,
      h.accounts.update hnot _, ?_⟩
    · show (1 : ℤ) = ((obj :: s.stack.map Frame.obj).count obj : ℕ)
      rw [List.count_cons_self, List.count_eq_zero.mpr hnot]
      rfl
    · have hself : Function.update s.objs obj ⟨(s.objs obj).deviceIndex, s.device, 1⟩ obj =
          ⟨(s.objs obj).deviceIndex, s.device, 1⟩ := Function.update_self ..
      rw [if_neg hnot]
      show _ = (Function.update s.objs obj _ obj).deviceIndex ∧
        (Function.update s.objs obj _ obj).previousDeviceIndex = _
      rw [hself]
      exact ⟨rfl, rfl⟩
  · have hopen : obj ∈ s.stack.map Frame.obj := not_not.mp (mt h.count_eq_zero.mpr hcount)
    have hmax := fun hmax => h.result_max hmax hok
    rw [next_of_result (h.result_again hcount hmax)]
    refine ⟨device_update h rfl, count_update h ?_ fun o hne => count_cons_of_ne hne _ _,
      h.accounts.recount _, ?_⟩
    · show (s.objs obj).openContextCounter + 1 = ((obj :: s.stack.map Frame.obj).count obj : ℕ)
      rw [h.count, List.count_cons_self]
      rfl
    · rw [if_pos hopen]

/-- A context that may be closed is the last one opened. -/
theorem Nests.frame (h : s.Nests (.closeContext obj)) :
    ∃ f stack, s.stack = f :: stack ∧ f.obj = obj := by
  cases hstack : s.stack with
  | nil =>
      rw [Nests, hstack] at h
      exact absurd h (by simp)
  | cons f stack =>
      rw [Nests, hstack] at h
      exact ⟨f, stack, rfl, by simpa using h⟩

theorem Inv.closes (h : s.Inv) (hnests : s.Nests (.closeContext obj)) :
    (s.next (.closeContext obj)).Inv := by
  obtain ⟨f, stack, hstack, hobj⟩ := hnests.frame
  obtain ⟨m, hresult, hdevice, hcount, haccounts⟩ := h.result_close hstack hobj
  have hframes : s.frames (.closeContext obj) = stack := by rw [frames, hstack, List.tail_cons]
  rw [next_of_result hresult, hframes]
  refine ⟨device_update h hdevice, count_update h hcount fun o hne => ?_, haccounts⟩
  rw [hstack, List.map_cons, hobj]
  exact (List.count_cons_of_ne (Ne.symm hne)).symm

theorem inv_invariant : runs.Invariant Inv where
  init := by
    rintro s ⟨hstack, hobjs⟩
    refine ⟨fun obj => (hobjs obj).1, fun obj => ?_, ?_⟩
    · rw [hstack, (hobjs obj).2]
      rfl
    · rw [hstack]
      trivial
  step := by
    rintro s c s' - h ⟨hnests, hok, rfl⟩
    cases c with
    | openContext obj => exact h.opens hok
    | closeContext obj => exact h.closes hnests

/-- **When contexts nest**: in every run, `closeContext` selects what was
selected before, and `openContext` selects the device of its object unless
the object is open under another device. -/
theorem contexts_right_iff (hreach : runs.Reachable s) (c : ContextCall) (hnests : s.Nests c) :
    s.Right c ↔ s.OnTop c := by
  have h := inv_invariant.reachable hreach
  cases c with
  | openContext obj =>
      show (s.result (.openContext obj)).1 = .ok () ∧ _ = _ ↔ _ ≠ INT_MAX ∧ (_ = _ ∨ _ = _)
      by_cases hcount : (s.objs obj).openContextCounter = 0
      · rw [next_of_result (h.result_first hcount), h.result_first hcount, hcount]
        simp [INT_MAX]
      · by_cases hmax : (s.objs obj).openContextCounter = INT_MAX
        · exact iff_of_false (fun hright => h.result_max hmax hright.1) (fun htop => htop.1 hmax)
        · rw [next_of_result (h.result_again hcount hmax), h.result_again hcount hmax]
          simp [hcount, hmax]
  | closeContext obj =>
      refine iff_of_true ?_ trivial
      obtain ⟨f, stack, hstack, hobj⟩ := hnests.frame
      obtain ⟨m, hresult, -⟩ := h.result_close hstack hobj
      show (s.result (.closeContext obj)).1 = .ok () ∧ _ = _
      rw [next_of_result hresult, hresult, hstack]
      exact ⟨rfl, rfl⟩

/-- Two objects on two devices, and a thread on the first. -/
def twoDevices : CudaThread where
  device := 0
  objs obj := ⟨obj, 0, 0⟩
  stack := []

theorem twoDevices_along (calls : List ContextCall)
    (h : System.MeetsAlong (fun s c => s.Nests c ∧ (s.result c).1 = .ok ()) next twoDevices calls) :
    runs.Reachable (calls.foldl next twoDevices) := by
  have hinit : runs.Init twoDevices := by
    refine ⟨rfl, fun obj => ⟨?_, rfl⟩⟩
    exact Int.natCast_nonneg obj
  exact (System.Reachable.init hinit).along
    (h.steps (M := runs) fun _ _ hok => ⟨hok.1, hok.2, rfl⟩)

/-- The context of the second object is closed, inside that of the first. -/
theorem contexts_right_nested :
    ([ContextCall.openContext 0, .openContext 1].foldl next twoDevices).Right (.closeContext 1) :=
  (contexts_right_iff (twoDevices_along [.openContext 0, .openContext 1] (by decide))
    (.closeContext 1) (by decide)).mpr trivial

/-- **The first object is opened again inside the context of the second**:
the second's device stays selected. -/
theorem context_reopened :
    runs.Reachable ([ContextCall.openContext 0, .openContext 1].foldl next twoDevices) ∧
      ([ContextCall.openContext 0, .openContext 1, .openContext 0].foldl next twoDevices).device = 1 ∧
      (twoDevices.objs 0).deviceIndex = 0 :=
  ⟨twoDevices_along [.openContext 0, .openContext 1] (by decide), by decide, rfl⟩

end CudaThread

end RdmaManager
