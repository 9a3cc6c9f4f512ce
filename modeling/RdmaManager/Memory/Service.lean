import RdmaManager.Memory.Tiling
import RdmaManager.Proto.Messages
/-!
# The remote memory service

`RDMAServer::handle` on a `MemoryResourceRequest`: any client may ask for
a block or name any offset to release, and the answer carries an error
code. The byte ranges stay disjoint whatever the clients send
(`ranges_disjoint`); the answer is the truth exactly where the request
is a `MEMORY_RESOURCE_REQUEST`, or a release of a live offset or of one
that the free list has no place for (`truthful_iff`).
-/

namespace RdmaManager

namespace BaseMemory

open Extent

variable {m m' : BaseMemory} {seg : RdmaMem} {k offset size : ℕ} {reqMsg : MemoryResourceRequest}
variable {respMsg : MemoryResourceResponse}

/-- `RDMAServer::requestMemoryResource`: the code and the offset it
writes through its reference argument. -/
def requestMemoryResource (size : ℕ) : Act BaseMemory (MessageErrors × ℕ) := do
  let memRes ← internalAlloc size
  if memRes.isnull then return (.memoryNotAvailable, memRes.offset)
  else return (.noError, memRes.offset)

/-- `RDMAServer::releaseMemoryResource`. -/
def releaseMemoryResource (offset : ℕ) : Act BaseMemory MessageErrors :=
  tryCatch
    (do
      free offset
      return .noError)
    fun
      | .runtimeError _ => return .memoryReleaseFailed
      | e => throw e

/-- `RDMAServer::handle` on a `MemoryResourceRequest`. A type that is
neither of the two leaves the response as it was constructed. -/
def handleMemoryResource (reqMsg : MemoryResourceRequest) :
    Act BaseMemory MemoryResourceResponse := do
  if reqMsg.type = MemoryResourceType.memoryResourceRelease.code then
    let code ← releaseMemoryResource reqMsg.offset.toNat
    return { offset := reqMsg.offset, return_ := code.code }
  else if reqMsg.type = MemoryResourceType.memoryResourceRequest.code then
    let (code, offset) ← requestMemoryResource reqMsg.size.toNat
    return { offset := UInt64.ofNat offset, return_ := code.code }
  else
    return { offset := 0, return_ := 0 }

/-! ## Runs of the service -/

/-- What a server's buffer is asked for: a client's message, or a call of
the server's own. -/
inductive Demand
  | message (reqMsg : MemoryResourceRequest)
  | local_ (call : Call)
  deriving DecidableEq, Repr

namespace Demand

def exec (m : BaseMemory) : Demand → BaseMemory
  | message reqMsg => (handleMemoryResource reqMsg m).2
  | local_ call => call.exec m

/-- Every block asked for is nonempty. Any offset may be released. -/
def Sized : Demand → Prop
  | message reqMsg =>
      reqMsg.type = MemoryResourceType.memoryResourceRequest.code → 0 < reqMsg.size.toNat
  | local_ (.internalAlloc size) => 0 < size
  | local_ (.alloc size) => 0 < size
  | local_ (.free _) => True
  | local_ (.freePtr _) => True

instance : DecidablePred Sized
  | message _ => inferInstanceAs (Decidable (_ → _))
  | local_ (.internalAlloc size) => inferInstanceAs (Decidable (0 < size))
  | local_ (.alloc size) => inferInstanceAs (Decidable (0 < size))
  | local_ (.free _) => inferInstanceAs (Decidable True)
  | local_ (.freePtr _) => inferInstanceAs (Decidable True)

end Demand

/-- **The runs of the memory service**, with local calls between the
messages. -/
def service : System BaseMemory Demand where
  Init := Fresh
  Step m demand m' := demand.Sized ∧ m' = demand.exec m

theorem service_reachable_exec (h : service.Reachable m) (demand : Demand) (hsized : demand.Sized) :
    service.Reachable (demand.exec m) :=
  h.step (l := demand) ⟨hsized, rfl⟩

/-! ## What a message does -/

theorem requestMemoryResource_of_some (hnull : seg.isnull = false)
    (h : internalAlloc size m = (.ok seg, m')) :
    requestMemoryResource size m = (.ok (.noError, seg.offset), m') := by
  rw [requestMemoryResource, Act.bind_of_ok h, hnull]
  rfl

theorem requestMemoryResource_of_null (h : internalAlloc size m = (.ok RdmaMem.null, m)) :
    requestMemoryResource size m = (.ok (.memoryNotAvailable, 0), m) := by
  rw [requestMemoryResource, Act.bind_of_ok h]
  rfl

theorem releaseMemoryResource_of_ok (h : free offset m = (.ok (), m')) :
    releaseMemoryResource offset m = (.ok .noError, m') := by
  refine Act.tryCatch_of_ok ?_
  rw [Act.bind_of_ok h]
  rfl

theorem releaseMemoryResource_of_error {what : String}
    (h : free offset m = (.error (.runtimeError what), m')) :
    releaseMemoryResource offset m = (.ok .memoryReleaseFailed, m') := by
  have hthrow : (do free offset; return MessageErrors.noError : Act BaseMemory MessageErrors) m =
      (.error (.runtimeError what), m') := Act.bind_of_error h
  rw [releaseMemoryResource, Act.tryCatch_of_error hthrow]
  rfl

/-- **Freeing any offset keeps the invariant.** -/
theorem Sound.free_any (h : m.Sound) (offset : ℕ) : (BaseMemory.free offset m).2.Sound := by
  rcases hk : m.usedRdmaMem.lookup offset with - | seg
  · rcases free_cases h offset with ⟨pre, post, hsplit, -, -, hfree⟩ | ⟨-, hfree⟩
    · rw [hfree]
      exact (h.putBack hsplit (h.ordered_of_unknown hk hsplit)).1
    · rw [hfree, erase_of_lookup_none hk]
      exact h
  · obtain ⟨pre, post, hsplit, hfree, hpre, hpost⟩ := free_live h hk
    rw [hfree]
    exact (h.putBack hsplit (h.ordered_of_live hk hsplit hpre hpost)).1

theorem Sound.internalAlloc_any (h : m.Sound) (hpos : 0 < size) :
    (internalAlloc size m).2.Sound ∧ (alloc size m).2 = (internalAlloc size m).2 := by
  rcases internalAlloc_cases h size with ⟨pre, a, post, hsplit, hsize, -, hcall⟩ | ⟨-, hcall⟩
  · rw [hcall, alloc_of_some rfl hcall]
    exact ⟨h.take hpos hsplit hsize, rfl⟩
  · rw [hcall, alloc_of_null hcall]
    exact ⟨h, rfl⟩

/-- A message leaves the object as the call it stands for does. -/
theorem handleMemoryResource_snd (h : m.Sound) (reqMsg : MemoryResourceRequest) :
    (handleMemoryResource reqMsg m).2 =
      if reqMsg.type = MemoryResourceType.memoryResourceRelease.code then
        (free reqMsg.offset.toNat m).2
      else if reqMsg.type = MemoryResourceType.memoryResourceRequest.code then
        (internalAlloc reqMsg.size.toNat m).2
      else m := by
  unfold handleMemoryResource
  split_ifs with hrelease hrequest
  · rcases free_cases h reqMsg.offset.toNat with ⟨pre, post, -, -, -, hfree⟩ | ⟨-, hfree⟩
    · rw [hfree, Act.bind_of_ok (releaseMemoryResource_of_ok hfree)]
      rfl
    · rw [hfree, Act.bind_of_ok (releaseMemoryResource_of_error hfree)]
      rfl
  · rcases internalAlloc_cases h reqMsg.size.toNat with ⟨pre, a, post, -, -, -, hcall⟩ | ⟨-, hcall⟩
    · rw [hcall, Act.bind_of_ok (requestMemoryResource_of_some rfl hcall)]
      rfl
    · rw [hcall, Act.bind_of_ok (requestMemoryResource_of_null hcall)]
      rfl
  · rfl

/-- **Every run of the service keeps the invariant**, empty segments that
bad releases left in the free list included. -/
theorem sound_invariant : service.Invariant Sound where
  init m h := by
    obtain ⟨buffer, memSize, -, hpos, hlt, rfl⟩ := h
    exact (tight_new buffer memSize hpos hlt).toSound
  step m demand m' _ hsound hstep := by
    obtain ⟨hsized, rfl⟩ := hstep
    cases demand with
    | message reqMsg =>
        change (handleMemoryResource reqMsg m).2.Sound
        rw [handleMemoryResource_snd hsound]
        split_ifs with hrelease hrequest
        · exact hsound.free_any _
        · exact (hsound.internalAlloc_any (hsized hrequest)).1
        · exact hsound
    | local_ call =>
        cases call with
        | internalAlloc size => exact (hsound.internalAlloc_any hsized).1
        | alloc size =>
            obtain ⟨hkeeps, halloc⟩ := hsound.internalAlloc_any (show 0 < size from hsized)
            change (alloc size m).2.Sound
            rw [halloc]
            exact hkeeps
        | free offset => exact hsound.free_any _
        | freePtr ptr => exact hsound.free_any _

/-- Two free segments of an ordered list that are not empty lie in the
order of the list. -/
theorem Sound.pairwise_nonempty (h : m.Sound) :
    (m.rdmaMem.filter fun a => 0 < a.size).Pairwise fun a b =>
      a.offset < b.offset ∧ a.offset + a.size ≤ b.offset := by
  refine List.pairwise_filter.mpr (h.ordered.imp fun {a b} hab ha hb => ?_)
  simp only [decide_eq_true_eq] at ha hb
  have := hab ha hb
  simp only [RdmaMem.stop_eq, RdmaMem.start_eq] at this
  omega

/-- **Byte ranges stay disjoint under arbitrary releases.** -/
theorem ranges_disjoint (h : service.Reachable m) :
    (∀ k₁ seg₁ k₂ seg₂, m.usedRdmaMem.lookup k₁ = some seg₁ → m.usedRdmaMem.lookup k₂ = some seg₂ →
        k₁ ≠ k₂ → seg₁.offset + seg₁.size ≤ seg₂.offset ∨ seg₂.offset + seg₂.size ≤ seg₁.offset) ∧
      (∀ k seg, m.usedRdmaMem.lookup k = some seg → seg.offset + seg.size ≤ m.memSize ∧
        ∀ a ∈ m.rdmaMem, 0 < a.size →
          a.offset + a.size ≤ seg.offset ∨ seg.offset + seg.size ≤ a.offset) ∧
      ((m.rdmaMem.filter fun a => 0 < a.size).Pairwise fun a b =>
        a.offset < b.offset ∧ a.offset + a.size ≤ b.offset) ∧
      total m.segments = m.memSize ∧
      ∀ reqMsg : MemoryResourceRequest, reqMsg.type = MemoryResourceType.memoryResourceRelease.code →
        reqMsg.offset.toNat ∉ m.usedRdmaMem →
          (handleMemoryResource reqMsg m).2.usedRdmaMem = m.usedRdmaMem := by
  have hsound := sound_invariant.reachable h
  refine ⟨fun k₁ seg₁ k₂ seg₂ h₁ h₂ hne => ?_, fun k seg hk => ⟨?_, fun a ha hpos => ?_⟩,
    hsound.pairwise_nonempty, hsound.total, fun reqMsg htype hnot => ?_⟩
  · have hsep := hsound.used_used hne h₁ h₂
    rw [(hsound.used k₁ seg₁ h₁).1, (hsound.used k₂ seg₂ h₂).1]
    exact hsep
  · exact hsound.stop_le (mem_segments_of_used hk) (hsound.used k seg hk).2
  · rw [(hsound.used k seg hk).1]
    exact hsound.free_used ha hpos hk
  · rw [handleMemoryResource_snd hsound, if_pos htype, (free_frame _ _).1]
    exact erase_of_lookup_none (Finmap.lookup_eq_none.mpr hnot)

/-- A buffer with one block in use, after a release of an offset inside
that block. -/
def misreleased : BaseMemory :=
  Demand.exec (Demand.exec (new 4096 64) (.message ⟨16, 0, 0⟩)) (.message ⟨0, 5, 1⟩)

theorem ranges_disjoint_misreleased : total misreleased.segments = 64 := by
  have hfresh : service.Reachable (new 4096 64) :=
    .init ⟨4096, 64, by omega, by omega, by omega, rfl⟩
  have hrequest := service_reachable_exec hfresh (.message ⟨16, 0, 0⟩) (by decide)
  have hrelease := service_reachable_exec hrequest (.message ⟨0, 5, 1⟩) (by decide)
  exact (ranges_disjoint hrelease).2.2.2.1

/-! ## The answers -/

/-- The request was carried out: a block of the size asked for came into
use at the offset answered, or the block in use at the offset named
became free. -/
def CarriedOut (m m' : BaseMemory) (reqMsg : MemoryResourceRequest)
    (respMsg : MemoryResourceResponse) : Prop :=
  (reqMsg.type = MemoryResourceType.memoryResourceRequest.code ∧
      respMsg.offset.toNat ∉ m.usedRdmaMem ∧
      m'.usedRdmaMem.lookup respMsg.offset.toNat =
        some (RdmaMem.init reqMsg.size.toNat false respMsg.offset.toNat)) ∨
    (reqMsg.type = MemoryResourceType.memoryResourceRelease.code ∧
      ∃ seg, m.usedRdmaMem.lookup reqMsg.offset.toNat = some seg ∧
        reqMsg.offset.toNat ∉ m'.usedRdmaMem ∧
        ∀ p, Holds seg p → 0 < cover (m'.rdmaMem : Multiset RdmaMem) p)

/-- The service answers the request truthfully: it reports success
exactly when it carried the request out, and otherwise changes nothing. -/
def Truthful (m : BaseMemory) (reqMsg : MemoryResourceRequest) : Prop :=
  ∃ respMsg m', handleMemoryResource reqMsg m = (.ok respMsg, m') ∧
    (respMsg.return_ = MessageErrors.noError.code ↔ CarriedOut m m' reqMsg respMsg) ∧
    (¬ CarriedOut m m' reqMsg respMsg →
      m'.rdmaMem = m.rdmaMem ∧ m'.usedRdmaMem = m.usedRdmaMem)

/-- A request is always answered truthfully. -/
theorem truthful_of_request (h : m.Sound)
    (htype : reqMsg.type = MemoryResourceType.memoryResourceRequest.code)
    (hpos : 0 < reqMsg.size.toNat) : m.Truthful reqMsg := by
  have hother : ¬ reqMsg.type = MemoryResourceType.memoryResourceRelease.code := by
    rw [htype]
    decide
  unfold Truthful handleMemoryResource
  rw [if_neg hother, if_pos htype]
  rcases internalAlloc_cases h reqMsg.size.toNat with
    ⟨pre, a, post, hsplit, hsize, -, hcall⟩ | ⟨-, hcall⟩
  · have ha : a ∈ m.rdmaMem := by simp [hsplit]
    have hlt := h.unwrapped.stop a ha
    have hoffset : (UInt64.ofNat a.offset).toNat = a.offset :=
      UInt64.toNat_ofNat_of_lt (by change a.offset < 2 ^ 64; omega)
    rw [Act.bind_of_ok (requestMemoryResource_of_some rfl hcall)]
    have hdone : CarriedOut m (m.take reqMsg.size.toNat pre a post) reqMsg
        ⟨UInt64.ofNat a.offset, MessageErrors.noError.code⟩ := by
      refine Or.inl ⟨htype, ?_, ?_⟩
      · rw [hoffset]
        exact h.offset_notMem ha (by omega)
      · rw [hoffset]
        exact Finmap.lookup_insert _
    exact ⟨_, _, rfl, ⟨fun _ => hdone, fun _ => rfl⟩, fun hnot => absurd hdone hnot⟩
  · rw [Act.bind_of_ok (requestMemoryResource_of_null hcall)]
    have hnot : ¬ CarriedOut m m reqMsg
        ⟨UInt64.ofNat 0, MessageErrors.memoryNotAvailable.code⟩ := by
      rintro (⟨-, habsent, hlookup⟩ | ⟨hrelease, -⟩)
      · exact habsent (Finmap.mem_of_lookup_eq_some hlookup)
      · exact hother hrelease
    exact ⟨_, _, rfl, ⟨fun hcode => absurd hcode (by decide), fun hdone => absurd hdone hnot⟩,
      fun _ => ⟨rfl, rfl⟩⟩

/-- The bytes of a live block are free once it is put back. -/
theorem Sound.cover_of_freed (h : m.Sound) (hk : m.usedRdmaMem.lookup offset = some seg)
    (h' : m'.Sound) (hsize : m'.memSize = m.memSize)
    (hused : m'.usedRdmaMem = m.usedRdmaMem.erase offset) {p : ℕ} (hp : Holds seg p) :
    0 < Extent.cover (m'.rdmaMem : Multiset RdmaMem) p := by
  have hcover := h.cover p
  have hcover' := h'.cover p
  rw [segments, cover_add, usedSegments, entries_eq_cons_erase hk, Multiset.map_cons, cover_cons,
    if_pos hp] at hcover
  rw [segments, cover_add, usedSegments, hused, hsize] at hcover'
  split_ifs at hcover hcover'
  all_goals omega

/-- So is a release of a live offset. -/
theorem truthful_of_live (h : m.Sound)
    (htype : reqMsg.type = MemoryResourceType.memoryResourceRelease.code)
    (hlive : reqMsg.offset.toNat ∈ m.usedRdmaMem) : m.Truthful reqMsg := by
  obtain ⟨seg, hk⟩ := Finmap.mem_iff.mp hlive
  obtain ⟨pre, post, hsplit, hfree, hpre, hpost⟩ := free_live h hk
  have hsound := (h.putBack hsplit (h.ordered_of_live hk hsplit hpre hpost)).1
  unfold Truthful handleMemoryResource
  rw [if_pos htype, Act.bind_of_ok (releaseMemoryResource_of_ok hfree)]
  have hdone : CarriedOut m (m.putBack reqMsg.offset.toNat pre post) reqMsg
      ⟨reqMsg.offset, MessageErrors.noError.code⟩ := by
    refine Or.inr ⟨htype, seg, hk, Finmap.notMem_erase_self, fun p hp => ?_⟩
    exact h.cover_of_freed hk hsound rfl rfl hp
  exact ⟨_, _, rfl, ⟨fun _ => hdone, fun _ => rfl⟩, fun hnot => absurd hdone hnot⟩

/-- A release of an offset that is not live is answered truthfully
exactly where the loop of `free` finds no place for it. -/
theorem truthful_of_unknown (h : m.Sound)
    (htype : reqMsg.type = MemoryResourceType.memoryResourceRelease.code)
    (hdead : reqMsg.offset.toNat ∉ m.usedRdmaMem) :
    m.Truthful reqMsg ↔
      ∀ pre post, m.rdmaMem = pre ++ post → ¬ Stops reqMsg.offset.toNat pre post := by
  have hnot : ∀ m' respMsg, ¬ CarriedOut m m' reqMsg respMsg := by
    rintro m' respMsg (⟨hrequest, -⟩ | ⟨-, seg, hk, -⟩)
    · rw [htype] at hrequest
      exact absurd hrequest (by decide)
    · exact hdead (Finmap.mem_of_lookup_eq_some hk)
  unfold Truthful handleMemoryResource
  rw [if_pos htype]
  rcases free_cases h reqMsg.offset.toNat with ⟨pre, post, hsplit, hstops, -, hfree⟩ | ⟨hnone, hfree⟩
  · rw [Act.bind_of_ok (releaseMemoryResource_of_ok hfree)]
    refine ⟨?_, fun hnone => absurd hstops (hnone pre post hsplit)⟩
    rintro ⟨respMsg, m', hcall, hcode, -⟩
    have hreturn : respMsg.return_ = MessageErrors.noError.code := by
      obtain ⟨hresp, -⟩ := Prod.mk.inj hcall
      rw [← Except.ok.inj hresp]
    exact absurd (hcode.mp hreturn) (hnot m' respMsg)
  · rw [Act.bind_of_ok (releaseMemoryResource_of_error hfree)]
    have hfailed : MessageErrors.memoryReleaseFailed.code ≠ MessageErrors.noError.code := by decide
    refine ⟨fun _ => hnone, fun _ => ⟨_, _, rfl, ⟨fun hcode => absurd hcode hfailed,
      fun hdone => absurd hdone (hnot _ _)⟩, fun _ => ⟨rfl, ?_⟩⟩⟩
    exact erase_of_lookup_none (Finmap.lookup_eq_none.mpr hdead)

/-- No other type is. -/
theorem not_truthful_of_other
    (hrelease : reqMsg.type ≠ MemoryResourceType.memoryResourceRelease.code)
    (hrequest : reqMsg.type ≠ MemoryResourceType.memoryResourceRequest.code) :
    ¬ m.Truthful reqMsg := by
  unfold Truthful handleMemoryResource
  rw [if_neg hrelease, if_neg hrequest]
  rintro ⟨respMsg, m', hcall, hcode, -⟩
  have hreturn : respMsg.return_ = MessageErrors.noError.code := by
    obtain ⟨hresp, -⟩ := Prod.mk.inj hcall
    rw [← Except.ok.inj hresp]
    rfl
  rcases hcode.mp hreturn with ⟨htype, -⟩ | ⟨htype, -⟩
  · exact hrequest htype
  · exact hrelease htype

/-- **When the service answers truthfully**: on every request, on a
release of a live offset, and on a release of any other offset exactly
where the loop of `free` finds no place for it. -/
theorem truthful_iff (h : service.Reachable m) (hsized : (Demand.message reqMsg).Sized) :
    m.Truthful reqMsg ↔
      reqMsg.type = MemoryResourceType.memoryResourceRequest.code ∨
        (reqMsg.type = MemoryResourceType.memoryResourceRelease.code ∧
          (reqMsg.offset.toNat ∈ m.usedRdmaMem ∨
            ∀ pre post, m.rdmaMem = pre ++ post → ¬ Stops reqMsg.offset.toNat pre post)) := by
  have hsound := sound_invariant.reachable h
  by_cases hrequest : reqMsg.type = MemoryResourceType.memoryResourceRequest.code
  · exact ⟨fun _ => Or.inl hrequest, fun _ => truthful_of_request hsound hrequest (hsized hrequest)⟩
  by_cases hrelease : reqMsg.type = MemoryResourceType.memoryResourceRelease.code
  · by_cases hlive : reqMsg.offset.toNat ∈ m.usedRdmaMem
    · exact ⟨fun _ => Or.inr ⟨hrelease, Or.inl hlive⟩,
        fun _ => truthful_of_live hsound hrelease hlive⟩
    · rw [truthful_of_unknown hsound hrelease hlive]
      constructor
      · exact fun hnone => Or.inr ⟨hrelease, Or.inr hnone⟩
      · rintro (htype | ⟨-, hmem | hnone⟩)
        · exact absurd htype hrequest
        · exact absurd hmem hlive
        · exact hnone
  · refine ⟨fun htruth => absurd htruth (not_truthful_of_other hrelease hrequest), ?_⟩
    rintro (htype | ⟨htype, -⟩)
    · exact absurd htype hrequest
    · exact absurd htype hrelease

/-- A buffer that one client took whole. -/
def exhausted : BaseMemory := Demand.exec (new 4096 64) (.message ⟨64, 0, 0⟩)

theorem exhausted_reachable : service.Reachable exhausted := by
  have hfresh : service.Reachable (new 4096 64) :=
    .init ⟨4096, 64, by omega, by omega, by omega, rfl⟩
  exact service_reachable_exec hfresh (.message ⟨64, 0, 0⟩) (by decide)

/-- On it a second request is turned down, and truthfully so. -/
theorem truthful_iff_exhausted :
    exhausted.Truthful ⟨1, 0, 0⟩ ↔
      (0 : UInt32) = MemoryResourceType.memoryResourceRequest.code ∨
        ((0 : UInt32) = MemoryResourceType.memoryResourceRelease.code ∧
          (0 ∈ exhausted.usedRdmaMem ∨
            ∀ pre post, exhausted.rdmaMem = pre ++ post → ¬ Stops 0 pre post)) :=
  truthful_iff exhausted_reachable
    (show (Demand.message ⟨1, 0, 0⟩).Sized by decide)

/-- **A release of an offset inside a live block is reported as done.** -/
theorem exhausted_release_accepted :
    service.Reachable exhausted ∧ ¬ exhausted.Truthful ⟨0, 5, 1⟩ := by
  refine ⟨exhausted_reachable, ?_⟩
  rintro ⟨respMsg, m', hcall, hcode, -⟩
  have hanswer : (handleMemoryResource ⟨0, 5, 1⟩ exhausted).1 = .ok ⟨5, 0⟩ := by decide
  rw [hcall] at hanswer
  have hresp : respMsg = ⟨5, 0⟩ := Except.ok.inj hanswer
  subst hresp
  rcases hcode.mp rfl with ⟨htype, -⟩ | ⟨-, seg, hk, -⟩
  · exact absurd htype (by decide)
  · have hnone : exhausted.usedRdmaMem.lookup 5 = none := by decide
    change exhausted.usedRdmaMem.lookup 5 = some seg at hk
    rw [hnone] at hk
    exact absurd hk (by simp)

end BaseMemory

end RdmaManager
