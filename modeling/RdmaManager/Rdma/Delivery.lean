import RdmaManager.Rdma.Polling
/-!
# Which polls deliver

A function delivers if it writes its output parameters from the
completion it takes and leaves them alone when it takes none. What each
body makes of the output parameters is computed once (`out_…`), and the
poll that ends the loop (`LoopEnds`) is then read case by case.
-/

namespace RdmaManager

/-! ## The bodies after the loop -/

section Rest

variable {o : ReliableRDMA} {doPoll : ℕ → Bool} {polls : List Polled} {fn : PollFn} {α : Type}
  {rest : LoopExit → Act Outputs α} {more : Wc → Outputs → Outputs} {text : ℕ → String}
  {wc : Wc} {out : Outputs} {k : ℕ} {p : Polled}

@[simp] theorem LoopExit.took_found : (⟨1, wc, k⟩ : LoopExit).took = some wc := by
  simp [LoopExit.took]

@[simp] theorem LoopExit.took_empty : (⟨0, wc, k⟩ : LoopExit).took = none := by
  simp [LoopExit.took]

@[simp] theorem LoopExit.took_failed {n : ℕ} : (⟨Int.negSucc n, wc, k⟩ : LoopExit).took = none := by
  simp [LoopExit.took]

/-- What the output parameters refer to after a body that reads the flag
again. -/
def ReliableRDMA.outIfSet (o : ReliableRDMA) (doPoll : ℕ → Bool) (more : Wc → Outputs → Outputs)
    (e : LoopExit) (out : Outputs) : Outputs :=
  if doPoll e.reads = true ∧ 0 ≤ e.ne then
    match o.qpNum2connID.lookup e.wc.qpNum.toNat with
    | some id => more e.wc { out with retRdmaConnID := id }
    | none => out
  else out

theorem out_deliverIfSet (e : LoopExit) :
    (o.deliverIfSet doPoll more e out).2 = o.outIfSet doPoll more e out := by
  unfold ReliableRDMA.deliverIfSet ReliableRDMA.outIfSet BaseRDMA.connIDOf
  rw [← Act.wp_snd (I := fun out' => out' = _)]
  simp only [Act.wp_bind, Act.wp_ite, Act.wp_pure, Act.wp_throw]
  refine ⟨fun hset => ⟨fun hneg => ?_, fun hneg => ?_⟩, fun hclear => ?_⟩
  · rw [if_neg fun h => by omega]
  · rw [if_pos ⟨hset, Int.not_lt.mp hneg⟩]
    cases o.qpNum2connID.lookup e.wc.qpNum.toNat <;> rfl
  · rw [if_neg fun h => hclear h.1]

theorem out_deliverOrThrow (e : LoopExit) :
    (o.deliverOrThrow doPoll e out).2 = o.outIfSet doPoll (fun _ out => out) e out := by
  unfold ReliableRDMA.deliverOrThrow ReliableRDMA.outIfSet BaseRDMA.connIDOf
  rw [← Act.wp_snd (I := fun out' => out' = _)]
  simp only [Act.wp_bind, Act.wp_ite, Act.wp_pure, Act.wp_throw]
  refine ⟨fun hset => ⟨fun hneg => ?_, fun hneg => ?_⟩, fun hclear => ⟨fun _ => ?_, fun _ => ?_⟩⟩
  · rw [if_neg fun h => by omega]
  · rw [if_pos ⟨hset, Int.not_lt.mp hneg⟩]
    cases o.qpNum2connID.lookup e.wc.qpNum.toNat <;> rfl
  · rw [if_neg fun h => hclear h.1]
  · rw [if_neg fun h => hclear h.1]

theorem out_deliverFound (e : LoopExit) : (o.deliverFound e out).2 =
    if 0 < e.ne then
      match o.qpNum2connID.lookup e.wc.qpNum.toNat with
      | some id => { out with retRdmaConnID := id, retMemoryIdx := e.wc.wrId }
      | none => out
    else out := by
  unfold ReliableRDMA.deliverFound BaseRDMA.connIDOf
  rw [← Act.wp_snd (I := fun out' => out' = _)]
  simp only [Act.wp_bind, Act.wp_ite, Act.wp_pure, Act.wp_throw]
  refine ⟨fun hneg => ?_, fun hneg => ⟨fun hpos => ?_, fun hzero => ?_⟩⟩
  · rw [if_neg (by omega)]
  · rw [if_pos hpos]
    cases o.qpNum2connID.lookup e.wc.qpNum.toNat <;> rfl
  · rw [if_neg hzero]

theorem out_returnImm (imm : Bool) (e : LoopExit) : (ReliableRDMA.returnImm imm e out).2 =
    if imm = true ∧ 0 < e.ne then { out with imm := e.wc.immData } else out := by
  unfold ReliableRDMA.returnImm
  rw [← Act.wp_snd (I := fun out' => out' = _)]
  simp only [Act.wp_bind, Act.wp_ite, Act.wp_pure, Act.wp_throw, Act.wp_modify]
  refine ⟨fun hneg => ?_, fun hneg => ⟨fun hpos => ?_, fun hzero => ?_⟩⟩
  · rw [if_neg fun h => by omega]
  · rw [if_pos hpos]
  · rw [if_neg hzero]

theorem UnreliableRDMA.out_returnImm (imm : Bool) (e : LoopExit) :
    (UnreliableRDMA.returnImm imm e out).2 =
      if imm = true ∧ 0 ≤ e.ne then { out with imm := e.wc.immData } else out := by
  unfold UnreliableRDMA.returnImm
  rw [← Act.wp_snd (I := fun out' => out' = _)]
  simp only [Act.wp_bind, Act.wp_ite, Act.wp_pure, Act.wp_throw, Act.wp_modify]
  refine ⟨fun hneg => ?_, fun hneg => ⟨fun himm => ?_, fun himm => ?_⟩⟩
  · rw [if_neg fun h => by omega]
  · rw [if_pos ⟨himm, Int.not_lt.mp hneg⟩]
  · rw [if_neg fun h => himm h.1]

/-- A call that went through the loop delivers if what it does after each
possible end of the loop does. -/
theorem delivers_iff_ends {flag : ℕ → Bool}
    {ret : α → Option ℤ} (hcall : ∀ wc out, fn.call o doPoll polls wc out =
      ((pollLoop text flag wc 0 polls).map (Ended.after out rest)).map (Ended.map ret)) :
    fn.Delivers o doPoll polls ↔ ∀ k p, LoopEnds flag polls k p →
      ∀ wc out, (Ended.after out rest (leave text wc k p)).Delivers o fn out := by
  constructor
  · intro h k p hends wc out
    refine h wc out ((Ended.after out rest (leave text wc k p)).map ret) ?_
    rw [hcall, pollLoop_eq_some.mpr ⟨k, p, hends, rfl⟩]
    rfl
  · intro h wc out e he
    rw [hcall, Option.map_map, Option.map_eq_some_iff] at he
    obtain ⟨res, hres, rfl⟩ := he
    obtain ⟨k, p, hends, rfl⟩ := pollLoop_eq_some.mp hres
    exact h k p hends wc out

/-- An empty queue: nothing may be written. -/
theorem delivers_empty : (Ended.after out rest (leave text wc k .empty)).Delivers o fn out ↔
    (rest ⟨0, { wc with status := IBV_WC_SUCCESS }, k + 1⟩ out).2 = out := by
  simp [leave, Ended.after, Ended.Delivers]

/-- A failed poll: nothing may be written. -/
theorem delivers_failed {n : ℕ} :
    (Ended.after out rest (leave text wc k (.failed n))).Delivers o fn out ↔
      (rest ⟨Int.negSucc n, { wc with status := IBV_WC_SUCCESS }, k⟩ out).2 = out := by
  simp [leave, Ended.after, Ended.Delivers]

/-- A completion with an error makes the loop throw. -/
theorem delivers_bad {wc' : Wc} (hbad : wc'.status ≠ IBV_WC_SUCCESS) :
    (Ended.after out rest (leave text wc k (.found wc'))).Delivers o fn out := by
  simp [leave, hbad, Ended.after, Ended.Delivers]

/-- A completion: every output parameter is to be written. -/
theorem delivers_found {wc' : Wc} (hgood : wc'.status = IBV_WC_SUCCESS) :
    (Ended.after out rest (leave text wc k (.found wc'))).Delivers o fn out ↔
      (fn.hasConnID → o.qpNum2connID.lookup wc'.qpNum.toNat =
        some (rest ⟨1, wc', k⟩ out).2.retRdmaConnID) ∧
      (fn.hasIndex → (rest ⟨1, wc', k⟩ out).2.retMemoryIdx = wc'.wrId) ∧
      (fn.hasImm → (rest ⟨1, wc', k⟩ out).2.imm = wc'.immData) := by
  simp [leave, hgood, Ended.after, Ended.Delivers]

/-- Two values of the connection id cannot both have been there before. -/
theorem exists_connID_ne (id : ℕ) : ∃ out : Outputs, out.retRdmaConnID ≠ id :=
  ⟨⟨id + 1, 0, 0⟩, by simp⟩

/-- After a completion: the flag is set and the queue pair is known. -/
theorem found_iff_of_outIfSet (hout : ∀ e out, (rest e out).2 = o.outIfSet doPoll more e out)
    (hmore : ∀ wc out, (more wc out).retRdmaConnID = out.retRdmaConnID ∧
      (fn.hasIndex → (more wc out).retMemoryIdx = wc.wrId) ∧
      (fn.hasImm → (more wc out).imm = wc.immData)) (hid : fn.hasConnID = true) {wc' : Wc}
    (hgood : wc'.status = IBV_WC_SUCCESS) :
    (∀ out, (Ended.after out rest (leave text wc k (.found wc'))).Delivers o fn out) ↔
      doPoll k = true ∧ o.Known wc'.qpNum := by
  simp only [delivers_found hgood, hout, ReliableRDMA.outIfSet, ReliableRDMA.Known, hid, true_implies]
  constructor
  · intro h
    cases hlookup : o.qpNum2connID.lookup wc'.qpNum.toNat with
    | none => exact absurd (h ⟨0, 0, 0⟩).1 (by simp [hlookup])
    | some id =>
        obtain ⟨out, hne⟩ := exists_connID_ne id
        refine ⟨?_, rfl⟩
        by_contra hset
        have hold := (h out).1
        rw [if_neg fun hc => hset hc.1, hlookup] at hold
        exact hne (Option.some.inj hold).symm
  · rintro ⟨hset, hknown⟩ out
    obtain ⟨id, hlookup⟩ := Option.isSome_iff_exists.mp hknown
    rw [if_pos ⟨hset, Int.one_nonneg⟩, hlookup]
    obtain ⟨hconn, hrest⟩ := hmore wc' { out with retRdmaConnID := id }
    exact ⟨by rw [hconn], hrest⟩

/-- After an empty queue: the flag is cleared, or whatever the local
variables hold, there is no queue pair to be taken for theirs. -/
theorem empty_iff_of_outIfSet (hout : ∀ e out, (rest e out).2 = o.outIfSet doPoll more e out)
    (hmore : ∀ wc out, (more wc out).retRdmaConnID = out.retRdmaConnID) :
    (∀ wc out, (Ended.after out rest (leave text wc k .empty)).Delivers o fn out) ↔
      (doPoll (k + 1) = true → ∀ n, ¬ o.Known n) := by
  simp only [delivers_empty, hout, ReliableRDMA.outIfSet, ReliableRDMA.Known]
  constructor
  · intro h hset n hknown
    obtain ⟨id, hlookup⟩ := Option.isSome_iff_exists.mp hknown
    obtain ⟨out, hne⟩ := exists_connID_ne id
    have hold := h ⟨0, 0, n, 0⟩ out
    rw [if_pos ⟨hset, le_rfl⟩, hlookup] at hold
    refine hne ?_
    rw [← hold]
    exact hmore _ _
  · intro h wc out
    split_ifs with hset
    · rw [Option.not_isSome_iff_eq_none.mp (h hset.1 wc.qpNum)]
    · rfl

theorem failed_of_outIfSet {n : ℕ}
    (hout : ∀ e out, (rest e out).2 = o.outIfSet doPoll more e out) :
    (Ended.after out rest (leave text wc k (.failed n))).Delivers o fn out := by
  rw [delivers_failed, hout, ReliableRDMA.outIfSet, if_neg fun h => by simp at h]

/-! ## Function by function -/

theorem reliable_delivers (id : ℕ) (imm : Bool) :
    (PollFn.reliable id imm).Delivers o doPoll polls := by
  cases hqp : o.qps[id]? with
  | none =>
      intro wc out e he
      simp only [PollFn.call, ReliableRDMA.pollReceive, hqp, Option.map_some, Option.some.injEq] at he
      subst he
      rfl
  | some qp =>
      refine (delivers_iff_ends fun wc out => by
        simp only [PollFn.call, ReliableRDMA.pollReceive, hqp]
        rfl).mpr ?_
      intro k p _ wc out
      cases p with
      | empty => rw [delivers_empty, out_returnImm, if_neg (by simp)]
      | found wc' =>
          by_cases hgood : wc'.status = IBV_WC_SUCCESS
          · rw [delivers_found hgood, out_returnImm]
            refine ⟨fun hc => absurd hc (by simp [PollFn.hasConnID]),
              fun hi => absurd hi (by simp [PollFn.hasIndex]), fun himm => ?_⟩
            rw [if_pos ⟨himm, Int.one_pos⟩]
          · exact delivers_bad hgood
      | failed n => rw [delivers_failed, out_returnImm, if_neg fun h => by simp at h]

theorem unreliable_delivers_iff (imm : Bool) :
    (PollFn.unreliable imm).Delivers o doPoll polls ↔ (PollFn.unreliable imm).Fits o doPoll polls := by
  rw [delivers_iff_ends fun wc out => by
    simp only [PollFn.call, UnreliableRDMA.pollReceive]
    rfl]
  constructor
  · intro h himm hflag hhead
    have hends : LoopEnds (fun _ => doPoll 0) polls 0 .empty :=
      ⟨fun i hi => absurd hi (Nat.not_lt_zero i), by rwa [← List.head?_eq_getElem?], fun _ => hflag⟩
    have hold := h 0 .empty hends ⟨0, 0, 0, 1⟩ ⟨0, 0, 0⟩
    rw [delivers_empty, UnreliableRDMA.out_returnImm, if_pos ⟨himm, le_rfl⟩] at hold
    exact absurd (congrArg Outputs.imm hold) (by decide)
  · intro h k p hends wc out
    cases p with
    | empty =>
        rw [delivers_empty, UnreliableRDMA.out_returnImm]
        refine if_neg fun hc => ?_
        have hflag : doPoll 0 = false := hends.last rfl
        have hk : k = 0 := by
          by_contra hne
          have hread := (hends.before 0 (Nat.pos_of_ne_zero hne)).2
          exact absurd hread (by simp [hflag])
        refine h hc.1 hflag ?_
        rw [List.head?_eq_getElem?, ← hk]
        exact hends.at_k
    | found wc' =>
        by_cases hgood : wc'.status = IBV_WC_SUCCESS
        · rw [delivers_found hgood, UnreliableRDMA.out_returnImm]
          refine ⟨fun hc => absurd hc (by simp [PollFn.hasConnID]),
            fun hi => absurd hi (by simp [PollFn.hasIndex]), fun himm => ?_⟩
          rw [if_pos ⟨himm, Int.one_nonneg⟩]
        · exact delivers_bad hgood
    | failed n => rw [delivers_failed, UnreliableRDMA.out_returnImm, if_neg fun h => by simp at h]

/-- Without the shared receive queue the call throws before its first poll. -/
theorem srq_delivers_of_notMem {k : ℕ} (hk : k ∉ o.srqs) (v : SRQOverload) :
    (PollFn.srq k v).Delivers o doPoll polls := by
  intro wc out e he
  have hnone : o.pollSRQ k doPoll polls wc = some (.error (.outOfRange "at")) := by
    unfold ReliableRDMA.pollSRQ
    rw [Finmap.lookup_eq_none.mpr hk]
  cases v <;>
    simp only [PollFn.call, ReliableRDMA.pollReceiveSRQ, ReliableRDMA.pollReceiveSRQAtomic,
      ReliableRDMA.pollReceiveSRQImm, ReliableRDMA.pollReceiveSRQIndex,
      ReliableRDMA.pollReceiveSRQIndexImm, hnone, Option.map_some, Option.some.injEq] at he <;>
    subst he <;> rfl

theorem pollSRQ_of_mem {k : ℕ} (hk : k ∈ o.srqs) :
    o.pollSRQ k doPoll polls wc =
      pollLoop (fun status => "RDMA completion event in CQ with error! " ++ toString status)
        doPoll wc 0 polls := by
  obtain ⟨srq, hlookup⟩ := Option.isSome_iff_exists.mp (Finmap.lookup_isSome.mpr hk)
  unfold ReliableRDMA.pollSRQ
  rw [hlookup]

/-- The overloads that read the flag again deliver if it is set exactly
where there is something to deliver. -/
theorem srq_delivers_iff {k : ℕ} {v : SRQOverload} {ret : α → Option ℤ} (hk : k ∈ o.srqs)
    (hcall : ∀ wc out, (PollFn.srq k v).call o doPoll polls wc out =
      ((o.pollSRQ k doPoll polls wc).map (Ended.after out rest)).map (Ended.map ret))
    (hout : ∀ e out, (rest e out).2 = o.outIfSet doPoll more e out)
    (hmore : ∀ wc out, (more wc out).retRdmaConnID = out.retRdmaConnID ∧
      ((PollFn.srq k v).hasIndex → (more wc out).retMemoryIdx = wc.wrId) ∧
      ((PollFn.srq k v).hasImm → (more wc out).imm = wc.immData)) :
    (PollFn.srq k v).Delivers o doPoll polls ↔
      (∀ i wc, LoopEnds doPoll polls i (.found wc) → wc.status = IBV_WC_SUCCESS →
        doPoll i = true ∧ o.Known wc.qpNum) ∧
      ∀ i, LoopEnds doPoll polls i .empty → doPoll (i + 1) = true → ∀ n, ¬ o.Known n := by
  simp only [pollSRQ_of_mem hk] at hcall
  rw [delivers_iff_ends hcall]
  constructor
  · intro h
    refine ⟨fun i wc hends hgood => ?_, fun i hends => ?_⟩
    · exact (found_iff_of_outIfSet hout hmore rfl hgood).mp (h i _ hends wc)
    · exact (empty_iff_of_outIfSet hout fun wc out => (hmore wc out).1).mp (h i _ hends)
  · rintro ⟨hfound, hempty⟩ i p hends wc out
    cases p with
    | empty =>
        exact (empty_iff_of_outIfSet hout fun wc out => (hmore wc out).1).mpr (hempty i hends) wc out
    | found wc' =>
        by_cases hgood : wc'.status = IBV_WC_SUCCESS
        · exact (found_iff_of_outIfSet hout hmore rfl hgood).mpr (hfound i wc' hends hgood) out
        · exact delivers_bad hgood
    | failed n => exact failed_of_outIfSet hout

/-- The overload that asks whether a completion was found delivers it if
the queue pair is known. -/
theorem index_delivers_iff {k : ℕ} (hk : k ∈ o.srqs) :
    (PollFn.srq k .index).Delivers o doPoll polls ↔
      ∀ i wc, LoopEnds doPoll polls i (.found wc) → wc.status = IBV_WC_SUCCESS →
        o.Known wc.qpNum := by
  rw [delivers_iff_ends fun wc out => by
    simp only [PollFn.call, ReliableRDMA.pollReceiveSRQIndex, pollSRQ_of_mem hk]
    rfl]
  constructor
  · intro h i wc hends hgood
    have hout := h i _ hends wc ⟨0, 0, 0⟩
    rw [delivers_found hgood, out_deliverFound, if_pos Int.one_pos] at hout
    exact Option.isSome_iff_exists.mpr ⟨_, hout.1 rfl⟩
  · intro h i p hends wc out
    cases p with
    | empty => rw [delivers_empty, out_deliverFound, if_neg (lt_irrefl _)]
    | found wc' =>
        by_cases hgood : wc'.status = IBV_WC_SUCCESS
        · obtain ⟨id, hlookup⟩ := Option.isSome_iff_exists.mp (h i wc' hends hgood)
          rw [delivers_found hgood, out_deliverFound, if_pos Int.one_pos, hlookup]
          exact ⟨fun _ => rfl, fun _ => rfl, fun himm => absurd himm (by simp [PollFn.hasImm])⟩
        · exact delivers_bad hgood
    | failed n => rw [delivers_failed, out_deliverFound, if_neg fun h => by simp at h]

theorem delivers_iff_fits (fn : PollFn) : fn.Delivers o doPoll polls ↔ fn.Fits o doPoll polls := by
  cases fn with
  | reliable id imm => exact iff_of_true (reliable_delivers id imm) trivial
  | unreliable imm => exact unreliable_delivers_iff imm
  | srq k v =>
      by_cases hk : k ∈ o.srqs
      · cases v with
        | plain =>
            refine (srq_delivers_iff hk (fun _ _ => rfl) (fun e out => out_deliverOrThrow e) ?_).trans
              ⟨fun h _ => h, fun h => h hk⟩
            exact fun _ _ => ⟨rfl, by simp [PollFn.hasIndex], by simp [PollFn.hasImm]⟩
        | atomic =>
            refine (srq_delivers_iff hk (fun _ _ => rfl) (fun e out => out_deliverIfSet e) ?_).trans
              ⟨fun h _ => h, fun h => h hk⟩
            exact fun _ _ => ⟨rfl, by simp [PollFn.hasIndex], by simp [PollFn.hasImm]⟩
        | imm =>
            refine (srq_delivers_iff hk (fun _ _ => rfl) (fun e out => out_deliverIfSet e) ?_).trans
              ⟨fun h _ => h, fun h => h hk⟩
            exact fun _ _ => ⟨rfl, by simp [PollFn.hasIndex], fun _ => rfl⟩
        | index => exact (index_delivers_iff hk).trans ⟨fun h _ => h, fun h => h hk⟩
        | indexImm =>
            refine (srq_delivers_iff hk (fun _ _ => rfl) (fun e out => out_deliverIfSet e) ?_).trans
              ⟨fun h _ => h, fun h => h hk⟩
            exact fun _ _ => ⟨rfl, fun _ => rfl, fun _ => rfl⟩
      · refine iff_of_true (srq_delivers_of_notMem hk v) ?_
        cases v <;> exact fun hmem => absurd hmem hk

/-! ## Two overloads -/

/-- The successful completion that a poll finds. -/
def Polled.took : Polled → Option Wc
  | .found wc => if wc.status = IBV_WC_SUCCESS then some wc else none
  | _ => none

/-- What the overloads with a number to return make of the last poll while
the flag is steady. -/
def Polled.ret : Polled → Except Exn ℤ
  | .empty => .ok 0
  | .found wc =>
      if wc.status = IBV_WC_SUCCESS then .ok 1
      else .error (.runtimeError ("RDMA completion event in CQ with error! " ++ toString wc.status))
  | .failed _ => .error (.runtimeError "RDMA polling from CQ failed!")

theorem took_after : (Ended.after out rest (leave text wc k p)).took = p.took := by
  cases p with
  | empty => simp [leave, Ended.after, Polled.took]
  | found wc' =>
      by_cases hgood : wc'.status = IBV_WC_SUCCESS <;> simp [leave, hgood, Ended.after, Polled.took]
  | failed n => simp [leave, Ended.after, Polled.took]

/-- Every overload is a body that stands after one and the same loop. -/
theorem exists_body (o : ReliableRDMA) (doPoll : ℕ → Bool) (polls : List Polled) (k : ℕ)
    (v : SRQOverload) : ∃ (β : Type) (body : LoopExit → Act Outputs β) (ret : β → Option ℤ), ∀ wc out,
      (PollFn.srq k v).call o doPoll polls wc out =
        ((o.pollSRQ k doPoll polls wc).map (Ended.after out body)).map (Ended.map ret) := by
  cases v
  · exact ⟨Unit, _, _, fun _ _ => rfl⟩
  · exact ⟨ℤ, _, _, fun _ _ => rfl⟩
  · exact ⟨ℤ, _, _, fun _ _ => rfl⟩
  · exact ⟨ℤ, _, _, fun _ _ => rfl⟩
  · exact ⟨ℤ, _, _, fun _ _ => rfl⟩

theorem ret_deliverIfSet {e : LoopExit} (hset : doPoll e.reads = true ↔ e.ne ≠ 0)
    (hknown : 0 < e.ne → o.Known e.wc.qpNum) : (o.deliverIfSet doPoll more e out).1 =
      if e.ne < 0 then .error (.runtimeError "RDMA polling from CQ failed!") else .ok e.ne := by
  unfold ReliableRDMA.deliverIfSet BaseRDMA.connIDOf
  rcases lt_trichotomy e.ne 0 with hneg | hzero | hpos
  · rw [if_pos (hset.mpr hneg.ne), if_pos hneg, if_pos hneg]
    rfl
  · rw [if_neg (fun h => hset.mp h hzero), if_neg (by omega)]
    rfl
  · obtain ⟨id, hlookup⟩ := Option.isSome_iff_exists.mp (hknown hpos)
    rw [if_pos (hset.mpr hpos.ne'), if_neg (by omega), if_neg (by omega), hlookup]
    rfl

theorem ret_deliverFound {e : LoopExit} (hknown : 0 < e.ne → o.Known e.wc.qpNum) :
    (o.deliverFound e out).1 =
      if e.ne < 0 then .error (.runtimeError "RDMA polling from CQ failed!") else .ok e.ne := by
  unfold ReliableRDMA.deliverFound BaseRDMA.connIDOf
  rcases lt_trichotomy e.ne 0 with hneg | hzero | hpos
  · rw [if_pos hneg, if_pos hneg]
    rfl
  · rw [if_neg (by omega), if_neg (by omega), if_neg (by omega)]
    rfl
  · obtain ⟨id, hlookup⟩ := Option.isSome_iff_exists.mp (hknown hpos)
    rw [if_neg (by omega), if_pos hpos, if_neg (by omega), hlookup]
    rfl

/-- What an overload with a number to return returns while the flag is
steady. -/
theorem ret_after {body : LoopExit → Act Outputs ℤ}
    (hbody : ∀ e, (doPoll e.reads = true ↔ e.ne ≠ 0) → (0 < e.ne → o.Known e.wc.qpNum) →
      (body e out).1 =
        if e.ne < 0 then .error (.runtimeError "RDMA polling from CQ failed!") else .ok e.ne)
    (hsteady : (p = .empty → doPoll (k + 1) = false) ∧ (p ≠ .empty → doPoll k = true))
    (hknown : ∀ wc, p = .found wc → wc.status = IBV_WC_SUCCESS → o.Known wc.qpNum) :
    (Ended.after out body (leave (fun status => "RDMA completion event in CQ with error! " ++
      toString status) wc k p)).ret = p.ret := by
  cases p with
  | empty =>
      have hclear : doPoll (k + 1) = false := hsteady.1 rfl
      exact hbody ⟨0, _, k + 1⟩ (by simp [hclear]) fun h => absurd h (lt_irrefl _)
  | found wc' =>
      by_cases hgood : wc'.status = IBV_WC_SUCCESS
      · have hset : doPoll k = true := hsteady.2 (by simp)
        have hret := hbody ⟨1, wc', k⟩ (by simp [hset]) fun _ => hknown wc' rfl hgood
        simpa [leave, hgood, Ended.after, Polled.ret] using hret
      · simp [leave, hgood, Ended.after, Polled.ret]
  | failed n =>
      have hset : doPoll k = true := hsteady.2 (by simp)
      have hret := hbody ⟨Int.negSucc n, { wc with status := IBV_WC_SUCCESS }, k⟩ (by simp [hset])
        fun h => by simp at h
      simpa [leave, Ended.after, Polled.ret] using hret

/-- Every overload with a number to return is a body of that kind. -/
theorem exists_returning_body (o : ReliableRDMA) (doPoll : ℕ → Bool) (polls : List Polled) (k : ℕ)
    {v : SRQOverload} (hv : v ≠ .plain) : ∃ body : LoopExit → Act Outputs ℤ,
      (∀ wc out, (PollFn.srq k v).call o doPoll polls wc out =
        ((o.pollSRQ k doPoll polls wc).map (Ended.after out body)).map (Ended.map some)) ∧
      ∀ out e, (doPoll e.reads = true ↔ e.ne ≠ 0) → (0 < e.ne → o.Known e.wc.qpNum) →
        (body e out).1 =
          if e.ne < 0 then .error (.runtimeError "RDMA polling from CQ failed!") else .ok e.ne := by
  cases v with
  | plain => exact absurd rfl hv
  | atomic => exact ⟨_, fun _ _ => rfl, fun out e => ret_deliverIfSet⟩
  | imm => exact ⟨_, fun _ _ => rfl, fun out e => ret_deliverIfSet⟩
  | index => exact ⟨_, fun _ _ => rfl, fun out e _ => ret_deliverFound⟩
  | indexImm => exact ⟨_, fun _ _ => rfl, fun out e => ret_deliverIfSet⟩

/-- A call of an overload that has ended has ended with a last poll. -/
theorem ends_of_call {k : ℕ} {v : SRQOverload} {e : Ended (Option ℤ)} (hk : k ∈ o.srqs)
    (he : (PollFn.srq k v).call o doPoll polls wc out = some e) :
    ∃ i p, LoopEnds doPoll polls i p ∧ e.took = p.took := by
  obtain ⟨β, body, ret, hcall⟩ := exists_body o doPoll polls k v
  rw [hcall, pollSRQ_of_mem hk, Option.map_map, Option.map_eq_some_iff] at he
  obtain ⟨res, hres, rfl⟩ := he
  obtain ⟨i, p, hends, rfl⟩ := pollLoop_eq_some.mp hres
  refine ⟨i, p, hends, ?_⟩
  show (Ended.after out body (leave _ wc i p)).took = p.took
  exact took_after

theorem call_of_notMem {k : ℕ} (hk : k ∉ o.srqs) (v : SRQOverload) :
    (PollFn.srq k v).call o doPoll polls wc out = some ⟨.error (.outOfRange "at"), out, none⟩ := by
  obtain ⟨β, body, ret, hcall⟩ := exists_body o doPoll polls k v
  rw [hcall]
  unfold ReliableRDMA.pollSRQ
  rw [Finmap.lookup_eq_none.mpr hk]
  rfl

theorem isSome_call {k : ℕ} (hk : k ∈ o.srqs) (v : SRQOverload) :
    ((PollFn.srq k v).call o doPoll polls wc out).isSome = true ↔
      ∃ i p, LoopEnds doPoll polls i p := by
  obtain ⟨β, body, ret, hcall⟩ := exists_body o doPoll polls k v
  rw [hcall, pollSRQ_of_mem hk, Option.isSome_map, Option.isSome_map, Option.isSome_iff_exists]
  constructor
  · rintro ⟨res, hres⟩
    obtain ⟨i, p, hends, -⟩ := pollLoop_eq_some.mp hres
    exact ⟨i, p, hends⟩
  · rintro ⟨i, p, hends⟩
    exact ⟨_, pollLoop_eq_some.mpr ⟨i, p, hends, rfl⟩⟩

/-- What fits knows the queue pairs of the completions that end the loop. -/
theorem known_of_fits {k i : ℕ} {v : SRQOverload} {wc : Wc} (hk : k ∈ o.srqs)
    (h : (PollFn.srq k v).Fits o doPoll polls) (hends : LoopEnds doPoll polls i (.found wc))
    (hgood : wc.status = IBV_WC_SUCCESS) : o.Known wc.qpNum := by
  cases v with
  | plain => exact ((h hk).1 i wc hends hgood).2
  | atomic => exact ((h hk).1 i wc hends hgood).2
  | imm => exact ((h hk).1 i wc hends hgood).2
  | index => exact h hk i wc hends hgood
  | indexImm => exact ((h hk).1 i wc hends hgood).2

theorem ret_of_call {k i : ℕ} {v : SRQOverload} {e : Ended (Option ℤ)} (hk : k ∈ o.srqs)
    (hv : v ≠ .plain) (h : (PollFn.srq k v).Fits o doPoll polls) (hsteady : Steady doPoll polls)
    (hends : LoopEnds doPoll polls i p)
    (he : (PollFn.srq k v).call o doPoll polls wc out = some e) : e.ret = p.ret.map some := by
  obtain ⟨body, hcall, hbody⟩ := exists_returning_body o doPoll polls k hv
  rw [hcall, pollSRQ_of_mem hk, pollLoop_eq_some.mpr ⟨i, p, hends, rfl⟩] at he
  obtain rfl := Option.some.inj he
  show Except.map some (Ended.after out body (leave _ wc i p)).ret = _
  rw [ret_after (hbody out) (hsteady i p hends)]
  rintro wc' rfl hgood
  exact known_of_fits hk h hends hgood

/-- Two overloads that both deliver agree. -/
theorem agree_of_fits {k : ℕ} {v v' : SRQOverload} (h : (PollFn.srq k v).Fits o doPoll polls)
    (h' : (PollFn.srq k v').Fits o doPoll polls) : SRQOverload.Agree o doPoll polls k v v' := by
  have hdel := (delivers_iff_fits _).mpr h
  have hdel' := (delivers_iff_fits _).mpr h'
  by_cases hk : k ∈ o.srqs
  · refine ⟨fun wc wc' out out' => ?_, fun wc wc' out e e' he he' => ?_,
      fun hsteady hv hv' wc wc' out e e' he he' => ?_⟩
    · rw [Bool.eq_iff_iff, isSome_call hk, isSome_call hk]
    · obtain ⟨i, p, hends, htook⟩ := ends_of_call hk he
      obtain ⟨i', p', hends', htook'⟩ := ends_of_call hk he'
      obtain ⟨rfl, rfl⟩ := hends.unique hends'
      have hwritten := hdel wc out e he
      have hwritten' := hdel' wc' out e' he'
      unfold Ended.Delivers at hwritten hwritten'
      rw [htook] at hwritten
      rw [htook'] at hwritten'
      cases hp : p.took with
      | none =>
          rw [hp] at hwritten hwritten'
          have hout : e.out = e'.out := hwritten.trans hwritten'.symm
          exact ⟨htook.trans htook'.symm, fun _ _ => by rw [hout], fun _ _ => by rw [hout],
            fun _ _ => by rw [hout]⟩
      | some c =>
          rw [hp] at hwritten hwritten'
          refine ⟨htook.trans htook'.symm, fun hc hc' => ?_, fun hi hi' => ?_, fun hm hm' => ?_⟩
          · exact Option.some.inj ((hwritten.1 hc).symm.trans (hwritten'.1 hc'))
          · exact (hwritten.2.1 hi).trans (hwritten'.2.1 hi').symm
          · exact (hwritten.2.2 hm).trans (hwritten'.2.2 hm').symm
    · obtain ⟨i, p, hends, -⟩ := ends_of_call hk he
      rw [ret_of_call hk hv h hsteady hends he, ret_of_call hk hv' h' hsteady hends he']
  · have heq : ∀ {wc wc' out e e'}, (PollFn.srq k v).call o doPoll polls wc out = some e →
        (PollFn.srq k v').call o doPoll polls wc' out = some e' → e = e' := by
      intro wc wc' out e e' he he'
      rw [call_of_notMem hk] at he he'
      exact Option.some.inj (he.symm.trans he')
    refine ⟨fun wc wc' out out' => by rw [call_of_notMem hk, call_of_notMem hk]; rfl,
      fun wc wc' out e e' he he' => ?_, fun _ _ _ wc wc' out e e' he he' => by rw [heq he he']⟩
    obtain rfl := heq he he'
    exact ⟨rfl, fun _ _ => rfl, fun _ _ => rfl, fun _ _ => rfl⟩

end Rest

/-! ## When the functions deliver -/

namespace PollFn

/-- **A polling function delivers exactly where it fits**, and overloads
of `pollReceiveSRQ` that fit differ only in which outputs they have. -/
theorem delivers_exactly (o : ReliableRDMA) (doPoll : ℕ → Bool) (polls : List Polled) :
    (∀ fn : PollFn, fn.Delivers o doPoll polls ↔ fn.Fits o doPoll polls) ∧
      ∀ k v v', (PollFn.srq k v).Fits o doPoll polls → (PollFn.srq k v').Fits o doPoll polls →
        SRQOverload.Agree o doPoll polls k v v' :=
  ⟨delivers_iff_fits, fun _ _ _ => agree_of_fits⟩

/-- An object with a shared receive queue and a queue pair on it, which
has the number `7`. -/
def served : ReliableRDMA :=
  ((do
    let srqId ← ReliableRDMA.createSharedReceiveQueue
    ReliableRDMA.initQPForSRQ srqId : Act ReliableRDMA ℕ)
      (ReliableRDMA.fresh (ReliableRDMA.blank (Device.opened (fun _ => 0) fun _ => 7) 4096 1 1
        IbConn.zero))).2

/-- The first poll finds nothing, the flag is set, the second finds a
completion, and by then the flag has been cleared: the completion is taken
and `retRdmaConnID` is not written. -/
theorem taken_and_lost : ¬ (PollFn.srq 0 .atomic).Delivers served (fun i => i == 0)
    [.empty, .found ⟨0, IBV_WC_SUCCESS, 7, 5⟩] := by
  intro h
  have hfits := (delivers_iff_fits _).mp h (by decide +kernel)
  have hends : LoopEnds (fun i => i == 0) [.empty, .found ⟨0, IBV_WC_SUCCESS, 7, 5⟩] 1
      (.found ⟨0, IBV_WC_SUCCESS, 7, 5⟩) :=
    ⟨fun i hi => by obtain rfl := Nat.lt_one_iff.mp hi; exact ⟨rfl, rfl⟩, rfl, by simp⟩
  have hset := (hfits.1 1 _ hends rfl).1
  exact absurd hset (by decide)

end PollFn

end RdmaManager
