import RdmaManager.Node.RemoteBlocks
/-!
# The requests of one client

While a client has a block, the block changes by nothing but the requests
of the client, which are carried out in the order of its calls: it reads as
if no other client and no server thread were there (`own_requests`).
-/

namespace RdmaManager

open BaseMemory

/-- The requests of a client that the device has carried out. -/
def Tenant.carriedOut (t : Tenant) : List SendWr := t.queue.wrs.take t.landed

namespace Fabric

variable {κ : Type} [DecidableEq κ] {target : Target} {s s' : Fabric κ} {c : κ} {k n : ℕ}
variable {l : FabricStep κ}

/-- The request of the client that the step carries out, with what the
device has gathered for it. -/
def carries (s : Fabric κ) (c : κ) : FabricStep κ → Option (SendWr × List UInt8)
  | .land d data =>
      if d = c then (s.tenants c).queue.wrs[(s.tenants c).landed]?.map fun wr => (wr, data) else none
  | _ => none

/-- A memory after requests were carried out. -/
def carryOut (mem : ℕ → UInt8) (requests : List (SendWr × List UInt8)) : ℕ → UInt8 :=
  requests.foldl (fun mem request => request.1.carryOut request.2 mem) mem

/-- The client does not give the block back. -/
def Keeps (c : κ) (k : ℕ) : FabricStep κ → Prop
  | .ask d (.remoteFree _ offset) => d = c → offset.toNat ≠ k
  | _ => True

/-- **The runs, with the requests of a client** that were carried out. -/
def requests (κ : Type) [DecidableEq κ] (target : Target) (c : κ) :
    System (Fabric κ × List (SendWr × List UInt8)) (FabricStep κ) :=
  (fabric κ target).record (fun _ => []) fun s l _ landed => landed ++ (s.carries c l).toList

/-! ## A step -/

omit [DecidableEq κ] in
@[simp] theorem localAlloc_tenants (size : ℕ) : (s.localAlloc size).tenants = s.tenants := by
  unfold Fabric.localAlloc
  split
  · split_ifs <;> rfl
  · rfl

omit [DecidableEq κ] in
/-- The next request of a client is not carried out yet. -/
theorem outstanding_of_next {wr : SendWr}
    (hwr : (s.tenants c).queue.wrs[(s.tenants c).landed]? = some wr) :
    wr ∈ (s.tenants c).outstanding := by
  unfold Tenant.outstanding
  rw [List.drop_eq_getElem?_toList_append, hwr]
  exact List.mem_cons_self

/-- The buffer stays where it is. -/
theorem Books.base_exec (h : Books target s) (hcan : s.Enabled target l) (hproper : s.Proper l) :
    (s.exec target l).base = s.base := by
  cases l with
  | serve c =>
      obtain ⟨call, o, hasked⟩ := hcan
      have hserved := h.served hasked
      show (s.serve c).base = s.base
      generalize s.serve c = s' at hserved
      cases hserved with
      | granted htook => exact htook.buffer
      | refused hnone => rfl
      | released hk hgave => exact hgave.buffer
  | land c data =>
      obtain ⟨wr, hwr, -⟩ := hcan
      simp only [exec, hwr]
      rfl
  | localAlloc size =>
      show (s.localAlloc size).base = s.base
      rcases localAlloc_cases h hproper with ⟨k, m', htook, heq⟩ | ⟨-, heq⟩
      · rw [heq]
        exact htook.buffer
      · rw [heq]
  | localFree offset =>
      obtain ⟨n, hn⟩ := Option.ne_none_iff_exists'.mp hproper
      have hlive : s.memory.live offset = some n := h.custody.used .server (offset, n) hn
      obtain ⟨m', hfree, hgave⟩ := h.tight.releases hlive
      show (BaseMemory.free offset s.memory).2.buffer = s.memory.buffer
      rw [hfree]
      exact hgave.buffer
  | _ => rfl

/-- A block stays with a client that does not give it back. -/
theorem Books.held_exec (h : Books target s) (hcan : s.Enabled target l) (hkeeps : Keeps c k l)
    (hk : (s.tenants c).held k = some n) : ((s.exec target l).tenants c).held k = some n := by
  have hframe : ∀ d (t : Tenant), (d = c → t.held k = some n) →
      (Function.update s.tenants d t c).held k = some n := by
    intro d t ht
    rcases eq_or_ne c d with rfl | hne
    · rw [Function.update_self]
      exact ht rfl
    · rw [Function.update_of_ne hne]
      exact hk
  cases l with
  | ask d call =>
      refine hframe d _ fun hd => ?_
      subst hd
      cases call with
      | remoteAlloc size => exact hk
      | remoteFree size offset =>
          have hne : k ≠ offset.toNat := (hkeeps rfl).symm
          exact (Function.update_of_ne hne _ _).trans hk
  | serve d =>
      obtain ⟨call, o, hasked⟩ := hcan
      have hserved := h.served hasked
      show ((s.serve d).tenants c).held k = some n
      generalize s.serve d = s' at hserved
      cases hserved with
      | granted htook => exact hframe d _ fun hd => by subst hd; exact hk
      | refused hnone => exact hframe d _ fun hd => by subst hd; exact hk
      | released hlive hgave => exact hframe d _ fun hd => by subst hd; exact hk
  | finish d =>
      refine hframe d _ fun hd => ?_
      subst hd
      obtain ⟨⟨call, response, hanswered⟩, -⟩ := hcan
      have hok := h.exchange d
      rw [hanswered] at hok
      rcases Tenant.finish_cases (h.wired d).linked.socket hanswered hok with
        ⟨j, m, hgrant, hfinish⟩ | ⟨-, hfinish⟩
      · have hne : k ≠ j := by
          rintro rfl
          rw [h.held_of_grant hgrant] at hk
          simp at hk
        rw [hfinish]
        exact (Function.update_of_ne hne _ _).trans hk
      · rw [hfinish]
        exact hk
  | giveUp d => exact hframe d _ fun hd => by subst hd; exact hk
  | verb d e => exact hframe d _ fun hd => by subst hd; exact hk
  | land d data =>
      obtain ⟨wr, hwr, -⟩ := hcan
      simp only [exec, hwr]
      exact hframe d _ fun hd => by subst hd; exact hk
  | localAlloc size =>
      show ((s.localAlloc size).tenants c).held k = some n
      rw [localAlloc_tenants]
      exact hk
  | localFree offset => exact hk
  | localStore start data => exact hk

omit [DecidableEq κ] in
/-- A request of another client is about bytes apart from the block. -/
theorem Books.window_land (h : Books target s) {d : κ} {data : List UInt8} {wr : SendWr} (hne : d ≠ c)
    (hwr : (s.tenants d).queue.wrs[(s.tenants d).landed]? = some wr)
    (hdata : data.length = wr.length.toNat) (hk : (s.tenants c).held k = some n) :
    window (wr.carryOut data s.mem) (s.base + k) n = window s.mem (s.base + k) n := by
  have hlength : (wr.leaves data (wr.finds s.mem)).length = wr.extent :=
    SendWr.length_leaves hdata SendWr.length_finds
  rcases Nat.eq_zero_or_pos wr.extent with hzero | hpos
  · rw [SendWr.carryOut, List.eq_nil_of_length_eq_zero (hlength.trans hzero), splice_nil]
  · obtain ⟨j, m, hj, hlo, hhi⟩ := (h.wired d).inBlock wr (outstanding_of_next hwr) hpos
    have hown : s.Holds (.client d .held) (j, m) := hj
    have hmine : s.Holds (.client c .held) (k, n) := hk
    have hother : Holder.client d Role.held ≠ .client c .held := by simpa using hne
    refine window_splice_of_apart ?_
    rw [hlength]
    rcases h.apart hown hmine with ⟨hsame, -⟩ | hapart | hapart
    · exact absurd hsame hother
    · simp only at hapart
      omega
    · simp only at hapart
      omega

/-- **What a step does to the block of a client**: it carries out a request
of the client, or it leaves the block alone. -/
theorem Books.window_exec (h : Books target s) (hcan : s.Enabled target l) (hproper : s.Proper l)
    (hk : (s.tenants c).held k = some n) :
    window (s.exec target l).mem (s.base + k) n =
      window (carryOut s.mem (s.carries c l).toList) (s.base + k) n := by
  cases l with
  | land d data =>
      obtain ⟨wr, hwr, hdata⟩ := hcan
      simp only [exec, hwr]
      rcases eq_or_ne d c with rfl | hne
      · simp only [carries, hwr]
        rfl
      · simp only [carries, if_neg hne]
        exact h.window_land hne hwr hdata hk
  | localStore start data =>
      obtain ⟨j, m, hj, hlo, hhi⟩ := hproper
      have hown : s.Holds .server (j, m) := hj
      have hmine : s.Holds (.client c .held) (k, n) := hk
      refine window_splice_of_apart ?_
      rcases h.apart hown hmine with ⟨hsame, -⟩ | hapart | hapart
      · simp at hsame
      · simp only at hapart
        omega
      · simp only at hapart
        omega
  | serve d =>
      obtain ⟨call, o, hasked⟩ := hcan
      have hserved := h.served hasked
      show window (s.serve d).mem _ _ = _
      generalize s.serve d = s' at hserved
      cases hserved <;> rfl
  | localAlloc size =>
      show window (s.localAlloc size).mem _ _ = _
      rcases localAlloc_cases h hproper with ⟨j, m', -, heq⟩ | ⟨-, heq⟩ <;> rw [heq] <;> rfl
  | _ => rfl

theorem carries_eq_some {wr : SendWr} {data : List UInt8} (h : s.carries c l = some (wr, data)) :
    l = .land c data ∧ (s.tenants c).queue.wrs[(s.tenants c).landed]? = some wr := by
  unfold carries at h
  cases l with
  | land d data' =>
      simp only at h
      split_ifs at h with hd
      obtain ⟨wr', hwr, hpair⟩ := Option.map_eq_some_iff.mp h
      obtain ⟨rfl, rfl⟩ := Prod.mk.inj hpair
      exact ⟨by rw [hd], hwr⟩
  | _ => simp at h

/-- The queue of a client changes by a call of the client, and else goes on
as far as requests are carried out. -/
theorem Books.queue_exec (h : Books target s) (hcan : s.Enabled target l) :
    (∃ e, l = .verb c e ∧ (s.exec target l).tenants c = (s.tenants c).verb target e) ∨
      ((s.exec target l).tenants c).queue = (s.tenants c).queue ∧
        ((s.exec target l).tenants c).landed =
          (s.tenants c).landed + (s.carries c l).toList.length := by
  have hframe : ∀ d (t : Tenant), (d = c → t.queue = (s.tenants c).queue ∧
      t.landed = (s.tenants c).landed) → (Function.update s.tenants d t c).queue = (s.tenants c).queue ∧
        (Function.update s.tenants d t c).landed = (s.tenants c).landed := by
    intro d t ht
    rcases eq_or_ne d c with rfl | hne
    · rw [Function.update_self]
      exact ht rfl
    · rw [Function.update_of_ne hne.symm]
      exact ⟨rfl, rfl⟩
  cases l with
  | verb d e =>
      rcases eq_or_ne d c with rfl | hne
      · exact Or.inl ⟨e, rfl, setTenant_self⟩
      · exact Or.inr (hframe d _ fun hd => absurd hd hne)
  | land d data =>
      obtain ⟨wr, hwr, -⟩ := hcan
      refine Or.inr ?_
      simp only [exec, carries, hwr]
      rcases eq_or_ne d c with rfl | hne
      · rw [setTenant_self, if_pos rfl, hwr]
        exact ⟨rfl, rfl⟩
      · rw [if_neg hne]
        exact hframe d _ fun hd => absurd hd hne
  | ask d call =>
      refine Or.inr (hframe d _ fun hd => ?_)
      subst hd
      cases call <;> exact ⟨rfl, rfl⟩
  | serve d =>
      obtain ⟨call, o, hasked⟩ := hcan
      have hserved := h.served hasked
      refine Or.inr ?_
      show ((s.serve d).tenants c).queue = _ ∧ ((s.serve d).tenants c).landed = _
      generalize s.serve d = s' at hserved
      cases hserved <;> exact hframe d _ fun hd => by subst hd; exact ⟨rfl, rfl⟩
  | finish d =>
      refine Or.inr (hframe d _ fun hd => ?_)
      subst hd
      obtain ⟨⟨call, response, hanswered⟩, -⟩ := hcan
      have hok := h.exchange d
      rw [hanswered] at hok
      rcases Tenant.finish_cases (h.wired d).linked.socket hanswered hok with
        ⟨j, m, -, hfinish⟩ | ⟨-, hfinish⟩ <;> rw [hfinish] <;> exact ⟨rfl, rfl⟩
  | giveUp d => exact Or.inr (hframe d _ fun hd => by subst hd; exact ⟨rfl, rfl⟩)
  | localAlloc size =>
      refine Or.inr ?_
      show ((s.localAlloc size).tenants c).queue = _ ∧ ((s.localAlloc size).tenants c).landed = _
      rw [localAlloc_tenants]
      exact ⟨rfl, rfl⟩
  | localFree offset => exact Or.inr ⟨rfl, rfl⟩
  | localStore start data => exact Or.inr ⟨rfl, rfl⟩

/-- What was carried out of the queue of a client. -/
theorem Books.carriedOut_exec (h : Books target s) (hcan : s.Enabled target l) :
    ((s.exec target l).tenants c).carriedOut =
      (s.tenants c).carriedOut ++ (s.carries c l).toList.map Prod.fst := by
  unfold Tenant.carriedOut
  rcases h.queue_exec (c := c) hcan with ⟨e, rfl, hverb⟩ | ⟨hqueue, hlanded⟩
  · have hwrs := (e.posted (c := target.config) (p := (s.tenants c).link) (h.wired c).linked.ready).wrs
    have hle : (s.tenants c).landed ≤ (s.tenants c).link.2.wrs.length := (h.wired c).landed
    rw [hverb]
    show (e.run target.config target.nodeID (s.tenants c).link).2.2.wrs.take (s.tenants c).landed = _
    rw [show s.carries c (.verb c e) = none from rfl, Option.toList_none, List.map_nil, List.append_nil]
    rcases hwrs with hwrs | ⟨wr, hwrs, -⟩
    · rw [hwrs]
      rfl
    · rw [hwrs, List.take_append_of_le_length hle]
      rfl
  · rw [hqueue, hlanded]
    cases hcarries : s.carries c l with
    | none => simp
    | some request =>
        obtain ⟨wr, data⟩ := request
        obtain ⟨-, hwr⟩ := carries_eq_some hcarries
        rw [Option.toList_some, List.length_singleton, List.take_add_one, hwr]
        rfl

/-- A request of the client does to a block what it does to it in a memory
that reads the same there. -/
theorem Books.window_carries (h : Books target s) (hcan : s.Enabled target l)
    (hk : (s.tenants c).held k = some n) {mem : ℕ → UInt8}
    (hsame : window s.mem (s.base + k) n = window mem (s.base + k) n) :
    window (carryOut s.mem (s.carries c l).toList) (s.base + k) n =
      window (carryOut mem (s.carries c l).toList) (s.base + k) n := by
  cases hcarries : s.carries c l with
  | none => exact hsame
  | some request =>
      obtain ⟨wr, data⟩ := request
      obtain ⟨rfl, hwr⟩ := carries_eq_some hcarries
      obtain ⟨wr', hwr', hdata⟩ := hcan
      obtain rfl : wr = wr' := Option.some.inj (hwr.symm.trans hwr')
      have hlength : ∀ mem', (wr.leaves data (wr.finds mem')).length = wr.extent := fun mem' =>
        SendWr.length_leaves hdata SendWr.length_finds
      show window (wr.carryOut data s.mem) _ n = window (wr.carryOut data mem) _ n
      unfold SendWr.carryOut
      rcases Nat.eq_zero_or_pos wr.extent with hzero | hpos
      · rw [List.eq_nil_of_length_eq_zero ((hlength s.mem).trans hzero),
          List.eq_nil_of_length_eq_zero ((hlength mem).trans hzero), splice_nil, splice_nil]
        exact hsame
      · obtain ⟨j, m, hj, hlo, hhi⟩ := (h.wired c).inBlock wr (outstanding_of_next hwr) hpos
        have hown : s.Holds (.client c .held) (j, m) := hj
        have hmine : s.Holds (.client c .held) (k, n) := hk
        by_cases hblock : (j, m) = (k, n)
        · -- it finds the same in both memories
          obtain ⟨rfl, rfl⟩ := Prod.mk.inj hblock
          have hfinds : wr.finds s.mem = wr.finds mem := window_eq_of_part hsame hlo hhi
          rw [hfinds]
          exact window_splice_congr hsame
        · have hapart : j + m ≤ k ∨ k + n ≤ j :=
            (h.apart hown hmine).resolve_left fun hboth => hblock hboth.2
          rw [window_splice_of_apart (by rw [hlength]; omega),
            window_splice_of_apart (by rw [hlength]; omega)]
          exact hsame

theorem carryOut_append (mem : ℕ → UInt8) (xs ys : List (SendWr × List UInt8)) :
    carryOut mem (xs ++ ys) = carryOut (carryOut mem xs) ys := List.foldl_append

/-! ## A run -/

/-- What holds of a block after a run: it is still the client's, and reads
as if the requests of the client, in the order of its calls, were all that
was carried out. -/
structure Owned (s : Fabric κ) (c : κ) (k n : ℕ) (xs : List (SendWr × List UInt8))
    (s' : Fabric κ) : Prop where
  base : s'.base = s.base
  held : (s'.tenants c).held k = some n
  order : (s'.tenants c).carriedOut = (s.tenants c).carriedOut ++ xs.map Prod.fst
  bytes : window s'.mem (s.base + k) n = window (carryOut s.mem xs) (s.base + k) n

omit [DecidableEq κ] in
theorem Owned.start (hk : (s.tenants c).held k = some n) : Owned s c k n [] s :=
  ⟨rfl, hk, (List.append_nil _).symm, rfl⟩

theorem Owned.step {a : Fabric κ} {xs : List (SendWr × List UInt8)} (h : Owned s c k n xs a)
    (hbooks : Books target a) (hkeeps : Keeps c k l) (hcan : a.Enabled target l)
    (hproper : a.Proper l) : Owned s c k n (xs ++ (a.carries c l).toList) (a.exec target l) where
  base := (hbooks.base_exec hcan hproper).trans h.base
  held := hbooks.held_exec hcan hkeeps h.held
  order := by rw [hbooks.carriedOut_exec hcan, h.order, List.map_append, List.append_assoc]
  bytes := by
    have hexec := hbooks.window_exec hcan hproper h.held
    have hbytes := h.bytes
    rw [← h.base] at hbytes ⊢
    rw [hexec, carryOut_append]
    exact hbooks.window_carries hcan h.held hbytes

/-- **A block changes by the requests of its client only**: after any run in
which the client does not give it back, it reads as if the requests of the
client, in the order of its calls, were all that was carried out. -/
theorem own_requests {landed landed' : List (SendWr × List UInt8)}
    (h : (requests κ target c).Reachable (s, landed)) (hk : (s.tenants c).held k = some n)
    (hleads : ((requests κ target c).restrict fun _ l => Keeps c k l).Leads (s, landed) (s', landed')) :
    ∃ xs, landed' = landed ++ xs ∧ Owned s c k n xs s' := by
  refine hleads.keeps_of_restrict (I := fun p => ∃ xs, p.2 = landed ++ xs ∧ Owned s c k n xs p.1) h
    ?_ ⟨[], (List.append_nil landed).symm, .start hk⟩
  rintro ⟨a, _⟩ l ⟨b, _⟩ hreach ⟨xs, rfl, howned⟩ hkeeps ⟨⟨hcan, hproper, rfl⟩, hrecord⟩
  obtain rfl : _ = (landed ++ xs) ++ (a.carries c l).toList := hrecord
  exact ⟨xs ++ (a.carries c l).toList, List.append_assoc _ _ _,
    howned.step (books_invariant.reachable hreach.of_record) hkeeps hcan hproper⟩

/-- A client of the small server adds one to a word of its block. -/
def smallAdd (c : Bool) (offset : ℕ) : FabricStep Bool :=
  .verb c (.call (.fetchAndAddValue offset 8192 1 8) false ⟨0, [], 0⟩)

/-- The device carries that out. -/
def smallLand (c : Bool) : FabricStep Bool := .land c (List.replicate 8 0)

/-- Both clients have called. -/
def smallPosted : Fabric Bool :=
  (smallHeld.exec smallTarget (smallAdd false 0)).exec smallTarget (smallAdd true 16)

/-- The request of the second is carried out first. -/
def smallAdded : Fabric Bool :=
  (smallPosted.exec smallTarget (smallLand true)).exec smallTarget (smallLand false)

theorem smallAdd_step {s : Fabric Bool} {c : Bool} {k n offset : ℕ} (hk : (s.tenants c).held k = some n)
    (hlo : k ≤ offset) (hhi : offset + 8 ≤ k + n)
    (hcan : s.Enabled smallTarget (smallAdd c offset)) :
    (fabric Bool smallTarget).Step s (smallAdd c offset) (s.exec smallTarget (smallAdd c offset)) := by
  refine ⟨hcan, fun offset' size hremote => ?_, rfl⟩
  obtain ⟨rfl, rfl⟩ := Prod.mk.inj (Option.some.inj hremote)
  exact ⟨k, n, hk, hlo, hhi⟩

theorem own_requests_small : ∃ xs : List (SendWr × List UInt8), xs.length = 1 ∧
    smallHeld.Owned false 0 16 xs smallAdded := by
  obtain ⟨landed, hstart⟩ := smallHeld_reachable.record (fun _ => [])
    fun s l _ landed => landed ++ (s.carries false l).toList
  have hone : ((requests Bool smallTarget false).restrict fun _ l => Keeps false 0 l).Leads
      (smallHeld, landed) (smallHeld.exec smallTarget (smallAdd false 0), landed ++ []) :=
    (System.Leads.refl _).tail (l := smallAdd false 0)
      ⟨trivial, smallAdd_step (k := 0) (n := 16) rfl (by decide) (by decide) (Nat.le_refl 0), rfl⟩
  have htwo := hone.tail (u := (smallPosted, landed ++ [] ++ [])) (l := smallAdd true 16)
    ⟨trivial, smallAdd_step (k := 16) (n := 8) rfl (by decide) (by decide) (Nat.le_refl 0), rfl⟩
  have hother := htwo.tail (u := (smallPosted.exec smallTarget (smallLand true), landed ++ [] ++ [] ++ []))
    (l := smallLand true) ⟨trivial, ⟨⟨_, rfl, rfl⟩, trivial, rfl⟩, rfl⟩
  obtain ⟨xs, hxs, howned⟩ := own_requests hstart (k := 0) (n := 16) rfl
    (hother.tail (l := smallLand false) ⟨trivial, ⟨⟨_, rfl, rfl⟩, trivial, rfl⟩, rfl⟩)
  refine ⟨xs, ?_, howned⟩
  rw [List.append_nil, List.append_nil, List.append_nil] at hxs
  rw [← List.append_cancel_left hxs]
  rfl

end Fabric

end RdmaManager
