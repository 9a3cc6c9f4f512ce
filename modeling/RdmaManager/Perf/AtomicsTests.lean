import RdmaManager.Common.Turns
import RdmaManager.Node.OwnRequests
/-!
# The benchmarks of the atomic operations

A client adds to the words of its block in turn, a request after the other.
While the device is at it, other clients and the server go on as they like;
at any time each word has been raised once for each of its turns among the
requests that were carried out (`words_count`).
-/

namespace RdmaManager

open ReliableRDMA

/-- The request adds to the word at the address. -/
structure SendWr.Adds (value addr : ℕ) (wr : SendWr) : Prop where
  opcode : wr.opcode = .fetchAndAdd
  remoteAddr : wr.remoteAddr = addr
  compareAdd : wr.compareAdd = wrap64 value

namespace SendWr.Adds

variable {value addr : ℕ} {wr : SendWr} {data : List UInt8} {mem : ℕ → UInt8}

/-- The word is raised. -/
theorem word_self (h : Adds value addr wr) :
    word64 (window (wr.carryOut data mem) addr 8) =
      wrap64 (word64 (window mem addr 8) + value) := by
  have hleaves : wr.leaves data (wr.finds mem) =
      bytes64 (word64 (window mem addr 8) + wrap64 value) := by
    unfold SendWr.leaves SendWr.finds SendWr.extent
    simp only [h.opcode, h.remoteAddr, h.compareAdd]
  have hwindow := window_splice mem addr (wr.leaves data (wr.finds mem))
  rw [hleaves, length_bytes64] at hwindow
  rw [SendWr.carryOut, h.remoteAddr, hleaves, hwindow, word64_bytes64]
  unfold wrap64
  omega

/-- The words apart from it are not. -/
theorem window_of_apart (h : Adds value addr wr) {a : ℕ} (hapart : a + 8 ≤ addr ∨ addr + 8 ≤ a) :
    window (wr.carryOut data mem) a 8 = window mem a 8 := by
  have hleaves : (wr.leaves data (wr.finds mem)).length = 8 := by
    unfold SendWr.leaves
    simp only [h.opcode]
    exact length_bytes64 _
  refine window_splice_of_apart ?_
  rw [hleaves, h.remoteAddr]
  exact hapart

end SendWr.Adds

/-- What `fetchAndAdd` posts. -/
theorem wrs_fetchAndAddValue {c : SendConfig} {id offset memAddr size value : ℕ} {signaled : Bool}
    {v : Verbs} {p : BaseRDMA × SendQueue} (hready : Ready id p.1) :
    (fetchAndAddValue c id offset memAddr size signaled v value p).2.2.wrs = p.2.wrs ∨
      ∃ wr : SendWr, wr.Adds value (remoteAddr p.1 id offset) ∧
        (fetchAndAddValue c id offset memAddr size signaled v value p).2.2.wrs = p.2.wrs ++ [wr] := by
  rcases wrs_posting_cases _ true v p with hsame | ⟨b, s, wr, hcheck, hrequest, hwrs⟩
  · exact Or.inl hsame
  · refine Or.inr ⟨wr, ?_, hwrs⟩
    rw [checkSignaled_of_lt c.maxWr hready.counter] at hcheck
    obtain ⟨-, rfl⟩ := Prod.mk.inj hcheck
    unfold atomicRequest remoteRequest at hrequest
    split_ifs at hrequest
    obtain rfl := Except.ok.inj hrequest
    exact ⟨rfl, rfl, rfl⟩

namespace Fabric

variable {slots j : ℕ}

/-- **Requests that add to the words of a block in turn** raise each of them
in each of its turns. -/
theorem word_carryOut_adds {value b : ℕ} (mem : ℕ → UInt8) (hj : j < slots)
    {xs : List (SendWr × List UInt8)}
    (hxs : ∀ i (wr : SendWr), (xs.map Prod.fst)[i]? = some wr → wr.Adds value (b + 8 * (i % slots))) :
    wrap64 (word64 (window (carryOut mem xs) (b + 8 * j) 8)) =
      wrap64 (word64 (window mem (b + 8 * j) 8) + value * turns slots j xs.length) := by
  induction xs using List.reverseRecOn with
  | nil => simp [carryOut, turns]
  | append_singleton xs x ih =>
      have hbefore : ∀ i (wr : SendWr), (xs.map Prod.fst)[i]? = some wr →
          wr.Adds value (b + 8 * (i % slots)) := by
        intro i wr hwr
        refine hxs i wr ?_
        rw [List.map_append, List.getElem?_append_left (List.getElem?_eq_some_iff.mp hwr).1]
        exact hwr
      have hlast : x.1.Adds value (b + 8 * (xs.length % slots)) := by
        refine hxs xs.length x.1 ?_
        rw [List.map_append, List.getElem?_append_right (by rw [List.length_map])]
        simp
      have hword := ih hbefore
      unfold wrap64 at hword ⊢
      rw [carryOut_append, List.length_append, List.length_singleton, turns_succ hj]
      show word64 (window (x.1.carryOut x.2 (carryOut mem xs)) (b + 8 * j) 8) % 2 ^ 64 = _
      split_ifs with hturn
      · rw [hturn] at hlast
        rw [hlast.word_self, Nat.mul_add, ← Nat.add_assoc, Nat.mul_one]
        unfold wrap64
        omega
      · rw [hlast.window_of_apart (by omega), Nat.add_zero]
        exact hword

/-! ## The loop -/

/-- The offset of the word that is next after `i` of them, which the loops
compute as an `int` and add to the offset of the block. -/
def slotOffset (k slots i : ℕ) : ℕ := uint64OfInt (k + intArg (i % slots * 8 : ℕ))

theorem slotOffset_eq {k i : ℕ} (hslots : 0 < slots) (hint : 8 * slots ≤ 2 ^ 31)
    (hk : k + 8 * slots ≤ 2 ^ 64) : slotOffset k slots i = k + 8 * (i % slots) := by
  have hlt := Nat.mod_lt i hslots
  unfold slotOffset uint64OfInt
  rw [intArg_eq]
  split_ifs <;> omega

variable {κ : Type} [DecidableEq κ] {target : Target} {s s' : Fabric κ} {c : κ} {k value first : ℕ}

/-- **The loop of the fetch-and-adds** on the connection to the server: the
client adds `value` to the words of its block in turn. It has made `first`
requests before. -/
def FetchAdds (c : κ) (k slots value first : ℕ) (s : Fabric κ) (l : FabricStep κ) : Prop :=
  Keeps c k l ∧
    (∀ offset memAddr size v, l ≠ .verb c (.requestRead offset memAddr size v)) ∧
      ∀ op signaled v, l = .verb c (.call op signaled v) → ∃ memAddr,
        op = .fetchAndAddValue
          (slotOffset k slots ((s.tenants c).queue.wrs.length - first)) memAddr value 8

/-- **The queue of a client in the loop**: after the requests that it had
made before, it adds to the words in turn. -/
structure InLoop (s : Fabric κ) (c : κ) (b slots value : ℕ) (before : List SendWr) : Prop where
  start : before.length ≤ (s.tenants c).landed
  turn : ∃ adds, (s.tenants c).queue.wrs = before ++ adds ∧
    ∀ i (wr : SendWr), adds[i]? = some wr → wr.Adds value (b + 8 * (i % slots))

theorem InLoop.step {b : ℕ} {before : List SendWr} {l : FabricStep κ} (h : InLoop s c b slots value before)
    (hbooks : Books target s) (hb : b = s.base + k) (hslots : 0 < slots) (hint : 8 * slots ≤ 2 ^ 31)
    (hk : (s.tenants c).held k = some (8 * slots)) (hcan : s.Enabled target l)
    (hadds : FetchAdds c k slots value before.length s l) :
    InLoop (s.exec target l) c b slots value before := by
  obtain ⟨adds, hwrs, hturn⟩ := h.turn
  rcases hbooks.queue_exec (c := c) hcan with ⟨e, rfl, hverb⟩ | ⟨hqueue, hlanded⟩
  · obtain ⟨-, hread, hcall⟩ := hadds
    have hready := (hbooks.wired c).linked.ready
    have hnext : ((s.tenants c).verb target e).queue.wrs = (s.tenants c).queue.wrs ∨
        ∃ wr : SendWr, wr.Adds value (b + 8 * (adds.length % slots)) ∧
          ((s.tenants c).verb target e).queue.wrs = (s.tenants c).queue.wrs ++ [wr] := by
      cases e with
      | call op signaled v =>
          obtain ⟨memAddr, rfl⟩ := hcall op signaled v rfl
          have haddr : remoteAddr (s.tenants c).client.base target.nodeID (slotOffset k slots
              ((s.tenants c).queue.wrs.length - before.length)) = b + 8 * (adds.length % slots) := by
            have hfits := hbooks.fits
            have hheld := hbooks.held_le hk
            have hlt := Nat.mod_lt adds.length hslots
            rw [hwrs, List.length_append, Nat.add_sub_cancel_left,
              slotOffset_eq hslots hint (by omega), remoteAddr, (hbooks.wired c).linked.buffer,
              wrap64_of_lt (by omega)]
            omega
          exact haddr ▸ wrs_fetchAndAddValue hready
      | requestRead offset memAddr size v => exact absurd rfl (hread offset memAddr size v)
      | pollSend doPoll imm polls out =>
          obtain ⟨-, hqueue⟩ := pollSend_cases target.nodeID doPoll imm polls out (s.tenants c).link
          refine Or.inl ?_
          rcases hqueue with ⟨-, hlater⟩ | ⟨i, htook⟩
          · exact hlater.wrs
          · exact htook.wrs
      | completes n => exact Or.inl rfl
    refine ⟨hverb ▸ h.start, ?_⟩
    rw [hverb]
    rcases hnext with hsame | ⟨wr, hadd, hnew⟩
    · exact ⟨adds, hsame.trans hwrs, hturn⟩
    · refine ⟨adds ++ [wr], by rw [hnew, hwrs, List.append_assoc], fun i wr' hwr' => ?_⟩
      rcases Nat.lt_trichotomy i adds.length with hlt | rfl | hgt
      · rw [List.getElem?_append_left hlt] at hwr'
        exact hturn i wr' hwr'
      · rw [List.getElem?_concat_length] at hwr'
        exact Option.some.inj hwr' ▸ hadd
      · rw [List.getElem?_eq_none (by simp; omega)] at hwr'
        simp at hwr'
  · exact ⟨by rw [hlanded]; exact Nat.le_add_right_of_le h.start, adds, by rw [hqueue, hwrs], hturn⟩

/-- **The words count**: while a client is in the loop, whatever the others
do, each of its words has been raised by `value` in each of its turns among
the requests that were carried out. -/
theorem words_count (h : (fabric κ target).Reachable s)
    (hk : (s.tenants c).held k = some (8 * slots)) (hint : 8 * slots ≤ 2 ^ 31)
    (hdrained : (s.tenants c).landed = (s.tenants c).queue.wrs.length)
    (hleads : ((fabric κ target).restrict
      (FetchAdds c k slots value (s.tenants c).queue.wrs.length)).Leads s s') (hj : j < slots) :
    word64 (window s'.mem (s'.base + k + 8 * j) 8) =
      wrap64 (word64 (window s.mem (s.base + k + 8 * j) 8) +
        value * turns slots j ((s'.tenants c).landed - (s.tenants c).landed)) := by
  have hslots := Nat.zero_lt_of_lt hj
  obtain ⟨xs, howned, hloop⟩ := hleads.keeps_of_restrict
    (I := fun a => ∃ xs, Owned s c k (8 * slots) xs a ∧
      InLoop a c (s.base + k) slots value (s.tenants c).queue.wrs) h
    (by
      rintro a l b hreach ⟨xs, howned, hloop⟩ hadds ⟨hcan, hproper, rfl⟩
      have hbooks := books_invariant.reachable hreach
      exact ⟨_, howned.step hbooks hadds.1 hcan hproper,
        hloop.step hbooks (by rw [howned.base]) hslots hint howned.held hcan hadds⟩)
    ⟨[], .start hk, hdrained.ge, [], (List.append_nil _).symm, by simp⟩
  have hwired := (books_invariant.reachable (h.leads hleads.of_restrict)).wired c
  obtain ⟨adds, hwrs, hturn⟩ := hloop.turn
  -- what was carried out is the first of what the loop has posted
  have hposted : xs.map Prod.fst = adds.take ((s'.tenants c).landed - (s.tenants c).landed) := by
    have horder := howned.order
    unfold Tenant.carriedOut at horder
    rw [hwrs, hdrained, List.take_length, List.take_append, List.take_of_length_le hloop.start] at horder
    rw [hdrained]
    exact (List.append_cancel_left horder).symm
  have hcount : xs.length = (s'.tenants c).landed - (s.tenants c).landed := by
    have hlanded := hwired.landed
    have hlength := congrArg List.length hposted
    rw [List.length_map, List.length_take] at hlength
    rw [hwrs, List.length_append, ← hdrained] at hlanded
    omega
  have hwindow : window s'.mem (s'.base + k + 8 * j) 8 =
      window (carryOut s.mem xs) (s.base + k + 8 * j) 8 := by
    rw [howned.base]
    exact window_eq_of_part howned.bytes (by omega) (by omega)
  have hadds : ∀ i (wr : SendWr), (xs.map Prod.fst)[i]? = some wr →
      wr.Adds value (s.base + k + 8 * (i % slots)) := by
    intro i wr hwr
    rw [hposted, List.getElem?_take] at hwr
    split_ifs at hwr
    exact hturn i wr hwr
  have hword := word_carryOut_adds s.mem hj hadds
  rw [hwindow, ← hcount, ← hword, wrap64_of_lt]
  have hlt := word64_lt (window (carryOut s.mem xs) (s.base + k + 8 * j) 8)
  rw [length_window] at hlt
  exact hlt

/-- The first of the clients has added to its second word, too. -/
def smallCounted : Fabric Bool :=
  (smallAdded.exec smallTarget (smallAdd false 8)).exec smallTarget (smallLand false)

/-- The first client of the small server is in the loop, over two words;
the second one goes on meanwhile. -/
theorem words_count_added :
    word64 (window smallCounted.mem (4096 + 0 + 8 * 1) 8) =
      wrap64 (word64 (window smallHeld.mem (4096 + 0 + 8 * 1) 8) + 1 * turns 2 1 2) := by
  have hadds : ∀ {s : Fabric Bool} {l : FabricStep Bool}, Keeps false 0 l →
      (∀ e, l ≠ .verb false e) → FetchAdds false 0 2 1 0 s l := fun hkeeps hne =>
    ⟨hkeeps, fun _ _ _ _ => hne _, fun _ _ _ hcall => absurd hcall (hne _)⟩
  have hturn : ∀ {s : Fabric Bool} {i : ℕ}, (s.tenants false).queue.wrs.length = i →
      FetchAdds false 0 2 1 0 s (smallAdd false (slotOffset 0 2 i)) := by
    rintro s i rfl
    refine ⟨trivial, nofun, fun op signaled v hcall => ?_⟩
    cases hcall
    exact ⟨8192, rfl⟩
  have hslot : slotOffset 0 2 0 = 0 ∧ slotOffset 0 2 1 = 8 :=
    ⟨slotOffset_eq (by decide) (by decide) (by decide), slotOffset_eq (by decide) (by decide) (by decide)⟩
  have hposted : ((fabric Bool smallTarget).restrict (FetchAdds false 0 2 1 0)).Leads smallHeld
      (smallHeld.exec smallTarget (smallAdd false 0)) :=
    (System.Leads.refl _).tail (l := smallAdd false 0) ⟨hslot.1 ▸ hturn rfl,
      smallAdd_step (k := 0) (n := 16) rfl (by decide) (by decide) (Nat.le_refl 0)⟩
  have hboth := hposted.tail (u := smallPosted) (l := smallAdd true 16)
    ⟨hadds trivial nofun,
      smallAdd_step (k := 16) (n := 8) rfl (by decide) (by decide) (Nat.le_refl 0)⟩
  have hother := hboth.tail (u := smallPosted.exec smallTarget (smallLand true)) (l := smallLand true)
    ⟨hadds trivial nofun, ⟨_, rfl, rfl⟩, trivial, rfl⟩
  have hadded := hother.tail (u := smallAdded) (l := smallLand false)
    ⟨hadds trivial nofun, ⟨_, rfl, rfl⟩, trivial, rfl⟩
  have hsecond := hadded.tail (u := smallAdded.exec smallTarget (smallAdd false 8))
    (l := smallAdd false 8) ⟨hslot.2 ▸ hturn rfl,
      smallAdd_step (k := 0) (n := 16) rfl (by decide) (by decide) (Nat.zero_le _)⟩
  have hcounted := hsecond.tail (u := smallCounted) (l := smallLand false)
    ⟨hadds trivial nofun, ⟨_, rfl, rfl⟩, trivial, rfl⟩
  exact words_count smallHeld_reachable rfl (by decide) rfl hcounted (by decide)

end Fabric

end RdmaManager
