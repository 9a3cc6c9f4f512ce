import RdmaManager.Node.Linking
/-!
# Links of reliable connections

Every queue pair in the tables of a `ReliableRDMA` stands under one id
only, and so does the queue pair a call has in hand. That is why the
handler, which runs between the stages of a call, can neither destroy the
queue pair of another node nor that of the call.
-/

namespace RdmaManager

open Act BaseRDMA Device

namespace BaseRDMA

/-- The entry of an id is a live queue pair. -/
def Live (b : BaseRDMA) (id : ℕ) : Prop := ∃ h, (b.qpAt id).qp = some h ∧ b.device.qps h ≠ none

/-- What entering a queue pair for an id leaves, with or without a shared
receive queue: the queue pair is new. -/
structure Entered (b : BaseRDMA) (id : ℕ) (b' : BaseRDMA) : Prop where
  grown : b.device.Grown b'.device
  qpAt : ∃ qp h, qp.qp = some h ∧ b.device.next ≤ h ∧ b'.device.qps h ≠ none ∧
    ∀ i, b'.qpAt i = if i = id then qp else b.qpAt i
  connected : b'.connected = b.connected

end BaseRDMA

theorem Device.Grown.keeps {d d' : Device} (h : d.Grown d') : d.Keeps d' := by
  intro i hlive
  obtain ⟨qp, hqp⟩ := Option.ne_none_iff_exists'.mp hlive
  rw [h.qps i (d.lt_of_qps hqp)]
  exact hlive

theorem Device.Moved.keeps {d d' : Device} (h : d.Moved d') : d.Keeps d' :=
  fun i hlive hdead => hlive ((h.qps i).mp hdead)

theorem Device.Reaped.keeps {d d' : Device} (h : d.Reaped d') : d.Keeps d' := by
  intro i hlive
  rw [h.qps]
  exact hlive

theorem Device.Keeps.refl (d : Device) : d.Keeps d := fun _ hlive => hlive

theorem Device.setQp_qps_ne_none {d : Device} {h : ℕ} {qp : Qp} (hlive : d.qps h ≠ none) :
    (d.setQp h qp).qps h ≠ none := by
  obtain ⟨old, hold⟩ := Option.ne_none_iff_exists'.mp hlive
  rw [setQp_qps, Function.update_self, hold]
  exact Option.some_ne_none _

theorem Device.addQp_qps_ne_none (d : Device) (qp : Qp) : (d.addQp qp).qps d.next ≠ none := by
  rw [addQp_qps, Function.update_self]
  exact Option.some_ne_none _

/-- A destroyed queue pair is gone, and no other. -/
theorem Device.dropQp_qps_ne_none {d : Device} {h i : ℕ} (hne : i ≠ h) (hlive : d.qps i ≠ none) :
    (d.tick.dropQp h).qps i ≠ none := by
  rw [dropQp_qps, Function.update_of_ne hne]
  exact hlive

namespace ReliableRDMA

variable {b b' : BaseRDMA} {id : ℕ} {o : ReliableRDMA}

theorem Initialized.entered (h : Initialized b id b') : b.Entered id b' where
  grown := by
    rw [h.device]
    exact grown_queuePair _ _
  qpAt := by
    refine ⟨madeQp b.device, b.device.next + 2, rfl, Nat.le_add_right _ _, ?_, h.qpAt⟩
    rw [h.qps]
    exact Option.some_ne_none _
  connected := h.connected

/-- **With a shared receive queue**, which need not exist, a queue pair is
entered, or one of the four calls fails, or there is no such queue. -/
theorem wp_initQPForSRQWithSuppliedID_entered {k : ℕ} {Q : Unit → ReliableRDMA → Prop}
    {E : Exn → ReliableRDMA → Prop}
    (hQ : ∀ o', (∀ j < 4, o.device.errno (o.device.calls + j) = 0) →
      o.toBaseRDMA.Entered id o'.toBaseRDMA → Q () o')
    (hfail : ∀ e d, (∃ j < 4, o.device.errno (o.device.calls + j) ≠ 0) → o.device.Grown d →
      E e { o with toBaseRDMA := { o.toBaseRDMA with device := d } })
    (hundef : ∀ what o' d, o.device.Grown d → o'.toBaseRDMA = { o.toBaseRDMA with device := d } →
      E (.undefined what) o') :
    wp (initQPForSRQWithSuppliedID k id) Q E o := by
  have hcq := (grown_tick o.device).trans ((grown_tick _).trans (grown_addCq o.device.tick.tick))
  refine wp_initQPForSRQWithSuppliedID_cases (fun srq c s lconns _ hnone _ hset => hQ _ hnone ?_)
    (fun h₀ e => hfail _ _ ⟨0, by omega, h₀⟩ (grown_tick _))
    (fun h₁ e => hfail _ _ ⟨1, by omega, h₁⟩ ((grown_tick _).trans (grown_tick _)))
    (fun j hj _ _ herr e d hgrown => hfail e d ⟨j, hj, herr⟩ (hcq.trans hgrown))
    fun what o' d hgrown heq _ => hundef what o' d (hcq.trans hgrown) heq
  have hgrown := hcq.trans ((grown_tick _).trans (grown_addQp o.device.tick.tick.addCq.tick
    ⟨o.qpType, .reset, none, o.device.next, c, srq⟩))
  have hdevice := hset.device
  refine ⟨?_, ⟨_, o.device.next + 1, rfl, Nat.le_succ _, ?_, hset.qpAt⟩, hset.connected⟩
  · change o.device.Grown s.device
    rw [hdevice]
    exact (hgrown.trans (grown_tick _)).setQp (Nat.le_succ _) _
  · change s.device.qps _ ≠ none
    rw [hdevice]
    exact setQp_qps_ne_none (addQp_qps_ne_none o.device.tick.tick.addCq.tick _)

/-- A queue pair is entered, or the device only grew. -/
theorem wp_initQPForSRQWithSuppliedID_frame {k : ℕ} {Q : Unit → ReliableRDMA → Prop}
    {E : Exn → ReliableRDMA → Prop}
    (hQ : ∀ o', o.toBaseRDMA.Entered id o'.toBaseRDMA → Q () o')
    (hE : ∀ e o' d, o.device.Grown d → o'.toBaseRDMA = { o.toBaseRDMA with device := d } → E e o') :
    wp (initQPForSRQWithSuppliedID k id) Q E o :=
  wp_initQPForSRQWithSuppliedID_entered (fun o' _ => hQ o')
    (fun e d _ hgrown => hE e _ d hgrown rfl) fun _ o' d => hE _ o' d

end ReliableRDMA

namespace BaseRDMA

variable {l : ℕ → Bool} {hold : Hold} {b b' : BaseRDMA} {id : ℕ}

/-- What is known of the thing a call has in hand. -/
def Held (b : BaseRDMA) : Hold → Prop
  | .nothing => True
  | .pair qpPt => ∃ h, qpPt.qp = some h ∧ b.device.qps h ≠ none ∧ ∀ i, (b.qpAt i).qp ≠ some h
  | .entry id => b.Live id

/-- **What reliable connections keep true of their tables.** -/
structure Links (l : ℕ → Bool) (hold : Hold) (b : BaseRDMA) : Prop where
  placed : ∀ i h, (b.qpAt i).qp = some h → h < b.device.next
  /-- A queue pair stands under one id. -/
  apart : ∀ i j h, (b.qpAt i).qp = some h → (b.qpAt j).qp = some h → i = j
  linked : ∀ i, l i = true → hold ≠ .entry i → b.Live i ∧ b.connected.lookup i = some true
  held : b.Held hold

/-- The tables of queue pairs stay, no queue pair dies and no node is
disconnected. -/
structure Stays (b b' : BaseRDMA) : Prop where
  qps : b'.qps = b.qps
  keeps : b.device.Keeps b'.device
  next : b.device.next ≤ b'.device.next
  connected : ∀ i, b.connected.lookup i = some true → b'.connected.lookup i = some true

/-- At most the queue pair of an id dies, and at most the id is
disconnected. -/
structure Parted (b : BaseRDMA) (id : ℕ) (b' : BaseRDMA) : Prop where
  qpAt : ∀ i h, (b'.qpAt i).qp = some h → (b.qpAt i).qp = some h
  others : ∀ i, i ≠ id → b'.qpAt i = b.qpAt i
  keeps : ∀ h, (b.qpAt id).qp ≠ some h → b.device.qps h ≠ none → b'.device.qps h ≠ none
  next : b.device.next ≤ b'.device.next
  connected : ∀ i, i ≠ id → b'.connected.lookup i = b.connected.lookup i

theorem Stays.qpAt (h : b.Stays b') (i : ℕ) : b'.qpAt i = b.qpAt i := by
  unfold BaseRDMA.qpAt
  rw [h.qps]

theorem Stays.live (h : b.Stays b') (hlive : b.Live id) : b'.Live id := by
  obtain ⟨i, hi, hqp⟩ := hlive
  exact ⟨i, by rw [h.qpAt, hi], h.keeps i hqp⟩

/-- The device went on. -/
theorem Stays.of_device {d : Device} (hkeeps : b.device.Keeps d) (hnext : b.device.next ≤ d.next) :
    b.Stays { b with device := d } := ⟨rfl, hkeeps, hnext, fun _ hi => hi⟩

/-- A dead handle is not that of a live queue pair. -/
theorem ne_of_live {d : Device} {h i : ℕ} (hdead : d.next ≤ h) (hlive : d.qps i ≠ none) : h ≠ i := by
  rintro rfl
  exact hlive (d.fresh h hdead).1

namespace Links

theorem mono {l' : ℕ → Bool} (hl : ∀ i, l' i = true → l i = true) (hlinks : b.Links l hold) :
    b.Links l' hold :=
  ⟨hlinks.placed, hlinks.apart, fun i hi => hlinks.linked i (hl i hi), hlinks.held⟩

/-- Fewer nodes are linked. -/
theorem unlink (hlinks : b.Links l hold) : b.Links (Function.update l id false) hold := by
  refine hlinks.mono fun i hi => ?_
  rcases eq_or_ne i id with rfl | hne
  · rw [Function.update_self] at hi
    exact absurd hi (by simp)
  · rwa [Function.update_of_ne hne] at hi

theorem held_stays (hstays : b.Stays b') (hheld : b.Held hold) : b'.Held hold := by
  cases hold with
  | nothing => trivial
  | pair qpPt =>
      obtain ⟨h, hqp, hlive, hout⟩ := hheld
      exact ⟨h, hqp, hstays.keeps h hlive, fun i => by rw [hstays.qpAt]; exact hout i⟩
  | entry i => exact hstays.live hheld

theorem stays (hlinks : b.Links l hold) (hstays : b.Stays b') : b'.Links l hold where
  placed i h hi := by
    rw [hstays.qpAt] at hi
    exact lt_of_lt_of_le (hlinks.placed i h hi) hstays.next
  apart i j h hi hj := by
    rw [hstays.qpAt] at hi hj
    exact hlinks.apart i j h hi hj
  linked i hi hhold := by
    obtain ⟨hlive, hconn⟩ := hlinks.linked i hi hhold
    exact ⟨hstays.live hlive, hstays.connected i hconn⟩
  held := held_stays hstays hlinks.held

/-- A node is linked once its queue pair is live and it is connected. -/
theorem link (hlinks : b.Links l hold) (hlive : b.Live id) (hconn : b.connected.lookup id = some true) :
    b.Links (Function.update l id true) hold := by
  refine ⟨hlinks.placed, hlinks.apart, fun i hi hhold => ?_, hlinks.held⟩
  rcases eq_or_ne i id with rfl | hne
  · exact ⟨hlive, hconn⟩
  · rw [Function.update_of_ne hne] at hi
    exact hlinks.linked i hi hhold

/-- And if it was in hand, it is no more. -/
theorem link_entry (hlinks : b.Links l (.entry id)) (hconn : b.connected.lookup id = some true) :
    b.Links (Function.update l id true) .nothing := by
  refine ⟨hlinks.placed, hlinks.apart, fun i hi _ => ?_, trivial⟩
  rcases eq_or_ne i id with rfl | hne
  · exact ⟨hlinks.held, hconn⟩
  · rw [Function.update_of_ne hne] at hi
    exact hlinks.linked i hi fun hbad => hne (Hold.entry.inj hbad).symm

/-- **A new queue pair** stands under no other id, and is not the one in
hand. -/
theorem enter (hlinks : b.Links l hold) (hentered : b.Entered id b') :
    b'.Links l hold ∧ b'.Live id := by
  obtain ⟨qp, n, hqp, hnew, hlive, hqpAt⟩ := hentered.qpAt
  have hid : b'.Live id := ⟨n, by rw [hqpAt, if_pos rfl, hqp], hlive⟩
  have hof : ∀ {i}, b.Live i → b'.Live i := by
    rintro i ⟨h, hi, hold⟩
    rcases eq_or_ne i id with rfl | hne
    · exact hid
    · exact ⟨h, by rw [hqpAt, if_neg hne, hi], hentered.grown.keeps h hold⟩
  have hback : ∀ {i h}, (b'.qpAt i).qp = some h →
      (i = id ∧ h = n) ∨ (i ≠ id ∧ (b.qpAt i).qp = some h) := by
    intro i h hi
    rw [hqpAt] at hi
    split_ifs at hi with hid
    · exact Or.inl ⟨hid, Option.some.inj (hi.symm.trans hqp)⟩
    · exact Or.inr ⟨hid, hi⟩
  refine ⟨⟨?_, ?_, ?_, ?_⟩, hid⟩
  · intro i h hi
    rcases hback hi with ⟨-, rfl⟩ | ⟨-, hi⟩
    · by_contra hge
      exact hlive (b'.device.fresh h (by omega)).1
    · exact lt_of_lt_of_le (hlinks.placed i h hi) hentered.grown.next
  · intro i j h hi hj
    rcases hback hi with ⟨rfl, rfl⟩ | ⟨hine, hi⟩ <;> rcases hback hj with ⟨hj, hh⟩ | ⟨hjne, hj⟩
    · exact hj.symm
    · exact absurd (hlinks.placed j h hj) (by omega)
    · rw [hh] at hi
      exact absurd (hlinks.placed i n hi) (by omega)
    · exact hlinks.apart i j h hi hj
  · intro i hi hhold
    obtain ⟨hlive, hconn⟩ := hlinks.linked i hi hhold
    exact ⟨hof hlive, by rw [hentered.connected, hconn]⟩
  · have hheld := hlinks.held
    cases hold with
    | nothing => trivial
    | pair qpPt =>
        obtain ⟨h, hh, hold, hout⟩ := hheld
        refine ⟨h, hh, hentered.grown.keeps h hold, fun i hi => ?_⟩
        rcases hback hi with ⟨-, heq⟩ | ⟨-, hi⟩
        · exact ne_of_live hnew hold heq.symm
        · exact hout i hi
    | entry i => exact hof hheld

/-- **A node that parts** takes no other node's queue pair with it, nor the
one in hand. -/
theorem part (hlinks : b.Links l hold) (hparted : b.Parted id b')
    (hhold : ∀ i, hold = .entry i → i ≠ id) :
    b'.Links (Function.update l id false) hold := by
  have hof : ∀ {i}, i ≠ id → b.Live i → b'.Live i := by
    rintro i hne ⟨h, hi, hlive⟩
    refine ⟨h, by rw [hparted.others i hne, hi], hparted.keeps h (fun hbad => hne ?_) hlive⟩
    exact hlinks.apart i id h hi hbad
  refine ⟨?_, ?_, ?_, ?_⟩
  · intro i h hi
    exact lt_of_lt_of_le (hlinks.placed i h (hparted.qpAt i h hi)) hparted.next
  · intro i j h hi hj
    exact hlinks.apart i j h (hparted.qpAt i h hi) (hparted.qpAt j h hj)
  · intro i hi hother
    rcases eq_or_ne i id with rfl | hne
    · rw [Function.update_self] at hi
      exact absurd hi (by simp)
    · rw [Function.update_of_ne hne] at hi
      obtain ⟨hlive, hconn⟩ := hlinks.linked i hi hother
      exact ⟨hof hne hlive, by rw [hparted.connected i hne, hconn]⟩
  · have hheld := hlinks.held
    cases hold with
    | nothing => trivial
    | pair qpPt =>
        obtain ⟨h, hh, hlive, hout⟩ := hheld
        exact ⟨h, hh, hparted.keeps h (hout id) hlive, fun i hi => hout i (hparted.qpAt i h hi)⟩
    | entry i => exact hof (hhold i rfl) hheld

/-- The pair in hand is entered for an id. -/
theorem install {qpPt : IbQp} (hlinks : b.Links l (.pair qpPt)) (hset : QpSet b id qpPt b') :
    b'.Links l (.entry id) := by
  obtain ⟨h, hqp, hlive, hout⟩ := hlinks.held
  have hback : ∀ {i k}, (b'.qpAt i).qp = some k →
      (i = id ∧ k = h) ∨ (i ≠ id ∧ (b.qpAt i).qp = some k) := by
    intro i k hi
    rw [hset.qpAt] at hi
    split_ifs at hi with hid
    · exact Or.inl ⟨hid, Option.some.inj (hi.symm.trans hqp)⟩
    · exact Or.inr ⟨hid, hi⟩
  refine ⟨?_, ?_, ?_, ?_⟩
  · intro i k hi
    rw [hset.device]
    rcases hback hi with ⟨-, rfl⟩ | ⟨-, hi⟩
    · obtain ⟨qp, hqp⟩ := Option.ne_none_iff_exists'.mp hlive
      exact lt_of_qps hqp
    · exact hlinks.placed i k hi
  · intro i j k hi hj
    rcases hback hi with ⟨rfl, rfl⟩ | ⟨-, hi⟩ <;> rcases hback hj with ⟨hj, hk⟩ | ⟨-, hj⟩
    · exact hj.symm
    · exact absurd hj (hout j)
    · exact absurd (hk ▸ hi) (hout i)
    · exact hlinks.apart i j k hi hj
  · intro i hi hother
    have hne : i ≠ id := fun hbad => hother (congrArg Hold.entry hbad.symm)
    obtain ⟨⟨k, hk, hold⟩, hconn⟩ := hlinks.linked i hi (by simp)
    refine ⟨⟨k, ?_, ?_⟩, ?_⟩
    · rw [hset.qpAt, if_neg hne]
      exact hk
    · rw [hset.device]
      exact hold
    · rw [hset.connected]
      exact hconn
  · refine ⟨h, ?_, ?_⟩
    · rw [hset.qpAt, if_pos rfl, hqp]
    · rw [hset.device]
      exact hlive

/-- A pair that was made is in hand, and under no id. -/
theorem hold_new {qpPt : IbQp} {h : ℕ} (hlinks : b.Links l .nothing) (hstays : b.Stays b')
    (hqp : qpPt.qp = some h) (hnew : b.device.next ≤ h) (hlive : b'.device.qps h ≠ none) :
    b'.Links l (.pair qpPt) := by
  have hlinks' := hlinks.stays hstays
  refine ⟨hlinks'.placed, hlinks'.apart, fun i hi _ => hlinks'.linked i hi (by simp), ?_⟩
  refine ⟨h, hqp, hlive, fun i hi => ?_⟩
  rw [hstays.qpAt] at hi
  exact absurd (hlinks.placed i h hi) (Nat.not_lt.mpr hnew)

/-- The pair in hand is destroyed. -/
theorem drop {qpPt : IbQp} {h : ℕ} (hlinks : b.Links l (.pair qpPt)) (hqp : qpPt.qp = some h) :
    ({ b with device := b.device.tick.dropQp h } : BaseRDMA).Links l .nothing := by
  obtain ⟨h', hqp', -, hout⟩ := hlinks.held
  obtain rfl : h' = h := Option.some.inj (hqp'.symm.trans hqp)
  refine ⟨hlinks.placed, hlinks.apart, fun i hi _ => ?_, trivial⟩
  obtain ⟨⟨k, hk, hlive⟩, hconn⟩ := hlinks.linked i hi (by simp)
  refine ⟨⟨k, hk, dropQp_qps_ne_none ?_ hlive⟩, hconn⟩
  rintro rfl
  exact hout i hk

end Links

end BaseRDMA

/-! ## The transport -/

instance : Linker ReliableRDMA where
  Fresh o := o.qps = [] ∧ o.connected = ∅
  Installed o id := o.toBaseRDMA.Live id ∧ o.connected.lookup id = some true
  Able _ := true
  Cleans := true

namespace ReliableRDMA

variable {l : ℕ → Bool} {hold : Hold} {b b' : BaseRDMA} {id : ℕ}

/-- `connectQP` on a live queue pair, for an id that was not disconnected. -/
theorem wp_connectQP_stays {Q : Unit → BaseRDMA → Prop} {E : Exn → BaseRDMA → Prop}
    (hconn : b.connected.lookup id ≠ some false)
    (hQ : ∀ b', b.Stays b' → b'.connected.lookup id = some true → Q () b')
    (hE : ∀ e b', b.Stays b' → E e b') : wp (connectQP id) Q E b := by
  refine wp_connectQP ?_ ?_ ?_ ?_
  · intro hin
    refine hQ b (Stays.of_device (Keeps.refl _) le_rfl) ?_
    obtain ⟨flag, hflag⟩ := Finmap.mem_iff.mp hin
    cases flag with
    | false => exact absurd hflag hconn
    | true => exact hflag
  · intro h old hout _
    refine hQ _ ⟨rfl, ?_, le_rfl, fun i hi => ?_⟩ (Finmap.lookup_insert _)
    · change b.device.Keeps (b.device.readied h old _)
      rw [← readied_eq]
      exact (((moved_tick _).setQp h _).tick.setQp h _).keeps
    · rcases eq_or_ne i id with rfl | hne
      · exact Finmap.lookup_insert _
      · change Finmap.lookup i (b.connected.insert id true) = _
        rw [Finmap.lookup_insert_of_ne _ hne, hi]
  · intro e d _ _ hmoved
    exact hE e _ (Stays.of_device hmoved.keeps hmoved.next.ge)
  · intro e _ _
    exact ⟨hE e b (Stays.of_device (Keeps.refl _) le_rfl),
      hE e _ (Stays.of_device (moved_tick _).keeps le_rfl)⟩

/-- `disconnectQP` parts the id, or does nothing to it. -/
theorem wp_disconnectQP_parted {Q : Unit → BaseRDMA → Prop} {E : Exn → BaseRDMA → Prop}
    (hstay : b.connected.lookup id ≠ some true → Q () b)
    (hQ : ∀ b', b.connected.lookup id = some true → b.Parted id b' → Q () b')
    (hE : ∀ e b', b.connected.lookup id = some true → b.Parted id b' → E e b') :
    wp (disconnectQP id) Q E b := by
  have hinsert : ∀ i, i ≠ id → (b.connected.insert id false).lookup i = b.connected.lookup i :=
    fun i hne => Finmap.lookup_insert_of_ne _ hne
  refine wp_disconnectQP hstay ?_ ?_ ?_ ?_
  · intro hconn _
    exact hQ _ hconn ⟨fun _ _ hi => hi, fun _ _ => rfl, fun _ _ hlive => hlive, le_rfl, hinsert⟩
  · intro h d hconn hlt hqp hreaped
    have hqpAt := qpAt_disconnected (d := d) hlt
    have hback : ∀ i j, ((disconnected b id d).qpAt i).qp = some j → (b.qpAt i).qp = some j := by
      intro i j hi
      rw [hqpAt] at hi
      split_ifs at hi
      exact hi
    have hothers : ∀ i, i ≠ id → (disconnected b id d).qpAt i = b.qpAt i := fun i hne => by
      rw [hqpAt, if_neg hne]
    have hkeeps : ∀ j, (b.qpAt id).qp ≠ some j → b.device.qps j ≠ none → d.qps j ≠ none := by
      intro j hj hlive
      rw [hreaped.qps]
      exact dropQp_qps_ne_none (fun hbad => hj (hbad ▸ hqp)) hlive
    have hnext : b.device.next ≤ d.next := hreaped.next.ge
    refine ⟨hQ _ hconn ?_, fun e => hE e _ hconn ?_⟩
    · exact ⟨hback, hothers, hkeeps, hnext, hinsert⟩
    · exact ⟨hback, hothers, hkeeps, hnext, fun _ _ => rfl⟩
  · intro e hconn
    refine ⟨hE e _ hconn ?_, hE e _ hconn ?_⟩ <;>
      exact ⟨fun _ _ hi => hi, fun _ _ => rfl, fun _ _ hlive => hlive, le_rfl, fun _ _ => rfl⟩
  · intro h e hconn hqp _
    refine hE e _ hconn ⟨fun _ _ hi => hi, fun _ _ => rfl, ?_, le_rfl, fun _ _ => rfl⟩
    intro j hj hlive
    exact dropQp_qps_ne_none (fun hbad => hj (hbad ▸ hqp)) hlive

/-- What is entered for an id, with or without a shared receive queue. -/
theorem wp_enter {o : ReliableRDMA} {x : Act ReliableRDMA Unit} {Q : Unit → ReliableRDMA → Prop}
    {E : Exn → ReliableRDMA → Prop}
    (hx : x = RdmaApi.initQPWithSuppliedID id ∨ ∃ srq, x = RdmaApi.initQPForSRQWithSuppliedID srq id)
    (hQ : ∀ o', o.toBaseRDMA.Entered id o'.toBaseRDMA → Q () o')
    (hE : ∀ e o', o.toBaseRDMA.Stays o'.toBaseRDMA → E e o') : wp x Q E o := by
  rcases hx with rfl | ⟨srq, rfl⟩
  · change wp (onBase (initQPWithSuppliedID id)) _ _ _
    rw [wp_onBase]
    refine wp_initQPWithSuppliedID (fun b' hinit => hQ _ hinit.entered) fun e d _ hgrown => hE e _ ?_
    exact Stays.of_device hgrown.keeps hgrown.next
  · refine wp_initQPForSRQWithSuppliedID_frame hQ fun e o' d hgrown heq => hE e o' ?_
    rw [heq]
    exact Stays.of_device hgrown.keeps hgrown.next

/-- **Reliable connections are lawful.** -/
theorem lawful : Lawful fun l hold (o : ReliableRDMA) => o.toBaseRDMA.Links l hold where
  fresh := by
    rintro o ⟨hqps, -⟩
    have hnull : ∀ i, o.qpAt i = IbQp.null := by
      intro i
      unfold qpAt
      rw [hqps]
      exact List.getD_nil
    refine ⟨?_, ?_, fun _ hbad => absurd hbad (by simp), trivial⟩
    · intro i h hi
      rw [hnull] at hi
      exact absurd hi (by simp [IbQp.null])
    · intro i j h hi
      rw [hnull] at hi
      exact absurd hi (by simp [IbQp.null])
  mono hW hl := hW.mono hl
  installed hW hl := hW.linked _ hl (by simp)
  init_pair := by
    intro l o stack hW
    change wp (do
      let made ← onBase (initQPDetached IbQp.null stack)
      return (made.1, made.1, made.2)) _ _ _
    simp only [wp_bind, wp_pure, wp_onBase]
    refine wp_initQPDetached (fun _ => ?_) fun e d _ hgrown => hgrown.keeps
    have hgrown := grown_queuePair o.device o.qpType
    refine ⟨hW.hold_new (Stays.of_device hgrown.keeps hgrown.next) rfl (Nat.le_add_right _ 2) ?_,
      hgrown.keeps, fun _ => ⟨trivial, ?_⟩⟩
    · change (o.device.queuePair o.qpType).qps _ ≠ none
      rw [queuePair_qps, Function.update_self]
      exact Option.some_ne_none _
    · intro h hh
      obtain rfl := Option.some.inj hh
      change o.device.next ≤ o.device.next + 2 ∧ o.device.next + 2 < o.device.next + 3
      omega
  set_qp := by
    intro l o id qpPt hW
    obtain ⟨h, hqp, -, -⟩ := hW.held
    rw [RdmaApi.wp_onBase]
    refine wp_setQP hqp (fun b' hset => ⟨hW.install hset, ?_⟩) fun _ _ => Keeps.refl _
    change o.device.Keeps b'.device
    rw [hset.device]
    exact Keeps.refl _
  set_local := by
    intro l o id conn hW
    rw [RdmaApi.wp_onBase]
    refine wp_setLocalConnData (fun lconns _ _ => ⟨?_, Keeps.refl _⟩) fun _ _ => Keeps.refl _
    exact hW.stays ⟨rfl, Keeps.refl _, le_rfl, fun _ hi => hi⟩
  set_remote := by
    intro l o id conn hW
    rw [RdmaApi.wp_onBase]
    refine wp_setRemoteConnData (fun rconns _ _ _ => ⟨?_, Keeps.refl _⟩) fun _ _ => Keeps.refl _
    exact hW.stays ⟨rfl, Keeps.refl _, le_rfl, fun _ hi => hi⟩
  connect_qp := by
    intro l o id hW hconn _
    rw [RdmaApi.wp_onBase]
    change wp (connectQP id) _ _ o.toBaseRDMA
    refine wp_connectQP_stays hconn (fun b' hstays hdone => ?_) fun e b' hstays => hstays.keeps
    exact ⟨(hW.stays hstays).link_entry hdone, hstays.keeps⟩
  destroy_qp := by
    intro l o qp _ hW
    obtain ⟨h, hqp, hlive, -⟩ := hW.held
    obtain ⟨old, hold⟩ := Option.ne_none_iff_exists'.mp hlive
    rw [RdmaApi.wp_onBase, hqp]
    change wp (onDevice (ibvDestroyQp (some h))) _ _ o.toBaseRDMA
    rw [wp_onDevice, wp_ibvDestroyQp hold]
    refine ⟨fun _ => ⟨fun _ => hW.drop hqp, ?_⟩, fun herr => ⟨fun hzero => absurd hzero herr, ?_⟩⟩
    · intro i hi hlive
      exact dropQp_qps_ne_none (fun hbad => hi (congrArg some hbad.symm)) hlive
    · intro i _ hlive
      exact hlive
  destroy_cq := by
    intro l o c c' hW
    rw [RdmaApi.wp_onBase]
    change wp (onDevice (destroyCQ c c')) _ _ o.toBaseRDMA
    rw [wp_onDevice]
    refine wp_destroyCQ_frame (fun d hreaped => ⟨?_, hreaped.keeps⟩) fun _ d hreaped => hreaped.keeps
    exact hW.stays (Stays.of_device hreaped.keeps hreaped.next.ge)
  set_up := by
    intro l hold o id hW hconn _ x hx
    refine wp_enter hx (fun o₁ hentered conn => ?_) fun e o₁ hstays => hW.stays hstays
    obtain ⟨hW₁, hlive₁⟩ := hW.enter hentered
    rw [RdmaApi.wp_onBase]
    refine wp_setRemoteConnData (fun rconns _ _ _ => ?_) fun _ _ => hW₁
    have hstays : o₁.toBaseRDMA.Stays { o₁.toBaseRDMA with rconns } :=
      ⟨rfl, Keeps.refl _, le_rfl, fun _ hi => hi⟩
    have hW₂ := hW₁.stays hstays
    rw [RdmaApi.wp_onBase]
    change wp (connectQP id) _ _ { o₁.toBaseRDMA with rconns }
    refine wp_connectQP_stays ?_ ?_ ?_
    · change o₁.connected.lookup id ≠ some false
      rw [hentered.connected]
      exact hconn
    · intro b' hstays' hdone
      exact (hW₂.stays hstays').link (hstays'.live (hstays.live hlive₁)) hdone
    · intro e b' hstays'
      exact hW₂.stays hstays'
  disconnect_qp := by
    intro l hold o id hW hhold
    rw [RdmaApi.wp_onBase]
    change wp (disconnectQP id) _ _ o.toBaseRDMA
    refine wp_disconnectQP_parted (fun _ => hW.unlink) (fun b' hconn hparted => ?_)
      fun e b' hconn hparted => ?_
    · exact hW.part hparted (hhold hconn)
    · exact hW.part hparted (hhold hconn)

end ReliableRDMA

end RdmaManager
