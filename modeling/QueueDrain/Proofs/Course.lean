import Mathlib.Logic.Relation
import QueueDrain.Course

/-!
# How a course grows

Every part of a run changes its course through a handful of operations. They are collected here as
one relation, so that a fact about all of them is a fact about everything a run can do to its
course, whatever the part of the program that does it.

## Main definitions

* `Course.Act`, `Course.Reaches` — one operation on a course, and several
* `Course.Deed`, `Course.Calmly` — those that take no time and begin no depth reading
* `Course.Raced` — several choices between things that are ready at one instant
* `Course.Extends`, `Course.Settles` — a later course, with the entries that lie between

## Main results

* `Course.Reaches.extends` — the trace only grows, its instants never go back, and the counter
  counts the rejections in it
-/

namespace QueueDrain

variable {ω : Type} {E : Environment ω}

/-! ### Instants -/

theorem reached_eq_false {instant : Option Nat} {now : Nat} :
    reached instant now = false ↔ ∀ t, instant = some t → now < t := by
  cases instant <;> simp [reached]

theorem mem_of_earliest {xs : List (Option Nat)} {t : Nat} (h : earliest xs = some t) :
    some t ∈ xs := by
  induction xs generalizing t with
  | nil => cases h
  | cons x rest ih =>
    cases x with
    | none => exact List.mem_cons_of_mem _ (ih h)
    | some u =>
      rw [earliest] at h
      cases hrest : earliest rest with
      | none =>
        rw [hrest] at h
        exact h ▸ List.mem_cons_self
      | some v =>
        rw [hrest] at h
        obtain rfl := Option.some.inj h
        rcases Nat.le_total u v with hle | hle
        · rw [Nat.min_eq_left hle]
          exact List.mem_cons_self
        · rw [Nat.min_eq_right hle]
          exact List.mem_cons_of_mem _ (ih hrest)

theorem earliest_le {xs : List (Option Nat)} {t : Nat} (ht : some t ∈ xs) :
    ∃ u, earliest xs = some u ∧ u ≤ t := by
  induction xs with
  | nil => cases ht
  | cons x rest ih =>
    cases x with
    | none => exact ih (by simpa using ht)
    | some v =>
      rw [earliest]
      rcases List.mem_cons.mp ht with heq | hrest
      · obtain rfl := Option.some.inj heq
        cases earliest rest with
        | none => exact ⟨t, rfl, Nat.le_refl t⟩
        | some w => exact ⟨min t w, rfl, Nat.min_le_left t w⟩
      · obtain ⟨u, hu, hle⟩ := ih hrest
        rw [hu]
        exact ⟨min v u, rfl, Nat.le_trans (Nat.min_le_right v u) hle⟩

/-! ### Events -/

/-- What the environment brings on beside its answers: lines of the log and the interrupt. -/
def Event.isAside : Event → Bool
  | .notice _ | .interrupted => true
  | _ => false

/-- A message was rejected. -/
def Event.isRejection : Event → Bool
  | .rejected _ => true
  | _ => false

theorem Event.isRejection_of_isAside {e : Event} (h : e.isAside = true) :
    e.isRejection = false := by
  cases e <;> simp_all [isAside, isRejection]

/-- How many messages a trace rejects. -/
def Entry.rejections (trace : List Entry) : Nat := trace.countP fun e => e.event.isRejection

@[simp] theorem Entry.rejections_nil : Entry.rejections [] = 0 := rfl

@[simp] theorem Entry.rejections_append (new old : List Entry) :
    Entry.rejections (new ++ old) = Entry.rejections new + Entry.rejections old :=
  List.countP_append

@[simp] theorem Entry.rejections_cons (e : Entry) (old : List Entry) :
    Entry.rejections (e :: old)
      = Entry.rejections old + if e.event.isRejection then 1 else 0 := by
  simp [Entry.rejections, List.countP_cons]

namespace Course

variable {c c' c'' : Course ω} {α : Type}

/-! ### The operations, field by field -/

@[simp] theorem note_now (c : Course ω) (e : Event) : (c.note e).now = c.now := rfl

@[simp] theorem note_world (c : Course ω) (e : Event) : (c.note e).world = c.world := rfl

@[simp] theorem note_interrupted (c : Course ω) (e : Event) :
    (c.note e).interrupted = c.interrupted := rfl

@[simp] theorem note_rejected (c : Course ω) (e : Event) : (c.note e).rejected = c.rejected := rfl

@[simp] theorem note_trace (c : Course ω) (e : Event) :
    (c.note e).trace = ⟨c.now, e⟩ :: c.trace := rfl

@[simp] theorem tell_eq (c : Course ω) (line : Notice) : c.tell line = c.note (.notice line) := rfl

/-- Telling several lines only adds them to the trace. -/
theorem foldl_tell (lines : List Notice) (c : Course ω) :
    lines.foldl tell c
      = { c with trace := (lines.reverse.map fun l => ⟨c.now, .notice l⟩) ++ c.trace } := by
  induction lines generalizing c with
  | nil => rfl
  | cons l rest ih => rw [List.foldl_cons, ih]; simp

/-- What an effect leaves, with the entries that it adds written out. -/
theorem absorb_eq (c : Course ω) (effect : Effect ω α) :
    c.absorb effect =
      { c with
        world := effect.state
        interrupted := c.interrupted || effect.interrupts
        trace := (if effect.interrupts && !c.interrupted then [⟨c.now, .interrupted⟩] else [])
          ++ (effect.notices.reverse.map fun l => ⟨c.now, .notice l⟩) ++ c.trace } := by
  rw [absorb, foldl_tell]
  cases effect.interrupts <;> cases c.interrupted <;> simp

@[simp] theorem absorb_now (c : Course ω) (effect : Effect ω α) :
    (c.absorb effect).now = c.now := by rw [absorb_eq]

@[simp] theorem absorb_world (c : Course ω) (effect : Effect ω α) :
    (c.absorb effect).world = effect.state := by rw [absorb_eq]

@[simp] theorem absorb_rejected (c : Course ω) (effect : Effect ω α) :
    (c.absorb effect).rejected = c.rejected := by rw [absorb_eq]

@[simp] theorem absorb_interrupted (c : Course ω) (effect : Effect ω α) :
    (c.absorb effect).interrupted = (c.interrupted || effect.interrupts) := by rw [absorb_eq]

/-- An effect adds asides of its own instant. -/
theorem absorb_trace (c : Course ω) (effect : Effect ω α) :
    ∃ asides, (c.absorb effect).trace = asides ++ c.trace ∧
      ∀ e ∈ asides, e.time = c.now ∧ e.event.isAside = true := by
  refine ⟨(if effect.interrupts && !c.interrupted then [⟨c.now, .interrupted⟩] else [])
    ++ effect.notices.reverse.map fun l => ⟨c.now, .notice l⟩, by rw [absorb_eq], ?_⟩
  intro e he
  rcases List.mem_append.mp he with he | he
  · split at he
    · obtain rfl := List.mem_singleton.mp he; exact ⟨rfl, rfl⟩
    · exact absurd he List.not_mem_nil
  · obtain ⟨l, -, rfl⟩ := List.mem_map.mp he; exact ⟨rfl, rfl⟩

/-- The event that an answer is. -/
def answer (r : Request) : Except DrainError Nat → Event
  | .ok count => .answered r count
  | .error cause => .failed r cause

theorem finish_eq (c : Course ω) (r : Request) :
    c.finish E r =
      ((c.absorb (E.answer c.now r c.world)).note (answer r (E.answer c.now r c.world).value),
        (E.answer c.now r c.world).value) := by
  rw [finish]
  cases (E.answer c.now r c.world).value <;> rfl

/-- A request adds its beginning, and asides on top of it. -/
theorem begin_trace (c : Course ω) (r : Request) :
    ∃ asides, (c.begin E r).1.trace = asides ++ ⟨c.now, .began r⟩ :: c.trace ∧
      ∀ e ∈ asides, e.time = c.now ∧ e.event.isAside = true :=
  absorb_trace (c.note (.began r)) (E.start c.now r c.world)

/-- An answer is added on top of the asides that come with it. -/
theorem finish_trace {r : Request} {value : Except DrainError Nat}
    (h : c.finish E r = (c', value)) :
    ∃ asides, c'.trace = ⟨c.now, answer r value⟩ :: (asides ++ c.trace) ∧
      ∀ e ∈ asides, e.time = c.now ∧ e.event.isAside = true := by
  obtain ⟨asides, htrace, hall⟩ := absorb_trace c (E.answer c.now r c.world)
  rw [finish_eq] at h
  obtain ⟨rfl, rfl⟩ := Prod.mk.inj h
  exact ⟨asides, by rw [note_trace, absorb_now, htrace], hall⟩

@[simp] theorem race_now (c : Course ω) : (c.race E).1.now = c.now := rfl

@[simp] theorem race_interrupted (c : Course ω) :
    (c.race E).1.interrupted = c.interrupted := rfl

@[simp] theorem race_rejected (c : Course ω) : (c.race E).1.rejected = c.rejected := rfl

@[simp] theorem race_trace (c : Course ω) : (c.race E).1.trace = c.trace := rfl

@[simp] theorem begin_world (c : Course ω) (r : Request) :
    (c.begin E r).1.world = (E.start c.now r c.world).state := absorb_world _ _

@[simp] theorem finish_world (c : Course ω) (r : Request) :
    (c.finish E r).1.world = (E.answer c.now r c.world).state := by
  rw [finish_eq, note_world, absorb_world]

@[simp] theorem ask_world (c : Course ω) :
    (c.ask E).1.world = (E.ask c.now c.world).state := by
  rw [ask]
  split
  · exact absorb_world c _
  · exact absorb_world c _

@[simp] theorem startReject_world (c : Course ω) (tag : Nat) :
    (c.startReject E tag).1.world = (E.startReject c.now tag c.world).state := absorb_world _ _

@[simp] theorem finishReject_world (c : Course ω) (tag : Nat) :
    (c.finishReject E tag).1.world = (E.finishReject c.now tag c.world).state := by
  rw [finishReject, note_world]
  split
  · exact absorb_world c _
  · exact absorb_world c _

theorem advance_eq_or (c : Course ω) (wakes : List (Option Nat)) :
    c.advance E wakes = c ∨
      ∃ t, c.now ≤ t ∧ c.advance E wakes = { c with now := t }.absorb (E.pass t c.world) := by
  rw [advance]
  split
  · exact .inl rfl
  · rename_i t _
    exact .inr ⟨max c.now t, Nat.le_max_left .., rfl⟩

/-- Where everything that is waited for is still to come, time passes. -/
theorem lt_advance (c : Course ω) {wakes : List (Option Nat)} {t : Nat} (ht : some t ∈ wakes)
    (hlater : ∀ u, some u ∈ E.nextChange c.world :: wakes → c.now < u) :
    c.now < (c.advance E wakes).now := by
  obtain ⟨u, hu, -⟩ := earliest_le (List.mem_cons_of_mem (E.nextChange c.world) ht)
  have hlt : c.now < u := hlater u (mem_of_earliest hu)
  simp only [advance, hu, absorb_now]
  omega

/-! ### All operations as one relation -/

/-- One operation on a course that takes no time and begins no depth reading. -/
inductive Deed (E : Environment ω) (c : Course ω) : Course ω → Prop
  | tell (line : Notice) : Deed E c (c.tell line)
  | begin (r : Request) (hr : r ≠ .depth) : Deed E c (c.begin E r).1
  | finish (r : Request) : Deed E c (c.finish E r).1
  | ask : Deed E c (c.ask E).1
  | startReject (tag : Nat) : Deed E c (c.startReject E tag).1
  | finishReject (tag : Nat) : Deed E c (c.finishReject E tag).1
  | race : Deed E c (c.race E).1

/-- One operation on a course. -/
inductive Act (E : Environment ω) (c : Course ω) : Course ω → Prop
  | deed {c' : Course ω} (h : Deed E c c') : Act E c c'
  | read : Act E c (c.begin E .depth).1
  | advance (wakes : List (Option Nat)) : Act E c (c.advance E wakes)

/-- Several operations on a course that take no time and begin no depth reading. -/
def Calmly (E : Environment ω) : Course ω → Course ω → Prop := Relation.ReflTransGen (Deed E)

theorem Calmly.refl (c : Course ω) : Calmly E c c := Relation.ReflTransGen.refl

theorem Deed.calmly (h : Deed E c c') : Calmly E c c' := Relation.ReflTransGen.single h

theorem Calmly.trans (h : Calmly E c c') (h' : Calmly E c' c'') : Calmly E c c'' :=
  Relation.ReflTransGen.trans h h'

theorem Calmly.deed (h : Calmly E c c') (h' : Deed E c' c'') : Calmly E c c'' := h.tail h'

/-- Several operations on a course. -/
def Reaches (E : Environment ω) : Course ω → Course ω → Prop := Relation.ReflTransGen (Act E)

theorem Reaches.refl (c : Course ω) : Reaches E c c := Relation.ReflTransGen.refl

theorem Reaches.trans (h : Reaches E c c') (h' : Reaches E c' c'') : Reaches E c c'' :=
  Relation.ReflTransGen.trans h h'

theorem Reaches.act (h : Reaches E c c') (h' : Act E c' c'') : Reaches E c c'' := h.tail h'

theorem Calmly.reaches (h : Calmly E c c') : Reaches E c c' :=
  Relation.ReflTransGen.mono (fun _ _ h => Act.deed h) _ _ h

/-- Several choices between things that are ready at one instant. -/
def Raced (E : Environment ω) : Course ω → Course ω → Prop :=
  Relation.ReflTransGen fun c c' => c' = (c.race E).1

theorem Raced.refl (c : Course ω) : Raced E c c := Relation.ReflTransGen.refl

theorem raced_race (c : Course ω) : Raced E c (c.race E).1 := Relation.ReflTransGen.single rfl

/-- A choice is known to the environment alone. -/
theorem Raced.eq (h : Raced E c c') : ∃ world, c' = { c with world } := by
  induction h with
  | refl => exact ⟨c.world, rfl⟩
  | tail _ hlast ih =>
    obtain ⟨world, rfl⟩ := ih
    exact ⟨_, hlast⟩

theorem Raced.now_eq (h : Raced E c c') : c'.now = c.now := by
  obtain ⟨world, rfl⟩ := h.eq
  rfl

theorem Raced.calmly (h : Raced E c c') : Calmly E c c' := by
  induction h with
  | refl => exact .refl c
  | tail _ hlast ih => subst hlast; exact ih.deed .race

/-! ### What all operations have in common -/

/-- The course `c'` is later than `c`, and `new` is what was added to the trace. -/
structure Extends (c c' : Course ω) (new : List Entry) : Prop where
  trace : c'.trace = new ++ c.trace
  now_le : c.now ≤ c'.now
  /-- The new entries lie between the two instants. -/
  time : ∀ e ∈ new, c.now ≤ e.time ∧ e.time ≤ c'.now
  /-- The newest entry comes first. -/
  sorted : new.Pairwise fun later earlier => earlier.time ≤ later.time
  rejected : c'.rejected = c.rejected + UInt64.ofNat (Entry.rejections new)

theorem Extends.refl (c : Course ω) : Extends c c [] where
  trace := rfl
  now_le := Nat.le_refl _
  time := by simp
  sorted := .nil
  rejected := by simp

theorem Extends.trans {new new' : List Entry} (h : Extends c c' new)
    (h' : Extends c' c'' new') : Extends c c'' (new' ++ new) where
  trace := by rw [h'.trace, h.trace, List.append_assoc]
  now_le := Nat.le_trans h.now_le h'.now_le
  time e he := by
    rcases List.mem_append.mp he with he | he
    · exact ⟨Nat.le_trans h.now_le (h'.time e he).1, (h'.time e he).2⟩
    · exact ⟨(h.time e he).1, Nat.le_trans (h.time e he).2 h'.now_le⟩
  sorted := List.pairwise_append.mpr
    ⟨h'.sorted, h.sorted, fun a ha b hb => Nat.le_trans (h.time b hb).2 (h'.time a ha).1⟩
  rejected := by
    rw [h'.rejected, h.rejected, Entry.rejections_append, UInt64.ofNat_add]
    ac_rfl

/-- No entry of a course is later than its clock. -/
theorem Extends.time_le {new : List Entry} (h : Extends c c' new)
    (hc : ∀ e ∈ c.trace, e.time ≤ c.now) : ∀ e ∈ c'.trace, e.time ≤ c'.now := by
  intro e he
  rw [h.trace] at he
  rcases List.mem_append.mp he with he | he
  · exact (h.time e he).2
  · exact Nat.le_trans (hc e he) h.now_le

/-- An event of this instant that is no rejection. -/
theorem extends_note (c : Course ω) {e : Event} (h : e.isRejection = false) :
    Extends c (c.note e) [⟨c.now, e⟩] where
  trace := rfl
  now_le := Nat.le_refl _
  time := by simp
  sorted := List.pairwise_singleton ..
  rejected := by simp [h]

/-- The one event that moves the counter. -/
theorem extends_count (c : Course ω) (tag : Nat) :
    Extends c ({ c with rejected := c.rejected + 1 }.note (.rejected tag))
      [⟨c.now, .rejected tag⟩] where
  trace := rfl
  now_le := Nat.le_refl _
  time := by simp
  sorted := List.pairwise_singleton ..
  rejected := by simp [Event.isRejection]

theorem extends_absorb (c : Course ω) (effect : Effect ω α) :
    ∃ asides, Extends c (c.absorb effect) asides ∧ ∀ e ∈ asides, e.event.isAside = true := by
  obtain ⟨asides, htrace, hall⟩ := absorb_trace c effect
  refine ⟨asides, ⟨htrace, by simp, fun e he => by simp [(hall e he).1], ?_, ?_⟩,
    fun e he => (hall e he).2⟩
  · exact List.pairwise_of_forall_mem_list fun a ha b hb =>
      Nat.le_of_eq ((hall b hb).1.trans (hall a ha).1.symm)
  · have hnone : Entry.rejections asides = 0 :=
      List.countP_eq_zero.mpr fun e he => by
        rw [Event.isRejection_of_isAside (hall e he).2]; simp
    rw [hnone, absorb_rejected]
    simp

/-- What an operation adds that takes no time and begins no depth reading. -/
structure Settles (c c' : Course ω) (new : List Entry) : Prop extends Extends c c' new where
  now_eq : c'.now = c.now
  not_began : ∀ e ∈ new, e.event ≠ .began .depth

theorem Settles.refl (c : Course ω) : Settles c c [] := ⟨.refl c, rfl, by simp⟩

theorem Settles.trans {new new' : List Entry} (h : Settles c c' new)
    (h' : Settles c' c'' new') : Settles c c'' (new' ++ new) where
  toExtends := h.toExtends.trans h'.toExtends
  now_eq := h'.now_eq.trans h.now_eq
  not_began e he := (List.mem_append.mp he).elim (h'.not_began e) (h.not_began e)

theorem settles_note (c : Course ω) {e : Event} (h : e.isRejection = false)
    (he : e ≠ .began .depth) : Settles c (c.note e) [⟨c.now, e⟩] :=
  ⟨extends_note c h, rfl, by simpa using he⟩

theorem settles_absorb (c : Course ω) (effect : Effect ω α) :
    ∃ asides, Settles c (c.absorb effect) asides := by
  obtain ⟨asides, h, hall⟩ := extends_absorb c effect
  refine ⟨asides, h, absorb_now c effect, fun e he hbegan => ?_⟩
  have haside := hall e he
  rw [hbegan] at haside
  cases haside

/-- The instant of an entry that takes no time. -/
theorem Settles.time_eq {new : List Entry} (h : Settles c c' new) {e : Entry} (he : e ∈ new) :
    e.time = c.now := by
  have := h.time e he
  rw [h.now_eq] at this
  omega

theorem Deed.settles (h : Deed E c c') : ∃ new, Settles c c' new := by
  cases h with
  | tell line => exact ⟨_, settles_note c rfl (by simp)⟩
  | begin r hr =>
    obtain ⟨asides, h⟩ := settles_absorb (c.note (.began r)) (E.start c.now r c.world)
    exact ⟨_, (settles_note c rfl (by simpa using hr)).trans h⟩
  | finish r =>
    obtain ⟨asides, h⟩ := settles_absorb c (E.answer c.now r c.world)
    rw [finish_eq]
    refine ⟨_, h.trans (settles_note _ ?_ ?_)⟩
    all_goals cases (E.answer c.now r c.world).value <;> simp [answer, Event.isRejection]
  | ask =>
    obtain ⟨asides, h⟩ := settles_absorb c (E.ask c.now c.world)
    rw [Course.ask]
    cases (E.ask c.now c.world).value <;> simp only [Offer.event?]
    case wait => exact ⟨_, h⟩
    all_goals exact ⟨_, h.trans (settles_note _ rfl (by simp))⟩
  | startReject tag => exact settles_absorb c (E.startReject c.now tag c.world)
  | finishReject tag =>
    obtain ⟨asides, h⟩ := settles_absorb c (E.finishReject c.now tag c.world)
    rw [Course.finishReject]
    cases (E.finishReject c.now tag c.world).value <;>
      simp only [Settlement.event, ↓reduceIte, reduceCtorEq]
    case done => exact ⟨_, h.trans ⟨extends_count _ tag, rfl, by simp⟩⟩
    all_goals exact ⟨_, h.trans (settles_note _ rfl (by simp))⟩
  | race => exact ⟨[], ⟨rfl, Nat.le_refl _, by simp, .nil, by simp⟩, rfl, by simp⟩

/-- Operations that take no time add entries of one instant, and none that begins a reading. -/
theorem Calmly.settles (h : Calmly E c c') : ∃ new, Settles c c' new := by
  induction h with
  | refl => exact ⟨[], .refl c⟩
  | tail _ hlast ih =>
    obtain ⟨new, hnew⟩ := ih
    obtain ⟨last, hlast⟩ := hlast.settles
    exact ⟨_, hnew.trans hlast⟩

theorem Calmly.now_eq (h : Calmly E c c') : c'.now = c.now := by
  obtain ⟨new, hnew⟩ := h.settles
  exact hnew.now_eq

/-- A depth reading begins. -/
theorem extends_read (c : Course ω) :
    ∃ asides, Extends c (c.begin E .depth).1 (asides ++ [⟨c.now, .began .depth⟩]) ∧
      (c.begin E .depth).1.now = c.now ∧ ∀ e ∈ asides, e.event.isAside = true := by
  obtain ⟨asides, h, hall⟩ :=
    extends_absorb (c.note (.began .depth)) (E.start c.now .depth c.world)
  exact ⟨asides, (extends_note c rfl).trans h, absorb_now _ _, hall⟩

/-- Time passes, and what comes then comes at the end of it. -/
theorem extends_advance (c : Course ω) (wakes : List (Option Nat)) :
    ∃ asides, Extends c (c.advance E wakes) asides ∧
      ∀ e ∈ asides, e.event.isAside = true ∧ e.time = (c.advance E wakes).now := by
  rcases advance_eq_or (E := E) c wakes with h | ⟨t, ht, h⟩
  · rw [h]; exact ⟨[], .refl c, by simp⟩
  · obtain ⟨asides, hext, hall⟩ := extends_absorb { c with now := t } (E.pass t c.world)
    have hclock : Extends c { c with now := t } [] := ⟨rfl, ht, by simp, .nil, by simp⟩
    rw [h]
    refine ⟨asides, by simpa using hclock.trans hext, fun e he => ⟨hall e he, ?_⟩⟩
    have := hext.time e he
    simp only [absorb_now] at this ⊢
    omega

theorem Act.extends (h : Act E c c') : ∃ new, Extends c c' new := by
  cases h with
  | deed h =>
    obtain ⟨new, hnew⟩ := h.settles
    exact ⟨new, hnew.toExtends⟩
  | read =>
    obtain ⟨asides, h, -⟩ := extends_read (E := E) c
    exact ⟨_, h⟩
  | advance wakes =>
    obtain ⟨asides, h, -⟩ := extends_advance (E := E) c wakes
    exact ⟨_, h⟩

/-- **A course only grows.** -/
theorem Reaches.extends (h : Reaches E c c') : ∃ new, Extends c c' new := by
  induction h with
  | refl => exact ⟨[], .refl c⟩
  | tail _ hlast ih =>
    obtain ⟨new, hnew⟩ := ih
    obtain ⟨last, hlast⟩ := hlast.extends
    exact ⟨_, hnew.trans hlast⟩

end Course

end QueueDrain
