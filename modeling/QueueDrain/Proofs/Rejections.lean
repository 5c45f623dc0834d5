import QueueDrain.Proofs.Images
import QueueDrain.Proofs.Settlement

/-!
# A consumer from its beginning to its end

How often the environment is asked for something cannot be read off a trace. An environment can be
made to record the calls to it, and a run does not notice. With that record a run of a consumer is
described from its beginning to its end: what it asks for and when, what becomes of everything it
takes, and how it comes to its end.

## Main definitions

* `Consumer.recorded`, `Consumer.Run.calls` — an environment that records calls, and its record
* `Consumer.Logged` — a consumer whose calls account for what it has taken
* `Consumer.Rejects` — what a run of a consumer is like from its beginning to its end

## Main results

* `Consumer.Run.map_observed` — recording changes nothing
* `Consumer.Move.logged`, `Consumer.Run.count_step` — which calls are made
* `Consumer.run_rejects` — every run of a consumer with a limit
-/

namespace QueueDrain

namespace Consumer

variable {ω : Type} {p : Nat} {events : List Event} {E : Environment ω} {queue : String}
  {c c' : Course ω}

/-! ### Calls -/

/-- What a consumer asks of its environment. -/
inductive Call where
  /-- The next delivery. -/
  | ask
  /-- The rejection of a delivery, with the instant at which it will be over. -/
  | reject (tag : Nat) (due : Option Nat)
deriving DecidableEq

/-- The delivery whose rejection a call asks for. -/
def Call.tag? : Call → Option Nat
  | .ask => none
  | .reject tag _ => some tag

/-- The environment, which keeps a record of the calls to it, latest first. -/
def recorded (E : Environment ω) : Environment (ω × List Call) where
  nextChange w := E.nextChange w.1
  pass now w := (E.pass now w.1).map (·, w.2)
  start now request w := (E.start now request w.1).map (·, w.2)
  answer now request w := (E.answer now request w.1).map (·, w.2)
  ask now w := (E.ask now w.1).map (·, .ask :: w.2)
  startReject now tag w :=
    (E.startReject now tag w.1).map (·, .reject tag (E.startReject now tag w.1).value :: w.2)
  finishReject now tag w := (E.finishReject now tag w.1).map (·, w.2)
  race w := (((E.race w.1).1, w.2), (E.race w.1).2)
  consumerFirst w := E.consumerFirst w.1

theorem recorded_mirrors (E : Environment ω) : Environment.Mirrors Prod.fst (recorded E) E where
  nextChange _ := rfl
  pass _ _ := rfl
  start _ _ _ := rfl
  answer _ _ _ := rfl
  ask _ _ := rfl
  startReject _ _ _ := rfl
  finishReject _ _ _ := rfl
  race _ := rfl
  consumerFirst _ := rfl

namespace Run

variable {ω' : Type} {f : ω → ω'} {E' : Environment ω'}

/-- A run with the state of the environment mapped. -/
def map (f : ω → ω') (r : Run ω) : Run ω' := { course := r.course.map f, stage := r.stage }

theorem map_step (h : Environment.Mirrors f E E') (r : Run ω) :
    (r.map f).step E' queue = (r.step E queue).map f := by
  match hs : r.stage with
  | .over ending =>
    rw [step_of_over hs]
    exact step_of_over (r := r.map f) hs
  | .ongoing k =>
    have hround := h.consumerStep r.course queue k
    rw [step_of_ongoing hs, step_of_ongoing (r := r.map f) hs]
    show ofRound E' (Consumer.step E' queue k (r.course.map f)) = _
    rw [hround]
    rcases Consumer.step E queue k r.course with ⟨c, k' | ending, _ | _⟩
    · exact congrArg (Run.mk · (.ongoing k')) (h.advance c k'.wakes)
    · rfl
    · rfl
    · rfl

/-- A run that is recorded from a course on. -/
def observed (E : Environment ω) (queue : String) (limit : Nat) (c : Course ω) (n : Nat) :
    Run (ω × List Call) :=
  (Run.enter limit (c.map (·, []))).run (recorded E) queue n

/-- **Recording changes nothing.** -/
theorem map_observed (limit : Nat) (c : Course ω) (n : Nat) :
    (observed E queue limit c n).map Prod.fst = (Run.enter limit c).run E queue n := by
  rw [observed, run_eq, run_eq]
  induction n with
  | zero => rfl
  | succ n ih =>
    rw [Function.iterate_succ_apply', Function.iterate_succ_apply', ← ih,
      map_step (recorded_mirrors E)]

/-- The calls made in the first steps of a run, latest first. -/
def calls (E : Environment ω) (queue : String) (limit : Nat) (c : Course ω) (n : Nat) : List Call :=
  (observed E queue limit c n).course.world.2

end Run

section Recorded

variable {k : Consumer} {c c' : Course (ω × List Call)}

theorem calls_of_ask {offer : Offer} (h : c.ask (recorded E) = (c', offer)) :
    c'.world.2 = .ask :: c.world.2 := by
  have hworld := Course.ask_world (E := recorded E) c
  rw [h] at hworld
  exact congrArg Prod.snd hworld

theorem calls_of_startReject (tag : Nat) :
    (c.startReject (recorded E) tag).1.world.2
      = .reject tag (c.startReject (recorded E) tag).2 :: c.world.2 :=
  congrArg Prod.snd (Course.startReject_world (E := recorded E) c tag)

theorem calls_of_finishReject {tag : Nat} {settlement : Settlement}
    (h : c.finishReject (recorded E) tag = (c', settlement)) : c'.world.2 = c.world.2 := by
  have hworld := Course.finishReject_world (E := recorded E) c tag
  rw [h] at hworld
  exact (congrArg Prod.snd hworld :)

theorem calls_of_advance (c : Course (ω × List Call)) (wakes : List (Option Nat)) :
    (c.advance (recorded E) wakes).world.2 = c.world.2 := by
  rcases Course.advance_eq_or (E := recorded E) c wakes with h | ⟨t, -, h⟩
  · rw [h]
  · rw [h, Course.absorb_world]
    rfl

/-- The rejections that were asked for, latest first. -/
def asked (calls : List Call) : List Nat := calls.filterMap Call.tag?

/-- A consumer whose calls account for what it has taken and for what is in flight. -/
structure Logged (c : Course (ω × List Call)) (stage : Stage Consumer Ending) : Prop where
  /-- The rejection of every delivery taken was asked for, once. -/
  asked_eq : asked c.world.2 = taken c.proceedings
  /-- What is in flight ends when the environment has said. -/
  due : ∀ k, stage = .ongoing k → ∀ r ∈ k.inFlight, .reject r.tag r.due ∈ c.world.2

/-- The part of a log that is about the flight is kept while there are only more calls. -/
theorem Logged.due_of_subset {k' : Consumer} (h : Logged c (.ongoing k))
    (hk : k'.inFlight ⊆ k.inFlight) (hc : c.world.2 ⊆ c'.world.2) (k'' : Consumer)
    (hk'' : Stage.ongoing k' = (.ongoing k'' : Stage Consumer Ending)) :
    ∀ r ∈ k''.inFlight, Call.reject r.tag r.due ∈ c'.world.2 := by
  cases hk''
  exact fun r hr => hc (h.due k rfl r (hk hr))

/-- **The rejection of a delivery is asked for when it is taken**, and not again. -/
theorem Move.logged {stage : Stage Consumer Ending} (hm : Move (recorded E) queue k c c' stage)
    (h : Logged c (.ongoing k)) : Logged c' stage := by
  have hask : ∀ {c₁ offer}, c.ask (recorded E) = (c₁, offer) →
      asked c₁.world.2 = asked c.world.2 := by
    intro c₁ offer ha
    rw [calls_of_ask ha]
    rfl
  have hmore : ∀ {c₁ offer}, c.ask (recorded E) = (c₁, offer) → c.world.2 ⊆ c₁.world.2 := by
    intro c₁ offer ha
    rw [calls_of_ask ha]
    exact List.subset_cons_self ..
  have hkeep : ∀ {c₁ : Course (ω × List Call)} {e : Event}, c₁.proceedings = e :: c.proceedings →
      e.taken? = none → asked c₁.world.2 = asked c.world.2 →
      asked c₁.world.2 = taken c₁.proceedings := by
    intro c₁ e hc he hcalls
    rw [hc, taken_cons, he, hcalls, h.asked_eq]
    rfl
  cases hm with
  | @delivered c₁ tag ho hr ha =>
    have hcalls := calls_of_startReject (E := E) (c := c₁) tag
    constructor
    · rw [hcalls, Course.proceedings_startReject, Course.proceedings_of_ask ha]
      show tag :: asked c₁.world.2 = tag :: taken c.proceedings
      rw [hask ha, h.asked_eq]
    · rintro k' hk r hr
      cases hk
      rw [hcalls]
      rcases List.mem_append.mp hr with hr | hr
      · exact List.mem_cons_of_mem _ (hmore ha (h.due k rfl r hr))
      · obtain rfl := List.mem_singleton.mp hr
        exact List.mem_cons_self
  | waiting ho hr ha =>
    refine ⟨?_, h.due_of_subset (List.Subset.refl _) (hmore ha)⟩
    rw [hask ha, Course.proceedings_of_ask ha, h.asked_eq]
    rfl
  | streamOver ho hr ha hover =>
    refine ⟨?_, h.due_of_subset (List.Subset.refl _) (hmore ha)⟩
    rcases hover with rfl | rfl
    · exact hkeep (Course.proceedings_of_ask ha) rfl (hask ha)
    · exact hkeep (Course.proceedings_of_ask ha) rfl (hask ha)
  | streamFailed ho hr ha =>
    exact ⟨hkeep (Course.proceedings_of_ask ha) rfl (hask ha), nofun⟩
  | streamPanicked ho hr ha =>
    exact ⟨hkeep (Course.proceedings_of_ask ha) rfl (hask ha), nofun⟩
  | rejected hr hd hf =>
    have hcalls := calls_of_finishReject hf
    refine ⟨hkeep (Course.proceedings_of_finishReject hf) rfl (congrArg asked hcalls), ?_⟩
    exact h.due_of_subset (List.erase_subset ..) (hcalls ▸ List.Subset.refl _)
  | rejectFailed hr hd hf | rejectPanicked hr hd hf =>
    exact ⟨hkeep (Course.proceedings_of_finishReject hf) rfl
      (congrArg asked (calls_of_finishReject hf)), nofun⟩
  | stopped he ho => exact ⟨h.asked_eq, nofun⟩

theorem Moves.logged {stage : Stage Consumer Ending} (hm : Moves (recorded E) queue k c c' stage)
    (h : Logged c (.ongoing k)) : Logged c' stage := by
  induction hm with
  | none k c => exact h
  | last hm => exact hm.logged h
  | more hm _ ih => exact ih (hm.logged h)

/-- A round asks the stream once if there is room, and otherwise not at all. -/
theorem count_take (k : Consumer) (c : Course (ω × List Call)) :
    (take (recorded E) k c).1.world.2.count .ask
      = c.world.2.count .ask + if k.streamOpen && k.hasRoom then 1 else 0 := by
  by_cases hroom : (k.streamOpen && k.hasRoom) = true
  · rcases ha : c.ask (recorded E) with ⟨c', offer⟩
    have hcalls : c'.world.2.count .ask = c.world.2.count .ask + 1 := by
      rw [calls_of_ask ha, List.count_cons_self]
    cases offer with
    | delivery tag =>
      simp only [take, hroom, if_true, ha, calls_of_startReject]
      rw [List.count_cons_of_ne (by simp), hcalls]
    | _ => simp only [take, hroom, if_true, ha, hcalls]
  · simp only [take, hroom, Bool.false_eq_true, if_false, Nat.add_zero]

theorem calls_settle (k : Consumer) (c : Course (ω × List Call)) :
    (settle (recorded E) k c).1.world.2 = c.world.2 := by
  rw [settle]
  split
  · rfl
  · rename_i r _
    rcases hf : c.finishReject (recorded E) r.tag with ⟨c', settlement⟩
    cases settlement <;> exact calls_of_finishReject hf

theorem calls_step (k : Consumer) (c : Course (ω × List Call)) :
    (Consumer.step (recorded E) queue k c).1.world.2 = (take (recorded E) k c).1.world.2 := by
  rw [Consumer.step]
  rcases take (recorded E) k c with ⟨c₁, k₁ | ending, took⟩
  · have hsettle := calls_settle (E := E) k₁ c₁
    rcases hs : settle (recorded E) k₁ c₁ with ⟨c₂, k₂ | ending, settled⟩
    · rw [hs] at hsettle
      simpa only [hs] using hsettle
    · rw [hs] at hsettle
      simp only [hs]
      cases ending <;> exact hsettle
  · rfl

end Recorded

/-! ### What a run is like -/

/-- The consumer is at work, has room for one more delivery, and the stream has not ended. -/
def Run.Hungry (p : Nat) (r : Run ω) : Prop :=
  (∃ k, r.stage = .ongoing k) ∧ Roomy p r.course.proceedings ∧ ¬ Ended r.course.proceedings

theorem Attends.asks_iff {k : Consumer} (h : Attends p k events) (hp : 0 < p) :
    (k.streamOpen && k.hasRoom) = true ↔ Roomy p events ∧ ¬ Ended events := by
  rw [Bool.and_eq_true_iff, h.hasRoom_iff hp, h.streamOpen, and_comm]

namespace Run

/-- **The stream is asked once in every step that finds room**, and in no other. -/
theorem count_step {o : Run (ω × List Call)} (hp : 0 < p)
    (h : Follows p o.course.proceedings o.stage) :
    (o.Hungry p → (o.step (recorded E) queue).course.world.2.count .ask
      = o.course.world.2.count .ask + 1) ∧
    (¬ o.Hungry p → (o.step (recorded E) queue).course.world.2.count .ask
      = o.course.world.2.count .ask) := by
  match hs : o.stage with
  | .over ending =>
    rw [step_of_over hs]
    refine ⟨?_, fun _ => rfl⟩
    rintro ⟨⟨k, hk⟩, -⟩
    rw [hs] at hk
    cases hk
  | .ongoing k =>
    rw [hs] at h
    have hasks := Attends.asks_iff h hp
    have hcalls : (o.step (recorded E) queue).course.world.2
        = (take (recorded E) k o.course).1.world.2 := by
      refine step_of_round (P := fun (c : Course (ω × List Call)) _ =>
        c.world.2 = (take (recorded E) k o.course).1.world.2) ?_ ?_ ?_
      · intro ending hover
        cases hs.symm.trans hover
      · intro k' hk'
        cases hs.symm.trans hk'
        exact calls_step k o.course
      · exact fun c k' hround => (calls_of_advance c k'.wakes).trans hround
    rw [hcalls, count_take]
    constructor
    · rintro ⟨-, hroom⟩
      rw [hasks.mpr hroom, if_pos rfl]
    · intro hnot
      rw [if_neg fun hroom => hnot ⟨⟨k, hs⟩, hasks.mp hroom⟩, Nat.add_zero]

end Run

theorem settle_idle {k k' : Consumer} (h : settle E k c = (c', .ongoing k', false)) :
    c' = c ∧ k' = k ∧ ∀ r ∈ k.inFlight, reached r.due c.now = false := by
  rw [settle] at h
  split at h
  · rename_i hnone
    have hdue : ∀ r ∈ k.inFlight, reached r.due c.now = false := by
      simpa only [Bool.not_eq_true] using List.find?_eq_none.mp hnone
    split at h
    · cases h
    · cases h
      exact ⟨rfl, rfl, hdue⟩
  · rename_i r _
    rcases hf : c.finishReject E r.tag with ⟨c₁, settlement⟩
    rw [hf] at h
    cases settlement <;> cases h

/-- A round in which nothing is done has taken nothing, and found nothing to settle. -/
theorem take_of_step {k k' : Consumer}
    (h : Consumer.step E queue k c = (c', .ongoing k', false)) :
    take E k c = (c', .ongoing k', false) ∧ ∀ r ∈ k'.inFlight, reached r.due c'.now = false := by
  rcases ht : take E k c with ⟨c₁, k₁ | ending, took⟩
  · rcases hs : settle E k₁ c₁ with ⟨c₂, k₂ | ending, settled⟩
    · simp only [Consumer.step, ht, hs, Prod.mk.injEq, Stage.ongoing.injEq,
        Bool.or_eq_false_iff] at h
      obtain ⟨rfl, rfl, rfl, rfl⟩ := h
      obtain ⟨rfl, rfl, hdue⟩ := settle_idle hs
      exact ⟨rfl, hdue⟩
    · simp only [Consumer.step, ht, hs] at h
      cases ending <;> cases h
  · simp only [Consumer.step, ht] at h
    cases h

theorem inFlight_of_take {k k' : Consumer} (h : take E k c = (c', .ongoing k', false)) :
    k'.inFlight = k.inFlight := by
  rw [take] at h
  split at h
  · rcases ha : c.ask E with ⟨c₁, offer⟩
    rw [ha] at h
    cases offer <;> cases h <;> rfl
  · cases h
    rfl

/-- A consumer with room that takes nothing has been told to wait, or that the stream is over. -/
theorem wait_of_take {k k' : Consumer} (hroom : (k.streamOpen && k.hasRoom) = true)
    (h : take E k c = (c', .ongoing k', false)) :
    (∃ wake, c.ask E = (c', .wait wake) ∧ k'.wake = wake) ∨ Ended c'.proceedings := by
  rcases ha : c.ask E with ⟨c₁, offer⟩
  simp only [take, hroom, if_true, ha] at h
  cases offer with
  | wait wake =>
    cases h
    exact .inl ⟨wake, rfl, rfl⟩
  | cancelled | ended =>
    cases h
    refine .inr ?_
    rw [Course.proceedings_of_ask ha]
    exact ⟨_, List.mem_cons_self, rfl⟩
  | _ => cases h

namespace Run

/-- Time passes only behind a round in which nothing was done. -/
theorem round_of_lt {r : Run ω} (hlt : r.course.now < (r.step E queue).course.now) :
    ∃ k c k', r.stage = .ongoing k ∧ take E k r.course = (c, .ongoing k', false) ∧
      (∀ x ∈ k'.inFlight, reached x.due c.now = false) ∧ c.now = r.course.now ∧
      (r.step E queue).course = c.advance E k'.wakes := by
  match hs : r.stage with
  | .over ending =>
    rw [step_of_over hs] at hlt
    exact absurd hlt (Nat.lt_irrefl _)
  | .ongoing k =>
    have hnow := (step_moves (E := E) queue k r.course).calmly.now_eq
    rw [step_of_ongoing hs] at hlt ⊢
    rcases hstep : Consumer.step E queue k r.course with ⟨c, k' | ending, _ | _⟩ <;>
      rw [hstep] at hnow hlt
    · obtain ⟨htake, hdue⟩ := take_of_step hstep
      exact ⟨k, c, k', rfl, htake, hdue, hnow, rfl⟩
    · exact absurd (hnow ▸ hlt) (Nat.lt_irrefl _)
    · exact absurd (hnow ▸ hlt) (Nat.lt_irrefl _)
    · exact absurd (hnow ▸ hlt) (Nat.lt_irrefl _)

/-- **Time passes over room for one more delivery only where the stream has none**, and not past the
instant at which it may have one. -/
theorem waits_of_step (hp : 0 < p) {r : Run ω} (h : Follows p r.course.proceedings r.stage)
    (hlt : r.course.now < (r.step E queue).course.now) (hroom : Roomy p r.course.proceedings)
    (hopen : ¬ Ended (r.step E queue).course.proceedings) :
    ∃ wake, (E.ask r.course.now r.course.world).value = .wait wake ∧
      ∀ t, wake = some t → (r.step E queue).course.now ≤ max r.course.now t := by
  obtain ⟨k, c, k', hs, htake, -, hnow, hcourse⟩ := round_of_lt hlt
  rw [hs] at h
  have hasks : (k.streamOpen && k.hasRoom) = true := by
    have hreaches : r.course.Reaches E (r.step E queue).course := step_reaches r
    exact (Attends.asks_iff h hp).mpr ⟨hroom, fun hended => hopen (hended.of_reaches hreaches)⟩
  rw [hcourse, Course.proceedings_advance] at hopen
  obtain ⟨wake, ha, hwake⟩ := (wait_of_take hasks htake).resolve_right hopen
  refine ⟨wake, congrArg Prod.snd ha, fun t ht => ?_⟩
  rw [hcourse, ← hnow]
  refine c.advance_now_le ?_
  rw [← ht, ← hwake]
  exact List.mem_cons_self

/-- **Time passes beyond the end of no rejection in flight.** -/
theorem now_le_of_step {r : Run ω} {k : Consumer} (hs : r.stage = .ongoing k)
    (hlt : r.course.now < (r.step E queue).course.now) {x : Rejection} (hx : x ∈ k.inFlight)
    {t : Nat} (ht : x.due = some t) : (r.step E queue).course.now ≤ t := by
  obtain ⟨k₀, c, k', hs₀, htake, hdue, hnow, hcourse⟩ := round_of_lt hlt
  obtain rfl : k₀ = k := Stage.ongoing.inj (hs₀.symm.trans hs)
  rw [← inFlight_of_take htake] at hx
  have hlater : ¬ t ≤ c.now := by simpa [reached, ht] using hdue x hx
  have hwakes : some t ∈ k'.wakes :=
    List.mem_cons_of_mem _ (List.mem_map.mpr ⟨x, hx, ht⟩)
  have hle := c.advance_now_le (E := E) hwakes
  rw [hcourse]
  omega

theorem step_logged {o : Run (ω × List Call)} (h : Logged o.course o.stage) :
    Logged (o.step (recorded E) queue).course (o.step (recorded E) queue).stage := by
  refine step_of_round (P := Logged) ?_ ?_ ?_
  · exact fun ending hs => hs ▸ h
  · intro k hs
    rw [hs] at h
    exact (step_moves queue k o.course).logged h
  · intro c k hround
    have hcalls := calls_of_advance (E := E) c k.wakes
    constructor
    · rw [hcalls, Course.proceedings_advance]
      exact hround.asked_eq
    · exact hround.due_of_subset (List.Subset.refl _) (hcalls ▸ List.Subset.refl _)

theorem observed_logged (limit now : Nat) (world : ω) (rejected : UInt64) (interrupted : Bool)
    (n : Nat) :
    let o := observed E queue limit (.opening now world rejected interrupted) n
    Logged o.course o.stage := by
  induction n with
  | zero =>
    refine ⟨?_, ?_⟩
    · cases interrupted <;> rfl
    · rintro k hk
      cases hk
      exact nofun
  | succ n ih =>
    rw [observed, run_succ]
    exact step_logged ih

theorem calls_succ (hp : 0 < p) (now : Nat) (world : ω) (rejected : UInt64) (interrupted : Bool)
    (n : Nat) :
    let c : Course ω := .opening now world rejected interrupted
    ((observed E queue p c n).Hungry p →
      (calls E queue p c (n + 1)).count .ask = (calls E queue p c n).count .ask + 1) ∧
    (¬ (observed E queue p c n).Hungry p →
      (calls E queue p c (n + 1)).count .ask = (calls E queue p c n).count .ask) := by
  intro c
  have hfollows : Follows p (observed E queue p c n).course.proceedings
      (observed E queue p c n).stage := run_follows hp now (world, []) rejected interrupted n
  have hsucc : observed E queue p c (n + 1) = (observed E queue p c n).step (recorded E) queue :=
    run_succ _ n
  rw [calls, calls, hsucc]
  exact count_step hp hfollows

end Run

/-- What a consumer with at most `p` rejections in flight does from its beginning to its end, where
`r n` is the run after `n` steps and `calls n` are the calls that it has made by then. -/
structure Rejects (E : Environment ω) (p : Nat) (rejected : UInt64) (r : Nat → Run ω)
    (calls : Nat → List Call) : Prop where
  /-- At any time at most `p` deliveries are taken and not rejected. -/
  bounded : ∀ n later earlier, (r n).course.proceedings = later ++ earlier →
    (taken earlier).length ≤ (settled earlier).length + p
  /-- A step that finds fewer asks the stream, -/
  asks : ∀ n, (r n).Hungry p → (calls (n + 1)).count .ask = (calls n).count .ask + 1
  /-- and no other step does. -/
  rests : ∀ n, ¬ (r n).Hungry p → (calls (n + 1)).count .ask = (calls n).count .ask
  /-- While there are fewer, time passes only if the stream says that it has nothing yet, and not
  beyond the instant at which it is worth asking again. -/
  waits : ∀ n, (r n).course.now < (r (n + 1)).course.now → Roomy p (r n).course.proceedings →
    ¬ Ended (r (n + 1)).course.proceedings →
    ∃ wake, (E.ask (r n).course.now (r n).course.world).value = .wait wake ∧
      ∀ t, wake = some t → (r (n + 1)).course.now ≤ max (r n).course.now t
  /-- The rejection of every delivery that is taken is asked for once. -/
  asked_eq : ∀ n, asked (calls n) = taken (r n).course.proceedings
  /-- What is in flight is what has been taken and not rejected, and it is over when the environment
  has said that it will be: -/
  flight : ∀ n k, (r n).stage = .ongoing k →
    (k.inFlight.map Rejection.tag ++ settled (r n).course.proceedings).Perm
      (taken (r n).course.proceedings) ∧
    ∀ x ∈ k.inFlight, .reject x.tag x.due ∈ calls n
  /-- time passes beyond the end of nothing in flight. -/
  settles : ∀ n k, (r n).stage = .ongoing k → (r n).course.now < (r (n + 1)).course.now →
    ∀ x ∈ k.inFlight, ∀ t, x.due = some t → (r (n + 1)).course.now ≤ t
  /-- A step that finds rejections in flight that are over settles one of them, or it is the last:
  the stream has failed, or that rejection has. -/
  progresses : ∀ n k, (r n).stage = .ongoing k →
    (∃ x ∈ k.inFlight, reached x.due (r n).course.now = true) →
    (∃ y ∈ k.inFlight, reached y.due (r n).course.now = true ∧
      Run.Settles k y (r n) (r (n + 1))) ∨
    ∃ ending, (r (n + 1)).stage = .over ending ∧ ending ≠ .stopped
  /-- None of them waits for its turn for more than `p` steps, and no time passes until then. -/
  serves : ∀ n k, (r n).stage = .ongoing k → ∀ x ∈ k.inFlight,
    reached x.due (r n).course.now = true → ∃ m, n < m ∧ m ≤ n + p ∧
      (r m).course.now = (r n).course.now ∧
      ((∃ earlier, (r m).course.proceedings = .rejected x.tag :: earlier) ∨
        ∃ ending, (r m).stage = .over ending ∧ ending ≠ .stopped)
  /-- Where the stream has ended and every rejection in flight is one that will be over, the
  consumer returns, be it that they all succeed or that one goes wrong; the world only has to let
  time pass. -/
  returns : E.MovesOn → ∀ n k, (r n).stage = .ongoing k → Ended (r n).course.proceedings →
    (∀ x ∈ k.inFlight, x.due ≠ none) →
    ∃ m, (r m).stage = .over .stopped ∨
      ∃ e ∈ (r m).course.proceedings, e.isMisrejection = true
  /-- Nothing is rejected that was not taken, or more often. -/
  count_le : ∀ n tag, (settled (r n).course.proceedings).count tag
    ≤ (taken (r n).course.proceedings).count tag
  /-- Every rejection that succeeds is counted, and nothing else is. -/
  counter : ∀ n, (r n).course.rejected
    = rejected + UInt64.ofNat (settled (r n).course.proceedings).length
  /-- The consumer stops if and only if the stream comes to its end and everything is rejected. -/
  stops_iff : (∃ n, (r n).stage = .over .stopped) ↔
    ∃ n, Ended (r n).course.proceedings ∧
      (settled (r n).course.proceedings).length = (taken (r n).course.proceedings).length
  /-- Then every delivery of the stream is rejected once, and they are counted. -/
  stopped : ∀ n, (r n).stage = .over .stopped →
    (settled (r n).course.proceedings).Perm (taken (r n).course.proceedings) ∧
      (r n).course.rejected = rejected + UInt64.ofNat (taken (r n).course.proceedings).length
  /-- The consumer fails if and only if the stream or a rejection does. -/
  fails_iff : ∀ n cause, (r n).stage = .over (.failed cause) ↔
    ∃ e ∈ (r n).course.proceedings, e.fault? = some cause
  /-- That is the first such failure, and nothing happens any more after it. -/
  failed : ∀ n cause, (r n).stage = .over (.failed cause) →
    (∃ e earlier, (r n).course.proceedings = e :: earlier ∧ e.fault? = some cause ∧
      ∀ x ∈ earlier, x.fault? = none) ∧ ∀ m, n ≤ m → r m = r n
  /-- A failure of the stream is met only where fewer than `p` rejections are pending. -/
  streamFailed : ∀ n later earlier cause,
    (r n).course.proceedings = later ++ .streamFailed cause :: earlier → Roomy p earlier
  /-- With one rejection at a time they succeed in the order of the deliveries. -/
  inOrder : p = 1 → ∀ n, settled (r n).course.proceedings <:+ taken (r n).course.proceedings

/-- **A consumer rejects what its stream gives**, with at most `p` rejections in flight and in any
environment; to record its calls changes nothing. -/
theorem run_rejects (E : Environment ω) (queue : String) (p : Nat) (hp : 0 < p) (now : Nat)
    (world : ω) (rejected : UInt64) (interrupted : Bool) :
    let c : Course ω := .opening now world rejected interrupted
    (∀ n, (Run.observed E queue p c n).map Prod.fst = (Run.enter p c).run E queue n) ∧
      Rejects E p rejected (fun n => (Run.enter p c).run E queue n) (Run.calls E queue p c) := by
  intro c
  have hfollows : ∀ n, Follows p ((Run.enter p c).run E queue n).course.proceedings
      ((Run.enter p c).run E queue n).stage :=
    Run.run_follows hp now world rejected interrupted
  have hobserved : ∀ n, (Run.observed E queue p c n).map Prod.fst = (Run.enter p c).run E queue n :=
    Run.map_observed p c
  have hlogged : ∀ n, Logged (Run.observed E queue p c n).course
      (Run.observed E queue p c n).stage :=
    Run.observed_logged p now world rejected interrupted
  refine ⟨hobserved, ?_⟩
  constructor
  case bounded =>
    intro n later earlier hsplit
    have ha := (hfollows n).admissible
    rw [hsplit] at ha
    exact ha.of_append.length_taken_le
  case asks =>
    intro n hhungry
    simp only [← hobserved] at hhungry
    exact (Run.calls_succ hp now world rejected interrupted n).1 hhungry
  case rests =>
    intro n hnot
    simp only [← hobserved] at hnot
    exact (Run.calls_succ hp now world rejected interrupted n).2 hnot
  case waits =>
    simp only [Run.run_succ]
    exact fun n => Run.waits_of_step hp (hfollows n)
  case asked_eq =>
    intro n
    rw [← hobserved]
    exact (hlogged n).asked_eq
  case flight =>
    intro n k hs
    have hattends : Attends p k _ := hs ▸ hfollows n
    refine ⟨hattends.flight, (hlogged n).due k ?_⟩
    rw [← hs, ← hobserved]
    rfl
  case settles =>
    simp only [Run.run_succ]
    exact fun n k hs hlt x hx t ht => Run.now_le_of_step hs hlt hx ht
  case progresses =>
    rintro n k hs ⟨x, hx, hdue⟩
    simp only [Run.run_succ]
    exact Run.step_of_reached hs hx hdue
  case serves =>
    intro n k hs x hx hdue
    have hattends : Attends p k _ := hs ▸ hfollows n
    obtain ⟨ahead, behind, hflight⟩ := List.append_of_mem hx
    obtain ⟨m, hpos, hle, hnow, hturn⟩ := Run.run_of_reached E queue hs hflight hdue
    have hlength := hattends.length_flight_le
    rw [hflight, List.length_append, List.length_cons] at hlength
    rw [← Run.run_add] at hnow hturn
    exact ⟨m + n, by omega, by omega, hnow, hturn⟩
  case returns =>
    exact fun hE n k => Run.run_returns hp hE now world rejected interrupted n
  case count_le => exact fun n tag => (hfollows n).admissible.count_settled_le tag
  case counter => exact Run.run_rejected p now world rejected interrupted
  case stops_iff =>
    constructor
    · rintro ⟨n, hs⟩
      have hconcludes : Concludes p _ .stopped := hs ▸ hfollows n
      obtain ⟨-, -, hended, hperm⟩ := hconcludes
      exact ⟨n, hended, hperm.length_eq⟩
    · rintro ⟨n, hended, hlength⟩
      rcases (hfollows n).stopped_or hended hlength with hs | ⟨k, hs, hopen, hflight⟩
      · exact ⟨n, hs⟩
      · refine ⟨n + 1, ?_⟩
        rw [Run.run_succ, Run.step_of_settled hs hopen hflight]
  case stopped =>
    intro n hs
    have hconcludes : Concludes p _ .stopped := hs ▸ hfollows n
    obtain ⟨-, -, -, hperm⟩ := hconcludes
    refine ⟨hperm, ?_⟩
    rw [Run.run_rejected, hperm.length_eq]
  case fails_iff => exact fun n cause => (hfollows n).failed_iff cause
  case failed =>
    intro n cause hs
    have hfailed : Follows p _ (.over (.failed cause)) := hs ▸ hfollows n
    obtain ⟨e, earlier, hevents, hfault, hearlier⟩ := hfailed.failed
    refine ⟨⟨e, earlier, hevents, hfault, fun x hx => ?_⟩, fun m hm => Run.run_of_over hs hm⟩
    cases hx' : x.fault? with
    | none => rfl
    | some cause' =>
      exact absurd ((Event.isMishap_of_fault? hx').symm.trans (hearlier x hx))
        Bool.true_eq_false.mp
  case streamFailed =>
    intro n later earlier cause hsplit
    have ha := (hfollows n).admissible
    rw [hsplit] at ha
    exact ha.permits.1
  case inOrder =>
    rintro rfl n
    exact (hfollows n).admissible.settled_suffix

end Consumer

/-- Three deliveries, of which the second is rejected before the first. -/
def Scenario.uneven : Scenario where
  messages := 3
  latencies := [30, 10]

/-- A stream of the three, that ends behind them. -/
def Scenario.unevenCourse : Course Scenario.State :=
  .opening 0 (Scenario.uneven.opening.streaming { after := some 3 } .never) 0 false

/-- The consumer takes the third when there is room, and stops when all three are rejected. -/
theorem Consumer.run_rejects_uneven :
    let r := (Run.enter 2 Scenario.unevenCourse).run Scenario.uneven.environment "orders.dlq" 10
    0 < 2 ∧ Scenario.uneven.environment.MovesOn ∧
    (∀ n, (Run.observed Scenario.uneven.environment "orders.dlq" 2 Scenario.unevenCourse n).map
        Prod.fst
      = (Run.enter 2 Scenario.unevenCourse).run Scenario.uneven.environment "orders.dlq" n) ∧
    Rejects Scenario.uneven.environment 2 0
      (fun n => (Run.enter 2 Scenario.unevenCourse).run Scenario.uneven.environment "orders.dlq" n)
      (Run.calls Scenario.uneven.environment "orders.dlq" 2 Scenario.unevenCourse) ∧
    settled r.course.proceedings = [3, 1, 2] ∧ r.stage = .over .stopped ∧
    r.course.rejected = 3 := by
  obtain ⟨hobserved, hrejects⟩ := Consumer.run_rejects Scenario.uneven.environment "orders.dlq" 2
    Nat.two_pos 0 (Scenario.uneven.opening.streaming { after := some 3 } .never) 0 false
  exact ⟨Nat.two_pos, Scenario.uneven.movesOn, hobserved, hrejects, rfl, rfl, rfl⟩

end QueueDrain
