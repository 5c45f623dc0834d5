import Mathlib.Data.List.Perm.Subperm
import QueueDrain.Proofs.Proceedings
import QueueDrain.Proofs.Sessions
import QueueDrain.Proofs.Standalone

/-!
# A consumer and what its trace says of it

A consumer on its own rejects what its stream gives, with a limited number of rejections in flight,
against any environment: deliveries at any times, a stream that ends, fails or does neither, and
rejections that take any time and succeed or fail. What has happened in such a run is admissible
event by event, and the consumer at work knows of it what it needs: which deliveries are in flight
and whether the stream is open.

## Main definitions

* `Consumer.taken`, `Consumer.settled` — the deliveries taken and those rejected
* `Consumer.Permits`, `Consumer.Admissible` — what a consumer may do next, and a trace that keeps
  to it
* `Consumer.Attends`, `Consumer.Concludes` — a consumer that its trace accounts for, and its end

## Main results

* `Consumer.Admissible.length_taken_le`, `Consumer.Admissible.count_settled_le`,
  `Consumer.Admissible.settled_suffix` — what an admissible trace is like
* `Consumer.Move.follows`, `Consumer.Run.run_follows` — a move and a run keep to it
* `Consumer.Run.run_rejected` — the counter counts the rejections
-/

namespace QueueDrain

/-! ### What has happened to the deliveries -/

/-- The delivery that an event takes. -/
def Event.taken? : Event → Option Nat
  | .delivered tag => some tag
  | _ => none

/-- The delivery that an event rejects. -/
def Event.settled? : Event → Option Nat
  | .rejected tag => some tag
  | _ => none

/-- The error of a stream or of a rejection that failed. -/
def Event.fault? : Event → Option DrainError
  | .rejectFailed _ cause | .streamFailed cause => some cause
  | _ => none

theorem Event.isMishap_of_fault? {e : Event} {cause : DrainError} (h : e.fault? = some cause) :
    e.isMishap = true := by
  cases e <;> first | rfl | cases h

namespace Consumer

/-- The deliveries taken, latest first. -/
def taken (events : List Event) : List Nat := events.filterMap Event.taken?

/-- The deliveries rejected, latest first. -/
def settled (events : List Event) : List Nat := events.filterMap Event.settled?

/-- Whether fewer than `p` deliveries are taken and not rejected. -/
def Roomy (p : Nat) (events : List Event) : Prop :=
  (taken events).length < (settled events).length + p

/-- Whether the stream has come to its end. -/
def Ended (events : List Event) : Prop := ∃ e ∈ events, e.isStreamEnd = true

/-- What a consumer with at most `p` rejections in flight may do where `events` have happened. -/
def Permits (p : Nat) (events : List Event) : Event → Prop
  | .delivered _ | .streamCancelled | .streamEnded | .streamFailed _ | .streamPanicked _ =>
    Roomy p events ∧ ¬ Ended events
  | .rejected tag | .rejectFailed tag _ | .rejectPanicked tag =>
    (settled events).count tag < (taken events).count tag
  | _ => False

/-- Everything that has happened was allowed when it happened, and nothing has happened after a
failure. -/
def Admissible (p : Nat) : List Event → Prop
  | [] => True
  | e :: earlier =>
    Permits p earlier e ∧ (∀ x ∈ earlier, x.isMishap = false) ∧ Admissible p earlier

variable {p : Nat} {events later earlier : List Event} {e : Event}

theorem taken_cons (e : Event) (events : List Event) :
    taken (e :: events) = e.taken?.toList ++ taken events := by
  rw [taken, List.filterMap_cons, ← taken]
  cases e.taken? <;> rfl

theorem settled_cons (e : Event) (events : List Event) :
    settled (e :: events) = e.settled?.toList ++ settled events := by
  rw [settled, List.filterMap_cons, ← settled]
  cases e.settled? <;> rfl

theorem length_settled (events : List Event) :
    (settled events).length = events.countP Event.isRejection := by
  induction events with
  | nil => rfl
  | cons e events ih =>
    rw [settled_cons, List.length_append, ih, List.countP_cons, Nat.add_comm]
    cases e <;> rfl

theorem ended_cons : Ended (e :: events) ↔ e.isStreamEnd = true ∨ Ended events := by
  simp [Ended]

namespace Admissible

theorem of_append (h : Admissible p (later ++ earlier)) : Admissible p earlier := by
  induction later with
  | nil => exact h
  | cons e later ih => exact ih h.2.2

theorem permits (h : Admissible p (later ++ e :: earlier)) : Permits p earlier e := h.of_append.1

/-- **At most `p` deliveries are taken and not rejected.** -/
theorem length_taken_le (h : Admissible p events) :
    (taken events).length ≤ (settled events).length + p := by
  induction events with
  | nil => exact Nat.zero_le _
  | cons e earlier ih =>
    obtain ⟨hp, -, hearlier⟩ := h
    have ih := ih hearlier
    rw [taken_cons, settled_cons]
    cases e with
    | delivered tag =>
      have hroom : Roomy p earlier := hp.1
      simp only [Roomy] at hroom
      simp only [Event.taken?, Event.settled?, Option.toList, List.length_append, List.length_cons,
        List.length_nil]
      omega
    | rejected tag =>
      simp only [Event.taken?, Event.settled?, Option.toList, List.length_append, List.length_cons,
        List.length_nil]
      omega
    | _ => exact ih

/-- **Only what was taken is rejected, and not more often than it was taken.** -/
theorem count_settled_le (h : Admissible p events) (t : Nat) :
    (settled events).count t ≤ (taken events).count t := by
  induction events with
  | nil => exact Nat.le_refl _
  | cons e earlier ih =>
    obtain ⟨hp, -, hearlier⟩ := h
    have ih := ih hearlier
    rw [taken_cons, settled_cons]
    cases e with
    | delivered tag => exact Nat.le_trans ih (List.count_le_count_cons ..)
    | rejected tag =>
      have hp : (settled earlier).count tag < (taken earlier).count tag := hp
      by_cases htag : tag = t
      · subst htag
        simp only [Event.settled?, Event.taken?, Option.toList, List.singleton_append,
          List.nil_append, List.count_cons_self]
        exact hp
      · simpa [Event.settled?, Event.taken?, htag] using ih
    | _ => exact ih

/-- Where as many deliveries are rejected as are taken, it is those. -/
theorem settled_perm (h : Admissible p events)
    (hlength : (settled events).length = (taken events).length) :
    (settled events).Perm (taken events) := by
  have hsub : (settled events).Subperm (taken events) :=
    List.subperm_ext_iff.mpr fun t _ => h.count_settled_le t
  exact hsub.perm_of_length_le (Nat.le_of_eq hlength.symm)

/-- A failure leaves a delivery unsettled, or is one of a stream that has not ended. -/
theorem not_settled_of_isMishap (h : Admissible p (e :: earlier)) (he : e.isMishap = true) :
    ¬ (Ended (e :: earlier) ∧ (settled (e :: earlier)).length = (taken (e :: earlier)).length) := by
  rintro ⟨hended, hlength⟩
  have hperm := h.settled_perm hlength
  have hreject : ∀ {tag}, e.taken? = none → e.settled? = none →
      ¬ (settled earlier).count tag < (taken earlier).count tag := by
    intro tag htaken hsettled hlt
    rw [taken_cons, settled_cons, htaken, hsettled] at hperm
    have : (settled earlier).count tag = (taken earlier).count tag := hperm.count_eq tag
    omega
  cases e with
  | streamFailed cause | streamPanicked text =>
    rcases ended_cons.mp hended with hend | hend
    · cases hend
    · exact h.1.2 hend
  | rejectFailed tag cause | rejectPanicked tag => exact hreject rfl rfl h.1
  | failed r cause => exact h.1
  | _ => cases he

/-- **One rejection at a time is one after the other.** -/
theorem eq_or_cons (h : Admissible 1 events) :
    taken events = settled events ∨ ∃ tag, taken events = tag :: settled events := by
  induction events with
  | nil => exact .inl rfl
  | cons e earlier ih =>
    obtain ⟨hp, -, hearlier⟩ := h
    have ih := ih hearlier
    rw [taken_cons, settled_cons]
    cases e with
    | delivered tag =>
      have hroom : Roomy 1 earlier := hp.1
      rcases ih with heq | ⟨t, heq⟩
      · exact .inr ⟨tag, congrArg _ heq⟩
      · simp only [Roomy, heq, List.length_cons] at hroom
        omega
    | rejected tag =>
      have hp : (settled earlier).count tag < (taken earlier).count tag := hp
      rcases ih with heq | ⟨t, heq⟩
      · rw [heq] at hp
        exact absurd hp (Nat.lt_irrefl _)
      · have htag : t = tag := by
          refine Classical.not_not.mp fun hne => ?_
          rw [heq, List.count_cons_of_ne hne] at hp
          exact absurd hp (Nat.lt_irrefl _)
        exact .inl (htag ▸ heq)
    | _ => exact ih

theorem settled_suffix (h : Admissible 1 events) : settled events <:+ taken events := by
  rcases h.eq_or_cons with heq | ⟨tag, heq⟩
  · exact heq ▸ List.suffix_refl _
  · exact heq ▸ List.suffix_cons tag _

end Admissible

/-! ### A consumer and what has happened -/

/-- A consumer at work that `events` account for. -/
structure Attends (p : Nat) (k : Consumer) (events : List Event) : Prop where
  limit : k.limit = p
  admissible : Admissible p events
  unfailed : ∀ e ∈ events, e.isMishap = false
  /-- What is in flight is what has been taken and not rejected. -/
  flight : (k.inFlight.map Rejection.tag ++ settled events).Perm (taken events)
  streamOpen : k.streamOpen = true ↔ ¬ Ended events

/-- The end of a consumer that `events` account for. -/
def Concludes (p : Nat) (events : List Event) : Ending → Prop
  | .stopped =>
    Admissible p events ∧ (∀ e ∈ events, e.isMishap = false) ∧ Ended events ∧
      (settled events).Perm (taken events)
  | .failed cause =>
    Admissible p events ∧ ∃ e earlier, events = e :: earlier ∧ e.fault? = some cause
  | .panicked _ =>
    Admissible p events ∧
      ∃ e earlier, events = e :: earlier ∧ e.isMishap = true ∧ e.fault? = none

/-- A consumer, at work or over, that `events` account for. -/
def Follows (p : Nat) (events : List Event) : Stage Consumer Ending → Prop
  | .ongoing k => Attends p k events
  | .over ending => Concludes p events ending

theorem Concludes.admissible {ending : Ending} (h : Concludes p events ending) :
    Admissible p events := by
  cases ending <;> exact h.1

theorem Follows.admissible {stage : Stage Consumer Ending} (h : Follows p events stage) :
    Admissible p events := by
  match stage with
  | .ongoing k => exact Attends.admissible h
  | .over ending => exact Concludes.admissible h

namespace Attends

variable {k : Consumer}

theorem length_flight (h : Attends p k events) :
    k.inFlight.length + (settled events).length = (taken events).length := by
  simpa using h.flight.length_eq

theorem length_flight_le (h : Attends p k events) : k.inFlight.length ≤ p := by
  have hlength := h.length_flight
  have hbound := h.admissible.length_taken_le
  omega

theorem hasRoom_iff (h : Attends p k events) (hp : 0 < p) : k.hasRoom = true ↔ Roomy p events := by
  have hlength := h.length_flight
  have hlimit : (k.limit == 0) = false := by
    rw [h.limit]
    exact beq_false_of_ne (Nat.ne_of_gt hp)
  rw [hasRoom, hlimit, Bool.false_or, decide_eq_true_iff, h.limit, Roomy]
  omega

/-- What a consumer may do next is admissible. -/
theorem cons (h : Attends p k events) (he : Permits p events e) : Admissible p (e :: events) :=
  ⟨he, h.unfailed, h.admissible⟩

theorem unfailed_cons (h : Attends p k events) (he : e.isMishap = false) :
    ∀ x ∈ e :: events, x.isMishap = false :=
  List.forall_mem_cons.mpr ⟨he, h.unfailed⟩

/-- A rejection in flight is one of a delivery that was taken and not rejected. -/
theorem count_lt (h : Attends p k events) {r : Rejection} (hr : r ∈ k.inFlight) :
    (settled events).count r.tag < (taken events).count r.tag := by
  rw [← h.flight.count_eq, List.count_append]
  have : 0 < (k.inFlight.map Rejection.tag).count r.tag :=
    List.count_pos_iff.mpr (List.mem_map_of_mem hr)
  omega

theorem deliver (h : Attends p k events) (hroom : Roomy p events) (hopen : ¬ Ended events)
    (r : Rejection) :
    Attends p { k with inFlight := k.inFlight ++ [r], wake := none }
      (.delivered r.tag :: events) where
  limit := h.limit
  admissible := h.cons ⟨hroom, hopen⟩
  unfailed := h.unfailed_cons rfl
  flight := by
    rw [taken_cons, settled_cons]
    have hperm : ((k.inFlight.map Rejection.tag ++ [r.tag]) ++ settled events).Perm
        (r.tag :: (k.inFlight.map Rejection.tag ++ settled events)) := by
      simp
    rw [List.map_append]
    exact hperm.trans (h.flight.cons r.tag)
  streamOpen := by
    rw [ended_cons]
    simpa [Event.isStreamEnd] using h.streamOpen

theorem settle (h : Attends p k events) {r : Rejection} (hr : r ∈ k.inFlight) :
    Attends p { k with inFlight := k.inFlight.erase r } (.rejected r.tag :: events) where
  limit := h.limit
  admissible := h.cons (h.count_lt hr)
  unfailed := h.unfailed_cons rfl
  flight := by
    rw [taken_cons, settled_cons]
    have hflight := (List.perm_cons_erase hr).map Rejection.tag
    exact (List.perm_middle.trans (hflight.symm.append_right _)).trans h.flight
  streamOpen := by
    rw [ended_cons]
    simpa [Event.isStreamEnd] using h.streamOpen

theorem close (h : Attends p k events) (hroom : Roomy p events) (hopen : ¬ Ended events)
    (he : e = .streamCancelled ∨ e = .streamEnded) :
    Attends p { k with streamOpen := false, wake := none } (e :: events) := by
  have hplain : e.isStreamEnd = true ∧ e.isMishap = false ∧ e.taken? = none ∧ e.settled? = none ∧
      Permits p events e := by
    rcases he with rfl | rfl
    · exact ⟨rfl, rfl, rfl, rfl, hroom, hopen⟩
    · exact ⟨rfl, rfl, rfl, rfl, hroom, hopen⟩
  obtain ⟨hend, hmishap, htaken, hsettled, hpermits⟩ := hplain
  constructor
  case limit => exact h.limit
  case admissible => exact h.cons hpermits
  case unfailed => exact h.unfailed_cons hmishap
  case flight =>
    rw [taken_cons, settled_cons, htaken, hsettled]
    exact h.flight
  case streamOpen =>
    rw [ended_cons]
    simp [hend]

end Attends

section Follows

variable {stage : Stage Consumer Ending}

/-- A consumer fails at the first failure of its stream or of a rejection, and with its error. -/
theorem Follows.failed_iff (h : Follows p events stage) (cause : DrainError) :
    stage = .over (.failed cause) ↔ ∃ e ∈ events, e.fault? = some cause := by
  constructor
  · rintro rfl
    obtain ⟨-, e, earlier, rfl, hfault⟩ := h
    exact ⟨e, List.mem_cons_self, hfault⟩
  · rintro ⟨e, he, hfault⟩
    have hmishap := Event.isMishap_of_fault? hfault
    -- nothing has happened after a failure
    have hnewest : ∀ {x earlier}, Admissible p (x :: earlier) → e ∈ x :: earlier → e = x := by
      intro x earlier hx hmem
      rcases List.mem_cons.mp hmem with heq | hmem
      · exact heq
      · exact absurd (hmishap.symm.trans (hx.2.1 e hmem)) Bool.true_eq_false.mp
    match stage, h with
    | .ongoing k, h => exact absurd (hmishap.symm.trans (h.unfailed e he)) Bool.true_eq_false.mp
    | .over .stopped, h => exact absurd (hmishap.symm.trans (h.2.1 e he)) Bool.true_eq_false.mp
    | .over (.failed cause'), ⟨ha, x, earlier, hevents, hcause⟩ =>
      subst hevents
      obtain rfl := hnewest ha he
      rw [Option.some.inj (hfault.symm.trans hcause)]
    | .over (.panicked text), ⟨ha, x, earlier, hevents, _, hnone⟩ =>
      subst hevents
      obtain rfl := hnewest ha he
      rw [hnone] at hfault
      cases hfault

/-- The failure is the latest of all that has happened, and the only one. -/
theorem Follows.failed {cause : DrainError} (h : Follows p events (.over (.failed cause))) :
    ∃ e earlier, events = e :: earlier ∧ e.fault? = some cause ∧
      ∀ x ∈ earlier, x.isMishap = false := by
  obtain ⟨ha, e, earlier, rfl, hfault⟩ := h
  exact ⟨e, earlier, rfl, hfault, ha.2.1⟩

/-- Where the stream has ended and everything is rejected, the consumer is over or about to be. -/
theorem Follows.stopped_or (h : Follows p events stage) (hended : Ended events)
    (hlength : (settled events).length = (taken events).length) :
    stage = .over .stopped ∨
      ∃ k, stage = .ongoing k ∧ k.streamOpen = false ∧ k.inFlight = [] := by
  match stage, h with
  | .ongoing k, h =>
    refine .inr ⟨k, rfl, ?_, ?_⟩
    · exact Bool.eq_false_iff.mpr fun hopen => h.streamOpen.mp hopen hended
    · have := h.length_flight
      exact List.length_eq_zero_iff.mp (by omega)
  | .over .stopped, _ => exact .inl rfl
  | .over (.failed cause), ⟨ha, e, earlier, hevents, hfault⟩ =>
    subst hevents
    exact absurd ⟨hended, hlength⟩ (ha.not_settled_of_isMishap (Event.isMishap_of_fault? hfault))
  | .over (.panicked text), ⟨ha, e, earlier, hevents, hmishap, _⟩ =>
    subst hevents
    exact absurd ⟨hended, hlength⟩ (ha.not_settled_of_isMishap hmishap)

end Follows

variable {ω : Type} {E : Environment ω} {queue : String} {c c' : Course ω}

/-- A stream that has come to its end remains so. -/
theorem Ended.of_reaches (h : Ended c.proceedings) (hr : c.Reaches E c') :
    Ended c'.proceedings := by
  obtain ⟨new, hext⟩ := hr.extends
  obtain ⟨e, he, hend⟩ := h
  refine ⟨e, ?_, hend⟩
  rw [Course.proceedings, hext.trace, Entry.proceedings_append]
  exact List.mem_append_right _ he

/-- **Every move of a consumer is admissible, and the consumer keeps account of it.** -/
theorem Move.follows {k : Consumer} {stage : Stage Consumer Ending} (hp : 0 < p)
    (h : Attends p k c.proceedings) (hm : Move E queue k c c' stage) :
    Follows p c'.proceedings stage := by
  have hask : ∀ {c' : Course ω} {offer : Offer} {e : Event}, c.ask E = (c', offer) →
      offer.event? = some e → c'.proceedings = e :: c.proceedings := by
    intro c' offer e ha he
    rw [Course.proceedings_of_ask ha, he]
    rfl
  cases hm with
  | @delivered c₁ tag ho hr ha =>
    rw [Course.proceedings_startReject, hask ha rfl]
    exact h.deliver ((h.hasRoom_iff hp).mp hr) (h.streamOpen.mp ho) ⟨tag, _⟩
  | waiting ho hr ha =>
    rw [Course.proceedings_of_ask ha]
    exact ⟨h.limit, h.admissible, h.unfailed, h.flight, h.streamOpen⟩
  | streamOver ho hr ha hover =>
    rcases hover with rfl | rfl
    · rw [hask ha rfl]
      exact h.close ((h.hasRoom_iff hp).mp hr) (h.streamOpen.mp ho) (.inl rfl)
    · rw [hask ha rfl]
      exact h.close ((h.hasRoom_iff hp).mp hr) (h.streamOpen.mp ho) (.inr rfl)
  | streamFailed ho hr ha =>
    rw [hask ha rfl]
    exact ⟨h.cons ⟨(h.hasRoom_iff hp).mp hr, h.streamOpen.mp ho⟩, _, _, rfl, rfl⟩
  | streamPanicked ho hr ha =>
    rw [hask ha rfl]
    exact ⟨h.cons ⟨(h.hasRoom_iff hp).mp hr, h.streamOpen.mp ho⟩, _, _, rfl, rfl, rfl⟩
  | rejected hr hd hf =>
    rw [Course.proceedings_of_finishReject hf]
    exact h.settle hr
  | rejectFailed hr hd hf =>
    rw [Course.proceedings_of_finishReject hf]
    exact ⟨h.cons (h.count_lt hr), _, _, rfl, rfl⟩
  | rejectPanicked hr hd hf =>
    rw [Course.proceedings_of_finishReject hf]
    exact ⟨h.cons (h.count_lt hr), _, _, rfl, rfl, rfl⟩
  | stopped he ho =>
    rw [Course.proceedings_tell]
    refine ⟨h.admissible, h.unfailed, ?_, ?_⟩
    · exact Classical.not_not.mp fun hnot => by simp [h.streamOpen.mpr hnot] at ho
    · simpa [he] using h.flight

theorem Moves.follows {k : Consumer} {stage : Stage Consumer Ending} (hp : 0 < p)
    (hm : Moves E queue k c c' stage) (h : Attends p k c.proceedings) :
    Follows p c'.proceedings stage := by
  induction hm with
  | none k c => exact h
  | last hm => exact hm.follows hp h
  | more hm _ ih => exact ih (hm.follows hp h)

/-! ### Runs -/

namespace Run

variable {r : Run ω} {k k' : Consumer}

theorem step_of_over {ending : Ending} (hs : r.stage = .over ending) : r.step E queue = r := by
  simp only [step, hs]

/-- What is left of a round: time passes if nothing was done in it. -/
def ofRound (E : Environment ω) : Course ω × Stage Consumer Ending × Bool → Run ω
  | (course, .over ending, _) => { course, stage := .over ending }
  | (course, .ongoing k, true) => { course, stage := .ongoing k }
  | (course, .ongoing k, false) => { course := course.advance E k.wakes, stage := .ongoing k }

/-- A step of a consumer at work is a round. -/
theorem step_of_ongoing (hs : r.stage = .ongoing k) :
    r.step E queue = ofRound E (Consumer.step E queue k r.course) := by
  simp only [step, hs]
  rcases Consumer.step E queue k r.course with ⟨c, k' | ending, _ | _⟩ <;> rfl

/-- What a round makes true, and the passing of time keeps, holds after a step. -/
theorem step_of_round {P : Course ω → Stage Consumer Ending → Prop}
    (hover : ∀ ending, r.stage = .over ending → P r.course (.over ending))
    (hround : ∀ k, r.stage = .ongoing k →
      P (Consumer.step E queue k r.course).1 (Consumer.step E queue k r.course).2.1)
    (htime : ∀ c (k : Consumer), P c (.ongoing k) → P (c.advance E k.wakes) (.ongoing k)) :
    P (r.step E queue).course (r.step E queue).stage := by
  match hs : r.stage with
  | .over ending =>
    rw [step_of_over hs, hs]
    exact hover ending hs
  | .ongoing k =>
    have hround := hround k hs
    rw [step_of_ongoing hs]
    rcases hstep : Consumer.step E queue k r.course with ⟨c, k' | ending, _ | _⟩ <;>
      rw [hstep] at hround
    · exact htime c k' hround
    · exact hround
    · exact hround
    · exact hround

theorem step_follows (hp : 0 < p) (h : Follows p r.course.proceedings r.stage) :
    Follows p (r.step E queue).course.proceedings (r.step E queue).stage := by
  refine step_of_round (P := fun c stage => Follows p c.proceedings stage) ?_ ?_ ?_
  · exact fun ending hs => hs ▸ h
  · intro k hs
    rw [hs] at h
    exact (step_moves queue k r.course).follows hp h
  · intro c k hround
    rw [Course.proceedings_advance]
    exact hround

/-- **In a run of a consumer everything is admissible**, and the consumer keeps account of it. -/
theorem run_follows (hp : 0 < p) (now : Nat) (world : ω) (rejected : UInt64) (interrupted : Bool)
    (n : Nat) :
    let r := (Run.enter p (.opening now world rejected interrupted)).run E queue n
    Follows p r.course.proceedings r.stage := by
  intro r
  have hopening : (Course.opening now world rejected interrupted).proceedings = [] := by
    rw [Course.proceedings, Course.opening]
    cases interrupted <;> rfl
  have hr : r = (step E queue)^[n] (Run.enter p (.opening now world rejected interrupted)) :=
    run_eq n _
  rw [hr]
  clear r hr
  induction n with
  | zero =>
    show Follows p (Course.opening now world rejected interrupted).proceedings _
    rw [hopening]
    exact ⟨rfl, trivial, List.forall_mem_nil _, .refl [], by simp [Ended]⟩
  | succ n ih =>
    rw [Function.iterate_succ_apply']
    exact step_follows hp ih

theorem step_reaches (r : Run ω) : r.course.Reaches E (r.step E queue).course := by
  refine step_of_round (P := fun c _ => r.course.Reaches E c) ?_ ?_ ?_
  · exact fun _ _ => .refl _
  · exact fun k _ => (step_moves queue k r.course).calmly.reaches
  · exact fun c k hround => hround.act (.advance _)

theorem run_reaches (r : Run ω) (n : Nat) : r.course.Reaches E (r.run E queue n).course := by
  rw [run_eq]
  induction n with
  | zero => exact .refl _
  | succ n ih =>
    rw [Function.iterate_succ_apply']
    exact ih.trans (step_reaches _)

/-- **The counter counts the rejections.** -/
theorem run_rejected (limit now : Nat) (world : ω) (rejected : UInt64) (interrupted : Bool)
    (n : Nat) :
    let r := (Run.enter limit (.opening now world rejected interrupted)).run E queue n
    r.course.rejected = rejected + UInt64.ofNat (settled r.course.proceedings).length := by
  intro r
  have hreaches : (Course.opening now world rejected interrupted).Reaches E r.course :=
    run_reaches (Run.enter limit (.opening now world rejected interrupted)) n
  obtain ⟨new, hext⟩ := hreaches.extends
  have hopening : Entry.rejections (Course.opening now world rejected interrupted).trace = 0 := by
    cases interrupted <;> rfl
  rw [length_settled, ← Course.rejections_eq, hext.trace, Entry.rejections_append]
  show _ = rejected + UInt64.ofNat (_ + Entry.rejections (Course.opening _ _ _ _).trace)
  rw [hopening]
  exact hext.rejected

theorem run_succ (r : Run ω) (n : Nat) :
    r.run E queue (n + 1) = (r.run E queue n).step E queue := by
  rw [run_eq, run_eq, Function.iterate_succ_apply']

/-- A consumer that is over does nothing more. -/
theorem run_of_over {n m : Nat} {ending : Ending} (hs : (r.run E queue n).stage = .over ending)
    (hm : n ≤ m) : r.run E queue m = r.run E queue n := by
  have hfixed : (r.run E queue n).step E queue = r.run E queue n := step_of_over hs
  rw [run_eq] at hfixed
  rw [run_eq, run_eq, iterate_of_fixed hfixed hm]

/-- A consumer that has rejected everything, and has nothing more to come, says so and is over. -/
theorem step_of_settled (hs : r.stage = .ongoing k) (hopen : k.streamOpen = false)
    (hflight : k.inFlight = []) :
    r.step E queue = { course := r.course.tell (.consumerStopped queue), stage := .over .stopped }
    := by
  have hround : Consumer.step E queue k r.course
      = (r.course.tell (.consumerStopped queue), .over .stopped, false) := by
    simp [Consumer.step, take, settle, hopen, hflight]
  rw [step_of_ongoing hs, hround]
  rfl

end Run

end Consumer

end QueueDrain
