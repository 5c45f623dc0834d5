import QueueDrain.Proofs.Drained
import QueueDrain.Proofs.Progress
import QueueDrain.Proofs.Readings

/-!
# What a run leaves in which nothing fails

Where nothing fails a run comes to its end, and what it leaves there is known completely: the
requests it has made, the summary, the ledger, and how many deliveries were unsettled at the most.
That last number is reached before any rejection is over. Rejections take some time, and before time
passes the consumer has taken all that is ready, or all that it has room for.

## Main definitions

* `Entry.crest` — the largest number of deliveries that were unsettled at any time
* `Drain.State.Rises` — no rejection is over yet
* `Drain.State.Completes` — what a run leaves that has rejected every message

## Main results

* `Orderly.filter_session` — with one session, what the consumer brings on is in that session
* `Drain.step_rises` — the crest is reached before a rejection is over
* `Drain.State.Thrives.ledger_eq` — at the end every message is dead-lettered
* `Drain.run_completes` — a run in which nothing fails rejects every message
-/

namespace QueueDrain

open Relation (ReflTransGen)
open Entry (session openings closures rejections readings requests unsettled Taken)

variable {tag : String} {trace : List Entry}

/-! ### One session -/

/-- Before there is a session, the consumer brings on nothing. -/
theorem Orderly.isConsumption_eq_false (h : Orderly tag trace) (hnone : openings trace = 0) :
    ∀ e ∈ trace, e.event.isConsumption = false := by
  induction trace with
  | nil => simp
  | cons e earlier ih =>
    obtain ⟨hp, ho⟩ := h
    rw [Entry.openings_cons] at hnone
    have hearlier : openings earlier = 0 := by omega
    refine List.forall_mem_cons.mpr ⟨?_, ih ho hearlier⟩
    have hclosed : (Conduct.of earlier).standing.isOpen ≠ true := fun hopen => by
      have := ho.isOpen_iff.mp hopen
      omega
    have hidle : ¬ (Conduct.of earlier).IsConsuming := fun hk =>
      hclosed (Standing.isOpen_of_isServing hk.1)
    revert hp
    cases e.event with
    | delivered _ | streamCancelled | streamEnded | streamFailed _ | streamPanicked _ =>
      exact fun hp => absurd hp hidle
    | rejected _ | rejectFailed _ _ | rejectPanicked _ => exact fun hp => absurd hp.1 hidle
    | _ => exact fun _ => rfl

/-- With one session, what the consumer brings on is in that session. -/
theorem Orderly.filter_session (h : Orderly tag trace) (hone : openings trace ≤ 1) :
    (trace.map Entry.event).filter Event.isConsumption
      = (session trace).filter Event.isConsumption := by
  induction trace with
  | nil => rfl
  | cons e earlier ih =>
    obtain ⟨hp, ho⟩ := h
    rw [Entry.openings_cons] at hone
    rw [session]
    cases hopen : e.event.isOpening with
    | true =>
      have hnone : openings earlier = 0 := by
        rw [hopen] at hone
        simpa using hone
      have hquiet : e.event.isConsumption = false := by
        revert hopen
        cases e.event <;> simp [Event.isOpening, Event.isConsumption]
      simpa [hquiet] using ho.isConsumption_eq_false hnone
    | false =>
      rw [hopen] at hone
      rw [if_neg Bool.false_ne_true, List.map_cons, List.filter_cons, List.filter_cons,
        ih ho (by simpa using hone)]

/-- With one session, what the consumer brings on is counted in that session. -/
theorem Orderly.countP_session (h : Orderly tag trace) (hone : openings trace ≤ 1)
    {p : Event → Bool} (hp : ∀ e, p e = true → e.isConsumption = true) :
    (trace.map Entry.event).countP p = (session trace).countP p := by
  have hfilter : ∀ events : List Event,
      (events.filter Event.isConsumption).countP p = events.countP p := by
    intro events
    rw [List.countP_filter]
    refine List.countP_congr fun e _ => ?_
    rw [Bool.and_eq_true, and_iff_left_of_imp (hp e)]
  rw [← hfilter, h.filter_session hone, hfilter]

/-! ### The crest -/

namespace Entry

/-- The largest number of deliveries that were unsettled at any time. -/
def crest : List Entry → Nat
  | [] => 0
  | e :: earlier => max (unsettled (e :: earlier)).length (crest earlier)

theorem length_unsettled_le_crest (trace : List Entry) :
    (unsettled trace).length ≤ crest trace := by
  cases trace with
  | nil => exact Nat.le_refl 0
  | cons e earlier => exact Nat.le_max_left _ _

theorem crest_le_append (later earlier : List Entry) :
    crest earlier ≤ crest (later ++ earlier) := by
  induction later with
  | nil => exact Nat.le_refl _
  | cons e later ih => exact Nat.le_trans ih (Nat.le_max_right _ _)

theorem crest_le {bound : Nat}
    (h : ∀ later earlier, trace = later ++ earlier → (unsettled earlier).length ≤ bound) :
    crest trace ≤ bound := by
  induction trace with
  | nil => exact Nat.zero_le _
  | cons e earlier ih =>
    refine Nat.max_le.mpr ⟨h [] _ rfl, ih fun later rest heq => ?_⟩
    exact h (e :: later) rest (by rw [heq]; rfl)

/-- What is unsettled was delivered. -/
theorem length_unsettled_le (trace : List Entry) :
    (unsettled trace).length ≤ trace.countP fun e => e.event.isDelivery := by
  induction trace with
  | nil => exact Nat.le_refl 0
  | cons e earlier ih =>
    rw [List.countP_cons, unsettled]
    split
    next t he =>
      rw [he, List.length_append]
      exact Nat.add_le_add_right ih 1
    next => exact Nat.le_trans (List.length_erase_le) (Nat.le_trans ih (Nat.le_add_right _ _))
    next => exact Nat.le_trans (List.length_filter_le _ _) (Nat.le_trans ih (Nat.le_add_right _ _))
    next => exact Nat.le_trans (List.length_filter_le _ _) (Nat.le_trans ih (Nat.le_add_right _ _))
    next => exact Nat.le_trans ih (Nat.le_add_right _ _)

end Entry

open Entry (crest)

variable {ω : Type} {E : Environment ω} {B : Broker E} {F : B.Faultless} {l : Ledger} {b : Bool}

namespace Drain

variable {plan : Plan} {s s' : State ω} {first : Ledger}

/-- No rejection is over yet. -/
structure State.Rises (s : State ω) : Prop where
  none : rejections s.course.trace = 0
  pending : ∀ r ∈ s.worker.flight, reached r.due s.course.now = false

/-- As long as no time passes, no rejection gets over. -/
theorem Move.rises (hm : Move E plan s s') (h : s.Smooth F plan l b)
    (hnow : s'.course.now = s.course.now) (hr : s.Rises) : s'.Rises := by
  -- no rejection is among what is added
  have hnone : ∀ new : List Event, s'.course.proceedings = new ++ s.course.proceedings →
      (∀ e ∈ new, e.isRejection = false) → rejections s'.course.trace = 0 := by
    intro new hp hnew
    rw [Course.rejections_eq, hp, List.countP_append, ← Course.rejections_eq, hr.none]
    exact List.countP_eq_zero.mpr fun e he => Bool.eq_false_iff.mp (hnew e he)
  rcases hm.consumes_or with ⟨k, c', stage, hw, hmove, rfl⟩ | ⟨⟨new, hnew, hquiet⟩, hworker⟩
  · have hpending := hr.pending
    rw [hw] at hpending
    -- the flight is as before, or less
    have hkeep : ∀ new : List Event, c'.proceedings = new ++ s.course.proceedings →
        (∀ e ∈ new, e.isRejection = false) →
        (∀ r ∈ (Worker.ofStage stage).flight, r ∈ k.inFlight) →
        { s with course := c', worker := .ofStage stage : State ω }.Rises :=
      fun new hp hnew hflight =>
        ⟨hnone new hp hnew, fun r hr => by rw [hnow]; exact hpending r (hflight r hr)⟩
    cases hmove with
    | @delivered c₁ t ho hroom ha =>
      obtain ⟨-, hc⟩ := h.calm.ask ha
      obtain ⟨due, hdue, hlt⟩ := hc.startReject_due t
      have hnow₁ : (c₁.startReject E t).1.now = c₁.now := Course.absorb_now _ _
      refine ⟨hnone [.delivered t] ?_ (by simp [Event.isRejection]), fun r hmem => ?_⟩
      · show (c₁.startReject E t).1.proceedings = _
        rw [Course.proceedings_startReject, Course.proceedings_of_ask ha]
        rfl
      · rcases List.mem_append.mp hmem with hmem | hmem
        · rw [hnow]
          exact hpending r hmem
        · obtain rfl := List.mem_singleton.mp hmem
          refine reached_eq_false.mpr fun u hu => ?_
          obtain rfl : due = u := Option.some.inj (hdue.symm.trans hu)
          exact hnow₁ ▸ hlt
    | waiting ho hroom ha => exact hkeep [] (Course.proceedings_of_ask ha) (by simp) fun _ => id
    | streamOver ho hroom ha hover =>
      refine hkeep _ (Course.proceedings_of_ask ha) (fun e he => ?_) fun _ => id
      rcases hover with rfl | rfl <;> obtain rfl := List.mem_singleton.mp he <;> rfl
    | streamFailed _ _ ha => exact (h.calm.ask ha).1.elim
    | streamPanicked _ _ ha => exact (h.calm.ask ha).1.elim
    | rejected hmem hd hf => exact absurd ((hpending _ hmem).symm.trans hd) (by simp)
    | rejectFailed hmem hd hf => exact absurd ((hpending _ hmem).symm.trans hd) (by simp)
    | rejectPanicked hmem hd hf => exact absurd ((hpending _ hmem).symm.trans hd) (by simp)
    | stopped he ho => exact hkeep [] (Course.proceedings_tell _ _) (by simp) (by rintro _ ⟨⟩)
  · refine ⟨?_, fun r hmem => ?_⟩
    · refine hnone new hnew.proceedings_eq fun e he => Bool.eq_false_iff.mpr fun hrejection => ?_
      have hconsumption := Event.isConsumption_of_isRejection hrejection
      exact absurd ((hquiet e he).1.symm.trans hconsumption) (by simp)
    · rw [hnow]
      rcases hworker with hw | hw | ⟨hw, -⟩ <;> rw [hw] at hmem
      · exact hr.pending r hmem
      · cases hmem
      · cases hmem

/-- As long as no time passes, no rejection gets over, however many moves there are. -/
theorem rises_of_moves (h : s.Thrives F plan first) (hr : s.Rises)
    (hmoves : ReflTransGen (Move E plan) s s') (hnow : s'.course.now = s.course.now) :
    s'.Rises := by
  refine (of_moves (P := fun s' => s'.Thrives F plan first ∧ s.course.now ≤ s'.course.now ∧
    (s'.course.now = s.course.now → s'.Rises)) ?_ ⟨h, Nat.le_refl _, fun _ => hr⟩ hmoves).2.2 hnow
  rintro s₁ s₂ hm ⟨h₁, hle₁, hr₁⟩
  obtain ⟨new, hext⟩ := hm.reaches.extends
  have hle := hext.now_le
  refine ⟨hm.thrives h₁, Nat.le_trans hle₁ hle, fun hnow₂ => ?_⟩
  exact hm.rises h₁.smooth (by omega) (hr₁ (by omega))

/-- An action of the coordinator takes no time. -/
theorem coordinate_now (h : coordinate E plan s = some s') : s'.course.now = s.course.now := by
  have hne := coordinate_phase_ne h
  rcases (coordinate_move h).calmly_or with hc | ⟨wake, c, -, -, hc, hcourse, -⟩ | ⟨-, rfl⟩
  · exact hc.now_eq
  · rw [hcourse]
    exact (Course.absorb_now _ _).trans hc.now_eq
  · exact absurd rfl hne

/-- While the stream is not open, nothing is ready. -/
theorem Phase.Suits.ready_eq_zero {phase : Phase} {polls : Nat} {k : Consumer}
    (h : phase.Suits l b polls (.running k)) (ho : k.streamOpen = false) : l.ready = 0 := by
  match phase with
  | .connecting _ | .subscribing _ => cases h.2.1
  | .polling _ =>
    obtain ⟨-, -, k', hk, ho'⟩ := h
    cases hk
    exact absurd (ho.symm.trans ho') (by simp)
  | .cancelling _ _ => exact h.2.2.2.1
  | .joining _ => exact h.2.2.1
  | .closing _ _ | .finished _ => cases h.1

/-- A consumer that waits for time to pass has taken all that is ready, or all that it has room
for. -/
theorem State.Thrives.full {k : Consumer} (h : s.Thrives F plan first)
    (hfirst : first.outstanding = 0) (hr : s.Rises) (hw : s.worker = .running k)
    (hrests : k.Rests (F.serving s.course.world) (B.ledger s.course.world).ready s.course.now) :
    min first.ready plan.config.prefetchCount.toNat ≤ (unsettled s.course.trace).length := by
  have hworker := h.follows.worker
  rw [hw] at hworker
  obtain ⟨hk, hperm⟩ := hworker
  have hopen := Standing.isOpen_of_isServing hk.1
  have hflight := hperm.length_eq
  rw [List.length_map] at hflight
  rw [h.follows.course.orderly.unsettled_eq, if_pos hopen, List.length_map]
  by_cases hfull : k.streamOpen = true ∧ k.hasRoom = false
  · -- there is no more room
    have hlimit := h.limited k hw
    have hroom := hfull.2
    rw [Consumer.hasRoom, Bool.or_eq_false_iff, decide_eq_false_iff_not] at hroom
    omega
  · -- everything ready was taken, and nothing is rejected yet
    have hready : (B.ledger s.course.world).ready = 0 := by
      cases ho : k.streamOpen with
      | true =>
        refine (hrests.taken ho ?_).2
        simpa [ho] using hfull
      | false =>
        have hsuits := h.smooth.suits
        rw [hw] at hsuits
        exact hsuits.ready_eq_zero ho
    obtain ⟨-, hle⟩ := h.balances.held hopen
    have htotal := h.balances.total
    have hdead := h.balances.deadLettered
    have harrived := h.arrived
    have hnone := hr.none
    simp only [Ledger.total] at htotal
    omega

/-- **The crest is reached before a rejection is over.** -/
theorem step_rises (h : s.Thrives F plan first) (hfirst : first.outstanding = 0)
    (hu : s.result? = none)
    (hr : s.Rises ∨ min first.ready plan.config.prefetchCount.toNat ≤ crest s.course.trace) :
    (step E plan s).Rises ∨
      min first.ready plan.config.prefetchCount.toNat ≤ crest (step E plan s).course.trace := by
  have hgrows : ∀ {s₁ : State ω}, ReflTransGen (Move E plan) s₁ (step E plan s) →
      crest s₁.course.trace ≤ crest (step E plan s).course.trace := by
    intro s₁ hmoves
    obtain ⟨new, hext⟩ := (reaches_of_moves hmoves).extends
    rw [hext.trace]
    exact Entry.crest_le_append _ _
  rcases hr with hr | hcrest
  · rcases step_cases hu with hs | hs | ⟨s₁, hc, hs⟩
    · exact .inl ((coordinate_move hs).rises h.smooth (coordinate_now hs) hr)
    · have hmoves := consume_moves (E := E) plan hu
      have hnow := (consume_calmly (E := E) plan s).now_eq
      rw [hs] at hmoves hnow
      exact .inl (rises_of_moves h hr hmoves hnow)
    · have hmoves := consume_moves (E := E) plan hu
      have hnow := (consume_calmly (E := E) plan s).now_eq
      have hu₁ := (consume_result? (E := E) plan s).trans hu
      rw [hc] at hmoves hnow hu₁
      have h₁ : s₁.Thrives F plan first := of_moves (fun _ _ hm => hm.thrives) h hmoves
      have hr₁ : s₁.Rises := rises_of_moves h hr hmoves hnow
      rcases hs with hs | ⟨hidle, hs⟩
      · exact .inl ((coordinate_move hs).rises h₁.smooth (coordinate_now hs) hr₁)
      · have hm : Move E plan s₁ (step E plan s) := hs ▸ .time hu₁ hidle
        cases hw : s₁.worker with
        | running k =>
          rcases consume_rests h.smooth hc h₁.smooth with ⟨hnot, -⟩ | ⟨-, -, -, -, hrests⟩
          · cases hnot
          refine .inr (Nat.le_trans (h₁.full hfirst hr₁ hw (hrests k hw)) ?_)
          exact Nat.le_trans (Entry.length_unsettled_le_crest _) (hgrows (.single hm))
        | _ =>
          -- nothing is in flight
          refine .inl ⟨?_, fun r hmem => ?_⟩
          · rw [hs, Course.rejections_eq]
            show (s₁.course.advance E (wakes s₁)).proceedings.countP _ = 0
            rw [Course.proceedings_advance, ← Course.rejections_eq, hr₁.none]
          · rw [hs, show ({ s₁ with course := s₁.course.advance E (wakes s₁) } : State ω).worker
              = s₁.worker from rfl, hw] at hmem
            cases hmem
  · exact .inr (Nat.le_trans hcrest (hgrows (step_moves plan s)))

/-! ### The end of the run -/

/-- What a run leaves that has rejected every message of a queue with this ledger. -/
structure State.Completes (B : Broker E) (plan : Plan) (before : Ledger) (s : State ω) : Prop where
  /-- The summary tells of an empty queue and of all its messages. -/
  result : s.result? = some (.ok
    { queue := plan.config.queueName
      endpoint := plan.endpoint
      outcome := .drained
      rejected := before.ready
      polls := (readings s.course.trace).length % 2 ^ 64
      reconnects := 0
      lastMessageCount := some 0 })
  /-- Only the last of the depth readings is zero. -/
  readings : ∃ counts, readings s.course.trace = 0 :: counts ∧ ∀ count ∈ counts, count ≠ 0
  /-- One session was established, subscribed to, cancelled and closed; nothing else was asked of
  the broker but the depth, once for every reading. -/
  requests : requests s.course.trace
    = [.close, .cancel plan.config.consumerTag]
      ++ List.replicate (Entry.readings s.course.trace).length .depth
      ++ [.subscribe plan.config.consumerTag, .establish]
  sessions : openings s.course.trace = 1 ∧ closures s.course.trace = 1
  unfailed : ∀ e ∈ s.course.trace, e.event.isFault = false
  /-- Every message is dead-lettered. -/
  ledger : B.ledger s.course.world
    = ⟨0, 0, before.deadLettered + before.ready, before.arrived⟩
  /-- There were as many rejections as messages, and every delivery was rejected once. -/
  rejections : rejections s.course.trace = before.ready ∧
    ∀ t, (s.course.trace.map Entry.event).count (.rejected t)
      = (s.course.trace.map Entry.event).count (.delivered t)
  /-- The largest number outstanding at any time. -/
  crest : crest s.course.trace = min before.ready plan.config.prefetchCount.toNat

section Final

variable (h : s.Thrives F plan first) (hover : s.result? ≠ none)

include h

theorem State.Thrives.unfailed : ∀ e ∈ s.course.trace, e.event.isFault = false := by
  intro e he
  cases haside : e.event.isAside with
  | true =>
    revert haside
    cases e.event <;> simp [Event.isAside, Event.isFault]
  | false => exact h.smooth.unfailed _ (Entry.mem_proceedings.mpr ⟨⟨e, he, rfl⟩, haside⟩)

theorem State.Thrives.mishap_eq_false : (Conduct.of s.course.trace).mishap = false := by
  rw [mishap_eq_any, List.any_eq_false]
  intro x hx hmishap
  obtain ⟨e, he, rfl⟩ := Entry.mem_of_mem_session hx
  exact absurd ((h.unfailed e he).symm.trans (Event.isFault_of_isMishap hmishap)) (by simp)

include hover

/-- The run is over because the queue was seen empty. -/
theorem State.Thrives.drained :
    (∃ summary, s.phase = .finished (.ok summary) ∧ summary.outcome = .drained) ∧
      (Conduct.of s.course.trace).emptied = true := by
  obtain ⟨result, hresult⟩ := Option.ne_none_iff_exists'.mp hover
  have hp := phase_of_result? hresult
  have hsuits := h.smooth.suits
  have hphase := h.follows.phase
  rw [hp] at hsuits hphase
  obtain ⟨-, summary, rfl, houtcome⟩ := hsuits
  refine ⟨⟨summary, hp, houtcome⟩, ?_⟩
  have hexplains := hphase.2.1
  rwa [houtcome] at hexplains

theorem State.Thrives.isOpen_eq_false :
    (Conduct.of s.course.trace).standing.isOpen = false := by
  obtain ⟨result, hresult⟩ := Option.ne_none_iff_exists'.mp hover
  exact h.follows.isOpen_of_result hresult

theorem State.Thrives.openings_eq_one :
    openings s.course.trace = 1 ∧ closures s.course.trace = 1 := by
  obtain ⟨⟨summary, hp, -⟩, -⟩ := h.drained hover
  have hone : openings s.course.trace = 1 := by rw [h.smooth.sessions, hp]; rfl
  have hclosed := h.follows.course.orderly.openings_eq_closures
  rw [h.isOpen_eq_false hover] at hclosed
  simp only [Bool.false_eq_true, if_false] at hclosed
  omega

theorem State.Thrives.unsettled_eq_nil : (Conduct.of s.course.trace).unsettled = [] := by
  obtain ⟨-, he⟩ := h.drained hover
  have hclosed := h.isOpen_eq_false hover
  have hmishap := h.mishap_eq_false
  rcases (h.follows.course.orderly.emptied he).1 with hs | hs | hs | ⟨-, hs | hs⟩
  · simp [hs, Standing.isOpen] at hclosed
  · simp [hs, Standing.isOpen] at hclosed
  · simp [hs, Standing.isOpen] at hclosed
  · exact absurd (hmishap.symm.trans hs) (by simp)
  · exact hs

/-- Every delivery was rejected once. -/
theorem State.Thrives.count_rejected (t : Nat) :
    (s.course.trace.map Entry.event).count (.rejected t)
      = (s.course.trace.map Entry.event).count (.delivered t) := by
  have ho := h.follows.course.orderly
  have hone : openings s.course.trace ≤ 1 := (h.openings_eq_one hover).1.le
  have hcount := ho.count_unsettled t
  rw [h.unsettled_eq_nil hover, List.count_nil, Nat.zero_add] at hcount
  rw [List.count, List.count, ho.countP_session hone, ho.countP_session hone]
  · exact hcount.symm
  · intro e he
    rw [eq_of_beq he]
    rfl
  · intro e he
    rw [eq_of_beq he]
    rfl

/-- There were as many rejections as deliveries. -/
theorem State.Thrives.rejections_eq :
    rejections s.course.trace = (s.course.trace.map Entry.event).countP Event.isDelivery := by
  have ho := h.follows.course.orderly
  have hone : openings s.course.trace ≤ 1 := (h.openings_eq_one hover).1.le
  have hlength := ho.length_unsettled
  rw [h.unsettled_eq_nil hover, List.length_nil, Nat.zero_add] at hlength
  rw [ho.countP_session hone fun e => Event.isConsumption_of_isDelivery, hlength,
    ← ho.countP_session hone fun e => Event.isConsumption_of_isRejection, Entry.rejections,
    List.countP_map]
  rfl

/-- If nothing is ready at the end, every message is dead-lettered, by a rejection of its own. -/
theorem State.Thrives.ledger_eq (hfirst : first.outstanding = 0)
    (hready : (B.ledger s.course.world).ready = 0) :
    rejections s.course.trace = first.ready ∧
      B.ledger s.course.world = ⟨0, 0, first.deadLettered + first.ready, first.arrived⟩ := by
  have hclosed := h.isOpen_eq_false hover
  have hout : (B.ledger s.course.world).outstanding = 0 :=
    Nat.le_zero.mp (hfirst ▸ (h.balances.released hclosed).1)
  have hdead := h.balances.deadLettered
  have hrejections : rejections s.course.trace = first.ready := by
    have htotal := h.balances.total
    have harrived := h.arrived
    simp only [Ledger.total] at htotal
    omega
  have hledger : B.ledger s.course.world = ⟨(B.ledger s.course.world).ready,
    (B.ledger s.course.world).outstanding, (B.ledger s.course.world).deadLettered,
    (B.ledger s.course.world).arrived⟩ := rfl
  refine ⟨hrejections, ?_⟩
  rw [hledger, hready, hout, hdead, h.arrived, hrejections]

/-- No more deliveries were unsettled at a time than there were rejections. -/
theorem State.Thrives.crest_le : crest s.course.trace ≤ rejections s.course.trace := by
  refine Entry.crest_le fun later earlier htrace => ?_
  refine Nat.le_trans (Entry.length_unsettled_le earlier) ?_
  rw [h.rejections_eq hover, htrace, List.map_append, List.countP_append,
    List.countP_map (l := earlier)]
  exact Nat.le_add_left _ _

end Final

/-- In a run in which nothing fails the crest is reached as long as there are rejections to come. -/
theorem run_rises (F : B.Faultless) (plan : Plan) (now : Nat) {world : ω} (rejected : UInt64)
    (h : F.sound world) (h₀ : (B.ledger world).outstanding = 0) (n : Nat) :
    let s := run E plan n (start E plan (.opening now world rejected false))
    s.Rises ∨
      min (B.ledger world).ready plan.config.prefetchCount.toNat ≤ Entry.crest s.course.trace := by
  induction n with
  | zero =>
    refine .inl ⟨?_, fun r hmem => ?_⟩
    · show rejections (start E plan (.opening now world rejected false)).course.trace = 0
      rw [Course.rejections_eq, proceedings_start]
      rfl
    · rw [show (run E plan 0 (start E plan (.opening now world rejected false))).worker = .absent
        from start_worker plan _] at hmem
      cases hmem
  | succ n ih =>
    rw [run_succ]
    cases hu : (run E plan n (start E plan (.opening now world rejected false))).result? with
    | some result => rw [step_of_finished hu]; exact ih
    | none => exact step_rises (run_thrives F plan now rejected h n) h₀ hu ih

/-- **A run in which nothing fails rejects every message.** Whatever the prefetch count, the poll
interval, the time that answers and rejections take and the number of messages: the run comes to its
end, the queue is empty then, and the most deliveries that were unsettled at a time are as many as
there were messages or as the prefetch count allows. -/
theorem run_completes (F : B.Faultless) (plan : Plan) (hprefetch : plan.config.prefetchCount ≠ 0)
    (hinterval : plan.config.pollInterval.isZero = false) (now : Nat) (world : ω)
    (hworld : F.sound world) (h₀ : (B.ledger world).outstanding = 0)
    (hready : (B.ledger world).ready < 2 ^ 64) :
    ∃ n, (run E plan n (start E plan (.opening now world 0 false))).Completes B plan
      (B.ledger world) := by
  obtain ⟨n, hover⟩ :=
    run_finishes F plan (Duration.millisCeil_pos hinterval) now (0 : UInt64) hworld
  refine ⟨n, ?_⟩
  have h := run_thrives F plan now (0 : UInt64) hworld n
  have hquiet : QuietSinceZero B plan (start E plan (.opening now world 0 false)) n :=
    fun k _ _ _ => h.arrived.trans (run_thrives F plan now (0 : UInt64) hworld k).arrived.symm
  have hemptied := fun hdone => run_emptied B F.candid plan now world 0 false n h₀ hdone hquiet
  have hcounts := run_counts E plan now world 0 false n
  have hreports := run_reports E plan now world 0 false n
  have htallies := run_tallies E plan now world 0 false n
  have hrises := run_rises F plan now (0 : UInt64) hworld h₀ n
  have hroom := fun later earlier (htrace : _ = later ++ earlier) =>
    length_unsettled_le_prefetch E hprefetch now world 0 false n htrace
  generalize run E plan n (start E plan (.opening now world 0 false)) = s
    at h hover hemptied hcounts hreports htallies hrises hroom ⊢
  have ho := h.follows.course.orderly
  obtain ⟨⟨summary, hphase, houtcome⟩, he⟩ := h.drained hover
  have hready₁ : (B.ledger s.course.world).ready = 0 := by
    rw [(hemptied (h.follows.emptied.trans he)).released (h.isOpen_eq_false hover),
      h.unsettled_eq_nil hover]
    rfl
  obtain ⟨hrejections, hledger⟩ := h.ledger_eq hover h₀ hready₁
  -- the readings end in the zero that the run has seen
  obtain ⟨hhead, htail⟩ := ho.readings_head
  obtain ⟨counts, hcounts₀⟩ := List.head?_eq_some_iff.mp (hhead.mp he)
  have hnumber : s.course.rejected.toNat = (B.ledger world).ready := by
    rw [hcounts, UInt64.zero_add, hrejections, UInt64.toNat_ofNat']
    exact Nat.mod_eq_of_lt hready
  have hasked := h.smooth.asked
  rw [hphase] at hasked
  have hreconnects : s.reconnects = 0 := by
    rw [h.follows.reconnects, sessions_eq_openings, (h.openings_eq_one hover).1]
    rfl
  refine ⟨?_, ⟨counts, hcounts₀, by rwa [hcounts₀] at htail⟩, hasked, h.openings_eq_one hover,
    h.unfailed, hledger, ⟨hrejections, h.count_rejected hover⟩, Nat.le_antisymm ?_ ?_⟩
  · have hresult : s.result? = some (.ok summary) := by rw [State.result?, hphase]
    rw [hresult, hreports summary hresult, houtcome, State.summary, hnumber, htallies.polls_eq,
      htallies.2, hhead.mp he, hreconnects]
    rfl
  · exact le_min (hrejections ▸ h.crest_le hover) (Entry.crest_le hroom)
  · rcases hrises with hr | hcrest
    · rw [← hrejections, hr.none]
      exact Nat.zero_le _
    · exact hcrest

end Drain

/-- More messages than the prefetch count, rejections that take less or more than a poll interval,
and answers that take some time. -/
def Scenario.patient : Scenario where
  messages := 12
  attempts := [{ delay := 3 }]
  sessions := [{ subscribe := { delay := 2 }, cancel := { delay := 4 }, closeDelay := 5 }]
  latencies := [700, 12000]

/-- Twelve messages are rejected, no more than ten at a time. -/
theorem Drain.run_completes_patient :
    Drain.Plan.sample.config.prefetchCount ≠ 0 ∧
    Drain.Plan.sample.config.pollInterval.isZero = false ∧
    Scenario.patient.opening.Sound ∧ Scenario.patient.opening.ledger = ⟨12, 0, 0, 0⟩ ∧
    ∃ n, let s := Scenario.patient.runs .sample n
      s.Completes Scenario.patient.broker .sample ⟨12, 0, 0, 0⟩ ∧
      s.course.world.ledger = ⟨0, 0, 12, 0⟩ ∧ crest s.course.trace = 10 := by
  have hsucceeds : Scenario.patient.Succeeds :=
    { attempts := List.forall_mem_singleton.mpr ⟨⟨rfl, rfl⟩, rfl⟩
      sessions := List.forall_mem_singleton.mpr
        { subscribe := ⟨rfl, rfl⟩
          polls := fun _ h => nomatch h
          cancel := ⟨rfl, rfl⟩
          stream := ⟨rfl, rfl, rfl⟩ }
      latencies := by decide
      rejectFaults := rfl }
  have hsound : Scenario.patient.opening.Sound := Scenario.sound_opening rfl
  obtain ⟨n, hn⟩ := Drain.run_completes (Scenario.faultless hsucceeds) .sample (by decide) rfl 0
    Scenario.patient.opening hsound rfl (by decide)
  exact ⟨by decide, rfl, hsound, rfl, n, hn, hn.ledger, hn.crest⟩

end QueueDrain
