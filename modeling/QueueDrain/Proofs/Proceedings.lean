import QueueDrain.Proofs.Moves
import QueueDrain.Proofs.Sessions

/-!
# What a move brings on

Lines of the log and the interrupt may come with anything that the environment does, so what a move
adds to the trace is only known up to them. With these asides left out it is known exactly: a
request adds its beginning, an answer itself, and the consumer at most one event at a time. The
events of a trace that are no asides are called its proceedings here.

## Main definitions

* `Entry.proceedings` — what has happened, asides apart
* `Entry.requests` — the requests in a trace
* `Event.isConsumption`, `Event.isStreamEnd` — what only the consumer brings on
* `Course.Proceeds` — a later course, with what has happened in between
* `Drain.Adds` — what a move of the coordinator adds

## Main results

* `Course.proceedings_begin`, `Course.proceedings_finish`, … — what an operation adds
* `Consumer.Move.proceedings`, `Poller.Move.proceedings` — what a part of a run adds
* `Drain.Move.adds_or` — what a move adds
* `Drain.Move.consumes_or` — only the consumer takes and rejects
-/

namespace QueueDrain

/-- Deliveries and their fates, and the ends of streams. -/
def Event.isConsumption : Event → Bool
  | .delivered _ | .rejected _ | .rejectFailed _ _ | .rejectPanicked _ | .streamCancelled
  | .streamEnded | .streamFailed _ | .streamPanicked _ => true
  | _ => false

/-- The stream came to its end, cancelled or not. -/
def Event.isStreamEnd : Event → Bool
  | .streamCancelled | .streamEnded => true
  | _ => false

/-- The request that an event begins. -/
def Event.request? : Event → Option Request
  | .began r => some r
  | _ => none

theorem Event.isConsumption_of_isStreamEnd {e : Event} (h : e.isStreamEnd = true) :
    e.isConsumption = true := by
  cases e <;> simp_all [isStreamEnd, isConsumption]

theorem Event.isAside_of_isConsumption {e : Event} (h : e.isConsumption = true) :
    e.isAside = false := by
  cases e <;> simp_all [isConsumption, isAside]

theorem Event.isConsumption_of_isRejection {e : Event} (h : e.isRejection = true) :
    e.isConsumption = true := by
  cases e <;> simp_all [isRejection, isConsumption]

theorem Offer.isConsumption_of_event? {offer : Offer} {e : Event} (h : offer.event? = some e) :
    e.isConsumption = true := by
  cases offer <;> cases h <;> rfl

theorem Settlement.isConsumption_event (settlement : Settlement) (tag : Nat) :
    (settlement.event tag).isConsumption = true := by
  cases settlement <;> rfl

namespace Entry

/-- What has happened, newest first, asides apart. -/
def proceedings (trace : List Entry) : List Event :=
  (trace.map Entry.event).filter fun e => !e.isAside

/-- The requests in a trace, latest first. -/
def requests (trace : List Entry) : List Request := trace.filterMap fun e => e.event.request?

@[simp] theorem proceedings_nil : proceedings [] = [] := rfl

@[simp] theorem proceedings_append (later earlier : List Entry) :
    proceedings (later ++ earlier) = proceedings later ++ proceedings earlier := by
  simp [proceedings]

theorem proceedings_cons (e : Entry) (earlier : List Entry) :
    proceedings (e :: earlier)
      = if e.event.isAside then proceedings earlier else e.event :: proceedings earlier := by
  cases h : e.event.isAside <;> simp [proceedings, h]

theorem proceedings_asides {asides : List Entry} (h : ∀ e ∈ asides, e.event.isAside = true) :
    proceedings asides = [] := by
  simpa [proceedings] using h

theorem mem_proceedings {trace : List Entry} {e : Event} :
    e ∈ proceedings trace ↔ (∃ entry ∈ trace, entry.event = e) ∧ e.isAside = false := by
  simp [proceedings]

/-- Asides open no session. -/
theorem isOpening_of_proceedings {trace : List Entry}
    (h : ∀ x ∈ proceedings trace, x.isOpening = false) :
    ∀ e ∈ trace, e.event.isOpening = false := by
  intro e he
  cases haside : e.event.isAside with
  | true => cases hevent : e.event <;> simp_all [Event.isAside, Event.isOpening]
  | false => exact h _ (mem_proceedings.mpr ⟨⟨e, he, rfl⟩, haside⟩)

/-- A session goes on as long as no other one is opened. -/
theorem session_append {later : List Entry} (h : ∀ e ∈ later, e.event.isOpening = false)
    (earlier : List Entry) :
    session (later ++ earlier) = later.map Entry.event ++ session earlier := by
  induction later with
  | nil => rfl
  | cons e later ih =>
    obtain ⟨he, hrest⟩ := List.forall_mem_cons.mp h
    rw [List.cons_append, session, if_neg (by simp [he]), ih hrest]
    rfl

@[simp] theorem requests_nil : requests [] = [] := rfl

@[simp] theorem requests_append (later earlier : List Entry) :
    requests (later ++ earlier) = requests later ++ requests earlier :=
  List.filterMap_append

/-- Requests are no asides. -/
theorem requests_eq (trace : List Entry) :
    requests trace = (proceedings trace).filterMap Event.request? := by
  induction trace with
  | nil => rfl
  | cons e earlier ih =>
    obtain ⟨t, e⟩ := e
    rw [requests, List.filterMap_cons, ← requests, ih, proceedings_cons]
    cases e <;> rfl

/-- Openings are no asides. -/
theorem openings_eq (trace : List Entry) :
    openings trace = (proceedings trace).countP Event.isOpening := by
  rw [proceedings, List.countP_filter, List.countP_map, openings]
  refine List.countP_congr fun e _ => ?_
  cases hevent : e.event <;> simp [hevent, Event.isAside, Event.isOpening]

end Entry

variable {ω : Type} {E : Environment ω}

open Entry (proceedings requests)

namespace Course

variable {c c' c'' : Course ω} {α : Type}

/-! ### Operations on a course -/

/-- What has happened in a course, newest first, asides apart. -/
def proceedings (c : Course ω) : List Event := Entry.proceedings c.trace

/-- The rejections in a trace are among its proceedings. -/
theorem rejections_eq (c : Course ω) :
    Entry.rejections c.trace = c.proceedings.countP Event.isRejection := by
  rw [proceedings, Entry.proceedings, List.countP_filter, List.countP_map, Entry.rejections]
  refine List.countP_congr fun e _ => ?_
  cases haside : e.event.isAside <;> simp [haside, Event.isRejection_of_isAside]

@[simp] theorem proceedings_tell (c : Course ω) (line : Notice) :
    (c.tell line).proceedings = c.proceedings := rfl

/-- An event that is no aside is added. -/
theorem proceedings_note (c : Course ω) {e : Event} (h : e.isAside = false) :
    (c.note e).proceedings = e :: c.proceedings := by
  rw [proceedings, note_trace, Entry.proceedings_cons, h]; rfl

@[simp] theorem proceedings_absorb (c : Course ω) (effect : Effect ω α) :
    (c.absorb effect).proceedings = c.proceedings := by
  obtain ⟨asides, htrace, hall⟩ := absorb_trace c effect
  rw [proceedings, htrace, Entry.proceedings_append,
    Entry.proceedings_asides fun e he => (hall e he).2]
  rfl

@[simp] theorem proceedings_begin (c : Course ω) (r : Request) :
    (c.begin E r).1.proceedings = .began r :: c.proceedings := by
  rw [begin, proceedings_absorb, proceedings_note c rfl]

theorem isAside_answer (r : Request) (value : Except DrainError Nat) :
    (answer r value).isAside = false := by
  cases value <;> rfl

@[simp] theorem proceedings_finish (c : Course ω) (r : Request) :
    (c.finish E r).1.proceedings = answer r (c.finish E r).2 :: c.proceedings := by
  rw [finish_eq, proceedings_note _ (isAside_answer r _), proceedings_absorb]

theorem proceedings_of_finish {r : Request} {value : Except DrainError Nat}
    (h : c.finish E r = (c', value)) : c'.proceedings = answer r value :: c.proceedings := by
  have := proceedings_finish (E := E) c r
  rwa [h] at this

/-- An answer, and what it leads to. -/
theorem append_proceedings_of_finish {r : Request} {value : Except DrainError Nat}
    (asked : List Event) (h : c.finish E r = (c', value)) :
    asked ++ c'.proceedings = (asked ++ [answer r value]) ++ c.proceedings := by
  rw [proceedings_of_finish h, List.append_assoc]
  rfl

theorem proceedings_of_ask {offer : Offer} (h : c.ask E = (c', offer)) :
    c'.proceedings = offer.event?.toList ++ c.proceedings := by
  obtain ⟨rfl, rfl⟩ := Prod.mk.inj h
  cases hv : (E.ask c.now c.world).value <;> simp only [Offer.event?]
  case wait => exact proceedings_absorb c _
  all_goals
    rw [proceedings_note _ rfl, proceedings_absorb]
    rfl

@[simp] theorem proceedings_startReject (c : Course ω) (tag : Nat) :
    (c.startReject E tag).1.proceedings = c.proceedings := proceedings_absorb c _

theorem proceedings_of_finishReject {tag : Nat} {settlement : Settlement}
    (h : c.finishReject E tag = (c', settlement)) :
    c'.proceedings = settlement.event tag :: c.proceedings := by
  obtain ⟨rfl, rfl⟩ := Prod.mk.inj h
  have haside : ∀ settlement : Settlement, (settlement.event tag).isAside = false := by
    intro settlement
    cases settlement <;> rfl
  rw [proceedings_note _ (haside _)]
  split
  · exact congrArg _ (proceedings_absorb c _)
  · exact congrArg _ (proceedings_absorb c _)

theorem Raced.proceedings_eq (h : Raced E c c') : c'.proceedings = c.proceedings := by
  obtain ⟨world, rfl⟩ := h.eq
  rfl

@[simp] theorem proceedings_advance (c : Course ω) (wakes : List (Option Nat)) :
    (c.advance E wakes).proceedings = c.proceedings := by
  obtain ⟨asides, hext, hall⟩ := extends_advance (E := E) c wakes
  rw [proceedings, hext.trace, Entry.proceedings_append,
    Entry.proceedings_asides fun e he => (hall e he).1]
  rfl

/-- The course `c'` is later than `c`, and `new` is what has happened in between, newest first,
asides apart. -/
def Proceeds (c c' : Course ω) (new : List Event) : Prop :=
  ∃ entries, Extends c c' entries ∧ Entry.proceedings entries = new

theorem Reaches.proceeds {new : List Event} (h : Reaches E c c')
    (hp : c'.proceedings = new ++ c.proceedings) : Proceeds c c' new := by
  obtain ⟨entries, hext⟩ := h.extends
  refine ⟨entries, hext, ?_⟩
  rw [proceedings, hext.trace, Entry.proceedings_append] at hp
  exact List.append_cancel_right hp

theorem Proceeds.proceedings_eq {new : List Event} (h : Proceeds c c' new) :
    c'.proceedings = new ++ c.proceedings := by
  obtain ⟨entries, hext, rfl⟩ := h
  rw [proceedings, hext.trace, Entry.proceedings_append]
  rfl

theorem proceeds_of_finish {r : Request} {value : Except DrainError Nat}
    (h : c.finish E r = (c', value)) : Proceeds c c' [answer r value] := by
  have hreaches : c.Reaches E (c.finish E r).1 := (Deed.finish r).calmly.reaches
  rw [h] at hreaches
  exact hreaches.proceeds (proceedings_of_finish h)

section Proceeds

variable {new : List Event} {x : Event}

/-- What happened in the latest session happened lately, or in the session that is still the latest
one. -/
theorem Proceeds.mem_session_or (h : Proceeds c c' new) (hx : x ∈ Entry.session c'.trace)
    (haside : x.isAside = false) : x ∈ new ∨ x ∈ Entry.session c.trace := by
  obtain ⟨entries, hext, rfl⟩ := h
  rw [hext.trace] at hx
  rcases Entry.mem_session_append hx with ⟨e, he, rfl⟩ | ⟨hx, -⟩
  · exact .inl (Entry.mem_proceedings.mpr ⟨⟨e, he, rfl⟩, haside⟩)
  · exact .inr hx

/-- The latest session goes on as long as no other one is opened. -/
theorem Proceeds.mem_session (h : Proceeds c c' new) (hopen : ∀ e ∈ new, e.isOpening = false)
    (hx : x ∈ new ∨ x ∈ Entry.session c.trace) : x ∈ Entry.session c'.trace := by
  obtain ⟨entries, hext, rfl⟩ := h
  rw [hext.trace, Entry.session_append (Entry.isOpening_of_proceedings hopen)]
  refine List.mem_append.mpr (hx.imp_left fun hnew => ?_)
  obtain ⟨⟨e, he, rfl⟩, -⟩ := Entry.mem_proceedings.mp hnew
  exact List.mem_map_of_mem he

theorem Proceeds.openings_eq (h : Proceeds c c' new) (hopen : ∀ e ∈ new, e.isOpening = false) :
    Entry.openings c'.trace = Entry.openings c.trace := by
  obtain ⟨entries, hext, rfl⟩ := h
  rw [hext.trace, Entry.openings, List.countP_append]
  refine Nat.add_eq_right.mpr ?_
  exact List.countP_eq_zero.mpr fun e he =>
    Bool.eq_false_iff.mp (Entry.isOpening_of_proceedings hopen e he)

end Proceeds

end Course

/-! ### The parts of a run -/

/-- What the poller adds. -/
theorem Poller.Move.proceedings {p p' : Poller} {a : Poller.Activity} {c c' : Course ω}
    {stage : Stage Poller.Activity Poller.Result} (h : Poller.Move E p c a c' p' stage) :
    (c'.proceedings = c.proceedings ∧ stage = .over (.ok .interrupted) ∧ p' = p) ∨
    (c'.proceedings = .began .depth :: c.proceedings ∧ p' = p ∧
      ∃ due, stage = .ongoing (.reading due)) ∨
    (∃ count, c'.proceedings = .answered .depth count :: c.proceedings ∧ p' = p.record count ∧
      stage = p'.enter c') ∨
    ∃ cause, c'.proceedings = .failed .depth cause :: c.proceedings ∧ p' = p ∧
      stage = .over (.error cause) := by
  cases h with
  | interrupted hi hr => exact .inl ⟨hr.proceedings_eq, rfl, rfl⟩
  | began hw hr =>
    refine .inr (.inl ⟨?_, rfl, _, rfl⟩)
    rw [Course.proceedings_begin, hr.proceedings_eq]
  | recorded hd hf =>
    exact .inr (.inr (.inl ⟨_, Course.proceedings_of_finish hf, rfl, rfl⟩))
  | failed hd hf => exact .inr (.inr (.inr ⟨_, Course.proceedings_of_finish hf, rfl, rfl⟩))

/-- What the consumer adds: at most one event at a time. -/
theorem Consumer.Move.proceedings {queue : String} {k : Consumer} {c c' : Course ω}
    {stage : Stage Consumer Consumer.Ending} (h : Consumer.Move E queue k c c' stage) :
    c'.proceedings = c.proceedings ∨
      ∃ e, e.isConsumption = true ∧ c'.proceedings = e :: c.proceedings := by
  have hask : ∀ {c' offer}, c.ask E = (c', offer) → c'.proceedings = c.proceedings ∨
      ∃ e, e.isConsumption = true ∧ c'.proceedings = e :: c.proceedings := by
    intro c' offer ha
    have hp := Course.proceedings_of_ask ha
    cases he : offer.event? with
    | none => exact .inl (by rw [hp, he]; rfl)
    | some e => exact .inr ⟨e, Offer.isConsumption_of_event? he, by rw [hp, he]; rfl⟩
  have hfinish : ∀ {tag c' settlement}, c.finishReject E tag = (c', settlement) →
      ∃ e, e.isConsumption = true ∧ c'.proceedings = e :: c.proceedings :=
    fun hf => ⟨_, Settlement.isConsumption_event _ _, Course.proceedings_of_finishReject hf⟩
  cases h with
  | delivered _ _ ha => rw [Course.proceedings_startReject]; exact hask ha
  | waiting _ _ ha => exact hask ha
  | streamOver _ _ ha _ => exact hask ha
  | streamFailed _ _ ha => exact hask ha
  | streamPanicked _ _ ha => exact hask ha
  | rejected _ _ hf => exact .inr (hfinish hf)
  | rejectFailed _ _ hf => exact .inr (hfinish hf)
  | rejectPanicked _ _ hf => exact .inr (hfinish hf)
  | stopped _ _ => exact .inl (Course.proceedings_tell c _)

/-! ### The coordinator -/

namespace Drain

variable {plan : Plan} {s s' : State ω}

@[simp] theorem proceedings_close (s : State ω) (ending : Except DrainError Outcome) :
    (s.close E ending).course.proceedings = .began .close :: s.course.proceedings :=
  Course.proceedings_begin s.course .close

@[simp] theorem proceedings_cancel (s : State ω) (outcome : Outcome) :
    (s.cancel E plan outcome).course.proceedings
      = .began (.cancel plan.config.consumerTag) :: s.course.proceedings :=
  Course.proceedings_begin s.course _

@[simp] theorem proceedings_report (s : State ω) (outcome : Outcome) :
    (s.report plan outcome).course.proceedings = s.course.proceedings := rfl

@[simp] theorem proceedings_giveUp (s : State ω) :
    (s.giveUp plan).course.proceedings = s.course.proceedings := by
  rw [State.giveUp]
  split <;> rfl

@[simp] theorem proceedings_welcome (s : State ω) (declared : Nat) :
    (s.welcome plan declared).course.proceedings = s.course.proceedings := by
  rw [State.welcome]
  split <;> rfl

/-- What is asked of a session that is open. -/
theorem proceedings_openSession (plan : Plan) (s : State ω) :
    (s.openSession E plan).course.proceedings
      = .began (if s.course.interrupted then .close else .subscribe plan.config.consumerTag)
        :: s.course.proceedings := by
  rw [State.openSession]
  cases s.course.interrupted with
  | true => exact proceedings_close s _
  | false => exact Course.proceedings_begin s.course _

@[simp] theorem proceedings_closed (s : State ω) (ending : Except DrainError Outcome) :
    (s.closed plan ending).course.proceedings = s.course.proceedings := by
  match ending with
  | .ok outcome => rfl
  | .error cause =>
    rw [State.closed]
    split <;> rfl

@[simp] theorem proceedings_joined (s : State ω) (outcome : Outcome) (ending : Consumer.Ending) :
    (s.joined E outcome ending).course.proceedings = .began .close :: s.course.proceedings := by
  cases ending <;> exact proceedings_close _ _

/-- What a stage of the poller leads to. -/
def sequel (plan : Plan) : Stage Poller.Activity Poller.Result → List Event
  | .ongoing _ => []
  | .over (.ok _) => [.began (.cancel plan.config.consumerTag)]
  | .over (.error _) => [.began .close]

theorem request?_of_mem_sequel {stage : Stage Poller.Activity Poller.Result} {e : Event}
    (h : e ∈ sequel plan stage) : e.request? ≠ none := by
  match stage with
  | .ongoing _ => cases h
  | .over (.ok _) | .over (.error _) =>
    obtain rfl := List.mem_singleton.mp h
    exact Option.some_ne_none _

/-- The end of a run of the poller leads to a request. -/
@[simp] theorem proceedings_polled (plan : Plan) (s : State ω)
    (stage : Stage Poller.Activity Poller.Result) :
    (s.polled E plan stage).course.proceedings = sequel plan stage ++ s.course.proceedings := by
  match stage with
  | .ongoing _ => rfl
  | .over (.ok outcome) => exact proceedings_cancel s outcome
  | .over (.error _) => exact Course.proceedings_begin s.course .close

/-- An attempt at a session that is over leads to a request if it gave one. -/
theorem proceedings_established (plan : Plan) (s : State ω) (result : Connect.Result) :
    ∃ new, (s.established E plan result).course.proceedings = new ++ s.course.proceedings ∧
      ∀ e ∈ new, e.request? ≠ none := by
  match result with
  | .error _ => exact ⟨[], rfl, by simp⟩
  | .ok none => exact ⟨[], proceedings_giveUp s, by simp⟩
  | .ok (some declared) =>
    have hopen := proceedings_openSession (E := E) plan (s.welcome plan declared)
    rw [proceedings_welcome] at hopen
    refine ⟨[_], hopen, fun e he => ?_⟩
    obtain rfl := List.mem_singleton.mp he
    exact Option.some_ne_none _

/-! ### Where the coordinator goes on -/

theorem phase_giveUp (s : State ω) (plan : Plan) :
    ∃ summary, (s.giveUp plan).phase = .finished (.ok summary) := by
  rw [State.giveUp]
  split
  · exact ⟨_, rfl⟩
  · exact ⟨_, rfl⟩

theorem phase_openSession (s : State ω) (plan : Plan) :
    (∃ due, (s.openSession E plan).phase = .closing (.ok .interrupted) due) ∨
      ∃ due, (s.openSession E plan).phase = .subscribing due := by
  rw [State.openSession]
  split
  · exact .inl ⟨_, rfl⟩
  · exact .inr ⟨_, rfl⟩

theorem phase_polled_ne_joining (s : State ω) (stage : Stage Poller.Activity Poller.Result)
    (outcome : Outcome) : (s.polled E plan stage).phase ≠ .joining outcome := by
  match stage with
  | .ongoing _ | .over (.ok _) | .over (.error _) => exact nofun

theorem phase_closed_ne_joining (s : State ω) (ending : Except DrainError Outcome)
    (outcome : Outcome) : (s.closed plan ending).phase ≠ .joining outcome := by
  match ending with
  | .ok _ => rintro ⟨⟩
  | .error cause =>
    rw [State.closed]
    split <;> rintro ⟨⟩

/-! ### The consumer, as the coordinator leaves it -/

theorem worker_giveUp (s : State ω) : (s.giveUp plan).worker = s.worker := by
  rw [State.giveUp]
  split <;> rfl

theorem worker_established (s : State ω) (result : Connect.Result) :
    (s.established E plan result).worker = s.worker := by
  match result with
  | .error _ => rfl
  | .ok none => exact worker_giveUp s
  | .ok (some declared) =>
    show ((s.welcome plan declared).openSession E plan).worker = s.worker
    rw [State.openSession, State.welcome]
    split <;> split <;> rfl

theorem worker_closed (s : State ω) (ending : Except DrainError Outcome) :
    (s.closed plan ending).worker = s.worker := by
  match ending with
  | .ok _ => rfl
  | .error cause =>
    rw [State.closed]
    split <;> rfl

theorem worker_polled (plan : Plan) (s : State ω)
    (stage : Stage Poller.Activity Poller.Result) :
    (s.polled E plan stage).worker = s.worker ∨ (s.polled E plan stage).worker = .absent := by
  match stage with
  | .ongoing _ | .over (.ok _) => exact .inl rfl
  | .over (.error _) => exact .inr rfl

theorem worker_abort (worker : Worker) : worker.abort = worker ∨ worker.abort = .absent := by
  match worker with
  | .absent | .over _ => exact .inl rfl
  | .running _ => exact .inr rfl

/-- A consumer before it has done anything. -/
def Plan.newConsumer (plan : Plan) : Consumer := { limit := plan.config.prefetchCount.toNat }

theorem Move.proceeds {new : List Event} (h : Move E plan s s')
    (hp : s'.course.proceedings = new ++ s.course.proceedings) :
    s.course.Proceeds s'.course new := h.reaches.proceeds hp

/-- What a move of the coordinator adds: at most one answer, and the requests that it leads to. An
error is the end of an attempt, or of a session, or it is met while one is being closed. -/
inductive Adds (s s' : State ω) : List Event → Prop
  | requests {asked : List Event} (hasked : ∀ e ∈ asked, e.request? ≠ none)
      (hpoller : s'.poller = s.poller) : Adds s s' asked
  | answered {asked : List Event} (r : Request) (count : Nat)
      (hasked : ∀ e ∈ asked, e.request? ≠ none) (hr : r ≠ .depth)
      (hopen : r = .establish → ∃ a, s.phase = .connecting a) (hpoller : s'.poller = s.poller) :
      Adds s s' (asked ++ [.answered r count])
  | read {asked : List Event} (count : Nat) (hasked : ∀ e ∈ asked, e.request? ≠ none)
      (hpoller : s'.poller = s.poller.record count) :
      Adds s s' (asked ++ [.answered .depth count])
  | unestablished (cause : DrainError) (attempt due : Option Nat)
      (hp : s.phase = .connecting (.establishing attempt due))
      (hat : ((attempt = none ∨ cause.isTransient = false) ∧ s'.result? = some (.error cause)) ∨
        (attempt ≠ none ∧ cause.isTransient = true ∧
          ∃ k wake, s'.phase = .connecting (.backingOff k wake)))
      (hpoller : s'.poller = s.poller) : Adds s s' [.failed .establish cause]
  | broken (r : Request) (cause : DrainError) (due : Option Nat)
      (hr : r = .depth ∨ ∃ tag, r = .subscribe tag) (hp : s'.phase = .closing (.error cause) due)
      (hpoller : s'.poller = s.poller) : Adds s s' [.began .close, .failed r cause]
  | passedOver (r : Request) (cause : DrainError) (hr : r = .close ∨ ∃ tag, r = .cancel tag)
      (hpoller : s'.poller = s.poller) : Adds s s' [.failed r cause]

/-- An attempt at a session that is over adds its answer, and what is asked of the session. -/
theorem adds_connected {a : Connect.Activity} {c' : Course ω} {result : Connect.Result}
    (hp : s.phase = .connecting a)
    (hm : Connect.Move E plan.config.reconnectPolicy plan.endpoint s.course a c' (.over result)) :
    ∃ new, ({ s with course := c' }.established E plan result).course.proceedings
        = new ++ s.course.proceedings ∧
      Adds s ({ s with course := c' }.established E plan result) new := by
  have hpoller : ({ s with course := c' }.established E plan result).poller = s.poller :=
    established_poller _ result
  obtain ⟨asked, hc, hasked⟩ := proceedings_established (E := E) plan { s with course := c' } result
  cases hm with
  | overtaken hi hr => exact ⟨asked, by rw [hc, hr.proceedings_eq], .requests hasked hpoller⟩
  | opened hi hf =>
    exact ⟨_, hc.trans (Course.append_proceedings_of_finish asked hf),
      .answered .establish _ hasked (by simp) (fun _ => ⟨_, hp⟩) hpoller⟩
  | @reopened k _ c₁ declared hi hf =>
    have htold := congrArg (asked ++ ·) (Course.proceedings_tell c₁ (.reestablished k))
    exact ⟨_, (hc.trans htold).trans (Course.append_proceedings_of_finish asked hf),
      .answered .establish _ hasked (by simp) (fun _ => ⟨_, hp⟩) hpoller⟩
  | @failed attempt due _ cause hi hf hlast =>
    exact ⟨[.failed .establish cause], Course.proceedings_of_finish hf,
      .unestablished cause attempt due hp (.inl ⟨hlast, rfl⟩) hpoller⟩

/-- An action of the poller adds a reading or a request for one, and what the session is ended
with. -/
theorem adds_polled {a : Poller.Activity} {c₀ c' : Course ω} {p' : Poller}
    {stage : Stage Poller.Activity Poller.Result} (hr : s.course.Raced E c₀)
    (hm : Poller.Move E s.poller c₀ a c' p' stage) :
    ∃ new, ({ s with course := c', poller := p' }.polled E plan stage).course.proceedings
        = new ++ s.course.proceedings ∧
      Adds s ({ s with course := c', poller := p' }.polled E plan stage) new := by
  have hpoller : ({ s with course := c', poller := p' }.polled E plan stage).poller = p' :=
    polled_poller _ stage
  have hsequel : ∀ e ∈ sequel plan stage, e.request? ≠ none := fun _ => request?_of_mem_sequel
  -- what the stage leads to, on top of what led to the stage
  have hwhole : ∀ old : List Event, c'.proceedings = old ++ c₀.proceedings →
      ({ s with course := c', poller := p' }.polled E plan stage).course.proceedings
        = (sequel plan stage ++ old) ++ s.course.proceedings := by
    intro old hold
    rw [proceedings_polled, hold, hr.proceedings_eq, List.append_assoc]
  rcases hm.proceedings with
    ⟨hc, -, rfl⟩ | ⟨hc, rfl, -⟩ | ⟨count, hc, rfl, -⟩ | ⟨cause, hc, rfl, rfl⟩
  · exact ⟨_, hwhole [] hc, .requests (by simpa using hsequel) hpoller⟩
  · refine ⟨_, hwhole [.began .depth] hc, .requests (fun e he => ?_) hpoller⟩
    refine (List.mem_append.mp he).elim (hsequel e) fun he => ?_
    obtain rfl := List.mem_singleton.mp he
    exact Option.some_ne_none _
  · exact ⟨_, hwhole [.answered .depth count] hc, .read count hsequel hpoller⟩
  · exact ⟨_, hwhole [.failed .depth cause] hc, .broken .depth cause _ (.inl rfl) rfl rfl⟩

/-- **What a move adds.** The consumer moves on its own; a move of the coordinator adds an answer
and requests, and leaves the consumer as it is, stops it, or begins with a new one. -/
theorem Move.adds_or (h : Move E plan s s') :
    (∃ k c' stage, s.worker = .running k ∧
      Consumer.Move E plan.config.queueName k s.course c' stage ∧
      s' = { s with course := c', worker := .ofStage stage }) ∨
    ((∃ new, s.course.Proceeds s'.course new ∧ Adds s s' new) ∧
      (s'.worker = s.worker ∨ s'.worker = .absent ∨
        (s'.worker = .running plan.newConsumer ∧ ∃ due, s.phase = .subscribing due))) := by
  have hadds : ∀ new : List Event, s'.course.proceedings = new ++ s.course.proceedings →
      Adds s s' new → ∃ new, s.course.Proceeds s'.course new ∧ Adds s s' new :=
    fun new hp ha => ⟨new, h.proceeds hp, ha⟩
  have hrequest : ∀ {r : Request}, ∀ e ∈ [Event.began r], e.request? ≠ none := by
    simp [Event.request?]
  cases h with
  | consumer hu hw hm => exact .inl ⟨_, _, _, hw, hm, rfl⟩
  | connecting hp hm =>
    refine .inr ⟨?_, .inl rfl⟩
    cases hm with
    | began hw hi =>
      exact hadds [.began .establish] (Course.proceedings_begin _ _) (.requests hrequest rfl)
    | @retried k due _ cause hi hf ht =>
      exact hadds [.failed .establish cause] (Course.proceedings_of_finish hf)
        (.unestablished cause (some k) due hp (.inr ⟨Option.some_ne_none k, ht, _, _, rfl⟩) rfl)
  | connected hp hm =>
    obtain ⟨new, hc, ha⟩ := adds_connected hp hm
    exact .inr ⟨hadds new hc ha, .inl (worker_established _ _)⟩
  | @subscribeFailed _ _ cause hp hd hf =>
    exact .inr ⟨hadds _
      ((proceedings_close _ _).trans (Course.append_proceedings_of_finish [.began .close] hf))
      (.broken _ cause _ (.inr ⟨_, rfl⟩) rfl rfl), .inl rfl⟩
  | subscribed hp hd hf =>
    refine .inr ⟨hadds _
      ((proceedings_polled _ _ _).trans (Course.append_proceedings_of_finish _ hf))
      (.answered _ _ (fun _ => request?_of_mem_sequel) (by simp) (by simp) (polled_poller _ _)), ?_⟩
    rcases worker_polled (E := E) plan { s with course := _, worker := _ } _ with hw | hw
    · exact .inr (.inr ⟨hw, _, hp⟩)
    · exact .inr (.inl hw)
  | polled hp hr hm =>
    obtain ⟨new, hc, ha⟩ := adds_polled hr hm
    exact .inr ⟨hadds new hc ha, (worker_polled _ _ _).imp_right .inl⟩
  | abandoned hp hw hr =>
    refine .inr ⟨hadds [.began .close] ((proceedings_close _ _).trans ?_)
      (.requests hrequest rfl), .inr (.inl rfl)⟩
    exact congrArg _ hr.proceedings_eq
  | cancelled hp hd hf =>
    exact .inr ⟨hadds _ (Course.append_proceedings_of_finish [] hf)
      (.answered _ _ (by simp) (by simp) (by simp) rfl), .inl rfl⟩
  | cancelFailed hp hd hf =>
    exact .inr ⟨hadds _ (Course.append_proceedings_of_finish [] hf)
      (.passedOver _ _ (.inr ⟨_, rfl⟩) rfl), (worker_abort s.worker).imp_right .inl⟩
  | unjoined hp hw =>
    exact .inr ⟨hadds [.began .close] (proceedings_close _ _) (.requests hrequest rfl), .inl rfl⟩
  | joined hp hw =>
    exact .inr ⟨hadds [.began .close] (proceedings_joined _ _ _) (.requests hrequest rfl),
      .inr (.inl rfl)⟩
  | closed hp hd =>
    refine .inr ⟨?_, .inl (worker_closed _ _)⟩
    cases hvalue : (s.course.finish E .close).2 with
    | ok count =>
      have hf : s.course.finish E .close = (_, .ok count) := Prod.ext rfl hvalue
      exact hadds _ ((proceedings_closed _ _).trans (Course.append_proceedings_of_finish [] hf))
        (.answered .close count (by simp) (by simp) (by simp) (closed_poller _ _))
    | error cause =>
      have hf : s.course.finish E .close = (_, .error cause) := Prod.ext rfl hvalue
      exact hadds _ ((proceedings_closed _ _).trans (Course.append_proceedings_of_finish [] hf))
        (.passedOver .close cause (.inl rfl) (closed_poller _ _))
  | time hu hidle =>
    exact .inr ⟨hadds [] (Course.proceedings_advance _ _) (.requests (by simp) rfl), .inl rfl⟩

/-- A request is nothing that the consumer brings on, and opens no session. -/
theorem quiet_of_request? {e : Event} (h : e.request? ≠ none) :
    e.isConsumption = false ∧ e.isOpening = false := by
  cases e <;> simp_all [Event.request?, Event.isConsumption, Event.isOpening]

/-- The coordinator takes and rejects nothing, and opens a session only where it attempts one. -/
theorem Adds.quiet {new : List Event} (h : Adds s s' new) :
    ∀ e ∈ new, e.isConsumption = false ∧ (e.isOpening = true → ∃ a, s.phase = .connecting a) := by
  have hquiet : ∀ {e : Event}, e.request? ≠ none →
      e.isConsumption = false ∧ (e.isOpening = true → ∃ a, s.phase = .connecting a) := fun he =>
    ⟨(quiet_of_request? he).1,
      fun hopen => absurd ((quiet_of_request? he).2.symm.trans hopen) (by simp)⟩
  intro e he
  cases h with
  | requests hasked => exact hquiet (hasked e he)
  | answered r count hasked hr hopen =>
    rcases List.mem_append.mp he with he | he
    · exact hquiet (hasked e he)
    · obtain rfl := List.mem_singleton.mp he
      exact ⟨rfl, fun h => hopen (by cases r <;> first | rfl | cases h)⟩
  | read count hasked =>
    rcases List.mem_append.mp he with he | he
    · exact hquiet (hasked e he)
    · obtain rfl := List.mem_singleton.mp he
      exact ⟨rfl, fun h => by cases h⟩
  | unestablished _ _ _ hp | passedOver _ _ hr | broken _ _ _ hr =>
    revert e
    simp [Event.isConsumption, Event.isOpening]

/-- **Only the consumer takes and rejects.** All other moves leave it as it is, stop it, or begin
with a new one; and a session is opened only where one is being attempted. -/
theorem Move.consumes_or (h : Move E plan s s') :
    (∃ k c' stage, s.worker = .running k ∧
      Consumer.Move E plan.config.queueName k s.course c' stage ∧
      s' = { s with course := c', worker := .ofStage stage }) ∨
    ((∃ new, s.course.Proceeds s'.course new ∧ ∀ e ∈ new, e.isConsumption = false ∧
        (e.isOpening = true → ∃ a, s.phase = .connecting a)) ∧
      (s'.worker = s.worker ∨ s'.worker = .absent ∨
        (s'.worker = .running plan.newConsumer ∧ ∃ due, s.phase = .subscribing due))) :=
  h.adds_or.imp_right (And.imp_left fun ⟨new, hnew, hadds⟩ => ⟨new, hnew, hadds.quiet⟩)

/-- A run begins with an attempt at a session if it begins with anything. -/
theorem proceedings_start (plan : Plan) (c : Course ω) :
    (start E plan c).course.proceedings
      = (if c.interrupted then [] else [.began .establish]) ++ c.proceedings := by
  cases hi : c.interrupted with
  | true => rw [start_of_interrupted hi, proceedings_giveUp]; rfl
  | false =>
    rw [start_of_not_interrupted hi]
    exact Course.proceedings_begin (untouched plan c).course .establish

end Drain

end QueueDrain
