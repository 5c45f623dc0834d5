import QueueDrain.Proofs.Backpressure
import QueueDrain.Proofs.Interrupt

/-!
# Where the error of a run comes from

A run that fails does so with the error of one operation. It is the very first attempt at a session,
a later attempt, or an operation of the latest session: the subscription, a depth reading, the
delivery stream, a rejection, the consumer itself. An error that comes up while a session is being
cancelled is none of these, for the poller has decided by then.

## Main definitions

* `Event.Raises` — the error that an event is to the session in which it happens
* `SessionFailed` — the latest session came to an error before its poller had decided
* `Drain.Worker.Blames`, `Drain.Phase.Blames` — what accounts for the errors that a state holds
* `Failed` — where the error of a run comes from

## Main results

* `Drain.Move.worker_blames`, `Drain.Move.phase_blames` — every move keeps account of errors
* `Drain.run_accountable` — and so does a run
* `Drain.State.Accountable.failed` — the error of a run comes from one of its operations
-/

namespace QueueDrain

open Entry (session openings attempts)

variable {ω : Type} {E : Environment ω}

/-- The error that an event is to the session in which it happens. A stream that is over without a
failure was ended by the broker. -/
inductive Event.Raises (E : Environment ω) (queue : String) : Event → DrainError → Prop
  | subscribe (tag : String) (cause : DrainError) :
      Raises E queue (.failed (.subscribe tag) cause) cause
  | depth (cause : DrainError) : Raises E queue (.failed .depth cause) cause
  | stream (cause : DrainError) : Raises E queue (.streamFailed cause) cause
  | streamPanic (text : String) : Raises E queue (.streamPanicked text) (.ofPanic text)
  | streamCancelled : Raises E queue .streamCancelled (.consumerCancelled queue)
  | streamEnded : Raises E queue .streamEnded (.consumerCancelled queue)
  | reject (tag : Nat) (cause : DrainError) : Raises E queue (.rejectFailed tag cause) cause
  | rejectPanic {t tag : Nat} {w : ω} {text : String}
      (h : (E.finishReject t tag w).value = .panicked text) :
      Raises E queue (.rejectPanicked tag) (.ofPanic text)

theorem Event.raises_of_isStreamEnd {queue : String} {x : Event} (h : x.isStreamEnd = true) :
    x.Raises E queue (.consumerCancelled queue) := by
  cases x with
  | streamCancelled => exact .streamCancelled
  | streamEnded => exact .streamEnded
  | _ => cases h

/-- The newest event of a trace. -/
def Entry.latest (trace : List Entry) : Option Event := trace.head?.map Entry.event

/-- The latest session came to an error before its poller had decided. -/
def SessionFailed (E : Environment ω) (queue : String) (trace : List Entry) (cause : DrainError) :
    Prop :=
  (∃ x ∈ session trace, x.Raises E queue cause) ∧ ∀ tag, .began (.cancel tag) ∉ session trace

/-- Where the error of a run comes from: the very first attempt at a session; a later one, or an
operation of the latest session, which is closed, and then no further attempt is worth while. -/
def Failed (E : Environment ω) (queue : String) (trace : List Entry) (cause : DrainError) : Prop :=
  (openings trace = 0 ∧ attempts trace = 1 ∧
    Entry.latest trace = some (.failed .establish cause)) ∨
  (openings trace ≠ 0 ∧ cause.isTransient = false ∧
    (Entry.latest trace = some (.failed .establish cause) ∨
      (SessionFailed E queue trace cause ∧
        ∃ e, Entry.latest trace = some e ∧ e.isClosure = true)))

section

variable {queue : String} {c c' : Course ω} {new : List Event} {cause : DrainError}

/-- A session has failed if an error has come up in it and no cancellation has begun. -/
theorem Course.Proceeds.sessionFailed (h : c.Proceeds c' new)
    (hnew : ∀ e ∈ new, e.isOpening = false ∧ ∀ tag, e ≠ .began (.cancel tag))
    (hcancel : ∀ tag, .began (.cancel tag) ∉ session c.trace)
    (hraised : ∃ x, (x ∈ new ∨ x ∈ session c.trace) ∧ x.Raises E queue cause) :
    SessionFailed E queue c'.trace cause := by
  obtain ⟨x, hx, hraises⟩ := hraised
  refine ⟨⟨x, h.mem_session (fun e he => (hnew e he).1) hx, hraises⟩, fun tag hmem => ?_⟩
  rcases h.mem_session_or hmem rfl with hmem | hmem
  · exact (hnew _ hmem).2 tag rfl
  · exact hcancel tag hmem

theorem SessionFailed.proceeds (hs : SessionFailed E queue c.trace cause) (h : c.Proceeds c' new)
    (hnew : ∀ e ∈ new, e.isOpening = false ∧ ∀ tag, e ≠ .began (.cancel tag)) :
    SessionFailed E queue c'.trace cause := by
  obtain ⟨⟨x, hx, hraises⟩, hcancel⟩ := hs
  exact h.sessionFailed hnew hcancel ⟨x, .inr hx, hraises⟩

end

namespace Drain

variable {plan : Plan} {s s' : State ω} {m : Conduct}

/-! ### What accounts for an error -/

/-- What accounts for the ending of a consumer, or for the end of the stream of one at work. -/
def Worker.Blames (E : Environment ω) (plan : Plan) (trace : List Entry) : Worker → Prop
  | .absent => True
  | .running k => k.streamOpen = false → ∃ x ∈ session trace, x.isStreamEnd = true
  | .over ending => ∃ x ∈ session trace,
      x.Raises E plan.config.queueName (State.endingError plan ending)

/-- What accounts for the error that a session is being closed after, or that a run ends with. An
attempt with a number is one after the first session. -/
def Phase.Blames (E : Environment ω) (plan : Plan) (trace : List Entry) : Phase → Prop
  | .connecting (.backingOff _ _) | .connecting (.establishing (some _) _) => openings trace ≠ 0
  | .closing (.error cause) _ => SessionFailed E plan.config.queueName trace cause
  | .finished (.error cause) =>
    (Entry.latest trace = some (.failed .establish cause) ∧
      (openings trace = 0 → attempts trace = 1)) ∨
    (openings trace ≠ 0 ∧ SessionFailed E plan.config.queueName trace cause ∧
      ∃ e, Entry.latest trace = some e ∧ e.isClosure = true)
  | _ => True

theorem Worker.Blames.proceeds {worker : Worker} {c c' : Course ω} {new : List Event}
    (hw : worker.Blames E plan c.trace) (h : c.Proceeds c' new)
    (hopen : ∀ e ∈ new, e.isOpening = false) : worker.Blames E plan c'.trace := by
  match worker with
  | .absent => trivial
  | .running k =>
    intro hclosed
    obtain ⟨x, hx, hend⟩ := hw hclosed
    exact ⟨x, h.mem_session hopen (.inr hx), hend⟩
  | .over ending =>
    obtain ⟨x, hx, hraises⟩ := hw
    exact ⟨x, h.mem_session hopen (.inr hx), hraises⟩

/-- What an event raises is what the consumer ends with. -/
theorem Worker.blames_of_raises {c c' : Course ω} {e : Event} {ending : Consumer.Ending}
    (h : c.Proceeds c' [e]) (hopen : e.isOpening = false)
    (hraises : e.Raises E plan.config.queueName (State.endingError plan ending)) :
    (Worker.over ending).Blames E plan c'.trace :=
  ⟨e, h.mem_session (by simpa using hopen) (.inl List.mem_cons_self), hraises⟩

/-- Where there is no session yet, there is no consumer. -/
theorem State.Follows.absent_of_connecting {a : Connect.Activity} (h : s.Follows plan m)
    (hp : s.phase = .connecting a) : s.worker = .absent := by
  have hphase := h.phase
  rw [hp] at hphase
  refine h.worker.eq_absent ?_
  match a with
  | .backingOff _ _ | .establishing _ _ => rw [hphase.1]; rfl

/-- A consumer ends for a reason. -/
theorem consumer_blames {k : Consumer} {c c' : Course ω} {stage : Stage Consumer Consumer.Ending}
    (h : (Worker.running k).Blames E plan c.trace)
    (hm : Consumer.Move E plan.config.queueName k c c' stage) :
    (Worker.ofStage stage).Blames E plan c'.trace := by
  have hproceeds : ∀ new : List Event, c'.proceedings = new ++ c.proceedings →
      c.Proceeds c' new := fun _ => hm.calmly.reaches.proceeds
  cases hm with
  | delivered ho _ ha => exact fun hclosed => absurd (ho.symm.trans hclosed) (by simp)
  | waiting ho _ ha => exact fun hclosed => absurd (ho.symm.trans hclosed) (by simp)
  | streamOver ho _ ha hover =>
    intro _
    rcases hover with rfl | rfl
    · have h := hproceeds [.streamCancelled] (Course.proceedings_of_ask ha)
      exact ⟨_, h.mem_session (by simp [Event.isOpening]) (.inl List.mem_cons_self), rfl⟩
    · have h := hproceeds [.streamEnded] (Course.proceedings_of_ask ha)
      exact ⟨_, h.mem_session (by simp [Event.isOpening]) (.inl List.mem_cons_self), rfl⟩
  | streamFailed ho _ ha =>
    exact Worker.blames_of_raises (hproceeds [.streamFailed _] (Course.proceedings_of_ask ha)) rfl
      (.stream _)
  | streamPanicked ho _ ha =>
    exact Worker.blames_of_raises (hproceeds [.streamPanicked _] (Course.proceedings_of_ask ha)) rfl
      (.streamPanic _)
  | @rejected r _ _ _ hf =>
    have hkeeps :
        (Worker.running { k with inFlight := k.inFlight.erase r }).Blames E plan c.trace := h
    exact hkeeps.proceeds (hproceeds [.rejected r.tag] (Course.proceedings_of_finishReject hf))
      (by simp [Event.isOpening])
  | @rejectFailed r _ cause _ _ hf =>
    exact Worker.blames_of_raises
      (hproceeds [.rejectFailed r.tag cause] (Course.proceedings_of_finishReject hf)) rfl
      (.reject _ _)
  | @rejectPanicked r _ text _ _ hf =>
    exact Worker.blames_of_raises
      (hproceeds [.rejectPanicked r.tag] (Course.proceedings_of_finishReject hf)) rfl
      (.rejectPanic (Prod.mk.inj hf).2)
  | stopped _ ho =>
    obtain ⟨x, hx, hend⟩ := h ho
    have h := hproceeds [] (Course.proceedings_tell c _)
    exact ⟨x, h.mem_session (by simp) (.inr hx), Event.raises_of_isStreamEnd hend⟩

theorem Move.worker_blames (hm : Move E plan s s') (hf : s.Follows plan m)
    (h : s.worker.Blames E plan s.course.trace) : s'.worker.Blames E plan s'.course.trace := by
  rcases hm.consumes_or with ⟨k, c', stage, hw, hmove, rfl⟩ | ⟨⟨new, hnew, hall⟩, hworker⟩
  · exact consumer_blames (hw ▸ h) hmove
  · rcases hworker with hw | hw | ⟨hw, -⟩ <;> rw [hw]
    · by_cases hconnecting : ∃ a, s.phase = .connecting a
      · obtain ⟨a, hp⟩ := hconnecting
        rw [hf.absent_of_connecting hp]
        trivial
      · exact h.proceeds hnew fun e he =>
          Bool.eq_false_iff.mpr fun hopen => hconnecting ((hall e he).2 hopen)
    · trivial
    · exact fun hclosed => absurd hclosed (by simp [Plan.newConsumer])

/-! ### Every move -/

/-- A session that has come to an error is closed after it. -/
theorem blames_close {c : Course ω} {s₁ : State ω} {e : Event} {cause : DrainError}
    (h : c.Proceeds (s₁.close E (.error cause)).course [.began .close, e])
    (hopen : e.isOpening = false) (hcancel : ∀ tag, .began (.cancel tag) ∉ session c.trace)
    (hraises : e.Raises E plan.config.queueName cause) :
    (s₁.close E (.error cause)).phase.Blames E plan (s₁.close E (.error cause)).course.trace := by
  refine h.sessionFailed (fun e' he' => ?_) hcancel ⟨e, .inl (by simp), hraises⟩
  rcases List.mem_cons.mp he' with rfl | he'
  · exact ⟨rfl, by simp⟩
  · obtain rfl := List.mem_singleton.mp he'
    refine ⟨hopen, ?_⟩
    rintro tag rfl
    cases hraises

theorem established_blames {a : Connect.Activity} {c' : Course ω} {result : Connect.Result}
    (hp : s.phase = .connecting a) (he : s.phase.Excuses s.course.trace)
    (h : s.phase.Blames E plan s.course.trace)
    (hm : Connect.Move E plan.config.reconnectPolicy plan.endpoint s.course a c' (.over result)) :
    ({ s with course := c' }.established E plan result).phase.Blames E plan
      ({ s with course := c' }.established E plan result).course.trace := by
  have hopened : ∀ {s₁ : State ω},
      (s₁.openSession E plan).phase.Blames E plan (s₁.openSession E plan).course.trace := by
    intro s₁
    rcases phase_openSession (E := E) s₁ plan with ⟨due, hopen⟩ | ⟨due, hopen⟩ <;> rw [hopen] <;>
      trivial
  cases hm with
  | overtaken hi hr =>
    obtain ⟨summary, hgive⟩ := phase_giveUp { s with course := c' } plan
    show (({ s with course := c' } : State ω).giveUp plan).phase.Blames E plan _
    rw [hgive]
    trivial
  | opened hi hf => exact hopened
  | reopened hi hf => exact hopened
  | @failed attempt due _ cause hi hf hlast =>
    obtain ⟨asides, htrace, hall⟩ := Course.finish_trace hf
    obtain ⟨hattempts, hopenings⟩ :=
      Entry.count_asides (fun e he => (hall e he).2) s.course.trace
    refine .inl ⟨?_, fun hnone => ?_⟩
    · show Entry.latest c'.trace = _
      rw [htrace]; rfl
    · show attempts c'.trace = 1
      have hnone : openings c'.trace = 0 := hnone
      rw [htrace, Entry.openings_cons, hopenings] at hnone
      rw [htrace, Entry.attempts_cons, hattempts]
      rw [hp] at he h
      cases attempt with
      | none => rw [he.1]; rfl
      | some k => exact absurd (by simpa [Course.answer, Event.isOpening] using hnone) h

theorem closed_blames {ending : Except DrainError Outcome} {due : Option Nat}
    (hp : s.phase = .closing ending due) (hf : s.Follows plan m)
    (h : s.phase.Blames E plan s.course.trace) :
    ({ s with course := (s.course.finish E .close).1 }.closed plan ending).phase.Blames E plan
      ({ s with course := (s.course.finish E .close).1 }.closed plan ending).course.trace := by
  rw [hp] at h
  have hphase := hf.phase
  rw [hp] at hphase
  have hsome : openings s.course.trace ≠ 0 := by
    have hopen := hf.course.orderly.isOpen_iff.mp (by rw [hf.course.conduct, hphase.1]; rfl)
    omega
  cases ending with
  | ok outcome => trivial
  | error cause =>
    rcases hvalue : s.course.finish E .close with ⟨c', value⟩
    have hclosure : (Course.answer .close value).isClosure = true := by cases value <;> rfl
    have hnew : ∀ e ∈ [Course.answer .close value],
        e.isOpening = false ∧ ∀ tag, e ≠ .began (.cancel tag) := by
      cases value <;> simp [Course.answer, Event.isOpening]
    have hproceeds := Course.proceeds_of_finish hvalue
    have hstill := hproceeds.openings_eq fun e he => (hnew e he).1
    rw [State.closed]
    split
    · -- further attempts: what is told meanwhile opens no session
      show openings _ ≠ 0
      simpa [Connect.reconnect, Connect.backOff, Event.isOpening, hstill] using hsome
    · obtain ⟨asides, htrace, -⟩ := Course.finish_trace hvalue
      refine .inr ⟨?_, h.proceeds hproceeds hnew, _, ?_, hclosure⟩
      · show openings c'.trace ≠ 0
        rw [hstill]
        exact hsome
      · show Entry.latest c'.trace = _
        rw [htrace]; rfl

/-- A phase that goes on keeps its account while no session is opened and none is cancelled. -/
theorem Phase.Blames.proceeds {phase : Phase} {c c' : Course ω} {new : List Event}
    (hb : phase.Blames E plan c.trace) (hu : ∀ result, phase ≠ .finished result)
    (h : c.Proceeds c' new)
    (hnew : ∀ e ∈ new, e.isOpening = false ∧ ∀ tag, e ≠ .began (.cancel tag)) :
    phase.Blames E plan c'.trace := by
  have hopenings := h.openings_eq fun e he => (hnew e he).1
  match phase with
  | .connecting (.backingOff _ _) | .connecting (.establishing (some _) _) =>
    exact fun hnone => hb (hopenings.symm.trans hnone)
  | .closing (.error cause) _ => exact SessionFailed.proceeds hb h hnew
  | .finished result => exact absurd rfl (hu result)
  | .connecting (.establishing none _) | .subscribing _ | .polling _ | .cancelling _ _
  | .joining _ | .closing (.ok _) _ => trivial

theorem blames_enter (s : State ω) (p : Poller) (c : Course ω) :
    (s.polled E plan (p.enter c)).phase.Blames E plan
      (s.polled E plan (p.enter c)).course.trace := by
  rw [Poller.enter]
  split <;> trivial

/-- **A run that holds an error holds it for a reason**, as far as one move goes. -/
theorem Move.phase_blames (hm : Move E plan s s') (hf : s.Follows plan m)
    (he : s.phase.Excuses s.course.trace) (hw : s.worker.Blames E plan s.course.trace)
    (h : s.phase.Blames E plan s.course.trace) : s'.phase.Blames E plan s'.course.trace := by
  have hproceeds : ∀ new : List Event, s'.course.proceedings = new ++ s.course.proceedings →
      s.course.Proceeds s'.course new := fun _ => hm.proceeds
  have hphase := hf.phase
  have huncancelled : m.standing.isUncancelled = true →
      ∀ tag, .began (.cancel tag) ∉ session s.course.trace := by
    rw [← hf.course.conduct]
    exact hf.course.orderly.recalls.uncancelled
  cases hm with
  | connecting hp hm =>
    rw [hp] at h
    cases hm with
    | began hw hi =>
      have hnew := hproceeds [.began .establish] (Course.proceedings_begin _ _)
      exact fun hnone => h ((hnew.openings_eq (by simp [Event.isOpening])).symm.trans hnone)
    | @retried _ _ _ cause hi hf' ht =>
      have hnew := hproceeds [.failed .establish cause] (Course.proceedings_of_finish hf')
      exact fun hnone => h ((hnew.openings_eq (by simp [Event.isOpening])).symm.trans hnone)
  | connected hp hm => exact established_blames hp he h hm
  | @subscribeFailed _ _ cause hp hd hf' =>
    rw [hp] at hphase
    refine blames_close (hproceeds _ ?_) rfl (huncancelled (by rw [hphase.1]; rfl))
      (.subscribe plan.config.consumerTag cause)
    rw [proceedings_close, Course.proceedings_of_finish hf']
    rfl
  | subscribed hp hd hf' => exact blames_enter _ _ _
  | polled hp hr hm =>
    rw [hp] at hphase
    cases hm with
    | interrupted hi hr' => trivial
    | began hw' hr' => trivial
    | recorded hd hf' => exact blames_enter _ _ _
    | @failed _ _ cause hd hf' =>
      refine blames_close (hproceeds _ ?_) rfl (huncancelled (by rw [hphase.1]; rfl)) (.depth cause)
      rw [proceedings_polled, Course.proceedings_of_finish hf', hr.proceedings_eq]
      rfl
  | @abandoned a ending c' hp hw' hr =>
    rw [hp] at hphase
    rw [hw'] at hw
    obtain ⟨x, hx, hraises⟩ := hw
    have hserved : m.standing.isUncancelled = true := by
      cases a <;> rw [hphase.1] <;> rfl
    have hnew := hproceeds [.began .close]
      ((proceedings_close _ _).trans (congrArg _ hr.proceedings_eq))
    exact hnew.sessionFailed (by simp [Event.isOpening]) (huncancelled hserved)
      ⟨x, .inr hx, hraises⟩
  | cancelled hp hd hf' => trivial
  | cancelFailed hp hd hf' => trivial
  | unjoined hp hw' => trivial
  | joined hp hw' => trivial
  | closed hp hd => exact closed_blames hp hf h
  | consumer hu hw' hm =>
    have hgoes : ∀ result, s.phase ≠ .finished result := fun result hp => by
      simp [State.result?, hp] at hu
    rcases hm.proceedings with hc | ⟨e, he', hc⟩
    · exact h.proceeds hgoes (hproceeds [] hc) (by simp)
    · refine h.proceeds hgoes (hproceeds [e] hc) ?_
      cases e <;> simp_all [Event.isConsumption, Event.isOpening]
  | time hu hidle =>
    have hgoes : ∀ result, s.phase ≠ .finished result := fun result hp => by
      simp [State.result?, hp] at hu
    exact h.proceeds hgoes (hproceeds [] (Course.proceedings_advance _ _)) (by simp)

/-! ### Every run -/

/-- What is carried through a run to account for its error. -/
def State.Accountable (E : Environment ω) (plan : Plan) (s : State ω) : Prop :=
  (∃ m, s.Follows plan m) ∧ s.phase.Excuses s.course.trace ∧
    s.worker.Blames E plan s.course.trace ∧ s.phase.Blames E plan s.course.trace

theorem Move.accountable (hm : Move E plan s s') (h : s.Accountable E plan) :
    s'.Accountable E plan := by
  obtain ⟨⟨m, hf⟩, he, hw, hp⟩ := h
  exact ⟨hm.follows hf, hm.excuses hf he, hm.worker_blames hf hw, hm.phase_blames hf he hw hp⟩

theorem run_accountable (E : Environment ω) (plan : Plan) (now : Nat) (world : ω)
    (rejected : UInt64) (interrupted : Bool) (n : Nat) :
    (run E plan n (start E plan (.opening now world rejected interrupted))).Accountable E plan := by
  refine run_of_move (fun _ _ => Move.accountable)
    ⟨start_follows (tracks_opening _ _ _ _ _), start_excuses ?_, ?_, ?_⟩ n
  · cases interrupted <;> simp [Course.opening]
  · rw [start_worker]; trivial
  · cases hi : (Course.opening now world rejected interrupted).interrupted with
    | true =>
      rw [start_of_interrupted hi]
      obtain ⟨summary, hgive⟩ := phase_giveUp
        (untouched plan (.opening now world rejected interrupted)) plan
      rw [hgive]
      trivial
    | false => rw [start_of_not_interrupted hi]; trivial

/-- **The error of a run comes from one of its operations**, and not from a teardown. -/
theorem State.Accountable.failed {cause : DrainError} (h : s.Accountable E plan)
    (hresult : s.result? = some (.error cause)) :
    Failed E plan.config.queueName s.course.trace cause := by
  obtain ⟨-, hexcuses, -, hblames⟩ := h
  rw [phase_of_result? hresult] at hexcuses hblames
  by_cases hnone : openings s.course.trace = 0
  · rcases hblames with ⟨hlatest, hattempts⟩ | ⟨hsome, -⟩
    · exact .inl ⟨hnone, hattempts hnone, hlatest⟩
    · exact absurd hnone hsome
  · refine .inr ⟨hnone, ?_, hblames.imp And.left And.right⟩
    rcases hexcuses with hlast | ⟨t, hfirst, -⟩
    · exact hlast
    · exact absurd hfirst.2.1 hnone

end Drain

end QueueDrain
