import QueueDrain.Proofs.Backpressure

/-!
# The graceful end of a session

When the poller has decided, the subscription is cancelled, and the consumer goes on meanwhile. Its
stream comes to an end, what is in flight is settled, and only then is the session closed. So a
session that ends like this, with no mishap on the way, has rejected all that it ever took, however
long the cancellation took and whatever was delivered during it.

## Main definitions

* `EndsWell` — a session whose poller has decided and in which nothing went wrong
* `Cancellation` — an environment in which a cancellation stops the stream
* `Drain.State.Halted`, `Drain.State.Stopped` — what a consumer knows of the end of its stream, and
  what the environment knows of it

## Main results

* `Orderly.rejected_of_closing` — where such a session begins to be closed, all is rejected
* `Drain.Move.halted`, `Drain.Move.stopped` — nothing is taken behind the end of a stream
* `Drain.run_graceful` — the graceful end of every session of a run
-/

namespace QueueDrain

open Entry (session openings closures proceedings rejections Taken)

/-- The cancellation of the subscription succeeded. -/
def Event.isCancellation : Event → Bool
  | .answered (.cancel _) _ => true
  | _ => false

/-- The poller has decided, and neither the cancellation, nor the stream, nor a rejection failed. -/
def EndsWell (session : List Event) : Prop :=
  (∃ tag, .began (.cancel tag) ∈ session) ∧ session.any Event.isMishap = false

/-! ### What a trace tells of the end of a session -/

/-- What cannot have happened yet in a session of some standing: before there is a subscription
nothing is taken, and a cancellation that is not answered has not succeeded. -/
def Standing.isBefore : Standing → Event → Bool
  | .opened, e | .subscribing, e => e.isConsumption || e.isCancellation
  | .serving, e | .reading, e | .cancelling, e => e.isCancellation
  | _, _ => false

variable {tag : String} {trace earlier later : List Entry}

theorem Standing.isBefore_of_isServing {standing : Standing} {e : Event}
    (hs : standing.isServing = true) (h : standing.isBefore e = true) :
    e.isCancellation = true := by
  cases standing with
  | serving | reading | cancelling => exact h
  | _ => simp_all [isServing, isBefore]

/-- What has not happened yet where an event leads had not happened before, and is not the event. -/
theorem Conduct.isBefore_of_after {m : Conduct} {e x : Event} (hp : m.Permits tag e)
    (ho : e.isOpening = false) (h : (m.after e).standing.isBefore x = true) :
    m.standing.isBefore x = true ∧ x ≠ e := by
  cases e with
  | began r =>
    refine ⟨?_, fun heq => ?_⟩
    · cases r <;> simp_all [after, Permits, Standing.isBefore]
    · subst heq
      cases r <;> simp [after, Standing.isBefore, Event.isConsumption, Event.isCancellation] at h
  | answered r count =>
    refine ⟨?_, fun heq => ?_⟩
    · cases r <;> simp_all [after, Permits, Standing.isBefore, Event.isOpening]
    · subst heq
      cases r <;>
        simp_all [after, Standing.isBefore, Event.isCancellation, Event.isOpening]
  | failed r cause =>
    refine ⟨?_, fun heq => ?_⟩
    · cases r <;> simp_all [after, Permits, Standing.isBefore]
    · subst heq
      cases r <;> simp [after, Standing.isBefore, Event.isCancellation] at h
  | interrupted | notice line =>
    refine ⟨h, fun heq => ?_⟩
    subst heq
    have hbefore : m.standing.isBefore _ = true := h
    revert hbefore
    cases m.standing <;>
      simp [Standing.isBefore, Event.isConsumption, Event.isCancellation]
  | delivered _ | streamCancelled | streamEnded | streamFailed _ | streamPanicked _ =>
    refine ⟨h, fun heq => ?_⟩
    have hcancelled := Standing.isBefore_of_isServing hp.1 h
    rw [heq] at hcancelled
    cases hcancelled
  | rejected _ | rejectFailed _ _ | rejectPanicked _ =>
    refine ⟨h, fun heq => ?_⟩
    have hcancelled := Standing.isBefore_of_isServing hp.1.1 h
    rw [heq] at hcancelled
    cases hcancelled

/-- What a standing says has not happened yet has not happened. -/
theorem Orderly.not_mem_of_isBefore (h : Orderly tag trace) {x : Event}
    (hx : (Conduct.of trace).standing.isBefore x = true) : x ∉ session trace := by
  induction trace with
  | nil => exact List.not_mem_nil
  | cons e earlier ih =>
    obtain ⟨hp, ho⟩ := h
    rw [session]
    split
    next => exact List.not_mem_nil
    next hopen =>
      obtain ⟨hbefore, hne⟩ := Conduct.isBefore_of_after hp (by simpa using hopen) hx
      exact fun hmem => (List.mem_cons.mp hmem).elim hne (ih ho hbefore)

/-- A cancellation that succeeded has led a session that goes on to the settling of what is in
flight. -/
theorem Orderly.standing_of_isCancellation (h : Orderly tag trace) {x : Event}
    (hx : x ∈ session trace) (hc : x.isCancellation = true)
    (hs : (Conduct.of trace).standing.isServing = true) :
    (Conduct.of trace).standing = .cancelled := by
  have hbefore : (Conduct.of trace).standing.isBefore x = false :=
    Bool.eq_false_iff.mpr fun hb => h.not_mem_of_isBefore hb hx
  revert hs hbefore
  cases (Conduct.of trace).standing <;> simp [Standing.isServing, Standing.isBefore, hc]

/-- Where a session that ends well begins to be closed, all that it took is rejected. -/
theorem Orderly.rejected_of_closing (h : Orderly tag earlier)
    (hclose : (Conduct.of earlier).MayClose) (hend : EndsWell (session earlier)) :
    (Conduct.of earlier).unsettled = [] := by
  obtain ⟨⟨t, hcancel⟩, hcalm⟩ := hend
  have hasked : (Conduct.of earlier).standing.isUncancelled ≠ true :=
    fun hs => h.recalls.uncancelled hs t hcancel
  rcases hclose with ⟨hs, -⟩ | hs | ⟨hs | hs, -⟩ | ⟨-, hmishap | hsettled⟩
  · exact absurd (by rw [hs]; rfl) hasked
  · exact absurd (by rw [hs]; rfl) hasked
  · exact absurd (by rw [hs]; rfl) hasked
  · exact absurd (by rw [hs]; rfl) hasked
  · rw [mishap_eq_any] at hmishap
    exact absurd (hcalm.symm.trans hmishap) (by simp)
  · exact hsettled

/-- While such a session is being closed, this stays so. -/
theorem Orderly.settled_of_closing (h : Orderly tag trace)
    (hs : (Conduct.of trace).standing = .closing) (hend : EndsWell (session trace)) :
    (Conduct.of trace).unsettled = [] := by
  induction trace with
  | nil => rfl
  | cons e earlier ih =>
    obtain ⟨hp, ho⟩ := h
    obtain ⟨t, e⟩ := e
    rw [Conduct.of_cons] at hs ⊢
    -- an event that asks for no cancellation and is no mishap tells nothing of the end
    have hsame : (∀ t, e ≠ .began (.cancel t)) → e.isOpening = false → EndsWell (session earlier) :=
      by
      rintro hne hopen
      obtain ⟨⟨t', hcancel⟩, hcalm⟩ := hend
      rw [session, if_neg (by simp [hopen])] at hcancel hcalm
      simp only [List.any_cons, Bool.or_eq_false_iff] at hcalm
      exact ⟨⟨t', (List.mem_cons.mp hcancel).resolve_left fun heq => hne t' heq.symm⟩, hcalm.2⟩
    have hserving : (Conduct.of earlier).standing = .closing →
        (Conduct.of earlier).standing.isServing ≠ true := by
      intro hs
      simp [hs, Standing.isServing]
    cases e with
    | began r =>
      cases r with
      | close => exact ho.rejected_of_closing hp (hsame (by simp) rfl)
      | _ => simp [Conduct.after] at hs
    | answered r _ => cases r <;> simp [Conduct.after] at hs
    | failed r _ => cases r <;> simp [Conduct.after] at hs
    | interrupted | notice _ | streamCancelled | streamEnded => exact ih ho hs (hsame (by simp) rfl)
    | delivered _ | streamFailed _ | streamPanicked _ => exact absurd hp.1 (hserving hs)
    | rejected _ | rejectFailed _ _ | rejectPanicked _ => exact absurd hp.1.1 (hserving hs)

/-- What is taken or rejected after the close of a session has begun is of a later session. -/
theorem Orderly.opening_of_taken {close e : Entry} {between : List Entry}
    (h : Orderly tag (e :: (between ++ close :: earlier))) (hclose : close.event = .began .close)
    (he : e.event.isDelivery = true ∨ e.event.isRejection = true) :
    ∃ o ∈ between, o.event.isOpening = true := by
  by_contra hnone
  push Not at hnone
  have hserving : (Conduct.of (between ++ close :: earlier)).standing.isServing = true := by
    have hp := h.1
    cases hevent : e.event <;>
      simp_all [Event.isDelivery, Event.isRejection, Conduct.Permits, Conduct.IsConsuming]
  refine h.2.recalls.unclosed (Standing.isLive_of_isServing hserving) ?_
  rw [Entry.session_append fun o ho => Bool.eq_false_iff.mpr (hnone o ho), session, hclose]
  exact List.mem_append_right _ List.mem_cons_self

/-! ### The end of the stream -/

variable {ω : Type} {E : Environment ω}

/-- An environment in which a cancellation stops the stream: once one has succeeded, the stream
gives no delivery, whatever happens before the next subscription. -/
structure Cancellation (E : Environment ω) where
  stopped : ω → Prop
  answer : ∀ t tag w count, (E.answer t (.cancel tag) w).value = .ok count →
    stopped (E.answer t (.cancel tag) w).state
  pass : ∀ t w, stopped w → stopped (E.pass t w).state
  ask : ∀ t w, stopped w → stopped (E.ask t w).state
  ask_ne_delivery : ∀ t w tag, stopped w → (E.ask t w).value ≠ .delivery tag
  startReject : ∀ t tag w, stopped w → stopped (E.startReject t tag w).state
  finishReject : ∀ t tag w, stopped w → stopped (E.finishReject t tag w).state

/-- A consumer takes a stream for closed that has come to its end. -/
theorem Consumer.Move.streamOpen_or {queue : String} {k k' : Consumer} {c c' : Course ω}
    (h : Consumer.Move E queue k c c' (.ongoing k')) :
    k'.streamOpen = false ∨
      (k'.streamOpen = k.streamOpen ∧
        ∃ new, c'.proceedings = new ++ c.proceedings ∧ ∀ e ∈ new, e.isStreamEnd = false) := by
  cases h with
  | @delivered _ tag _ _ ha =>
    refine .inr ⟨rfl, [.delivered tag], ?_, by simp [Event.isStreamEnd]⟩
    rw [Course.proceedings_startReject]
    exact Course.proceedings_of_ask ha
  | waiting _ _ ha => exact .inr ⟨rfl, [], Course.proceedings_of_ask ha, by simp⟩
  | streamOver _ _ _ _ => exact .inl rfl
  | @rejected r _ _ _ hf =>
    exact .inr ⟨rfl, [.rejected r.tag], Course.proceedings_of_finishReject hf,
      by simp [Event.isStreamEnd]⟩

/-- What taking and rejecting keep true of the environment, the consumer keeps. -/
theorem Consumer.Move.keeps {G : ω → Prop} (hask : ∀ t w, G w → G (E.ask t w).state)
    (hstart : ∀ t tag w, G w → G (E.startReject t tag w).state)
    (hfinish : ∀ t tag w, G w → G (E.finishReject t tag w).state) {queue : String} {k : Consumer}
    {c c' : Course ω} {stage : Stage Consumer Consumer.Ending}
    (hm : Consumer.Move E queue k c c' stage) (h : G c.world) : G c'.world := by
  have hasked : ∀ {c' offer}, c.ask E = (c', offer) → G c'.world := fun {c'} {_} ha => by
    have hworld := Course.ask_world (E := E) c
    rw [ha] at hworld
    exact hworld ▸ hask _ _ h
  have hfinished : ∀ {tag c' settlement}, c.finishReject E tag = (c', settlement) → G c'.world :=
    fun {tag} {c'} {_} hf => by
      have hworld := Course.finishReject_world (E := E) c tag
      rw [hf] at hworld
      exact hworld ▸ hfinish _ _ _ h
  cases hm with
  | delivered _ _ ha =>
    rw [Course.startReject_world]
    exact hstart _ _ _ (hasked ha)
  | waiting _ _ ha => exact hasked ha
  | streamOver _ _ ha _ => exact hasked ha
  | streamFailed _ _ ha => exact hasked ha
  | streamPanicked _ _ ha => exact hasked ha
  | rejected _ _ hf => exact hfinished hf
  | rejectFailed _ _ hf => exact hfinished hf
  | rejectPanicked _ _ hf => exact hfinished hf
  | stopped _ _ => exact h

namespace Drain

variable {plan : Plan} {s s' : State ω} {m : Conduct}

/-- A consumer at work takes its stream for closed if it came to its end. -/
def State.Halted (s : State ω) : Prop :=
  ∀ k, s.worker = .running k → k.streamOpen = true →
    ∀ x ∈ session s.course.trace, x.isStreamEnd = false

theorem Move.halted (hm : Move E plan s s') (hf : s.Follows plan m) (h : s.Halted) :
    s'.Halted := by
  intro k' hw' hopen x hx
  by_contra hend
  have hend : x.isStreamEnd = true := by simpa using hend
  have hconsumption := Event.isConsumption_of_isStreamEnd hend
  have haside := Event.isAside_of_isConsumption hconsumption
  rcases hm.consumes_or with ⟨k, c', stage, hw, hmove, rfl⟩ | ⟨⟨new, hnew, hall⟩, hworker⟩
  · match stage with
    | .over _ => cases hw'
    | .ongoing k₁ =>
      cases hw'
      rcases hmove.streamOpen_or with hclosed | ⟨hsame, new, hnew, hall⟩
      · exact absurd (hclosed.symm.trans hopen) (by simp)
      · rcases (hm.proceeds hnew).mem_session_or hx haside with hmem | hmem
        · exact absurd ((hall x hmem).symm.trans hend) (by simp)
        · exact absurd ((h k hw (hsame ▸ hopen) x hmem).symm.trans hend) (by simp)
  · rcases hnew.mem_session_or hx haside with hmem | hmem
    · exact absurd ((hall x hmem).1.symm.trans hconsumption) (by simp)
    · rcases hworker with hw | hw | ⟨-, due, hp⟩
      · exact absurd ((h k' (hw ▸ hw') hopen x hmem).symm.trans hend) (by simp)
      · cases hw.symm.trans hw'
      · -- a session that is being subscribed to has no stream yet
        have hphase := hf.phase
        rw [hp] at hphase
        refine hf.course.orderly.not_mem_of_isBefore ?_ hmem
        rw [hf.course.conduct, hphase.1, Standing.isBefore, hconsumption]
        rfl

/-- A session that was cancelled with success has a stream that is stopped. -/
def State.Stopped (C : Cancellation E) (s : State ω) : Prop :=
  ∀ outcome, s.phase = .joining outcome → (Conduct.of s.course.trace).mishap = false →
    C.stopped s.course.world

theorem Move.stopped (C : Cancellation E) (hm : Move E plan s s') (hf : s.Follows plan m)
    (h : s.Stopped C) : s'.Stopped C := by
  intro outcome hp' hcalm
  cases hm with
  | @connected a c' result hp hm =>
    match result with
    | .error _ => cases hp'
    | .ok none =>
      obtain ⟨summary, hgive⟩ := phase_giveUp { s with course := c' } plan
      cases hgive.symm.trans hp'
    | .ok (some declared) =>
      rcases phase_openSession (E := E) ({ s with course := c' }.welcome plan declared) plan with
        ⟨due, hopen⟩ | ⟨due, hopen⟩ <;> cases hopen.symm.trans hp'
  | subscribed hp hd hf' => exact absurd hp' (phase_polled_ne_joining _ _ _)
  | polled hp hr hm => exact absurd hp' (phase_polled_ne_joining _ _ _)
  | closed hp hd => exact absurd hp' (phase_closed_ne_joining _ _ _)
  | @cancelled _ _ c' count hp hd hf' =>
    have hanswer := Course.finish_eq (E := E) s.course (.cancel plan.config.consumerTag)
    rw [hf'] at hanswer
    obtain ⟨rfl, hvalue⟩ := Prod.mk.inj hanswer
    show C.stopped (Course.note _ _).world
    rw [Course.note_world, Course.absorb_world]
    exact C.answer _ _ _ _ hvalue.symm
  | cancelFailed hp hd hf' =>
    obtain ⟨asides, htrace, -⟩ := Course.finish_trace hf'
    simp [htrace, Conduct.after, Course.answer] at hcalm
  | @consumer k c' stage hu hw hm =>
    have hworker := hf.worker
    rw [hw] at hworker
    have hstopped := h outcome hp' (by rw [hf.course.conduct]; exact hworker.1.2)
    exact hm.keeps C.ask C.startReject C.finishReject hstopped
  | time hu hidle =>
    obtain ⟨asides, hext, hall⟩ := Course.extends_advance (E := E) s.course (wakes s)
    obtain ⟨b, hb⟩ := Conduct.of_asides (fun e he => (hall e he).1) s.course.trace
    have hstopped := h outcome hp' (by simpa [hext.trace, hb] using hcalm)
    rcases Course.advance_eq_or (E := E) s.course (wakes s) with heq | ⟨t, -, heq⟩
    · simpa [heq] using hstopped
    · show C.stopped (s.course.advance E (wakes s)).world
      rw [heq, Course.absorb_world]
      exact C.pass _ _ hstopped
  | _ => cases hp'

/-- Where the phase is one of joining, and nowhere else, the session stands at its cancellation. -/
theorem Phase.Fits.joining {phase : Phase} (h : phase.Fits m) (hs : m.standing = .cancelled) :
    ∃ outcome, phase = .joining outcome := by
  match phase with
  | .joining outcome => exact ⟨outcome, rfl⟩
  | .connecting (.backingOff _ _) | .connecting (.establishing _ _) | .subscribing _
  | .polling (.waiting _) | .polling (.reading _) | .cancelling _ _ | .closing _ _
  | .finished (.error _) => exact absurd (h.1.symm.trans hs) (by simp)
  | .finished (.ok _) => exact absurd h.1 (by simp [hs, Standing.isOpen])

/-- A condition on the latest session that asides fulfil need only hold of what came before them. -/
theorem forall_session_of_asides {P : Event → Prop} (hP : ∀ x, x.isAside = true → P x)
    (h : ∀ x ∈ session trace, P x) {asides : List Entry}
    (hall : ∀ e ∈ asides, e.event.isAside = true) : ∀ x ∈ session (asides ++ trace), P x := by
  intro x hx
  rcases Entry.mem_session_append hx with ⟨e, he, rfl⟩ | ⟨hx, -⟩
  · exact hP _ (hall e he)
  · exact h x hx

/-- Nothing is taken from a stream that came to its end. -/
theorem run_halted (E : Environment ω) (plan : Plan) (now : Nat) (world : ω) (rejected : UInt64)
    (interrupted : Bool) (n : Nat) :
    Taken (fun earlier => ∀ x ∈ session earlier, x.isStreamEnd = false)
      (run E plan n (start E plan (.opening now world rejected interrupted))).course.trace := by
  refine (run_of_move (E := E)
    (P := fun s => (∃ m, s.Follows plan m) ∧ s.Halted ∧
      Taken (fun earlier => ∀ x ∈ session earlier, x.isStreamEnd = false) s.course.trace)
    ?_ ⟨start_follows (tracks_opening _ _ _ _ _), ?_, start_taken plan now world _ _⟩ n).2.2
  · rintro s s' hm ⟨⟨m, hf⟩, hh, ht⟩
    refine ⟨hm.follows hf, hm.halted hf hh,
      hm.taken (fun k c' tag hw ho hr ha asides hall => ?_) ht⟩
    refine forall_session_of_asides (fun x hx => ?_) (hh k hw ho) hall
    cases x <;> simp_all [Event.isAside, Event.isStreamEnd]
  · intro k hw
    rw [start_worker] at hw
    cases hw

/-- Nothing is taken after a cancellation that stopped the stream. -/
theorem run_stopped (C : Cancellation E) (plan : Plan) (now : Nat) (world : ω) (rejected : UInt64)
    (interrupted : Bool) (n : Nat) :
    Taken (fun earlier => ∀ x ∈ session earlier, x.isCancellation = false)
      (run E plan n (start E plan (.opening now world rejected interrupted))).course.trace := by
  refine (run_of_move (E := E)
    (P := fun s => (∃ m, s.Follows plan m) ∧ s.Stopped C ∧
      Taken (fun earlier => ∀ x ∈ session earlier, x.isCancellation = false) s.course.trace)
    ?_ ⟨start_follows (tracks_opening _ _ _ _ _), ?_, start_taken plan now world _ _⟩ n).2.2
  · rintro s s' hm ⟨⟨m, hf⟩, hs, ht⟩
    refine ⟨hm.follows hf, hm.stopped C hf hs,
      hm.taken (fun k c' tag hw ho hr ha asides hall => ?_) ht⟩
    refine forall_session_of_asides (fun x hx => ?_) (fun x hx => ?_) hall
    · cases x <;> simp_all [Event.isAside, Event.isCancellation]
    · -- the stream is asked, so a cancellation would have stopped it
      by_contra hc
      have hworker := hf.worker
      rw [hw] at hworker
      obtain ⟨hserving, hcalm⟩ := hworker.1
      have hstanding : m.standing = .cancelled := by
        rw [← hf.course.conduct] at hserving ⊢
        exact hf.course.orderly.standing_of_isCancellation hx (by simpa using hc) hserving
      obtain ⟨outcome, hp⟩ := hf.phase.joining hstanding
      have hstopped := hs outcome hp (by rw [hf.course.conduct]; exact hcalm)
      exact C.ask_ne_delivery _ _ tag hstopped (Prod.mk.inj ha).2
  · intro outcome hp
    have hnever : (start E plan (.opening now world rejected interrupted)).phase
        ≠ .joining outcome := by
      cases hi : interrupted with
      | true =>
        rw [start_of_interrupted rfl]
        obtain ⟨summary, hgive⟩ := phase_giveUp (untouched plan (.opening now world rejected true))
          plan
        rw [hgive]
        rintro ⟨⟩
      | false =>
        rw [start_of_not_interrupted rfl]
        rintro ⟨⟩
    exact absurd hp hnever

/-- **A graceful end.** In any run, let a session be closed whose poller has decided, and in which
neither the cancellation, nor the stream, nor a rejection failed. Where its close begins, every
delivery ever taken from its stream is rejected; the counter counts the rejections, nothing of that
session is taken or rejected later, and nothing is outstanding for the close to give back. No
delivery is taken behind the end of the stream, nor after a cancellation, where cancellations stop
the stream. -/
theorem run_graceful (E : Environment ω) (plan : Plan) (now : Nat) (world : ω) (rejected : UInt64)
    (interrupted : Bool) (n : Nat) :
    let s := run E plan n (start E plan (.opening now world rejected interrupted))
    (∀ later close earlier, s.course.trace = later ++ close :: earlier →
      close.event = .began .close → EndsWell (session earlier) →
      (∀ tag, (session earlier).count (.rejected tag) = (session earlier).count (.delivered tag)) ∧
      (session earlier).countP Event.isRejection = (session earlier).countP Event.isDelivery ∧
      ∀ recent e between, later = recent ++ e :: between →
        e.event.isDelivery = true ∨ e.event.isRejection = true →
        ∃ o ∈ between, o.event.isOpening = true) ∧
    s.course.rejected = rejected + UInt64.ofNat (rejections s.course.trace) ∧
    (∀ ending due, s.phase = .closing ending due → EndsWell (session s.course.trace) →
      ∀ B : Broker E, (B.ledger s.course.world).outstanding ≤ (B.ledger world).outstanding) ∧
    Taken (fun earlier => ∀ x ∈ session earlier, x.isStreamEnd = false) s.course.trace ∧
    (Nonempty (Cancellation E) →
      Taken (fun earlier => ∀ x ∈ session earlier, x.isCancellation = false) s.course.trace) := by
  intro s
  have hf : s.Follows plan (Conduct.of s.course.trace) :=
    run_follows E plan now world rejected interrupted n
  have ho : QueueDrain.Orderly plan.config.consumerTag s.course.trace := hf.course.orderly
  refine ⟨?_, run_counts E plan now world rejected interrupted n, ?_,
    run_halted E plan now world rejected interrupted n,
    fun ⟨C⟩ => run_stopped C plan now world rejected interrupted n⟩
  · intro later close earlier htrace hclose hend
    rw [htrace] at ho
    have hearlier := ho.of_append.2
    have hpermits := ho.permits
    rw [hclose] at hpermits
    have hsettled := hearlier.rejected_of_closing hpermits hend
    refine ⟨fun tag => ?_, ?_, ?_⟩
    · have hcount := hearlier.count_unsettled tag
      rw [hsettled, List.count_nil, Nat.zero_add] at hcount
      exact hcount.symm
    · have hlength := hearlier.length_unsettled
      rw [hsettled, List.length_nil, Nat.zero_add] at hlength
      exact hlength.symm
    · rintro recent e between rfl he
      rw [List.append_assoc, List.cons_append] at ho
      exact ho.of_append.opening_of_taken hclose he
  · intro ending due hp hend B
    have hstanding : (Conduct.of s.course.trace).standing = .closing := by
      have hphase := hf.phase
      rw [hp] at hphase
      exact hphase.1
    have hbal : Ledger.Balances (B.ledger world) (Conduct.of s.course.trace)
        (rejections s.course.trace) (B.ledger s.course.world) :=
      run_balances B plan now world rejected interrupted n
    have hheld := (hbal.held (by rw [hstanding]; rfl)).2
    rw [ho.settled_of_closing hstanding hend] at hheld
    simpa using hheld

end Drain

/-! ### Scripts -/

namespace Scenario

/-- There is no stream, or it is cancelled. -/
def State.isStopped (s : State) : Bool := s.stream.all StreamState.cancelled

theorem StreamState.stir_cancelled (stream : StreamState) :
    stream.stir.cancelled = stream.cancelled := by
  rw [stir]
  split <;> rfl

theorem StreamState.all_cancelled_map {stream : Option StreamState} {g : StreamState → StreamState}
    (hg : ∀ st, st.cancelled = true → (g st).cancelled = true)
    (h : stream.all StreamState.cancelled = true) :
    (stream.map g).all StreamState.cancelled = true := by
  cases stream with
  | none => rfl
  | some st => exact hg st h

theorem pass_isStopped (now : Nat) {s : State} (h : s.isStopped = true) :
    (pass now s).state.isStopped = true := by
  have hstir : (s.stream.map StreamState.stir).all StreamState.cancelled = true :=
    StreamState.all_cancelled_map (fun st hst => by rwa [StreamState.stir_cancelled]) h
  have hmark : ∀ {stream : Option StreamState}, stream.all StreamState.cancelled = true →
      (stream.map fun st => { st with cancelled := true }).all StreamState.cancelled = true :=
    fun hs => StreamState.all_cancelled_map (fun _ _ => rfl) hs
  simp only [pass]
  split <;> split <;> split <;> first
    | exact h
    | exact hstir
    | exact hmark h
    | exact hmark hstir

theorem ask_of_isStopped (now : Nat) {s : State} (h : s.isStopped = true) :
    ask now s = { state := s, value := .cancelled } := by
  rw [ask]
  split
  · rfl
  next stream hstream =>
    rw [State.isStopped, hstream] at h
    rw [if_pos (by simpa using h)]

theorem answer_isStopped (script : Scenario) (tag : String) (s : State) {count : Nat}
    (h : (script.answer (.cancel tag) s).value = .ok count) :
    (script.answer (.cancel tag) s).state.isStopped = true := by
  simp only [answer, settleStep] at h ⊢
  split at h
  · cases h
  · cases s.stream <;> simp [State.isStopped]

/-- A script stops its streams when they are cancelled. -/
def cancellation (script : Scenario) : Cancellation script.environment where
  stopped s := s.isStopped = true
  answer _ tag s _ h := script.answer_isStopped tag s h
  pass t _ h := pass_isStopped t h
  ask t s h := by
    show (Scenario.ask t s).state.isStopped = true
    rw [ask_of_isStopped t h]
    exact h
  ask_ne_delivery t s tag h := by
    show (Scenario.ask t s).value ≠ .delivery tag
    rw [ask_of_isStopped t h]
    exact nofun
  startReject _ _ _ h := h
  finishReject t tag s h := by
    show (script.finishReject tag s).state.isStopped = true
    rw [finishReject]
    split <;> exact h

/-- A message that is delivered while the subscription is being cancelled, and rejections that take
longer than that. -/
def busyCancel : Scenario where
  messages := 1
  arrivals := [(5500, 1), (8500, 1)]
  latencies := [6000]
  sessions := [{ cancel := { delay := 3000 } }]

end Scenario

/-- The rejection of what was delivered during the cancellation is awaited, and what arrives after
it stays in the queue. -/
theorem Drain.run_graceful_busyCancel :
    let s := Scenario.busyCancel.runs .sample 17
    let earlier := s.course.trace.drop 1
    EndsWell (session earlier) ∧
    (session earlier).count (.rejected 2) = (session earlier).count (.delivered 2) ∧
    (session earlier).count (.delivered 2) = 1 ∧
    (session earlier).countP Event.isRejection = (session earlier).countP Event.isDelivery ∧
    s.course.rejected = 0 + UInt64.ofNat (rejections s.course.trace) ∧
    s.course.world.ledger = ⟨1, 0, 2, 2⟩ ∧ s.course.world.ledger.outstanding ≤ 0 ∧
    Taken (fun earlier => ∀ x ∈ session earlier, x.isCancellation = false) s.course.trace := by
  intro s earlier
  have hsplit : s.course.trace = [] ++ ⟨11500, .began .close⟩ :: earlier := rfl
  have hend : EndsWell (session earlier) := ⟨⟨"jobs_rejector", by decide⟩, by decide⟩
  have hending : EndsWell (session s.course.trace) := ⟨⟨"jobs_rejector", by decide⟩, by decide⟩
  obtain ⟨hclose, hcount, hledger, -, hstopped⟩ :=
    Drain.run_graceful Scenario.busyCancel.environment .sample 0 Scenario.busyCancel.opening 0 false
      17
  obtain ⟨htags, htotal, -⟩ := hclose _ _ _ hsplit rfl hend
  exact ⟨hend, htags 2, rfl, htotal, hcount, rfl,
    hledger (.ok .drained) (some 11500) rfl hending Scenario.busyCancel.broker,
    hstopped ⟨Scenario.busyCancel.cancellation⟩⟩

end QueueDrain
