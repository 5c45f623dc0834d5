import Mathlib.Data.List.Forall2
import QueueDrain.Proofs.Conversation

/-!
# What a run sends

Everything that a run sends to an AMQP server follows the pattern of its connection, and what it
rejects was delivered there. The phase of the coordinator tells how far the dialogue has come, and
the consumer only rejects, which it may from the subscription on until the session is closed.

## Main definitions

* `Drain.Phase.Voices` — the dialogue has come as far as the coordinator has
* `Drain.State.Converses` — a run that has conformed so far

## Main results

* `Drain.Move.converses`, `Drain.run_converses` — every move keeps to the pattern, and so does a run
* `Drain.run_conforms` — what a run sends
-/

namespace QueueDrain

namespace Drain

open Amqp (Client Peer Target)

variable {σ : Type} {P : Peer σ} {t : Target} {told : σ → List (List Nat)} {plan : Plan}
  {s s' : State (Client σ)} {m : Conduct} {form : List Amqp.Method → Prop}

/-! ### Phases -/

/-- The dialogue has come as far as the coordinator has. A subscription that could not be asked for
is about to fail. -/
def Phase.Voices (t : Target) (tag : String) (c : Client σ) (now : Nat) : Phase → Prop
  | .subscribing _ =>
    c.Speaks now (Amqp.Consuming t tag) ∨
      (c.Speaks now (Amqp.Opened t) ∧ ∃ cause, c.ending = some (.error cause))
  | .polling _ => c.Speaks now (Amqp.Consuming t tag)
  | .cancelling _ _ | .joining _ =>
    c.Speaks now (Amqp.Serving t tag)
  | _ => True

/-- A client that has conformed so far, and what it has rejected was delivered. -/
structure Proper (P : Peer σ) (t : Target) (tag : String) (told : σ → List (List Nat))
    (c : Client σ) : Prop where
  lines : c.Lines t tag
  books (hP : P.Records told) : c.Books told

/-- A run that has conformed so far. -/
structure State.Converses (P : Peer σ) (t : Target) (told : σ → List (List Nat)) (plan : Plan)
    (s : State (Client σ)) : Prop where
  proper : Proper P t plan.config.consumerTag told s.course.world
  phase : s.phase.Voices t plan.config.consumerTag s.course.world s.course.now

theorem Proper.adds {tag : String} {c c' : Client σ} {now : Nat} {new : List Amqp.Trial}
    (h : Proper P t tag told c) (ha : c.Adds P now c' new) (hs : c.Speaks now form)
    (hform : ∀ ms, form ms → Amqp.Conforms t tag (ms ++ Amqp.sent new)) :
    Proper P t tag told c' :=
  ⟨ha.lines h.lines hs hform, fun hP => ha.books hP (h.books hP)⟩

/-- Nothing is tried. -/
theorem Proper.adds_nil {tag : String} {c c' : Client σ} {now : Nat} (h : Proper P t tag told c)
    (ha : c.Adds P now c' []) : Proper P t tag told c' := by
  have htrials : c'.trials = c.trials := by rw [ha.trials, Amqp.modifyHead_append_nil]
  exact ⟨fun trials hmem => h.lines trials (htrials ▸ hmem), fun hP => ha.books hP (h.books hP)⟩

/-! ### The operations of the coordinator -/

section Operations

variable (hc : Proper P t plan.config.consumerTag told s.course.world)
include hc

/-- What is open is closed. -/
theorem converses_close (hs : s.course.world.Speaks s.course.now form)
    (hform : ∀ ms, form ms → Amqp.IsOpen t plan.config.consumerTag ms)
    (ending : Except DrainError Outcome) :
    (s.close (Client.environment P t) ending).Converses P t told plan := by
  obtain ⟨new, hadds, hclosing⟩ := Client.close_adds hs P t
  have hworld : (s.close (Client.environment P t) ending).course.world
      = (Client.start P t s.course.now .close s.course.world).state := Course.begin_world _ _
  refine ⟨?_, trivial⟩
  rw [hworld]
  exact hc.adds hadds hs fun ms hms => (hform ms hms).close hclosing

/-- A method with an answer is sent while nothing is closed. -/
theorem proper_submit (method : Amqp.Method) (hs : s.course.world.Speaks s.course.now form)
    (hm : ∀ tag, method ≠ .reject tag false)
    {form' : List Amqp.Method → Prop} (hsent : ∀ ms, form ms → form' (ms ++ [method]))
    (hopen : ∀ ms, form ms → Amqp.IsOpen t plan.config.consumerTag ms)
    (hopen' : ∀ ms, form' ms → Amqp.IsOpen t plan.config.consumerTag ms) :
    let c := (s.course.world.submit P s.course.now method).state
    Proper P t plan.config.consumerTag told c ∧
      (c.Speaks s.course.now form' ∨
        (c.Speaks s.course.now form ∧ ∃ cause, c.ending = some (.error cause))) := by
  obtain ⟨new, hadds, htime, hnew⟩ := Client.submit_adds hs hm P
  refine ⟨hc.adds hadds hs fun ms hms => ?_, ?_⟩
  · rcases hnew with hnew | ⟨hnew, -⟩ <;> rw [hnew]
    · exact (hopen' _ (hsent ms hms)).conforms
    · simpa using (hopen ms hms).conforms
  · rcases hnew with hnew | ⟨hnew, hending⟩
    · exact .inl (hadds.speaks hs htime fun ms hms => hnew ▸ hsent ms hms)
    · exact .inr ⟨hadds.speaks hs htime fun ms hms => by simpa [hnew] using hms, hending⟩

theorem converses_cancel
    (hs : s.course.world.Speaks s.course.now (Amqp.Consuming t plan.config.consumerTag))
    (outcome : Outcome) :
    (s.cancel (Client.environment P t) plan outcome).Converses P t told plan := by
  obtain ⟨hproper, hspeaks⟩ := proper_submit hc
    (.cancel plan.config.consumerTag false) hs (fun _ h => by cases h) (fun _ hms => hms.cancel)
    (fun _ hms => hms.isOpen) fun _ hms => hms.isOpen
  have hworld : (s.cancel (Client.environment P t) plan outcome).course.world
      = (s.course.world.submit P s.course.now (.cancel plan.config.consumerTag false)).state :=
    Course.begin_world _ _
  have hnow : (s.cancel (Client.environment P t) plan outcome).course.now = s.course.now :=
    Course.absorb_now _ _
  refine ⟨hworld ▸ hproper, ?_⟩
  rw [hworld, hnow]
  rcases hspeaks with h | ⟨h, -⟩
  · exact h.mono (Nat.le_refl _) rfl fun _ hms => Or.inr hms
  · exact h.mono (Nat.le_refl _) rfl fun _ hms => Or.inl hms

/-- A session that is open is subscribed to, or closed. -/
theorem converses_openSession (hs : s.course.world.Speaks s.course.now (Amqp.Opened t)) :
    (s.openSession (Client.environment P t) plan).Converses P t told plan := by
  rw [State.openSession]
  split
  · exact converses_close hc hs (fun _ hms => hms.isOpen) _
  · obtain ⟨hproper, hspeaks⟩ := proper_submit hc
      (.consume t.spec.name plan.config.consumerTag {} []) hs (fun _ h => by cases h)
      (fun _ hms => hms.subscribe _) (fun _ hms => hms.isOpen) fun _ hms => hms.isOpen
    have hworld : (s.course.begin (Client.environment P t)
          (.subscribe plan.config.consumerTag)).1.world
        = (s.course.world.submit P s.course.now
          (.consume t.spec.name plan.config.consumerTag {} [])).state := Course.begin_world _ _
    have hnow : (s.course.begin (Client.environment P t)
        (.subscribe plan.config.consumerTag)).1.now = s.course.now := Course.absorb_now _ _
    refine ⟨hworld ▸ hproper, ?_⟩
    show Phase.Voices _ _ (s.course.begin _ _).1.world (s.course.begin _ _).1.now _
    rw [hworld, hnow]
    exact hspeaks

theorem converses_polled
    (hs : s.course.world.Speaks s.course.now (Amqp.Consuming t plan.config.consumerTag))
    (stage : Stage Poller.Activity Poller.Result) :
    (s.polled (Client.environment P t) plan stage).Converses P t told plan := by
  match stage with
  | .ongoing activity => exact ⟨hc, hs⟩
  | .over (.ok outcome) => exact converses_cancel hc hs outcome
  | .over (.error cause) =>
    exact converses_close (s := { s with worker := .absent }) hc hs (fun _ hms => hms.isOpen) _

theorem converses_report (outcome : Outcome) :
    (s.report plan outcome).Converses P t told plan := ⟨hc, trivial⟩

theorem converses_giveUp : (s.giveUp plan).Converses P t told plan := by
  rw [State.giveUp]
  split
  · exact converses_report (s := { s with course := s.course.tell .interruptedEarly }) hc _
  · exact converses_report hc _

theorem converses_welcome (hs : s.course.world.Speaks s.course.now (Amqp.Opened t))
    (declared : Nat) :
    ((s.welcome plan declared).openSession (Client.environment P t) plan).Converses P t told
      plan := by
  rw [State.welcome]
  split
  · exact converses_openSession hc hs
  · exact converses_openSession hc hs

end Operations

/-! ### Every move -/

section Courses

variable {c c' : Course (Client σ)} {r : Request} {value : Except DrainError Nat}

/-- A race is a turn, and nothing else. -/
theorem Proper.raced {tag : String} (h : Proper P t tag told c.world)
    (hr : c.Raced (Client.environment P t) c') : Proper P t tag told c'.world := by
  induction hr with
  | refl => exact h
  | tail _ hlast ih =>
    subst hlast
    exact ih.adds_nil (Client.turn_adds P c.now _)

theorem speaks_raced (hs : c.world.Speaks c.now form)
    (hr : c.Raced (Client.environment P t) c') : c'.world.Speaks c'.now form := by
  induction hr with
  | refl => exact hs
  | tail _ hlast ih =>
    subst hlast
    exact ih

/-- An answer tries nothing. -/
theorem finish_adds (hf : c.finish (Client.environment P t) r = (c', value)) :
    c.world.Adds P c.now c'.world [] ∧ c'.now = c.now ∧ c'.world.trials = c.world.trials := by
  have hadds := Client.answer_adds P t c.now r c.world
  rw [Course.finish_eq] at hf
  obtain ⟨rfl, -⟩ := Prod.mk.inj hf
  have hworld : ((c.absorb ((Client.environment P t).answer c.now r c.world)).note
      (Course.answer r ((Client.environment P t).answer c.now r c.world).value)).world
      = (Client.answer P t c.now r c.world).state := Course.absorb_world _ _
  rw [hworld]
  refine ⟨hadds, Course.absorb_now _ _, ?_⟩
  rw [hadds.trials, Amqp.modifyHead_append_nil]

end Courses

/-- An attempt that has succeeded has sent all that opens the channel. -/
theorem State.Foresees.speaks {attempt due : Option Nat} {c' : Course (Client σ)} {declared : Nat}
    (h : s.Foresees P t) (hp : s.phase = .connecting (.establishing attempt due))
    (hd : reached due s.course.now = true)
    (hf : s.course.finish (Client.environment P t) .establish = (c', .ok declared)) :
    c'.world.Speaks c'.now (Amqp.Opened t) := by
  obtain ⟨now, server, p, result, hattempt, hattempting, rfl⟩ := h attempt due hp
  have hattempts := Amqp.establish_attempts P t now server
  rw [hattempt] at hattempts
  obtain ⟨hadds, hnow, htrials⟩ := finish_adds hf
  -- the attempt is over, and it is not over with an error
  have hopened : result = .opened declared ∧ p.time ≤ s.course.now := by
    cases hresult : result.ending with
    | none => simp [hresult, reached] at hd
    | some value =>
      have hvalue := hattempting.answer hresult P t s.course.now
      have hfinish := Course.finish_eq (E := Client.environment P t) s.course .establish
      rw [hf] at hfinish
      obtain rfl : value = .ok declared := hvalue.symm.trans (Prod.mk.inj hfinish).2.symm
      refine ⟨?_, by simpa [hresult, reached] using hd⟩
      cases result <;> cases hresult
      rfl
  obtain ⟨rfl, htime⟩ := hopened
  rcases hc : s.course.world.trials with _ | ⟨current, earlier⟩
  · have hhead := hattempting.trials
    rw [hc] at hhead
    cases hhead
  · have hhead := hattempting.trials
    rw [hc] at hhead
    cases hhead
    exact ⟨_, earlier, htrials.trans hc, hattempts.inOrder,
      fun trial hmem => hnow ▸ Nat.le_trans (hattempts.time_le trial hmem).2 htime,
      hattempts.opened rfl⟩

/-- A consumer is at work while there is a subscription. -/
theorem State.Follows.phase_of_running {k : Consumer} (hf : s.Follows plan m)
    (hw : s.worker = .running k) (hu : s.result? = none) :
    (∃ a, s.phase = .polling a) ∨ (∃ outcome due, s.phase = .cancelling outcome due) ∨
      ∃ outcome, s.phase = .joining outcome := by
  have hserving : m.standing.isServing = true := by
    have hworker := hf.worker
    rw [hw] at hworker
    exact hworker.1.1
  have hphase := hf.phase
  match hp : s.phase with
  | .polling a => exact .inl ⟨a, rfl⟩
  | .cancelling outcome due => exact .inr (.inl ⟨outcome, due, rfl⟩)
  | .joining outcome => exact .inr (.inr ⟨outcome, rfl⟩)
  | .finished result => simp [State.result?, hp] at hu
  | .connecting (.backingOff _ _) | .connecting (.establishing _ _) | .subscribing _
  | .closing _ _ =>
    rw [hp] at hphase
    rw [hphase.1] at hserving
    cases hserving

/-- The consumer asks the stream, and rejects what it gives. -/
theorem consumer_adds {queue : String} {k : Consumer} {c c' : Course (Client σ)}
    {stage : Stage Consumer Consumer.Ending} (hs : c.world.Speaks c.now form)
    (hm : Consumer.Move (Client.environment P t) queue k c c' stage) :
    ∃ new, c.world.Adds P c.now c'.world new ∧ (∀ trial ∈ new, trial.time = c.now) ∧
      ((∃ n, Amqp.sent new = [.reject n false]) ∨ Amqp.sent new = []) := by
  have hask : ∀ {c' offer}, c.ask (Client.environment P t) = (c', offer) →
      c'.world = c.world.ask.state ∧ offer = c.world.link.ask.2 := fun {c' offer} ha => by
    have hworld := Course.ask_world (E := Client.environment P t) c
    rw [ha] at hworld
    exact ⟨hworld, (congrArg Prod.snd ha).symm⟩
  have hgiven : ∀ {c' offer}, c.ask (Client.environment P t) = (c', offer) →
      ∃ new, c.world.Adds P c.now c'.world new ∧ (∀ trial ∈ new, trial.time = c.now) ∧
        ((∃ n, Amqp.sent new = [.reject n false]) ∨ Amqp.sent new = []) := fun ha =>
    ⟨[], (hask ha).1 ▸ Client.ask_adds P c.now c.world, by simp, .inr rfl⟩
  have hfinish : ∀ {tag c' settlement},
      c.finishReject (Client.environment P t) tag = (c', settlement) →
      ∃ new, c.world.Adds P c.now c'.world new ∧ (∀ trial ∈ new, trial.time = c.now) ∧
        ((∃ n, Amqp.sent new = [.reject n false]) ∨ Amqp.sent new = []) := by
    intro tag c' settlement hf
    have hworld := Course.finishReject_world (E := Client.environment P t) c tag
    rw [hf] at hworld
    rw [show c'.world = c.world.turn from hworld.trans (Client.finishReject_state tag c.world)]
    exact ⟨[], Client.turn_adds P _ _, by simp, .inr rfl⟩
  cases hm with
  | @delivered c₁ n _ _ ha =>
    obtain ⟨hworld, hoffer⟩ := hask ha
    have hnow : c₁.now = c.now := by
      have := (Course.Deed.ask (E := Client.environment P t) (c := c)).calmly.now_eq
      rwa [ha] at this
    obtain ⟨new, hadds, htime, hnew⟩ := Client.reject_adds hs hoffer.symm P
    refine ⟨new, ?_, htime, hnew.imp_left fun h => ⟨n, h⟩⟩
    rw [Course.startReject_world, hworld, hnow]
    exact hadds
  | waiting _ _ ha | streamOver _ _ ha _ | streamFailed _ _ ha | streamPanicked _ _ ha =>
    exact hgiven ha
  | rejected _ _ hf | rejectFailed _ _ hf | rejectPanicked _ _ hf => exact hfinish hf
  | stopped _ _ =>
    exact ⟨[], Client.adds_nil rfl rfl (fun _ => Nat.le_refl _) _, by simp, .inr rfl⟩

/-- What the consumer sends does not change how far the dialogue has come. -/
theorem Phase.Voices.consumer {phase : Phase} {tag queue : String} {c c' : Course (Client σ)}
    {k : Consumer} {stage : Stage Consumer Consumer.Ending}
    (h : phase.Voices t tag c.world c.now)
    (hm : Consumer.Move (Client.environment P t) queue k c c' stage)
    (hc : Proper P t tag told c.world)
    (hserving : (∃ a, phase = .polling a) ∨ (∃ outcome due, phase = .cancelling outcome due) ∨
      ∃ outcome, phase = .joining outcome) :
    Proper P t tag told c'.world ∧ phase.Voices t tag c'.world c'.now := by
  have hall : ∀ {form : List Amqp.Method → Prop}, c.world.Speaks c.now form →
      (∀ ms n, form ms → form (ms ++ [.reject n false])) →
      (∀ ms, form ms → Amqp.IsOpen t tag ms) →
      Proper P t tag told c'.world ∧ c'.world.Speaks c'.now form := by
    intro form hs hreject hopen
    obtain ⟨new, hadds, htime, hnew⟩ := consumer_adds hs hm
    have hform : ∀ ms, form ms → form (ms ++ Amqp.sent new) := fun ms hms => by
      rcases hnew with ⟨n, hn⟩ | hn <;> rw [hn]
      · exact hreject ms n hms
      · simpa using hms
    refine ⟨hc.adds hadds hs fun ms hms => (hopen _ (hform ms hms)).conforms, ?_⟩
    rw [hm.calmly.now_eq]
    exact hadds.speaks hs htime hform
  rcases hserving with ⟨a, rfl⟩ | ⟨outcome, due, rfl⟩ | ⟨outcome, rfl⟩
  · exact hall h (fun _ n hms => hms.serve (.inr ⟨n, rfl⟩)) fun _ hms => hms.isOpen
  · exact hall h (fun _ n hms => hms.reject ⟨n, rfl⟩) fun _ hms => hms.isOpen
  · exact hall h (fun _ n hms => hms.reject ⟨n, rfl⟩) fun _ hms => hms.isOpen

/-- Time passes. -/
theorem converses_advance (h : s.Converses P t told plan) (wakes : List (Option Nat)) :
    { s with course := s.course.advance (Client.environment P t) wakes : State _ }.Converses P t
      told plan := by
  rcases Course.advance_eq_or (E := Client.environment P t) s.course wakes with ha | ⟨now, hle, ha⟩
  · rw [ha]
    exact h
  have hworld : (s.course.advance (Client.environment P t) wakes).world
      = (Client.pass P t now s.course.world).state := by
    rw [ha]
    exact Course.absorb_world _ _
  have hnow : (s.course.advance (Client.environment P t) wakes).now = now := by
    rw [ha]
    exact Course.absorb_now _ _
  have htrials := Client.pass_trials P t now s.course.world
  have hspeaks : ∀ {form : List Amqp.Method → Prop}, s.course.world.Speaks s.course.now form →
      (Client.pass P t now s.course.world).state.Speaks now form :=
    fun hs => hs.mono hle htrials fun _ hms => hms
  refine ⟨⟨fun trials hmem => ?_, fun hP => ?_⟩, ?_⟩
  · rw [hworld, htrials] at hmem
    exact h.proper.lines trials hmem
  · rw [hworld]
    exact Client.pass_books hP (h.proper.books hP) t now
  · have hphase := h.phase
    show s.phase.Voices _ _ _ _
    rw [hworld, hnow]
    match hp : s.phase with
    | .subscribing due =>
      rw [hp] at hphase
      exact hphase.imp hspeaks fun ⟨hs, cause, hending⟩ =>
        ⟨hspeaks hs, cause, Client.pass_ending hending P t now⟩
    | .polling a | .cancelling _ _ | .joining _ =>
      rw [hp] at hphase
      exact hspeaks hphase
    | .connecting _ | .closing _ _ | .finished _ => trivial

/-- A run that waits for an attempt makes another one, or waits before it does. -/
theorem converses_connecting {a a' : Connect.Activity} {c' : Course (Client σ)}
    (hm : Connect.Move (Client.environment P t) plan.config.reconnectPolicy plan.endpoint s.course a
      c' (.ongoing a'))
    (h : Proper P t plan.config.consumerTag told s.course.world) :
    State.Converses P t told plan { s with course := c', phase := .connecting a' } := by
  refine ⟨?_, trivial⟩
  cases hm with
  | began hw hi =>
    show Proper P t _ told (s.course.begin (Client.environment P t) .establish).1.world
    rw [Course.begin_world]
    exact ⟨Client.establish_lines h.lines P s.course.now,
      fun hP => Client.establish_books hP (h.books hP) t s.course.now⟩
  | retried hi hf ht hd => exact h.adds_nil (finish_adds hf).1

/-- An attempt is over, and the session is subscribed to if there is one. -/
theorem converses_connected {a : Connect.Activity} {c' : Course (Client σ)}
    {result : Connect.Result} (hp : s.phase = .connecting a)
    (hm : Connect.Move (Client.environment P t) plan.config.reconnectPolicy plan.endpoint s.course a
      c' (.over result))
    (hsee : s.Foresees P t) (h : Proper P t plan.config.consumerTag told s.course.world) :
    ({ s with course := c' }.established (Client.environment P t) plan result).Converses P t told
      plan := by
  cases hm with
  | overtaken hi hr => exact converses_giveUp (s := { s with course := c' }) (h.raced hr)
  | @opened due _ declared hi hf hd =>
    exact converses_welcome (s := { s with course := c' }) (h.adds_nil (finish_adds hf).1)
      (hsee.speaks hp hd hf) declared
  | @reopened attempt due c₁ declared hi hf hd =>
    have hspeaks : c₁.world.Speaks c₁.now (Amqp.Opened t) := hsee.speaks hp hd hf
    exact converses_welcome (s := { s with course := c₁.tell (.reestablished attempt) })
      (h.adds_nil (finish_adds hf).1) hspeaks declared
  | failed hi hf hlast hd => exact ⟨h.adds_nil (finish_adds hf).1, trivial⟩

/-- An answer leaves what was sent as it was. -/
theorem finish_speaks {c c' : Course (Client σ)} {r : Request} {value : Except DrainError Nat}
    (hf : c.finish (Client.environment P t) r = (c', value)) (hs : c.world.Speaks c.now form) :
    c'.world.Speaks c'.now form := by
  obtain ⟨-, hnow, htrials⟩ := finish_adds hf
  exact hs.mono (Nat.le_of_eq hnow.symm) htrials fun _ hms => hms

/-- The poller begins a reading, has its answer, or has decided. -/
theorem converses_poller {a : Poller.Activity} {c' : Course (Client σ)} {p' : Poller}
    {stage : Stage Poller.Activity Poller.Result}
    (hm : Poller.Move (Client.environment P t) s.poller s.course a c' p' stage)
    (h : Proper P t plan.config.consumerTag told s.course.world)
    (hs : s.course.world.Speaks s.course.now (Amqp.Consuming t plan.config.consumerTag)) :
    ({ s with course := c', poller := p' }.polled (Client.environment P t) plan stage).Converses
      P t told plan := by
  suffices hcourse : Proper P t plan.config.consumerTag told c'.world ∧
      c'.world.Speaks c'.now (Amqp.Consuming t plan.config.consumerTag) from
    converses_polled (s := { s with course := c', poller := p' }) hcourse.1 hcourse.2 stage
  cases hm with
  | interrupted hi hr => exact ⟨h.raced hr, speaks_raced hs hr⟩
  | @began wake c₁ hw hr =>
    obtain ⟨hproper, hspeaks⟩ := proper_submit (s := { s with course := c₁ }) (h.raced hr)
      (.ofSpec t.spec) (speaks_raced hs hr) (fun _ h => by cases h)
      (fun _ hms => hms.serve (.inl rfl)) (fun _ hms => hms.isOpen) fun _ hms => hms.isOpen
    rw [Course.begin_world, show (c₁.begin (Client.environment P t) .depth).1.now
      = c₁.now from Course.absorb_now _ _]
    exact ⟨hproper, hspeaks.elim id And.left⟩
  | @recorded due c₁ count hd hf =>
    have hspeaks : c₁.world.Speaks c₁.now _ := finish_speaks hf hs
    exact ⟨h.adds_nil (finish_adds hf).1, hspeaks⟩
  | failed hd hf => exact ⟨h.adds_nil (finish_adds hf).1, finish_speaks hf hs⟩

/-- A subscription that could not be asked for is not answered in the usual way. -/
theorem Phase.Voices.subscribed {due : Option Nat} {tag : String} {c' : Course (Client σ)}
    {count : Nat} (h : (Phase.subscribing due).Voices t tag s.course.world s.course.now)
    (hf : s.course.finish (Client.environment P t) (.subscribe tag) = (c', .ok count)) :
    s.course.world.Speaks s.course.now (Amqp.Consuming t tag) := by
  refine Or.resolve_right h fun ⟨_, cause, hending⟩ => ?_
  have hvalue := congrArg Prod.snd (Course.finish_eq (E := Client.environment P t) s.course
    (.subscribe tag))
  rw [hf] at hvalue
  simp [Client.environment, Client.answer, hending] at hvalue

/-- **A move keeps the pattern.** -/
theorem Move.converses (hm : Move (Client.environment P t) plan s s') (hf : s.Follows plan m)
    (hsee : s.Foresees P t) (h : s.Converses P t told plan) : s'.Converses P t told plan := by
  obtain ⟨hc, hphase⟩ := h
  cases hm with
  | connecting hp hm => exact converses_connecting hm hc
  | connected hp hm => exact converses_connected hp hm hsee hc
  | @subscribeFailed due c' cause hp hd hf =>
    rw [hp] at hphase
    rcases hphase with hs | ⟨hs, -⟩ <;>
      exact converses_close (s := { s with course := c' }) (hc.adds_nil (finish_adds hf).1)
        (finish_speaks hf hs) (fun _ hms => hms.isOpen) _
  | @subscribed due c' count hp hd hf =>
    rw [hp] at hphase
    exact converses_polled
      (s := { s with
        course := c', worker := .running { limit := plan.config.prefetchCount.toNat } })
      (hc.adds_nil (finish_adds hf).1) (finish_speaks hf (hphase.subscribed hf)) _
  | @polled _ c₀ _ _ _ hp hr hm =>
    rw [hp] at hphase
    exact converses_poller (s := { s with course := c₀ }) hm (hc.raced hr)
      (speaks_raced hphase hr)
  | @abandoned a ending c' hp hw hr =>
    rw [hp] at hphase
    exact converses_close (s := { s with course := c', worker := .absent }) (hc.raced hr)
      (speaks_raced hphase hr) (fun _ hms => hms.isOpen) _
  | cancelled hp hd hf =>
    rw [hp] at hphase
    exact ⟨hc.adds_nil (finish_adds hf).1, finish_speaks hf hphase⟩
  | @cancelFailed outcome due c' cause hp hd hf =>
    rw [hp] at hphase
    have hspeaks : c'.world.Speaks c'.now _ := finish_speaks hf hphase
    exact ⟨hc.adds_nil (finish_adds hf).1, hspeaks⟩
  | unjoined hp hw =>
    rw [hp] at hphase
    exact converses_close hc hphase (fun _ hms => hms.isOpen) _
  | @joined outcome ending hp hw =>
    rw [hp] at hphase
    -- a line about the ending, and the close
    cases ending with
    | stopped =>
      exact converses_close (s := { s with worker := .absent }) hc hphase
        (fun _ hms => hms.isOpen) _
    | failed cause =>
      exact converses_close
        (s := { s with course := s.course.tell (.consumerFailed cause), worker := .absent }) hc
        hphase (fun _ hms => hms.isOpen) _
    | panicked text =>
      exact converses_close
        (s := { s with course := s.course.tell (.consumerBroke text), worker := .absent }) hc
        hphase (fun _ hms => hms.isOpen) _
  | @closed ending due hp hd =>
    have hproper := hc.adds_nil
      (finish_adds (P := P) (t := t) (c := s.course) (r := .close) rfl).1
    match ending with
    | .ok outcome => exact converses_report (s := { s with course := _ }) hproper outcome
    | .error cause =>
      rw [State.closed]
      split
      · exact ⟨hproper, trivial⟩
      · exact ⟨hproper, trivial⟩
  | consumer hu hw hm =>
    obtain ⟨hproper, hvoices⟩ := hphase.consumer hm hc (hf.phase_of_running hw hu)
    exact ⟨hproper, hvoices⟩
  | time hu hidle => exact converses_advance ⟨hc, hphase⟩ _

/-- **Whatever a run has tried was tried in order, and what was sent of it conforms.** -/
theorem run_converses (P : Peer σ) (t : Target) (told : σ → List (List Nat)) (plan : Plan)
    {server : σ} (htold : P.Records told → told server = []) (interruptAt : Option Nat) (now : Nat)
    (rejected : UInt64) (interrupted : Bool) (n : Nat) :
    (run (Client.environment P t) plan n (start (Client.environment P t) plan
      (.opening now { server, interruptAt } rejected interrupted))).Converses P t told plan := by
  have hproper : Proper P t plan.config.consumerTag told ({ server, interruptAt } : Client σ) :=
    ⟨List.forall_mem_nil _, fun hP =>
      ⟨by rw [htold hP]; exact .nil, fun h => by cases (htold hP).symm.trans h⟩⟩
  refine (run_of_move
    (P := fun s => (∃ m, s.Follows plan m) ∧ s.Foresees P t ∧ s.Converses P t told plan)
    (fun _ _ hm ⟨⟨m, hf⟩, hsee, h⟩ => ⟨hm.follows hf, hm.foresees hf hsee, hm.converses hf hsee h⟩)
    ⟨start_follows (tracks_opening _ _ _ _ _), ?_, ?_⟩ n).2.2
  · exact run_foresees P t plan now { server, interruptAt } rejected interrupted 0
  · cases hi : (Course.opening now { server, interruptAt } rejected interrupted :
      Course (Client σ)).interrupted with
    | true =>
      rw [start_of_interrupted hi]
      exact converses_giveUp (s := untouched plan _) hproper
    | false =>
      rw [start_of_not_interrupted hi]
      refine ⟨?_, trivial⟩
      show Proper P t _ told
        (((untouched plan _).course.begin (Client.environment P t) .establish).1).world
      rw [Course.begin_world]
      exact ⟨Client.establish_lines hproper.lines P _,
        fun hP => Client.establish_books hP (hproper.books hP) t _⟩

/-- **What a run sends.** Whatever the server does, whenever the interrupt comes and whatever is
looked at first, what is sent on each connection follows the pattern: the handshake; `channel.open`,
`basic.qos` with the prefetch limit, the declaration of the queue, the subscription, declarations
and rejections in any order, the cancellation, rejections, all of it cut off anywhere; and then the
closes of the channel and of the connection, or one of them, or none. Every declaration, on every
connection, is the one that the configuration gives. The handles of a connection may be dropped at
any time, as those of an attempt are that is given up: what they close keeps to the pattern as well.
Whatever is rejected on a connection was delivered on it, is not queued again, and is rejected no
more often than it was delivered, by any record that the server keeps of its deliveries;
`Peer.recording` is a server with one. -/
theorem run_conforms (P : Peer σ) (endpoint : Endpoint) (shown : String) (plan : Plan) (server : σ)
    (interruptAt : Option Nat) (now : Nat) (rejected : UInt64) (interrupted : Bool) (n : Nat) :
    let t := Target.ofConfig endpoint shown plan.config
    let E := Client.environment P t
    let s := run E plan n
      (start E plan (.opening now { server, interruptAt } rejected interrupted))
    let sent := s.course.world.sentBy s.course.now
    (∀ ms ∈ sent, Amqp.Conforms t plan.config.consumerTag ms ∧
      (∀ name options arguments, .declare name options arguments ∈ ms →
        Amqp.Method.declare name options arguments = .ofSpec (.ofConfig plan.config)) ∧
      ∀ closing, closing.Sublist (Amqp.parting ms) →
        Amqp.Ends t plan.config.consumerTag (ms ++ closing)) ∧
    ∀ told, P.Records told → told server = [] →
      List.Forall₂ Amqp.Returns (told s.course.world.server).reverse sent := by
  intro t E s sent
  have hconforms : ∀ ms ∈ sent, Amqp.Conforms t plan.config.consumerTag ms := by
    intro ms hms
    obtain ⟨trials, hmem, rfl⟩ := List.mem_map.mp hms
    -- no server is needed to see the pattern
    have hlines := (run_converses P t (fun _ => []) plan (fun _ => rfl) interruptAt now
      rejected interrupted n).proper.lines trials (List.mem_reverse.mp hmem)
    exact hlines.2.cut_off (Amqp.sentBy_isPrefix hlines.1 s.course.now)
  refine ⟨fun ms hms => ⟨hconforms ms hms, fun _ _ _ => (hconforms ms hms).declare_eq,
    fun _ => (hconforms ms hms).part⟩, fun told hP htold => ?_⟩
  have hproper := (run_converses P t told plan (fun _ => htold) interruptAt now rejected interrupted
    n).proper
  have hlines := (List.forall₂_and_left _ _).mpr ⟨hproper.lines, (hproper.books hP).lines⟩
  refine List.forall₂_map_right_iff.mpr (List.forall₂_reverse_iff.mpr (.flip ?_))
  refine hlines.imp fun trials tags ⟨⟨horder, hms⟩, hcount⟩ => ?_
  have hcut := Amqp.sentBy_isPrefix horder s.course.now
  exact (hms.cut_off hcut).returns fun k =>
    Nat.le_trans (hcut.sublist.count_le _) (hcount k)

end Drain

/-- A server that is lost at the second rejection. -/
def Amqp.Server.losing : Amqp.Server where
  messages := 2
  lines := [{ faults := [{ method := "basic.reject", nth := 2, action := .cut .lost }] }]

/-- A run against a scripted server, with a record of what the server has delivered. -/
def Amqp.Server.recorded (script : Amqp.Server) (n : Nat) :
    Drain.State (Amqp.Client (Amqp.Server.State × List (List Nat))) :=
  let E := Amqp.Client.environment script.peer.recording
    (.ofConfig .sample "localhost" Drain.Plan.sample.config)
  Drain.run E .sample n
    (Drain.start E .sample (.opening 0 { server := (script.opening, []) } 0 false))

/-- The delivery that is rejected again on the second connection was delivered again there. -/
theorem Drain.run_conforms_reconnected :
    let s := Amqp.Server.losing.recorded 22
    let sent := s.course.world.sentBy s.course.now
    s.course.world.server.2 = [[1], [1, 2]] ∧ List.Forall₂ Amqp.Returns [[1, 2], [1]] sent ∧
    sent.map (fun ms => (ms.drop 7).map Amqp.Method.name) =
      [["basic.reject", "basic.reject"],
       ["basic.reject", "queue.declare", "basic.cancel", "channel.close", "connection.close"]] := by
  have htold : (Amqp.Server.losing.recorded 22).course.world.server.2 = [[1], [1, 2]] := by
    decide +kernel
  obtain ⟨-, hreturns⟩ := Drain.run_conforms Amqp.Server.losing.peer.recording .sample "localhost"
    .sample (Amqp.Server.losing.opening, []) none 0 0 false 22
  have hrecord := hreturns Prod.snd (Amqp.recording_records _) rfl
  refine ⟨htold, ?_, by decide +kernel⟩
  rw [show [[1, 2], [1]] = (Amqp.Server.losing.recorded 22).course.world.server.2.reverse by
    rw [htold]; rfl]
  exact hrecord

end QueueDrain
