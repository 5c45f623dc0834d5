import QueueDrain.Proofs.Broker
import QueueDrain.Proofs.Orderly
import QueueDrain.Proofs.Sessions

/-!
# After an interrupt

The operator's interrupt is looked at in several places, and between them a run goes on for a while:
an answer is waited for, rejections in flight are settled, a session is closed. From its instant on
nothing new begins all the same. No session is attempted and none is subscribed to, whichever of two
things that are ready is looked at first; a depth reading that begins at that very instant is the
last one; and the run ends without an error that another attempt would have mended.

The last two rest on the clock and not on the trace alone: an interrupted poller does not wait, so
no time passes until its interval is over, and an interval that begins later is not over at once.

## Main definitions

* `Concludes` — what a run may come to that was interrupted
* `SawEmpty`, `FirstFailed` — what must have happened for two of these
* `Drain.State.Timely` — no depth reading begins later than an interrupt, and none is about to
* `Drain.Phase.Excuses` — why a run may be over with an error

## Main results

* `Drain.Move.timely`, `Drain.Move.excuses`, `Drain.run_timely` — every move keeps them, and a run
* `Drain.run_interrupted` — what happens after an interrupt
-/

namespace QueueDrain

open Entry (session openings)

/-- An attempt at a session begins. -/
def Event.isAttempt : Event → Bool
  | .began .establish => true
  | _ => false

/-- Attempts at a session. -/
def Entry.attempts (trace : List Entry) : Nat := trace.countP fun e => e.event.isAttempt

open Entry (attempts)

@[simp] theorem Entry.attempts_cons (e : Entry) (earlier : List Entry) :
    attempts (e :: earlier) = attempts earlier + if e.event.isAttempt then 1 else 0 :=
  List.countP_cons

/-- Asides are neither attempts nor openings. -/
theorem Entry.count_asides {asides : List Entry} (h : ∀ e ∈ asides, e.event.isAside = true)
    (earlier : List Entry) :
    attempts (asides ++ earlier) = attempts earlier ∧
      openings (asides ++ earlier) = openings earlier := by
  induction asides with
  | nil => exact ⟨rfl, rfl⟩
  | cons e asides ih =>
    obtain ⟨he, hrest⟩ := List.forall_mem_cons.mp h
    obtain ⟨ihattempts, ihopenings⟩ := ih hrest
    have hneither : e.event.isAttempt = false ∧ e.event.isOpening = false := by
      cases hevent : e.event <;>
        simp_all [Event.isAside, Event.isAttempt, Event.isOpening]
    rw [List.cons_append, attempts_cons, openings_cons, ihattempts, ihopenings, hneither.1,
      hneither.2]
    exact ⟨rfl, rfl⟩

/-- An empty queue was seen, by a reading that began at some instant at the latest. -/
def SawEmpty (trace : List Entry) (t : Nat) : Prop :=
  ∃ recent zero since reading before,
    trace = recent ++ zero :: (since ++ reading :: before) ∧ zero.event = .answered .depth 0 ∧
      reading.event = .began .depth ∧ reading.time ≤ t ∧ ∀ e ∈ since, ∀ r, e.event ≠ .began r

/-- The very first attempt at a session failed at some instant, and there was no further one. -/
def FirstFailed (trace : List Entry) (t : Nat) (cause : DrainError) : Prop :=
  attempts trace = 1 ∧ openings trace = 0 ∧ ⟨t, .failed .establish cause⟩ ∈ trace

/-- What a run may come to that was interrupted at some instant. -/
def Concludes (trace : List Entry) (t : Nat) : Except DrainError Drain.Summary → Prop
  | .ok summary =>
    summary.outcome = .interrupted ∨ (summary.outcome = .drained ∧ SawEmpty trace t)
  | .error cause => cause.isTransient = false ∨ FirstFailed trace t cause

/-! ### What the order of events tells -/

namespace Orderly

variable {tag : String} {trace later earlier : List Entry} {i : Entry}

/-- Behind an interrupt no session is attempted and none is subscribed to. -/
theorem not_began (h : Orderly tag (later ++ i :: earlier)) (hi : i.event = .interrupted)
    {e : Entry} (he : e ∈ later) :
    e.event ≠ .began .establish ∧ ∀ t, e.event ≠ .began (.subscribe t) := by
  obtain ⟨recent, between, rfl⟩ := List.append_of_mem he
  rw [List.append_assoc, List.cons_append] at h
  have hnow : (Conduct.of (between ++ i :: earlier)).interrupted = true :=
    (interrupted_iff _).mpr ⟨i, by simp, hi⟩
  have hp := h.permits
  refine ⟨fun hbegan => ?_, fun t hbegan => ?_⟩
  · rw [hbegan] at hp
    exact absurd (hnow.symm.trans hp.2.1) (by simp)
  · rw [hbegan] at hp
    exact absurd (hnow.symm.trans hp.2.2) (by simp)

/-- What is taken or rejected behind an interrupt is of a session that was subscribed to before. -/
theorem subscribed_before (h : Orderly tag (later ++ i :: earlier)) (hi : i.event = .interrupted)
    {recent between : List Entry} {e : Entry} (hlater : later = recent ++ e :: between)
    (he : e.event.isDelivery = true ∨ e.event.isRejection = true) :
    .began (.subscribe tag) ∈ session earlier ∧ ∀ e ∈ between, e.event.isOpening = false := by
  subst hlater
  rw [List.append_assoc, List.cons_append] at h
  have hserving : (Conduct.of (between ++ i :: earlier)).standing.isServing = true := by
    have hp := h.permits
    cases hevent : e.event <;>
      simp_all [Event.isDelivery, Event.isRejection, Conduct.Permits, Conduct.IsConsuming]
  have ho : Orderly tag (between ++ i :: earlier) := h.of_append.2
  rcases Entry.mem_session_append (ho.recalls.asked (.inl hserving)) with
    ⟨e, he, hbegan⟩ | ⟨hmem, hall⟩
  · exact absurd hbegan ((ho.not_began hi he).2 tag)
  · rw [Entry.session, hi] at hmem
    exact ⟨by simpa [Event.isOpening] using hmem, hall⟩

/-- An empty queue was seen by a reading that began at the latest when the last one did. -/
theorem sawEmpty (h : Orderly tag trace) (he : (Conduct.of trace).emptied = true) {t : Nat}
    (ht : ∀ e ∈ trace, e.event = .began .depth → e.time ≤ t) : SawEmpty trace t := by
  obtain ⟨zero, hzero, hevent⟩ := Entry.mem_of_mem_session (h.emptied he).2
  obtain ⟨recent, asked, rfl⟩ := List.append_of_mem hzero
  have hreading : (Conduct.of asked).standing = .reading := by
    have hp := h.permits
    rwa [hevent] at hp
  have hpending : Entry.pending asked = some .depth := by
    rw [(h.of_append.2 : Orderly tag asked).pending_eq, hreading]; rfl
  obtain ⟨since, began, before, rfl, hsince⟩ := Entry.began_of_pending hpending
  exact ⟨recent, zero, since, _, before, rfl, hevent, rfl, ht _ (by simp) rfl, hsince⟩

end Orderly

/-- A course is interrupted if and only if its trace says so. -/
theorem Course.Tracks.interrupted_iff {ω : Type} {tag : String} {c : Course ω} {m : Conduct}
    (h : c.Tracks tag m) : c.interrupted = true ↔ ∃ e ∈ c.trace, e.event = .interrupted := by
  rw [h.interrupted, ← h.conduct, QueueDrain.interrupted_iff]

namespace Drain

variable {ω : Type} {E : Environment ω} {plan : Plan} {s s' : State ω} {m : Conduct}

open Course (Extends Settles)

/-! ### What the clock tells -/

/-- No depth reading begins later than an interrupt, and none is about to: a wait that is over, or
ends at this instant, began before the interrupt or comes with it. -/
structure State.Timely (plan : Plan) (s : State ω) : Prop where
  interval : s.poller.interval = plan.config.pollInterval
  past : ∀ e ∈ s.course.trace, e.time ≤ s.course.now
  readings : ∀ i ∈ s.course.trace, i.event = .interrupted →
    ∀ e ∈ s.course.trace, e.event = .began .depth → e.time ≤ i.time
  waiting : ∀ wake, s.phase = .polling (.waiting wake) →
    ∀ i ∈ s.course.trace, i.event = .interrupted → i.time = s.course.now ∨ s.course.now < wake

/-- An interrupted run does not wait for the end of an interval. -/
theorem coordinate_ne_none_of_waiting {wake : Nat} (hp : s.phase = .polling (.waiting wake))
    (hi : s.course.interrupted = true) : coordinate E plan s ≠ none := by
  rw [coordinate, hp]
  show coordinatePolling E plan s (.waiting wake) ≠ none
  rw [coordinatePolling]
  split
  next => exact Option.some_ne_none _
  next =>
    dsimp only
    split
    · split <;> exact Option.some_ne_none _
    · exact Option.some_ne_none _
  next => exact Option.some_ne_none _
  next hnone _ => exact absurd hnone (Poller.step_waiting_ne_none hi)

/-! ### The interval -/

/-- A poller keeps its interval. -/
theorem Move.interval_eq (h : Move E plan s s') : s'.poller.interval = s.poller.interval := by
  cases h with
  | connected _ _ => rw [established_poller]
  | subscribed _ _ _ => rw [polled_poller]
  | polled _ _ hm => rw [polled_poller]; cases hm <;> rfl
  | closed _ _ => rw [closed_poller]
  | _ => rfl

/-! ### Phases -/

/-- A phase that neither waits for the end of an interval nor needs an excuse. -/
def Phase.IsPlain : Phase → Prop
  | .polling (.waiting _) | .connecting (.establishing none _) => False
  | .finished (.error cause) => cause.isTransient = false
  | _ => True

theorem giveUp_plain (s : State ω) : (s.giveUp plan).phase.IsPlain := by
  rw [State.giveUp]
  split <;> trivial

theorem openSession_plain (s : State ω) : (s.openSession E plan).phase.IsPlain := by
  rw [State.openSession]
  split <;> trivial

theorem closed_plain (s : State ω) (ending : Except DrainError Outcome) :
    (s.closed plan ending).phase.IsPlain := by
  match ending with
  | .ok _ => trivial
  | .error cause =>
    rw [State.closed]
    split
    next => trivial
    next hlast => exact Bool.eq_false_iff.mpr hlast

theorem Phase.IsPlain.ne_waiting {phase : Phase} (h : phase.IsPlain) (wake : Nat) :
    phase ≠ .polling (.waiting wake) := by
  rintro rfl
  exact h

/-- A poller that is entered and waits begins its wait now. -/
theorem enter_waiting {wake : Nat} (h : (s.polled E plan (s.poller.enter s.course)).phase
    = .polling (.waiting wake)) :
    (s.polled E plan (s.poller.enter s.course)).course.now + s.poller.interval.millisCeil
      = wake := by
  rw [Poller.enter] at h ⊢
  split at h
  next => cases h
  next hd => cases h; rw [if_neg hd]; rfl

/-- A wait goes on, or begins now. -/
theorem Move.waiting_or (h : Move E plan s s') {wake : Nat}
    (hp' : s'.phase = .polling (.waiting wake)) :
    s.phase = .polling (.waiting wake) ∨
      s'.course.now + s.poller.interval.millisCeil = wake := by
  cases h with
  | @connected _ _ result hp hm =>
    match result with
    | .error _ => cases hp'
    | .ok none => exact absurd hp' ((giveUp_plain _).ne_waiting wake)
    | .ok (some _) => exact absurd hp' ((openSession_plain _).ne_waiting wake)
  | subscribed hp hd hf =>
    exact .inr (enter_waiting (s := { s with course := _, worker := .running _ }) hp')
  | polled hp hr hm =>
    cases hm with
    | interrupted _ _ => cases hp'
    | began _ _ => cases hp'
    | @recorded _ _ count _ _ =>
      exact .inr (enter_waiting
        (s := { s with
          course := _
          poller := s.poller.record count }) hp')
    | failed _ _ => cases hp'
  | joined hp hw => cases hp'
  | closed hp hd => exact absurd hp' ((closed_plain _ _).ne_waiting wake)
  | consumer hu hw hm => exact .inl hp'
  | time hu hidle => exact .inl hp'
  | _ => cases hp'

/-- New entries keep readings and interrupts in order if a reading begins only where time stands
still since every interrupt. -/
theorem State.Timely.readings_of_extends (h : s.Timely plan) {c' : Course ω} {new : List Entry}
    (hext : Extends s.course c' new)
    (hnew : ∀ e ∈ new, e.event = .began .depth → c'.now = s.course.now ∧
      ∀ i ∈ s.course.trace, i.event = .interrupted → i.time = s.course.now) :
    ∀ i ∈ c'.trace, i.event = .interrupted →
      ∀ e ∈ c'.trace, e.event = .began .depth → e.time ≤ i.time := by
  intro i hi hint e he hbegan
  rw [hext.trace] at hi he
  rcases List.mem_append.mp he with he | he
  · obtain ⟨hstill, hold⟩ := hnew e he hbegan
    have hlast : e.time ≤ s.course.now := hstill ▸ (hext.time e he).2
    rcases List.mem_append.mp hi with hi | hi
    · exact Nat.le_trans hlast (hext.time i hi).1
    · rw [hold i hi hint]; exact hlast
  · rcases List.mem_append.mp hi with hi | hi
    · exact Nat.le_trans (h.past e he) (hext.time i hi).1
    · exact h.readings i hi hint e he hbegan

/-- **No depth reading begins later than an interrupt**, as far as one move goes. -/
theorem Move.timely (hm : Move E plan s s') (hpos : 0 < plan.config.pollInterval.millisCeil)
    (ht : s.course.Tracks plan.config.consumerTag m) (h : s.Timely plan) : s'.Timely plan := by
  have hinterval := hm.interval_eq.trans h.interval
  rcases hm.calmly_or with hcalm | ⟨wake, c, hp, hw, hcalm, hread, -, hp'⟩ | ⟨hidle, rfl⟩
  · obtain ⟨new, hnew⟩ := hcalm.settles
    refine ⟨hinterval, hnew.time_le h.past, h.readings_of_extends hnew.toExtends
      fun e he hbegan => absurd hbegan (hnew.not_began e he), fun wake hp' i hi hint => ?_⟩
    rcases hm.waiting_or hp' with hp | hwake
    · rw [hnew.trace] at hi
      rw [hnew.now_eq]
      rcases List.mem_append.mp hi with hi | hi
      · exact .inl (hnew.time_eq hi)
      · exact h.waiting wake hp i hi hint
    · rw [h.interval] at hwake
      exact .inr (by omega)
  · -- the interval is over, so an interrupt that came before came at this instant
    have hold : ∀ i ∈ s.course.trace, i.event = .interrupted → i.time = s.course.now :=
      fun i hi hint => (h.waiting wake hp i hi hint).resolve_right (by omega)
    obtain ⟨new, hnew⟩ := hcalm.settles
    obtain ⟨asides, hext, hnow, -⟩ := Course.extends_read (E := E) c
    rw [← hread] at hext hnow
    have hall := hnew.toExtends.trans hext
    refine ⟨hinterval, hall.time_le h.past, h.readings_of_extends hall
      fun e he hbegan => ⟨hnow.trans hnew.now_eq, hold⟩, fun wake' hwait => ?_⟩
    rw [hp'] at hwait
    cases hwait
  · obtain ⟨asides, hext, hall⟩ := Course.extends_advance (E := E) s.course (wakes s)
    refine ⟨hinterval, hext.time_le h.past, h.readings_of_extends hext fun e he hbegan => ?_,
      fun wake hp i hi hint => ?_⟩
    · have haside := (hall e he).1
      rw [hbegan] at haside
      cases haside
    · -- time passes only while nobody has interrupted
      have hi : i ∈ (s.course.advance E (wakes s)).trace := hi
      rw [hext.trace] at hi
      rcases List.mem_append.mp hi with hi | hi
      · exact .inl (hall i hi).2
      · exact absurd hidle
          (coordinate_ne_none_of_waiting hp (ht.interrupted_iff.mpr ⟨i, hi, hint⟩))

/-! ### How a run may fail -/

/-- Why a run may be over with an error: no further attempt is worth while, or the run has made only
one, which failed before any interrupt or together with it. -/
def Phase.Excuses (trace : List Entry) : Phase → Prop
  | .connecting (.establishing none _) => attempts trace = 1 ∧ openings trace = 0
  | .finished (.error cause) =>
    cause.isTransient = false ∨
      ∃ t, FirstFailed trace t cause ∧ ∀ i ∈ trace, i.event = .interrupted → i.time = t
  | _ => True

/-- While a run goes on, what excuses it changes with its attempts only. -/
theorem Phase.Excuses.mono {phase : Phase} {trace trace' : List Entry} (h : phase.Excuses trace)
    (hu : ∀ result, phase ≠ .finished result)
    (hfirst : ∀ due, phase = .connecting (.establishing none due) →
      attempts trace' = attempts trace ∧ openings trace' = openings trace) :
    phase.Excuses trace' := by
  match phase with
  | .connecting (.establishing none due) =>
    obtain ⟨hattempts, hopenings⟩ := hfirst due rfl
    exact ⟨hattempts.trans h.1, hopenings.trans h.2⟩
  | .finished (.error cause) => exact absurd rfl (hu _)
  | .connecting (.establishing (some _) _) | .connecting (.backingOff _ _) | .subscribing _
  | .polling _ | .cancelling _ _ | .joining _ | .closing _ _ | .finished (.ok _) => trivial

/-- A plain phase is either no failure or excused by its own error. -/
theorem Phase.IsPlain.excuses {phase : Phase} (h : phase.IsPlain) (trace : List Entry) :
    phase.Excuses trace := by
  match phase with
  | .connecting (.establishing none _) => exact absurd h id
  | .finished (.error _) => exact .inl h
  | .connecting (.establishing (some _) _) | .connecting (.backingOff _ _) | .subscribing _
  | .polling _ | .cancelling _ _ | .joining _ | .closing _ _ | .finished (.ok _) => trivial

theorem polled_excuses (s : State ω) (stage : Stage Poller.Activity Poller.Result)
    (trace : List Entry) : (s.polled E plan stage).phase.Excuses trace := by
  match stage with
  | .ongoing _ | .over (.ok _) | .over (.error _) => trivial

theorem established_excuses {a : Connect.Activity} {c' : Course ω} {result : Connect.Result}
    (hp : s.phase = .connecting a) (ht : s.course.Tracks plan.config.consumerTag m)
    (h : s.phase.Excuses s.course.trace)
    (hm : Connect.Move E plan.config.reconnectPolicy plan.endpoint s.course a c' (.over result)) :
    ({ s with course := c' }.established E plan result).phase.Excuses
      ({ s with course := c' }.established E plan result).course.trace := by
  cases hm with
  | overtaken hi hr => exact (giveUp_plain _).excuses _
  | opened hi hf => exact (openSession_plain _).excuses _
  | reopened hi hf => exact (openSession_plain _).excuses _
  | @failed attempt _ _ cause hi hf hlast =>
    rcases hlast with rfl | hlast
    · -- the first attempt fails, and an interrupt can only have come with its answer
      rw [hp] at h
      obtain ⟨asides, htrace, hall⟩ := Course.finish_trace hf
      obtain ⟨hattempts, hopenings⟩ :=
        Entry.count_asides (fun e he => (hall e he).2) s.course.trace
      refine .inr ⟨s.course.now, ⟨?_, ?_, ?_⟩, fun i hmem hint => ?_⟩
      · show attempts c'.trace = 1
        rw [htrace, Entry.attempts_cons, hattempts, h.1]; rfl
      · show openings c'.trace = 0
        rw [htrace, Entry.openings_cons, hopenings, h.2]; rfl
      · show _ ∈ c'.trace
        rw [htrace]; exact List.mem_cons_self
      · have hmem : i ∈ c'.trace := hmem
        rw [htrace] at hmem
        rcases List.mem_cons.mp hmem with rfl | hmem
        · rfl
        · rcases List.mem_append.mp hmem with hmem | hmem
          · exact (hall i hmem).1
          · have hbefore := ht.interrupted_iff.mpr ⟨i, hmem, hint⟩
            exact absurd (hi.symm.trans hbefore) (by simp)
    · exact .inl hlast

/-- **A run fails for a reason**, as far as one move goes. -/
theorem Move.excuses (hm : Move E plan s s') (hf : s.Follows plan m)
    (h : s.phase.Excuses s.course.trace) : s'.phase.Excuses s'.course.trace := by
  cases hm with
  | connecting hp hm =>
    cases hm with
    | began hw hi => trivial
    | retried hi hf ht => trivial
  | connected hp hm => exact established_excuses hp hf.course h hm
  | subscribeFailed hp hd hf => trivial
  | subscribed hp hd hf => exact polled_excuses _ _ _
  | polled hp hr hm => exact polled_excuses _ _ _
  | abandoned hp hw hr => trivial
  | cancelled hp hd hf => trivial
  | cancelFailed hp hd hf => trivial
  | unjoined hp hw => trivial
  | joined hp hw => trivial
  | closed hp hd => exact (closed_plain _ _).excuses _
  | consumer hu hw hm =>
    refine h.mono (fun result hp => by simp [State.result?, hp] at hu) fun due hp => ?_
    -- there is no consumer before the first session
    have hphase := hf.phase
    rw [hp] at hphase
    have habsent := hf.worker.eq_absent (by rw [hphase.1]; rfl)
    rw [hw] at habsent
    cases habsent
  | time hu hidle =>
    refine h.mono (fun result hp => by simp [State.result?, hp] at hu) fun due hp => ?_
    obtain ⟨asides, hext, hall⟩ := Course.extends_advance (E := E) s.course (wakes s)
    show attempts (s.course.advance E (wakes s)).trace = _ ∧
      openings (s.course.advance E (wakes s)).trace = _
    rw [hext.trace]
    exact Entry.count_asides (fun e he => (hall e he).1) _

/-! ### Every run -/

theorem start_timely {c : Course ω} (hc : ∀ e ∈ c.trace, e = ⟨c.now, .interrupted⟩) :
    (start E plan c).Timely plan := by
  obtain ⟨new, hnew⟩ := (start_calmly (E := E) plan c).settles
  have hphase : ∀ wake, (start E plan c).phase ≠ .polling (.waiting wake) := by
    intro wake
    cases hi : c.interrupted with
    | true => rw [start_of_interrupted hi]; exact (giveUp_plain _).ne_waiting wake
    | false => rw [start_of_not_interrupted hi]; exact nofun
  refine ⟨?_, hnew.time_le fun e he => by simp [hc e he], fun i _ _ e he hbegan => ?_,
    fun wake hp => absurd hp (hphase _)⟩
  · cases hi : c.interrupted with
    | true => rw [start_of_interrupted hi, giveUp_poller]; rfl
    | false => rw [start_of_not_interrupted hi]; rfl
  · rw [hnew.trace] at he
    rcases List.mem_append.mp he with he | he
    · exact absurd hbegan (hnew.not_began e he)
    · rw [hc e he] at hbegan
      cases hbegan

theorem start_excuses {c : Course ω} (hc : ∀ e ∈ c.trace, e = ⟨c.now, .interrupted⟩) :
    (start E plan c).phase.Excuses (start E plan c).course.trace := by
  have hnone : attempts c.trace = 0 ∧ openings c.trace = 0 := by
    constructor <;> exact List.countP_eq_zero.mpr fun e he => by rw [hc e he]; exact nofun
  cases hi : c.interrupted with
  | true => rw [start_of_interrupted hi]; exact (giveUp_plain _).excuses _
  | false =>
    rw [start_of_not_interrupted hi]
    obtain ⟨asides, htrace, hall⟩ :=
      Course.begin_trace (E := E) (untouched plan c).course .establish
    obtain ⟨hattempts, hopenings⟩ := Entry.count_asides (fun e he => (hall e he).2)
      (⟨c.now, .began .establish⟩ :: (untouched plan c).course.trace)
    show attempts ((untouched plan c).course.begin E .establish).1.trace = 1 ∧
      openings ((untouched plan c).course.begin E .establish).1.trace = 0
    rw [htrace]
    refine ⟨hattempts.trans ?_, hopenings.trans ?_⟩
    · simp [untouched, Event.isAttempt, hnone.1]
    · simp [untouched, Event.isOpening, hnone.2]

theorem run_timely (E : Environment ω) (hpoll : plan.config.pollInterval.isZero = false) (now : Nat)
    (world : ω) (rejected : UInt64) (interrupted : Bool) (n : Nat) :
    let s := run E plan n (start E plan (.opening now world rejected interrupted))
    s.Timely plan ∧ s.phase.Excuses s.course.trace := by
  intro s
  have hopening : ∀ e ∈ (Course.opening now world rejected interrupted).trace,
      e = ⟨now, .interrupted⟩ := by
    cases interrupted <;> simp [Course.opening]
  -- both rest on the trace accounting for the state, so the three are carried together
  have hwhole : (∃ m, s.Follows plan m) ∧ s.Timely plan ∧ s.phase.Excuses s.course.trace :=
    run_of_move (E := E)
      (P := fun s => (∃ m, s.Follows plan m) ∧ s.Timely plan ∧ s.phase.Excuses s.course.trace)
      (fun _ _ hm ⟨⟨_, hf⟩, ht, he⟩ =>
        ⟨hm.follows hf, hm.timely (Duration.millisCeil_pos hpoll) hf.course ht, hm.excuses hf he⟩)
      ⟨start_follows (tracks_opening _ _ _ _ _), start_timely hopening, start_excuses hopening⟩ n
  exact hwhole.2

/-- What a run comes to in which there was an interrupt. -/
theorem State.Timely.concludes (h : s.Timely plan) (hf : s.Follows plan m)
    (he : s.phase.Excuses s.course.trace) {i : Entry} (hmem : i ∈ s.course.trace)
    (hi : i.event = .interrupted) {result : Except DrainError Summary}
    (hresult : s.result? = some result) : Concludes s.course.trace i.time result := by
  have hphase := hf.phase
  rw [phase_of_result? hresult] at hphase he
  cases result with
  | ok summary =>
    obtain ⟨-, hexplains, -⟩ := hphase
    cases houtcome : summary.outcome with
    | interrupted => exact .inl houtcome
    | drained =>
      rw [houtcome, ← hf.course.conduct] at hexplains
      exact .inr ⟨houtcome, hf.course.orderly.sawEmpty hexplains (h.readings i hmem hi)⟩
  | error cause =>
    refine he.imp_right fun ⟨t, hfailed, hat⟩ => ?_
    rw [hat i hmem hi]
    exact hfailed

/-- **Interrupt safety.** Behind an interrupt no session is attempted and none is subscribed to, at
no later instant a depth reading begins, and what is taken or rejected is of a session that was
subscribed to before. A run that returns does so because it was interrupted, because of an empty
queue that was asked about in time, or with an error that no further attempt would mend, or with
the one of its very first attempt, which failed at that instant. -/
theorem run_interrupted (E : Environment ω) (plan : Plan)
    (hpoll : plan.config.pollInterval.isZero = false) (now : Nat) (world : ω) (rejected : UInt64)
    (interrupted : Bool) (n : Nat) :
    let s := run E plan n (start E plan (.opening now world rejected interrupted))
    ∀ later i earlier, s.course.trace = later ++ i :: earlier → i.event = .interrupted →
      (∀ e ∈ later, e.event ≠ .began .establish ∧ ∀ t, e.event ≠ .began (.subscribe t)) ∧
      (∀ e ∈ s.course.trace, e.event = .began .depth → e.time ≤ i.time) ∧
      (∀ recent e between, later = recent ++ e :: between →
        e.event.isDelivery = true ∨ e.event.isRejection = true →
        .began (.subscribe plan.config.consumerTag) ∈ session earlier ∧
          ∀ e ∈ between, e.event.isOpening = false) ∧
      ∀ result, s.result? = some result → Concludes s.course.trace i.time result := by
  intro s later i earlier htrace hi
  have hfollows : s.Follows plan (Conduct.of s.course.trace) :=
    run_follows E plan now world rejected interrupted n
  obtain ⟨htimely, hexcuses⟩ : s.Timely plan ∧ s.phase.Excuses s.course.trace :=
    run_timely E hpoll now world rejected interrupted n
  have hmem : i ∈ s.course.trace := by rw [htrace]; simp
  have horderly : QueueDrain.Orderly plan.config.consumerTag (later ++ i :: earlier) :=
    htrace ▸ hfollows.course.orderly
  refine ⟨?_, htimely.readings i hmem hi, ?_, ?_⟩
  · intro e he
    exact horderly.not_began hi he
  · intro recent e between hlater he
    exact horderly.subscribed_before hi hlater he
  · intro result hresult
    exact htimely.concludes hfollows hexcuses hmem hi hresult

end Drain

/-- A message whose rejection is in flight when the interrupt comes with the first reading. -/
def Scenario.lateInterrupt : Scenario where
  messages := 1
  latencies := [6000]
  sessions := [{ polls := [{ delay := 10, interrupts := true }] }]

/-- An interrupt that comes while the queue is read empty: what is in flight is still rejected, and
the run reports the empty queue. -/
theorem Drain.run_interrupted_late :
    let s := Scenario.lateInterrupt.runs .sample 13
    let trace := s.course.trace
    (∀ e ∈ trace.take 10,
      e.event ≠ .began .establish ∧ ∀ t, e.event ≠ .began (.subscribe t)) ∧
    (∀ e ∈ trace, e.event = .began .depth → e.time ≤ 5010) ∧
    .began (.subscribe "jobs_rejector") ∈ session (trace.drop 11) ∧
    Concludes trace 5010 (.ok
      { queue := "jobs", endpoint := "amqp://localhost:5672", outcome := .drained, rejected := 1,
        polls := 1, reconnects := 0, lastMessageCount := some 0 }) := by
  intro s trace
  have hsplit : trace = trace.take 10 ++ ⟨5010, .interrupted⟩ :: trace.drop 11 := rfl
  have hrejected : trace.take 10 = trace.take 4 ++ ⟨6000, .rejected 1⟩ :: (trace.take 10).drop 5 :=
    rfl
  obtain ⟨hbegan, hreadings, hsubscribed, hresult⟩ :=
    Drain.run_interrupted Scenario.lateInterrupt.environment .sample (by decide) 0
      Scenario.lateInterrupt.opening 0 false 13 _ _ _ hsplit rfl
  exact ⟨hbegan, hreadings, (hsubscribed _ _ _ hrejected (.inr rfl)).1, hresult _ rfl⟩

end QueueDrain
