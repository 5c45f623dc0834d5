import QueueDrain.Proofs.Backpressure
import QueueDrain.Proofs.Faultless
import QueueDrain.Proofs.Interrupt
import QueueDrain.Proofs.Readings

/-!
# The way of a run in which nothing fails

Where nothing fails, nothing arrives and nobody interrupts, the coordinator has one way to go: it
establishes one session, subscribes, reads the depth until it is zero, cancels, awaits the consumer
and closes. The phases on this way are spelled out here, with what the consumer is at and with the
requests that have been made up to each of them.

## Main definitions

* `Consumer.Steady` — a consumer that has something to wait for
* `Drain.Phase.Suits`, `Drain.Phase.asked` — a phase on the one way there is, and its requests
* `Drain.State.Smooth` — a run on this way
* `Drain.State.Thrives` — all that is known of such a run

## Main results

* `Drain.Move.smooth` — a run in which nothing fails keeps to this way
* `Drain.Move.thrives`, `Drain.run_thrives` — and its trace accounts for its ledger
-/

namespace QueueDrain

open Entry (openings requests proceedings readings)

/-- Something failed, or the stream was ended by the broker. -/
def Event.isFault : Event → Bool
  | .failed _ _ | .rejectFailed _ _ | .rejectPanicked _ | .streamEnded | .streamFailed _
  | .streamPanicked _ => true
  | _ => false

theorem Event.isFault_of_isMishap {e : Event} (h : e.isMishap = true) : e.isFault = true := by
  cases e with
  | failed r _ => rfl
  | _ => first | rfl | cases h

theorem Event.plain_of_isConsumption {e : Event} (h : e.isConsumption = true) :
    e.request? = none ∧ e.isOpening = false := by
  cases e <;> simp_all [isConsumption, request?, isOpening]

variable {ω : Type} {E : Environment ω} {B : Broker E}

/-! ### A steady consumer -/

/-- Every rejection in flight ends at some time, and only a consumer that may ask its stream waits
for it. -/
structure Consumer.Steady (k : Consumer) : Prop where
  due : ∀ r ∈ k.inFlight, r.due ≠ none
  wake : k.wake ≠ none → k.streamOpen = true ∧ k.hasRoom = true

namespace Consumer

variable {k : Consumer}

/-- A consumer that has taken nothing. -/
theorem steady_of_nil (h : k.inFlight = []) (hw : k.wake = none) : k.Steady where
  due := by simp [h]
  wake hne := absurd hw hne

/-- With fewer rejections in flight there is as much room. -/
theorem hasRoom_erase (h : k.hasRoom = true) (r : Rejection) :
    ({ k with inFlight := k.inFlight.erase r } : Consumer).hasRoom = true := by
  have hle := List.length_erase_le (a := r) (l := k.inFlight)
  rw [hasRoom, Bool.or_eq_true, decide_eq_true_eq] at h ⊢
  exact h.imp_right fun hlt => Nat.lt_of_le_of_lt hle hlt

theorem Steady.erase (h : k.Steady) (r : Rejection) :
    ({ k with inFlight := k.inFlight.erase r } : Consumer).Steady where
  due r' hr' := h.due r' (List.mem_of_mem_erase hr')
  wake hne := ⟨(h.wake hne).1, hasRoom_erase (h.wake hne).2 r⟩

/-- A delivery that is rejected from now on. -/
theorem Steady.take (h : k.Steady) {r : Rejection} (hr : r.due ≠ none) :
    ({ k with inFlight := k.inFlight ++ [r], wake := none } : Consumer).Steady where
  due r' hr' := by
    rcases List.mem_append.mp hr' with hr' | hr'
    · exact h.due r' hr'
    · obtain rfl := List.mem_singleton.mp hr'
      exact hr
  wake hne := absurd rfl hne

end Consumer

namespace Drain

variable {plan : Plan} {s s' : State ω} {m : Conduct} {F : B.Faultless} {l l' : Ledger}
  {b b' : Bool} {tag : String}

/-! ### The one way there is -/

/-- The requests up to the end of a number of depth readings, latest first. -/
def asked (tag : String) (polls : Nat) : List Request :=
  List.replicate polls .depth ++ [.subscribe tag, .establish]

/-- The requests up to a phase, latest first, where nothing fails. -/
def Phase.asked (tag : String) (polls : Nat) : Phase → List Request
  | .connecting _ => [.establish]
  | .subscribing _ => [.subscribe tag, .establish]
  | .polling (.waiting _) => Drain.asked tag polls
  | .polling (.reading _) => .depth :: Drain.asked tag polls
  | .cancelling _ _ | .joining _ => .cancel tag :: Drain.asked tag polls
  | .closing _ _ | .finished _ => .close :: .cancel tag :: Drain.asked tag polls

/-- The sessions up to a phase, where nothing fails. -/
def Phase.sessions : Phase → Nat
  | .connecting _ => 0
  | _ => 1

/-- A phase on the way of a run in which nothing fails, with the ledger, the broker's part, the
readings and the consumer there. -/
def Phase.Suits (l : Ledger) (b : Bool) (polls : Nat) (worker : Worker) : Phase → Prop
  | .connecting a => polls = 0 ∧ worker = .absent ∧ ∃ t, a = .establishing none (some t)
  | .subscribing due => polls = 0 ∧ worker = .absent ∧ due ≠ none
  | .polling a => a.wake ≠ none ∧ b = true ∧ ∃ k, worker = .running k ∧ k.streamOpen = true
  | .cancelling outcome due =>
    outcome = .drained ∧ due ≠ none ∧ b = true ∧ l.ready = 0 ∧
      ∃ k, worker = .running k ∧ k.streamOpen = true
  | .joining outcome =>
    outcome = .drained ∧ b = false ∧ l.ready = 0 ∧
      (worker = .over .stopped ∨ ∃ k, worker = .running k)
  | .closing ending due => worker = .absent ∧ ending = .ok .drained ∧ due ≠ none
  | .finished result =>
    worker = .absent ∧ ∃ summary, result = .ok summary ∧ summary.outcome = .drained

/-- A run on its way in a world in which nothing fails. -/
structure State.Smooth (F : B.Faultless) (plan : Plan) (l : Ledger) (b : Bool) (s : State ω) :
    Prop where
  calm : F.Calm s.course l b
  suits : s.phase.Suits l b (readings s.course.trace).length s.worker
  steady : ∀ k, s.worker = .running k → k.Steady
  asked : requests s.course.trace
    = s.phase.asked plan.config.consumerTag (readings s.course.trace).length
  unfailed : ∀ e ∈ s.course.proceedings, e.isFault = false
  interval : s.poller.interval = plan.config.pollInterval
  sessions : openings s.course.trace = s.phase.sessions
  first : s.initialCount = none ↔ ∃ a, s.phase = .connecting a

/-- With a consumer at work there is a stream that serves it, or the stream is cancelled. -/
theorem Phase.Suits.running_or {phase : Phase} {polls : Nat} {k : Consumer}
    (h : phase.Suits l b polls (.running k)) :
    (b = true ∧ k.streamOpen = true ∧ ∀ l' k', (l.ready = 0 → l'.ready = 0) →
      k'.streamOpen = true → phase.Suits l' b polls (.running k')) ∨
    (b = false ∧ ∀ l', (l.ready = 0 → l'.ready = 0) →
      phase.Suits l' b polls (.over .stopped) ∧ ∀ k', phase.Suits l' b polls (.running k')) := by
  match phase with
  | .connecting _ | .subscribing _ => cases h.2.1
  | .closing _ _ | .finished _ => cases h.1
  | .polling _ =>
    obtain ⟨hwake, hb, k₀, hk, ho⟩ := h
    cases hk
    exact .inl ⟨hb, ho, fun l' k' _ ho' => ⟨hwake, hb, k', rfl, ho'⟩⟩
  | .cancelling _ _ =>
    obtain ⟨houtcome, hdue, hb, hready, k₀, hk, ho⟩ := h
    cases hk
    exact .inl ⟨hb, ho, fun l' k' hl ho' => ⟨houtcome, hdue, hb, hl hready, k', rfl, ho'⟩⟩
  | .joining _ =>
    obtain ⟨houtcome, hb, hready, -⟩ := h
    exact .inr ⟨hb, fun l' hl => ⟨⟨houtcome, hb, hl hready, .inl rfl⟩,
      fun k' => ⟨houtcome, hb, hl hready, .inr ⟨k', rfl⟩⟩⟩⟩

/-- From the subscription on the first session is known. -/
theorem State.Smooth.known (h : s.Smooth F plan l b) (hne : ∀ a, s.phase ≠ .connecting a) :
    s.initialCount ≠ none := fun hnone => by
  obtain ⟨a, ha⟩ := h.first.mp hnone
  exact hne a ha

theorem first_iff {first : Option Nat} {phase : Phase} (hfirst : first ≠ none)
    (hp : ∀ a, phase ≠ .connecting a) : first = none ↔ ∃ a, phase = .connecting a :=
  ⟨fun hnone => absurd hnone hfirst, fun ⟨a, ha⟩ => absurd ha (hp a)⟩

/-- What a move adds to the requests and the failures of a run. -/
theorem State.Smooth.next (h : s.Smooth F plan l b) (new : List Event) (hm : Move E plan s s')
    (hcalm : F.Calm s'.course l' b')
    (hp : s'.course.proceedings = new ++ s.course.proceedings)
    (hnew : ∀ e ∈ new, e.isFault = false)
    (hasked : s'.phase.asked plan.config.consumerTag
        ((readings s.course.trace).length + (new.filterMap Event.reading?).length)
      = new.filterMap Event.request?
        ++ s.phase.asked plan.config.consumerTag (readings s.course.trace).length)
    (hsuits : s'.phase.Suits l' b'
      ((readings s.course.trace).length + (new.filterMap Event.reading?).length) s'.worker)
    (hsteady : ∀ k, s'.worker = .running k → k.Steady)
    (hsessions : s'.phase.sessions = s.phase.sessions + new.countP Event.isOpening)
    (hfirst : s'.initialCount = none ↔ ∃ a, s'.phase = .connecting a) :
    s'.Smooth F plan l' b' := by
  have hreadings : (readings s'.course.trace).length
      = (readings s.course.trace).length + (new.filterMap Event.reading?).length := by
    rw [Entry.readings_eq, Entry.readings_eq]
    show (s'.course.proceedings.filterMap Event.reading?).length = _
    rw [hp, List.filterMap_append, List.length_append, Nat.add_comm]
    rfl
  constructor
  case calm => exact hcalm
  case suits => exact hreadings ▸ hsuits
  case steady => exact hsteady
  case asked =>
    rw [hreadings, Entry.requests_eq]
    show s'.course.proceedings.filterMap Event.request? = _
    rw [hp, List.filterMap_append, hasked, ← h.asked, Entry.requests_eq]
    rfl
  case unfailed =>
    intro e he
    rw [hp] at he
    exact (List.mem_append.mp he).elim (hnew e) (h.unfailed e)
  case interval => exact hm.interval_eq.trans h.interval
  case sessions =>
    rw [hsessions, ← h.sessions, Entry.openings_eq, Entry.openings_eq]
    show s'.course.proceedings.countP Event.isOpening = _
    rw [hp, List.countP_append, Nat.add_comm]
    rfl
  case first => exact hfirst

theorem smooth_consumer {k : Consumer} {c' : Course ω} {stage : Stage Consumer Consumer.Ending}
    (h : s.Smooth F plan l b) (hu : s.result? = none) (hw : s.worker = .running k)
    (hm : Consumer.Move E plan.config.queueName k s.course c' stage) :
    ∃ l' b', { s with course := c', worker := .ofStage stage : State ω }.Smooth F plan l' b' ∧
      l'.arrived = l.arrived := by
  have hsuits := h.suits
  rw [hw] at hsuits
  have hk := h.steady k hw
  -- the coordinator stays where it is, and the consumer asks for nothing
  have hkeep : ∀ {l₁ : Ledger} (new : List Event), F.Calm c' l₁ b →
      c'.proceedings = new ++ s.course.proceedings →
      (∀ e ∈ new, e.isFault = false ∧ e.isConsumption = true) →
      s.phase.Suits l₁ b (readings s.course.trace).length (.ofStage stage) →
      (∀ k', stage = .ongoing k' → k'.Steady) →
      { s with course := c', worker := .ofStage stage : State ω }.Smooth F plan l₁ b := by
    intro l₁ new hcalm hp hnew hsuits hsteady
    have hrequests : new.filterMap Event.request? = [] :=
      List.filterMap_eq_nil_iff.mpr fun e he => (Event.plain_of_isConsumption (hnew e he).2).1
    have hreadings : new.filterMap Event.reading? = [] :=
      List.filterMap_eq_nil_iff.mpr fun e he => Event.reading?_of_isConsumption (hnew e he).2
    have hopenings : new.countP Event.isOpening = 0 :=
      List.countP_eq_zero.mpr fun e he => by
        simp [(Event.plain_of_isConsumption (hnew e he).2).2]
    refine h.next new (.consumer hu hw hm) hcalm hp (fun e he => (hnew e he).1) ?_ ?_ ?_ ?_ h.first
    · rw [hrequests, hreadings]; rfl
    · rw [hreadings]; exact hsuits
    · intro k' hk'
      match stage, hk' with
      | .ongoing _, rfl => exact hsteady _ rfl
    · rw [hopenings]; rfl
  cases hm with
  | @delivered c₁ t ho hr ha =>
    obtain ⟨⟨hb, hready⟩, hc⟩ := h.calm.ask ha
    obtain ⟨due, hdue, -⟩ := hc.startReject_due t
    refine ⟨_, _, hkeep [.delivered t] (hc.startReject t) ?_ ?_ ?_ ?_, rfl⟩
    · rw [Course.proceedings_startReject, Course.proceedings_of_ask ha]; rfl
    · simp [Event.isFault, Event.isConsumption]
    · rcases hsuits.running_or with ⟨-, hopen, hrun⟩ | ⟨hnot, -⟩
      · exact hrun _ _ (fun hzero => absurd hzero (Nat.ne_of_gt hready)) hopen
      · exact absurd (hb.symm.trans hnot) (by simp)
    · intro k' hk'
      cases hk'
      exact hk.take (by simp [hdue])
  | @waiting _ wake ho hr ha =>
    obtain ⟨⟨hb, -⟩, hc⟩ := h.calm.ask ha
    refine ⟨_, _, hkeep [] hc (Course.proceedings_of_ask ha) (by simp) ?_ ?_, rfl⟩
    · rcases hsuits.running_or with ⟨-, hopen, hrun⟩ | ⟨hnot, -⟩
      · exact hrun _ _ id hopen
      · exact absurd (hb.symm.trans hnot) (by simp)
    · intro k' hk'
      cases hk'
      exact ⟨hk.due, fun _ => ⟨ho, hr⟩⟩
  | streamOver ho hr ha hover =>
    obtain ⟨hfulfils, hc⟩ := h.calm.ask ha
    rcases hover with rfl | rfl
    · refine ⟨_, _, hkeep [.streamCancelled] hc (Course.proceedings_of_ask ha)
        (by simp [Event.isFault, Event.isConsumption]) ?_ ?_, rfl⟩
      · rcases hsuits.running_or with ⟨hb, -⟩ | ⟨-, hrun⟩
        · exact absurd (hb.symm.trans hfulfils) (by simp)
        · exact (hrun _ id).2 _
      · intro k' hk'
        cases hk'
        exact ⟨hk.due, fun hne => absurd rfl hne⟩
    · exact hfulfils.elim
  | streamFailed _ _ ha => exact (h.calm.ask ha).1.elim
  | streamPanicked _ _ ha => exact (h.calm.ask ha).1.elim
  | @rejected r _ hr hd hf =>
    obtain ⟨-, hc⟩ := h.calm.finishReject hf
    refine ⟨_, _, hkeep [.rejected r.tag] hc (Course.proceedings_of_finishReject hf)
      (by simp [Event.isFault, Event.isConsumption]) ?_ ?_, rfl⟩
    · rcases hsuits.running_or with ⟨-, hopen, hrun⟩ | ⟨-, hrun⟩
      · exact hrun _ _ id hopen
      · exact (hrun _ id).2 _
    · intro k' hk'
      cases hk'
      exact hk.erase r
  | rejectFailed _ _ hf => exact absurd (h.calm.finishReject hf).1 (by simp)
  | rejectPanicked _ _ hf => exact absurd (h.calm.finishReject hf).1 (by simp)
  | stopped he ho =>
    refine ⟨_, _, hkeep [] (h.calm.tell _) (Course.proceedings_tell _ _) (by simp) ?_
      (by simp), rfl⟩
    rcases hsuits.running_or with ⟨-, hopen, -⟩ | ⟨-, hrun⟩
    · exact absurd (ho.symm.trans hopen) (by simp)
    · exact (hrun _ id).1

theorem welcome_of_none {s : State ω} (declared : Nat) (h : s.initialCount = none) :
    s.welcome plan declared =
      { s with
        course := s.course.tell
          (.holds plan.config.queueName declared plan.config.prefetchCount.toNat)
        initialCount := some declared } := by
  rw [State.welcome, h]

theorem openSession_of_not_interrupted {s : State ω} (h : s.course.interrupted = false) :
    s.openSession E plan =
      { s with
        course := (s.course.begin E (.subscribe plan.config.consumerTag)).1
        phase := .subscribing (s.course.begin E (.subscribe plan.config.consumerTag)).2 } := by
  rw [State.openSession, h]
  rfl

theorem smooth_connected {a : Connect.Activity} {c' : Course ω} {result : Connect.Result}
    (h : s.Smooth F plan l b) (hp : s.phase = .connecting a)
    (hm : Connect.Move E plan.config.reconnectPolicy plan.endpoint s.course a c' (.over result)) :
    ∃ l' b', ({ s with course := c' }.established E plan result).Smooth F plan l' b' ∧
      l'.arrived = l.arrived := by
  have hsuits := h.suits
  rw [hp] at hsuits
  obtain ⟨hpolls, hw, t, rfl⟩ := hsuits
  have hfirst : s.initialCount = none := h.first.mpr ⟨_, hp⟩
  have hmove := Move.connected hp hm
  cases hm with
  | overtaken hi _ => exact absurd (h.calm.interrupted.symm.trans hi) (by simp)
  | failed hi hf _ =>
    obtain ⟨_, hvalue, -⟩ := h.calm.finish hf
    cases hvalue
  | @opened _ _ declared hi hf =>
    obtain ⟨count, hvalue, hc⟩ := h.calm.finish hf
    cases hvalue
    have hheld := hc.tell
      (.holds plan.config.queueName declared plan.config.prefetchCount.toNat)
    have hopened : { s with course := c' : State ω }.established E plan (.ok (some declared)) = _ :=
      (congrArg (State.openSession E plan ·)
        (welcome_of_none (s := { s with course := c' }) declared hfirst)).trans
        (openSession_of_not_interrupted hheld.interrupted)
    rw [hopened] at hmove ⊢
    refine ⟨_, _, h.next [.began (.subscribe plan.config.consumerTag),
      .answered .establish declared] hmove (hheld.begin _) ?_ (by simp [Event.isFault]) ?_
      ⟨hpolls, hw, hheld.begin_due _⟩ ?_ (by rw [hp]; rfl) ?_, Ledger.post_arrived _ _⟩
    · rw [Course.proceedings_begin, Course.proceedings_tell, Course.proceedings_of_finish hf]
      rfl
    · rw [hp]; rfl
    · intro k hk
      exact absurd (hw.symm.trans hk) (by simp)
    · simp

/-- A poller that goes on has a consumer beside it, and one that is done has the subscription
cancelled. -/
theorem smooth_enter (s₁ : State ω) {k : Consumer} (r : Request) (n : Nat)
    (h : s.Smooth F plan l b) (hm : Move E plan s (s₁.polled E plan (s₁.poller.enter s₁.course)))
    (hw : s₁.worker = .running k) (ho : k.streamOpen = true) (hk : k.Steady)
    (hc : F.Calm s₁.course l' true)
    (hp : s₁.course.proceedings = [.answered r n] ++ s.course.proceedings)
    (hasked : Drain.asked plan.config.consumerTag
        ((readings s.course.trace).length + ([Event.answered r n].filterMap Event.reading?).length)
      = s.phase.asked plan.config.consumerTag (readings s.course.trace).length)
    (hdone : s₁.poller.done = true → l'.ready = 0)
    (hr : r ≠ .establish) (hsessions : s.phase.sessions = 1)
    (hfirst : s₁.initialCount ≠ none) :
    (s₁.polled E plan (s₁.poller.enter s₁.course)).Smooth F plan l' true := by
  have hsteady : ∀ k', s₁.worker = .running k' → k'.Steady := by
    intro k' hk'
    cases hw.symm.trans hk'
    exact hk
  have hopening : (Event.answered r n).isOpening = false := by
    cases r <;> first | rfl | exact absurd rfl hr
  have hcount : [Event.answered r n].countP Event.isOpening = 0 := by simp [hopening]
  rw [Poller.enter] at hm ⊢
  cases hover : s₁.poller.done with
  | true =>
    rw [hover, if_pos rfl] at hm
    rw [if_pos rfl]
    refine h.next [.began (.cancel plan.config.consumerTag), .answered r n] hm
      (hc.begin _) ?_ (by simp [Event.isFault]) ?_
      ⟨rfl, hc.begin_due _, rfl, hdone hover, k, hw, ho⟩ hsteady ?_
      (first_iff hfirst fun _ ha => by cases ha)
    · show (s₁.cancel E plan .drained).course.proceedings = _
      rw [proceedings_cancel, hp]
      rfl
    · exact congrArg _ hasked
    · rw [hsessions]
      exact congrArg (1 + ·) hcount.symm
  | false =>
    rw [hover, if_neg Bool.false_ne_true] at hm
    rw [if_neg Bool.false_ne_true]
    exact h.next _ hm hc hp (by simp [Event.isFault]) hasked
      ⟨Option.some_ne_none _, rfl, k, hw, ho⟩ hsteady (by rw [hsessions, hcount]; rfl)
      (first_iff hfirst fun _ ha => by cases ha)

theorem smooth_polled {a : Poller.Activity} {c₀ c' : Course ω} {p' : Poller}
    {stage : Stage Poller.Activity Poller.Result} (h : s.Smooth F plan l b)
    (hp : s.phase = .polling a) (hr : s.course.Raced E c₀)
    (hm : Poller.Move E s.poller c₀ a c' p' stage) :
    ∃ l' b', ({ s with course := c', poller := p' }.polled E plan stage).Smooth F plan l' b' ∧
      l'.arrived = l.arrived := by
  have hsuits := h.suits
  rw [hp] at hsuits
  obtain ⟨-, rfl, k, hw, ho⟩ := hsuits
  have hmove : Move E plan s ({ s with course := c', poller := p' }.polled E plan stage) :=
    .polled hp hr hm
  have hc₀ := h.calm.raced hr
  have hfirst : s.initialCount ≠ none := h.known fun a ha => nomatch hp.symm.trans ha
  cases hm with
  | interrupted hi _ => exact absurd (hc₀.interrupted.symm.trans hi) (by simp)
  | @began wake c₁ hwake hr' =>
    have hc₁ := hc₀.raced hr'
    refine ⟨_, _, h.next [.began .depth] hmove (hc₁.begin _) ?_ (by simp [Event.isFault])
      ?_ ⟨hc₁.begin_due _, rfl, k, hw, ho⟩ h.steady (by rw [hp]; rfl) ?_, rfl⟩
    · show (c₁.begin E .depth).1.proceedings = _
      rw [Course.proceedings_begin, hr'.proceedings_eq, hr.proceedings_eq]
      rfl
    · rw [hp]; rfl
    · exact first_iff hfirst nofun
  | @recorded due c₁ count hd hf =>
    obtain ⟨hc₁, hcount⟩ := hc₀.finish_depth hf
    refine ⟨_, _, smooth_enter _ .depth count h hmove hw ho (h.steady k hw) (hc₁.tell _) ?_ ?_ ?_
      nofun (by rw [hp]; rfl) hfirst, rfl⟩
    · rw [Course.proceedings_tell, Course.proceedings_of_finish hf, hr.proceedings_eq]
      rfl
    · rw [hp]; rfl
    · intro hdone
      exact hcount.symm.trans ((Poller.done_record _ _).mp hdone)
  | failed hd hf =>
    obtain ⟨_, hvalue, -⟩ := hc₀.finish hf
    cases hvalue

/-- **A run in which nothing fails keeps to its way.** -/
theorem Move.smooth (hm : Move E plan s s') (hf : s.Follows plan m) (h : s.Smooth F plan l b) :
    ∃ l' b', s'.Smooth F plan l' b' ∧ l'.arrived = l.arrived := by
  have hsuits := h.suits
  have hmove := hm
  cases hm with
  | connecting hp hm =>
    rw [hp] at hsuits
    obtain ⟨-, -, t, rfl⟩ := hsuits
    cases hm
  | connected hp hm => exact smooth_connected h hp hm
  | subscribeFailed hp hd hf =>
    obtain ⟨_, hvalue, -⟩ := h.calm.finish hf
    cases hvalue
  | @subscribed due c' count hp hd hfinish =>
    rw [hp] at hsuits
    obtain ⟨hpolls, hw, -⟩ := hsuits
    obtain ⟨count', hvalue, hc⟩ := h.calm.finish hfinish
    cases hvalue
    refine ⟨_, _, smooth_enter { s with course := c', worker := .running plan.newConsumer }
      (.subscribe plan.config.consumerTag) count h hmove rfl rfl
      (Consumer.steady_of_nil rfl rfl) hc (Course.proceedings_of_finish hfinish) ?_ ?_ nofun
      (by rw [hp]; rfl) (h.known fun a ha => nomatch hp.symm.trans ha), rfl⟩
    · rw [hp, hpolls]
      rfl
    · intro hdone
      have hphase := hf.phase
      rw [hp] at hphase
      exact absurd ((hf.emptied.trans hphase.2).symm.trans hdone) (by simp)
  | polled hp hr hm => exact smooth_polled h hp hr hm
  | abandoned hp hw hr =>
    rw [hp] at hsuits
    obtain ⟨-, -, k, hk, -⟩ := hsuits
    cases hw.symm.trans hk
  | cancelled hp hd hfinish =>
    rw [hp] at hsuits
    obtain ⟨rfl, -, -, hready, k, hw, -⟩ := hsuits
    obtain ⟨_, hvalue, hc⟩ := h.calm.finish hfinish
    cases hvalue
    refine ⟨_, _, h.next [.answered (.cancel plan.config.consumerTag) _] hmove hc
      (Course.proceedings_of_finish hfinish) (by simp [Event.isFault]) ?_
      ⟨rfl, rfl, hready, .inr ⟨k, hw⟩⟩ h.steady (by rw [hp]; rfl) ?_, rfl⟩
    · rw [hp]; rfl
    · exact first_iff (h.known fun a ha => nomatch hp.symm.trans ha) nofun
  | cancelFailed hp hd hf =>
    obtain ⟨_, hvalue, -⟩ := h.calm.finish hf
    cases hvalue
  | unjoined hp hw =>
    rw [hp] at hsuits
    obtain ⟨-, -, -, hover | ⟨k, hk⟩⟩ := hsuits
    · cases hw.symm.trans hover
    · cases hw.symm.trans hk
  | @joined outcome ending hp hw =>
    rw [hp] at hsuits
    obtain ⟨rfl, -, -, hover | ⟨k, hk⟩⟩ := hsuits
    · cases hw.symm.trans hover
      refine ⟨_, _, h.next [.began .close] hmove (h.calm.begin .close)
        (proceedings_close _ _) (by simp [Event.isFault]) ?_ ⟨rfl, rfl, h.calm.begin_due .close⟩
        (by simp [State.joined, State.close]) (by rw [hp]; rfl) ?_, rfl⟩
      · rw [hp]; rfl
      · exact first_iff (h.known fun a ha => nomatch hp.symm.trans ha) nofun
    · cases hw.symm.trans hk
  | @closed ending due hp hd =>
    rw [hp] at hsuits
    obtain ⟨hw, rfl, -⟩ := hsuits
    obtain ⟨count, hvalue, hc⟩ := h.calm.finish (r := .close) (Prod.eta _).symm
    refine ⟨_, _, h.next [.answered .close count] hmove (hc.tell _) ?_
      (by simp [Event.isFault]) ?_ ⟨hw, _, rfl, rfl⟩ h.steady (by rw [hp]; rfl) ?_,
      Ledger.post_arrived _ _⟩
    · rw [proceedings_closed]
      show ((s.course.finish E .close).1).proceedings = _
      rw [Course.proceedings_finish, hvalue]
      rfl
    · rw [hp]; rfl
    · exact first_iff (h.known fun a ha => nomatch hp.symm.trans ha) nofun
  | consumer hu hw hm => exact smooth_consumer h hu hw hm
  | time hu hidle =>
    exact ⟨_, _, h.next [] hmove (h.calm.advance _) (Course.proceedings_advance _ _)
      (by simp) rfl h.suits h.steady rfl h.first, rfl⟩

/-! ### Every run -/

theorem start_smooth (F : B.Faultless) (plan : Plan) (now : Nat) {world : ω} (rejected : UInt64)
    (h : F.sound world) :
    (start E plan (.opening now world rejected false)).Smooth F plan (B.ledger world)
      (F.serving world) := by
  have hcalm : F.Calm (untouched plan (Course.opening now world rejected false)).course
      (B.ledger world) (F.serving world) := ⟨h, rfl, rfl, rfl⟩
  obtain ⟨due, hdue⟩ := Option.ne_none_iff_exists'.mp (hcalm.begin_due .establish)
  have hp := proceedings_start (E := E) plan (Course.opening now world rejected false)
  rw [start_of_not_interrupted rfl] at hp ⊢
  constructor
  case calm => exact hcalm.begin .establish
  case suits =>
    refine ⟨?_, rfl, due, by rw [hdue]⟩
    rw [Entry.readings_eq]
    exact congrArg (fun events => (events.filterMap Event.reading?).length) hp
  case steady => exact nofun
  case asked =>
    rw [Entry.requests_eq]
    exact congrArg (List.filterMap Event.request?) hp
  case unfailed =>
    intro e he
    rw [hp] at he
    obtain rfl := List.mem_singleton.mp he
    rfl
  case interval => rfl
  case sessions =>
    rw [Entry.openings_eq]
    exact congrArg (List.countP Event.isOpening) hp
  case first => exact ⟨fun _ => ⟨_, rfl⟩, fun _ => rfl⟩

/-- All that is known of a run in which nothing fails and which began with the given ledger. -/
structure State.Thrives (F : B.Faultless) (plan : Plan) (first : Ledger) (s : State ω) : Prop where
  follows : s.Follows plan (Conduct.of s.course.trace)
  smooth : s.Smooth F plan (B.ledger s.course.world) (F.serving s.course.world)
  limited : s.Limited plan
  arrived : (B.ledger s.course.world).arrived = first.arrived
  balances : Ledger.Balances first (Conduct.of s.course.trace) (Entry.rejections s.course.trace)
    (B.ledger s.course.world)

theorem Move.thrives {first : Ledger} (hm : Move E plan s s') (h : s.Thrives F plan first) :
    s'.Thrives F plan first := by
  obtain ⟨m', hf'⟩ := hm.follows h.follows
  obtain ⟨l', b', hs', harrived⟩ := hm.smooth h.follows h.smooth
  obtain rfl := hf'.course.conduct
  obtain rfl := hs'.calm.ledger
  obtain rfl := hs'.calm.serving
  refine ⟨hf', hs', hm.limited h.limited, harrived.trans h.arrived, ?_⟩
  obtain ⟨new, htrace, hacc⟩ := B.accounts hm.reaches
  have ho := hf'.course.orderly
  rw [htrace] at ho ⊢
  exact hacc.balances ho h.balances

theorem start_thrives (F : B.Faultless) (plan : Plan) (now : Nat) {world : ω} (rejected : UInt64)
    (h : F.sound world) :
    (start E plan (.opening now world rejected false)).Thrives F plan (B.ledger world) := by
  have hs := start_smooth F plan now rejected h
  have hledger := hs.calm.ledger
  refine ⟨run_follows E plan now world rejected false 0, ?_, fun k hk => ?_,
    congrArg Ledger.arrived hledger, run_balances B plan now world rejected false 0⟩
  · rw [hledger, hs.calm.serving]
    exact hs
  · cases (start_worker plan _).symm.trans hk

/-- **Nothing fails in a run that begins where nothing fails.** -/
theorem run_thrives (F : B.Faultless) (plan : Plan) (now : Nat) {world : ω} (rejected : UInt64)
    (h : F.sound world) (n : Nat) :
    (run E plan n (start E plan (.opening now world rejected false))).Thrives F plan
      (B.ledger world) :=
  run_of_move (fun _ _ hm => hm.thrives) (start_thrives F plan now rejected h) n

end Drain

end QueueDrain
