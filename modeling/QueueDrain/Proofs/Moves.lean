import QueueDrain.Drain
import QueueDrain.Proofs.Parts

/-!
# What a run can do

The coordinator's step is turned into a relation with one constructor for each thing that can
happen, guards included, on top of the moves of its parts. Everything that is proved of a run
afterwards is proved constructor by constructor, so a change of a step function is a change of its
relation and of the cases that mention it.

## Main definitions

* `Drain.Move` — one move of a run
* `Drain.untouched` — a run before it has done anything

## Main results

* `Drain.step_moves`, `Drain.run_moves` — a step is a sequence of moves, and so is a run
* `Drain.Move.reaches` — a move changes the course through its operations only
* `Drain.run_of_move` — what holds at the beginning and is kept by every move holds throughout
-/

namespace QueueDrain

variable {ω : Type} {E : Environment ω}

open Relation (ReflTransGen)
open Course (raced_race)

namespace Drain

variable {plan : Plan} {s s' : State ω}

/-- One move of a run. -/
inductive Move (E : Environment ω) (plan : Plan) (s : State ω) : State ω → Prop
  | connecting {a a' : Connect.Activity} {c' : Course ω} (hp : s.phase = .connecting a)
      (hm : Connect.Move E plan.config.reconnectPolicy plan.endpoint s.course a c' (.ongoing a')) :
      Move E plan s { s with course := c', phase := .connecting a' }
  | connected {a : Connect.Activity} {c' : Course ω} {result : Connect.Result}
      (hp : s.phase = .connecting a)
      (hm : Connect.Move E plan.config.reconnectPolicy plan.endpoint s.course a c'
        (.over result)) :
      Move E plan s ({ s with course := c' }.established E plan result)
  | subscribeFailed {due : Option Nat} {c' : Course ω} {cause : DrainError}
      (hp : s.phase = .subscribing due) (hd : reached due s.course.now = true)
      (hf : s.course.finish E (.subscribe plan.config.consumerTag) = (c', .error cause)) :
      Move E plan s ({ s with course := c' }.close E (.error cause))
  | subscribed {due : Option Nat} {c' : Course ω} {count : Nat}
      (hp : s.phase = .subscribing due) (hd : reached due s.course.now = true)
      (hf : s.course.finish E (.subscribe plan.config.consumerTag) = (c', .ok count)) :
      Move E plan s
        ({ s with
          course := c'
          worker := .running { limit := plan.config.prefetchCount.toNat } }.polled
          E plan (s.poller.enter c'))
  | polled {a : Poller.Activity} {c₀ c' : Course ω} {p' : Poller}
      {stage : Stage Poller.Activity Poller.Result} (hp : s.phase = .polling a)
      (hr : s.course.Raced E c₀) (hm : Poller.Move E s.poller c₀ a c' p' stage) :
      Move E plan s ({ s with course := c', poller := p' }.polled E plan stage)
  | abandoned {a : Poller.Activity} {ending : Consumer.Ending} {c' : Course ω}
      (hp : s.phase = .polling a) (hw : s.worker = .over ending) (hr : s.course.Raced E c') :
      Move E plan s ({ s with course := c' }.abandoned E plan ending)
  | cancelled {outcome : Outcome} {due : Option Nat} {c' : Course ω} {count : Nat}
      (hp : s.phase = .cancelling outcome due) (hd : reached due s.course.now = true)
      (hf : s.course.finish E (.cancel plan.config.consumerTag) = (c', .ok count)) :
      Move E plan s { s with course := c', phase := .joining outcome }
  | cancelFailed {outcome : Outcome} {due : Option Nat} {c' : Course ω} {cause : DrainError}
      (hp : s.phase = .cancelling outcome due) (hd : reached due s.course.now = true)
      (hf : s.course.finish E (.cancel plan.config.consumerTag) = (c', .error cause)) :
      Move E plan s
        { s with
          course := c'.tell (.cancelFailed plan.config.consumerTag cause)
          worker := s.worker.abort
          phase := .joining outcome }
  | unjoined {outcome : Outcome} (hp : s.phase = .joining outcome) (hw : s.worker = .absent) :
      Move E plan s (s.close E (.ok outcome))
  | joined {outcome : Outcome} {ending : Consumer.Ending} (hp : s.phase = .joining outcome)
      (hw : s.worker = .over ending) : Move E plan s (s.joined E outcome ending)
  | closed {ending : Except DrainError Outcome} {due : Option Nat}
      (hp : s.phase = .closing ending due) (hd : reached due s.course.now = true) :
      Move E plan s ({ s with course := (s.course.finish E .close).1 }.closed plan ending)
  /-- The consumer moves beside the coordinator, whatever the coordinator is at. -/
  | consumer {k : Consumer} {c' : Course ω} {stage : Stage Consumer Consumer.Ending}
      (hu : s.result? = none) (hw : s.worker = .running k)
      (hm : Consumer.Move E plan.config.queueName k s.course c' stage) :
      Move E plan s { s with course := c', worker := .ofStage stage }
  /-- Time passes only where the coordinator has nothing to do. -/
  | time (hu : s.result? = none) (hidle : coordinate E plan s = none) :
      Move E plan s { s with course := s.course.advance E (wakes s) }

theorem coordinatePolling_move {a : Poller.Activity} (hp : s.phase = .polling a)
    (h : coordinatePolling E plan s a = some s') : Move E plan s s' := by
  -- the consumer is over and wins, with or without a race
  have hover : ∀ {ending c'}, s.worker = .over ending → s.course.Raced E c' →
      some ({ s with course := c' }.abandoned E plan ending) = some s' → Move E plan s s' := by
    intro ending c' hw hr heq
    cases heq
    exact .abandoned hp hw hr
  rw [coordinatePolling] at h
  split at h
  next ending hw hstep => exact hover hw (.refl _) h
  next ending hw hstep =>
    rcases hrace : s.course.race E with ⟨c₀, pollerFirst⟩
    have hr : s.course.Raced E c₀ := by simpa only [hrace] using raced_race (E := E) s.course
    cases pollerFirst with
    | false =>
      simp only [hrace, Bool.false_eq_true, if_false] at h
      exact hover hw hr h
    | true =>
      simp only [hrace, if_true] at h
      split at h
      next c' p' stage hs => cases h; exact .polled hp hr (Poller.step_move hs)
      next => exact hover hw hr h
  next c' p' stage hs _ => cases h; exact .polled hp (.refl _) (Poller.step_move hs)
  next => cases h

theorem coordinate_move (h : coordinate E plan s = some s') : Move E plan s s' := by
  rw [coordinate] at h
  split at h
  next a hp =>
    rw [coordinateConnecting] at h
    split at h
    next => cases h
    next c' a' hs => cases h; exact .connecting hp (Connect.step_move hs)
    next c' result hs => cases h; exact .connected hp (Connect.step_move hs)
  next due hp =>
    rw [coordinateSubscribing] at h
    split at h
    next hd =>
      split at h
      next c' cause hf => cases h; exact .subscribeFailed hp hd hf
      next c' count hf => cases h; exact .subscribed hp hd hf
    next => cases h
  next a hp => exact coordinatePolling_move hp h
  next outcome due hp =>
    rw [coordinateCancelling] at h
    split at h
    next hd =>
      split at h
      next c' count hf => cases h; exact .cancelled hp hd hf
      next c' cause hf => cases h; exact .cancelFailed hp hd hf
    next => cases h
  next outcome hp =>
    split at h
    next => cases h
    next hw => cases h; exact .unjoined hp hw
    next ending hw => cases h; exact .joined hp hw
  next ending due hp =>
    split at h
    next hd => cases h; exact .closed hp hd
    next => cases h
  next => cases h

/-- What the consumer does, the run does. -/
theorem moves_of_consumer {k : Consumer} {c c' : Course ω} {stage : Stage Consumer Consumer.Ending}
    (h : Consumer.Moves E plan.config.queueName k c c' stage) (s : State ω)
    (hu : s.result? = none) :
    ReflTransGen (Move E plan) { s with course := c, worker := .running k }
      { s with course := c', worker := .ofStage stage } := by
  induction h with
  | none k c => exact .refl
  | last hm => exact .single (.consumer hu rfl hm)
  | more hm _ ih => exact .head (.consumer hu rfl hm) ih

theorem consume_moves (plan : Plan) (hu : s.result? = none) :
    ReflTransGen (Move E plan) s (consume E plan s).1 := by
  rw [consume]
  split
  next k hw =>
    have hs : s = { s with course := s.course, worker := .running k } := by rw [← hw]
    have hm :=
      moves_of_consumer (Consumer.step_moves (E := E) plan.config.queueName k s.course) s hu
    rw [← hs] at hm
    split
    next c' k' moved hstep => simpa only [hstep, Worker.ofStage] using hm
    next c' ending moved hstep => simpa only [hstep, Worker.ofStage] using hm
  next => exact .refl

theorem consume_result? (plan : Plan) (s : State ω) : (consume E plan s).1.result? = s.result? := by
  rw [consume]
  split
  · split <;> rfl
  · rfl

/-- A round of the consumer takes no time. -/
theorem consume_calmly (plan : Plan) (s : State ω) :
    s.course.Calmly E (consume E plan s).1.course := by
  rw [consume]
  split
  next k hw =>
    have hc := (Consumer.step_moves (E := E) plan.config.queueName k s.course).calmly
    split
    next hstep => simpa only [hstep] using hc
    next hstep => simpa only [hstep] using hc
  next => exact .refl _

theorem phase_of_result? {result : Except DrainError Summary} (h : s.result? = some result) :
    s.phase = .finished result := by
  rw [State.result?] at h
  split at h
  next hp => cases h; exact hp
  next => cases h

theorem step_of_finished {result : Except DrainError Summary} (h : s.result? = some result) :
    step E plan s = s := by
  simp only [step, phase_of_result? h]

/-- A step of a run that is not over. -/
theorem step_of_unfinished (h : s.result? = none) :
    step E plan s =
      match if E.consumerFirst s.course.world then none else coordinate E plan s with
      | some s => s
      | none =>
        match consume E plan s with
        | (s, true) => s
        | (s, false) =>
          match coordinate E plan s with
          | some s => s
          | none => { s with course := s.course.advance E (wakes s) } := by
  rw [step]
  split
  next result hp => simp [State.result?, hp] at h
  next => rfl

/-- **A step is a sequence of moves.** -/
theorem step_moves (plan : Plan) (s : State ω) : ReflTransGen (Move E plan) s (step E plan s) := by
  cases hu : s.result? with
  | some result => rw [step_of_finished hu]
  | none =>
    rw [step_of_unfinished hu]
    split
    next s' hs =>
      split at hs
      · cases hs
      · exact .single (coordinate_move hs)
    next =>
      have hm := consume_moves (E := E) plan hu
      have hu' := (consume_result? (E := E) plan s).trans hu
      split
      next s' hc => simpa only [hc] using hm
      next s' hc =>
        simp only [hc] at hm hu'
        split
        next s'' hs => exact hm.tail (coordinate_move hs)
        next hidle => exact hm.tail (.time hu' hidle)

theorem run_moves (plan : Plan) (n : Nat) (s : State ω) :
    ReflTransGen (Move E plan) s (run E plan n s) := by
  induction n generalizing s with
  | zero => exact .refl
  | succ n ih =>
    rw [run]
    split
    · exact .refl
    · exact (step_moves plan s).trans (ih _)

theorem run_of_finished {result : Except DrainError Summary} (h : s.result? = some result)
    (n : Nat) : run E plan n s = s := by
  cases n with
  | zero => rfl
  | succ n => rw [run, phase_of_result? h]

theorem run_of_unfinished (h : s.result? = none) (n : Nat) :
    run E plan (n + 1) s = run E plan n (step E plan s) := by
  rw [run]
  split
  next result hp => simp [State.result?, hp] at h
  next => rfl

theorem run_add (k n : Nat) (s : State ω) :
    run E plan (k + n) s = run E plan n (run E plan k s) := by
  induction k generalizing s with
  | zero => rw [Nat.zero_add, run]
  | succ k ih =>
    cases hu : s.result? with
    | some result => rw [run_of_finished hu, run_of_finished hu, run_of_finished hu]
    | none => rw [Nat.add_right_comm, run_of_unfinished hu, run_of_unfinished hu, ih]

theorem run_succ (plan : Plan) (n : Nat) (s : State ω) :
    run E plan (n + 1) s = step E plan (run E plan n s) := by
  rw [run_add]
  cases hu : (run E plan n s).result? with
  | some result => rw [run_of_finished hu, step_of_finished hu]
  | none => rw [run_of_unfinished hu, run]

/-- What every move keeps holds after several. -/
theorem of_moves {P : State ω → Prop} (hmove : ∀ s s', Move E plan s s' → P s → P s') (h : P s)
    (hmoves : ReflTransGen (Move E plan) s s') : P s' := by
  induction hmoves with
  | refl => exact h
  | tail _ hm ih => exact hmove _ _ hm ih

/-- **What every move keeps holds throughout a run.** -/
theorem run_of_move {P : State ω → Prop} (hmove : ∀ s s', Move E plan s s' → P s → P s')
    (h : P s) (n : Nat) : P (run E plan n s) :=
  of_moves hmove h (run_moves plan n s)

/-! ### The course of a run

Each operation of the coordinator carries on what has led to the state it starts from. -/

section Calmly

variable {c : Course ω}

theorem calmly_close (h : c.Calmly E s.course) (ending : Except DrainError Outcome) :
    c.Calmly E (s.close E ending).course := h.deed (.begin .close nofun)

theorem calmly_cancel (h : c.Calmly E s.course) (outcome : Outcome) :
    c.Calmly E (s.cancel E plan outcome).course :=
  h.deed (.begin (.cancel plan.config.consumerTag) nofun)

theorem calmly_report (h : c.Calmly E s.course) (outcome : Outcome) :
    c.Calmly E (s.report plan outcome).course := h.deed (.tell _)

theorem calmly_giveUp (h : c.Calmly E s.course) : c.Calmly E (s.giveUp plan).course := by
  rw [State.giveUp]
  split
  · exact calmly_report (h.deed (.tell _)) _
  · exact calmly_report h _

theorem calmly_openSession (h : c.Calmly E s.course) :
    c.Calmly E (s.openSession E plan).course := by
  rw [State.openSession]
  split
  · exact calmly_close h _
  · exact h.deed (.begin (.subscribe plan.config.consumerTag) nofun)

theorem calmly_welcome (h : c.Calmly E s.course) (declared : Nat) :
    c.Calmly E (s.welcome plan declared).course := by
  rw [State.welcome]
  split
  · exact h.deed (.tell _)
  · exact h

theorem calmly_established (h : c.Calmly E s.course) (result : Connect.Result) :
    c.Calmly E (s.established E plan result).course := by
  match result with
  | .error _ => exact h
  | .ok none => exact calmly_giveUp h
  | .ok (some declared) => exact calmly_openSession (calmly_welcome h declared)

theorem calmly_polled (h : c.Calmly E s.course) (stage : Stage Poller.Activity Poller.Result) :
    c.Calmly E (s.polled E plan stage).course := by
  match stage with
  | .ongoing _ => exact h
  | .over (.ok outcome) => exact calmly_cancel h outcome
  | .over (.error _) => exact h.deed (.begin .close nofun)

theorem calmly_joined (h : c.Calmly E s.course) (outcome : Outcome) (ending : Consumer.Ending) :
    c.Calmly E (s.joined E outcome ending).course := by
  cases ending with
  | stopped => exact h.deed (.begin .close nofun)
  | failed _ => exact (h.deed (.tell _)).deed (.begin .close nofun)
  | panicked _ => exact (h.deed (.tell _)).deed (.begin .close nofun)

theorem calmly_closed (h : c.Calmly E s.course) (ending : Except DrainError Outcome) :
    c.Calmly E (s.closed plan ending).course := by
  match ending with
  | .ok outcome => exact calmly_report h outcome
  | .error cause =>
    rw [State.closed]
    split
    · exact (h.deed (.tell _)).deed (.tell _)
    · exact h

end Calmly

/-! ### The poller, as the coordinator leaves it -/

theorem giveUp_poller (s : State ω) : (s.giveUp plan).poller = s.poller := by
  rw [State.giveUp]
  split <;> rfl

theorem established_poller (s : State ω) (result : Connect.Result) :
    (s.established E plan result).poller = s.poller := by
  match result with
  | .error _ => rfl
  | .ok none => exact giveUp_poller s
  | .ok (some declared) =>
    show ((s.welcome plan declared).openSession E plan).poller = s.poller
    rw [State.openSession, State.welcome]
    split <;> split <;> rfl

theorem polled_poller (s : State ω) (stage : Stage Poller.Activity Poller.Result) :
    (s.polled E plan stage).poller = s.poller := by
  match stage with
  | .ongoing _ | .over (.ok _) | .over (.error _) => rfl

theorem closed_poller (s : State ω) (ending : Except DrainError Outcome) :
    (s.closed plan ending).poller = s.poller := by
  match ending with
  | .ok _ => rfl
  | .error cause =>
    rw [State.closed]
    split <;> rfl

/-! ### What a move does to the course -/

/-- A depth reading begins when the interval is over, time passes when the coordinator has nothing
to do, and whatever else moves takes no time and begins no reading. -/
theorem Move.calmly_or (h : Move E plan s s') :
    s.course.Calmly E s'.course ∨
    (∃ wake c, s.phase = .polling (.waiting wake) ∧ wake ≤ s.course.now ∧ s.course.Calmly E c ∧
      s'.course = (c.begin E .depth).1 ∧ s'.poller = s.poller ∧
      s'.phase = .polling (.reading (c.begin E .depth).2)) ∨
    (coordinate E plan s = none ∧ s' = { s with course := s.course.advance E (wakes s) }) := by
  have hfinish : ∀ {r c' answer}, s.course.finish E r = (c', answer) → s.course.Calmly E c' :=
    fun {r} {_} {_} hf => by
      simpa only [hf] using (Course.Deed.finish (E := E) (c := s.course) r).calmly
  cases h with
  | connecting _ hm => exact .inl hm.calmly
  | connected _ hm => exact .inl (calmly_established (by exact hm.calmly) _)
  | subscribeFailed _ _ hf => exact .inl (calmly_close (by exact hfinish hf) _)
  | subscribed _ _ hf => exact .inl (calmly_polled (by exact hfinish hf) _)
  | polled hp hr hm =>
    rcases hm.calmly_or with hc | ⟨wake, c, rfl, hw, hc, rfl, rfl, rfl⟩
    · exact .inl (calmly_polled (by exact hr.calmly.trans hc) _)
    · exact .inr (.inl ⟨wake, c, hp, hr.now_eq ▸ hw, hr.calmly.trans hc, rfl, rfl, rfl⟩)
  | abandoned _ _ hr => exact .inl (calmly_close (by exact hr.calmly) _)
  | cancelled _ _ hf => exact .inl (hfinish hf)
  | cancelFailed _ _ hf => exact .inl ((hfinish hf).deed (.tell _))
  | unjoined _ _ => exact .inl (calmly_close (.refl _) _)
  | joined _ _ => exact .inl (calmly_joined (.refl _) _ _)
  | closed _ _ => exact .inl (calmly_closed (by exact (Course.Deed.finish .close).calmly) _)
  | consumer _ _ hm => exact .inl hm.calmly
  | time _ hidle => exact .inr (.inr ⟨hidle, rfl⟩)

/-- A move changes the course through its operations only. -/
theorem Move.reaches (h : Move E plan s s') : s.course.Reaches E s'.course := by
  rcases h.calmly_or with h | ⟨wake, c, -, -, hc, hs', -⟩ | ⟨-, rfl⟩
  · exact h.reaches
  · rw [hs']; exact hc.reaches.act .read
  · exact (Course.Reaches.refl _).act (.advance _)

theorem reaches_of_moves (h : ReflTransGen (Move E plan) s s') : s.course.Reaches E s'.course :=
  of_moves (P := fun s' => s.course.Reaches E s'.course) (fun _ _ hm h => h.trans hm.reaches)
    (.refl _) h

theorem run_reaches (plan : Plan) (n : Nat) (s : State ω) :
    s.course.Reaches E (run E plan n s).course :=
  reaches_of_moves (run_moves plan n s)

/-! ### The beginning -/

/-- A run before it has done anything. -/
def untouched (plan : Plan) (c : Course ω) : State ω :=
  { course := c.tell (.connecting plan.endpoint plan.config.queueName)
    poller := .create plan.config.pollInterval
    worker := .absent
    initialCount := none
    reconnects := 0
    phase := .connecting (.establishing none none) }

theorem start_of_interrupted {c : Course ω} (hi : c.interrupted = true) :
    start E plan c = (untouched plan c).giveUp plan := by
  simp only [start, Connect.establish_of_interrupted (show (c.tell _).interrupted = true from hi)]
  rfl

theorem start_of_not_interrupted {c : Course ω} (hi : c.interrupted = false) :
    start E plan c =
      { untouched plan c with
        course := ((untouched plan c).course.begin E .establish).1
        phase := .connecting
          (.establishing none ((untouched plan c).course.begin E .establish).2) } := by
  simp only [start,
    Connect.establish_of_not_interrupted (show (c.tell _).interrupted = false from hi)]
  rfl

theorem start_calmly (plan : Plan) (c : Course ω) : c.Calmly E (start E plan c).course := by
  have htell : c.Calmly E (untouched plan c).course := (Course.Deed.tell _).calmly
  cases hi : c.interrupted with
  | true => rw [start_of_interrupted hi]; exact calmly_giveUp htell
  | false => rw [start_of_not_interrupted hi]; exact htell.deed (.begin .establish nofun)

end Drain

end QueueDrain
