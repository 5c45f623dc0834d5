import QueueDrain.Proofs.Moves

/-!
# Environments that look alike

A run knows its environment by what the operations on it give, and never looks at the environment's
state. So if one environment is the image of another one under a map of their states, then a run in
the one is the image of a run in the other, and both have the same trace and the same result.

## Main definitions

* `Environment.Mirrors` — an environment that is the image of another one
* `Course.map`, `Drain.State.map` — a course and a run with the states of the environment mapped

## Main results

* `Environment.Mirrors.step`, `Environment.Mirrors.runs` — steps and runs are mapped to such
-/

namespace QueueDrain

variable {ω ω' α : Type}

/-- What an effect leaves, with the state mapped. -/
def Effect.map (f : ω → ω') (effect : Effect ω α) : Effect ω' α where
  state := f effect.state
  value := effect.value
  interrupts := effect.interrupts
  notices := effect.notices

@[simp] theorem Effect.map_value (effect : Effect ω α) (f : ω → ω') :
    (effect.map f).value = effect.value := rfl

/-- Every operation gives on the image of a state what it gives on the state, and leads to the image
of what it leads to there. -/
structure Environment.Mirrors (f : ω → ω') (E : Environment ω) (E' : Environment ω') : Prop where
  nextChange (w : ω) : E'.nextChange (f w) = E.nextChange w
  pass (t : Nat) (w : ω) : E'.pass t (f w) = (E.pass t w).map f
  start (t : Nat) (r : Request) (w : ω) : E'.start t r (f w) = (E.start t r w).map f
  answer (t : Nat) (r : Request) (w : ω) : E'.answer t r (f w) = (E.answer t r w).map f
  ask (t : Nat) (w : ω) : E'.ask t (f w) = (E.ask t w).map f
  startReject (t tag : Nat) (w : ω) : E'.startReject t tag (f w) = (E.startReject t tag w).map f
  finishReject (t tag : Nat) (w : ω) :
    E'.finishReject t tag (f w) = (E.finishReject t tag w).map f
  race (w : ω) : E'.race (f w) = (E.race w).map f id
  consumerFirst (w : ω) : E'.consumerFirst (f w) = E.consumerFirst w

/-- A course with the state of the environment mapped. -/
def Course.map (f : ω → ω') (c : Course ω) : Course ω' := { c with world := f c.world }

/-- A run with the state of the environment mapped. -/
def Drain.State.map (f : ω → ω') (s : Drain.State ω) : Drain.State ω' :=
  { s with course := s.course.map f }

variable {f : ω → ω'} {E : Environment ω} {E' : Environment ω'}

namespace Course

@[simp] theorem map_now (c : Course ω) : (c.map f).now = c.now := rfl

@[simp] theorem map_world (c : Course ω) : (c.map f).world = f c.world := rfl

@[simp] theorem map_interrupted (c : Course ω) : (c.map f).interrupted = c.interrupted := rfl

@[simp] theorem map_trace (c : Course ω) : (c.map f).trace = c.trace := rfl

theorem map_note (c : Course ω) (e : Event) : (c.map f).note e = (c.note e).map f := rfl

theorem map_absorb (c : Course ω) (effect : Effect ω α) :
    (c.map f).absorb (effect.map f) = (c.absorb effect).map f := by
  rw [absorb_eq, absorb_eq]
  rfl

end Course

namespace Environment.Mirrors

/-! ### Operations on a course -/

section Course

variable (h : Mirrors f E E') (c : Course ω)
include h

theorem begin (r : Request) : (c.map f).begin E' r = (c.begin E r).map (Course.map f) id := by
  rw [Course.begin, Course.begin, Course.map_note, Course.map_world, h.start, Course.map_absorb]
  rfl

theorem finish (r : Request) : (c.map f).finish E' r = (c.finish E r).map (Course.map f) id := by
  rw [Course.finish_eq, Course.finish_eq, Course.map_world, h.answer, Course.map_absorb]
  rfl

theorem asked : (c.map f).ask E' = (c.ask E).map (Course.map f) id := by
  rw [Course.ask, Course.ask, Course.map_world, h.ask, Course.map_absorb]
  cases hevent : (E.ask c.now c.world).value.event? <;>
    simp only [Effect.map_value, Course.map_now, hevent] <;> rfl

theorem rejectStarted (tag : Nat) :
    (c.map f).startReject E' tag = (c.startReject E tag).map (Course.map f) id := by
  rw [Course.startReject, Course.startReject, Course.map_world, h.startReject, Course.map_absorb]
  rfl

theorem rejectFinished (tag : Nat) :
    (c.map f).finishReject E' tag = (c.finishReject E tag).map (Course.map f) id := by
  rw [Course.finishReject, Course.finishReject, Course.map_world, h.finishReject, Course.map_absorb]
  cases hvalue : (E.finishReject c.now tag c.world).value <;>
    simp only [Effect.map_value, Course.map_now, hvalue] <;> rfl

theorem raced : (c.map f).race E' = (c.race E).map (Course.map f) id := by
  rw [Course.race, Course.race, Course.map_world, h.race]
  rfl

theorem advance (wakes : List (Option Nat)) :
    (c.map f).advance E' wakes = (c.advance E wakes).map f := by
  rw [Course.advance, Course.advance, Course.map_world, h.nextChange]
  split
  · rfl
  · rename_i t _
    show Course.absorb _ (E'.pass (max c.now t) (f c.world)) = _
    rw [h.pass]
    exact Course.map_absorb { c with now := max c.now t } _

end Course

/-! ### The parts of a run -/

section Parts

variable (h : Mirrors f E E') (c : Course ω)
include h

theorem establish (attempt : Option Nat) :
    Connect.establish E' attempt (c.map f)
      = (Connect.establish E attempt c).map (Course.map f) id := by
  rw [Connect.establish, Connect.establish, Course.map_interrupted]
  split
  · rfl
  · rw [h.begin]
    rfl

theorem connectReceive (policy : Backoff.Policy) (endpoint : String) (attempt : Option Nat) :
    Connect.receive E' policy endpoint attempt (c.map f)
      = (Connect.receive E policy endpoint attempt c).map (Course.map f) id := by
  unfold Connect.receive
  rw [h.finish]
  rcases c.finish E .establish with ⟨c', cause | declared⟩
  · cases attempt with
    | none => rfl
    | some k =>
      simp only [Prod.map, id]
      cases cause.isTransient <;> rfl
  · cases attempt <;> rfl

theorem connectStep (policy : Backoff.Policy) (endpoint : String) (a : Connect.Activity) :
    Connect.step E' policy endpoint a (c.map f)
      = (Connect.step E policy endpoint a c).map (Prod.map (Course.map f) id) := by
  cases a with
  | backingOff attempt wake =>
    cases hi : c.interrupted with
    | true =>
      by_cases hw : wake ≤ c.now
      · simp only [Connect.step, Course.map_interrupted, Course.map_now, hi, hw, decide_true,
          if_true, h.raced]
        rcases c.race E with ⟨c', _ | _⟩
        · exact congrArg some (h.establish c' (some attempt))
        · rfl
      · simp only [Connect.step, Course.map_interrupted, Course.map_now, hi, hw, decide_false,
          if_true, Bool.false_eq_true, if_false]
        rfl
    | false =>
      by_cases hw : wake ≤ c.now
      · simp only [Connect.step, Course.map_interrupted, Course.map_now, hi, hw, decide_true,
          if_true, Bool.false_eq_true, if_false]
        exact congrArg some (h.establish c (some attempt))
      · simp only [Connect.step, Course.map_interrupted, Course.map_now, hi, hw, decide_false,
          Bool.false_eq_true, if_false]
        rfl
  | establishing attempt due =>
    cases hi : c.interrupted with
    | true => simp only [Connect.step, Course.map_interrupted, hi, if_true]; rfl
    | false =>
      cases hd : reached due c.now <;>
        simp only [Connect.step, Course.map_interrupted, Course.map_now, hi, hd, if_true,
          Bool.false_eq_true, if_false, h.connectReceive] <;> rfl

theorem read : Poller.read E' (c.map f) = (Poller.read E c).map (Course.map f) id := by
  rw [Poller.read, Poller.read, h.begin]
  rfl

theorem pollerReceive (p : Poller) :
    Poller.receive E' p (c.map f) = (Poller.receive E p c).map (Course.map f) id := by
  unfold Poller.receive
  rw [h.finish]
  rcases c.finish E .depth with ⟨c', cause | count⟩ <;> rfl

theorem pollerStep (p : Poller) (a : Poller.Activity) :
    Poller.step E' p a (c.map f) = (Poller.step E p a c).map (Prod.map (Course.map f) id) := by
  cases a with
  | waiting wake =>
    cases hi : c.interrupted with
    | true =>
      by_cases hw : wake ≤ c.now
      · simp only [Poller.step, Course.map_interrupted, Course.map_now, hi, hw, decide_true,
          if_true, h.raced]
        rcases c.race E with ⟨c', _ | _⟩
        · simp only [Prod.map, Bool.false_eq_true, if_false, h.read]
          rfl
        · rfl
      · simp only [Poller.step, Course.map_interrupted, Course.map_now, hi, hw, decide_false,
          if_true, Bool.false_eq_true, if_false]
        rfl
    | false =>
      by_cases hw : wake ≤ c.now <;>
        simp only [Poller.step, Course.map_interrupted, Course.map_now, hi, hw, decide_true,
          decide_false, if_true, Bool.false_eq_true, if_false, h.read] <;> rfl
  | reading due =>
    cases hd : reached due c.now with
    | true =>
      simp only [Poller.step, Course.map_now, hd, if_true, h.pollerReceive]
      rcases Poller.receive E p c with ⟨c', p', cause | count⟩ <;> rfl
    | false => simp only [Poller.step, Course.map_now, hd, Bool.false_eq_true, if_false]; rfl

theorem take (k : Consumer) :
    Consumer.take E' k (c.map f) = (Consumer.take E k c).map (Course.map f) id := by
  cases hroom : k.streamOpen && k.hasRoom with
  | true =>
    simp only [Consumer.take, hroom, if_true, h.asked]
    rcases c.ask E with ⟨c', offer⟩
    cases offer with
    | delivery tag =>
      simp only [Prod.map, id, h.rejectStarted]
    | _ => rfl
  | false => simp only [Consumer.take, hroom, Bool.false_eq_true, if_false]; rfl

theorem settle (k : Consumer) :
    Consumer.settle E' k (c.map f) = (Consumer.settle E k c).map (Course.map f) id := by
  simp only [Consumer.settle, Course.map_now]
  split
  · rfl
  · rename_i r _
    simp only [h.rejectFinished]
    rcases c.finishReject E r.tag with ⟨c', settlement⟩
    cases settlement <;> rfl

theorem consumerStep (queue : String) (k : Consumer) :
    Consumer.step E' queue k (c.map f) = (Consumer.step E queue k c).map (Course.map f) id := by
  simp only [Consumer.step, h.take]
  rcases Consumer.take E k c with ⟨c₁, k₁ | ending, took⟩
  · simp only [Prod.map, id, h.settle]
    rcases Consumer.settle E k₁ c₁ with ⟨c₂, k₂ | ending, settled⟩
    · rfl
    · cases ending <;> rfl
  · rfl

end Parts

end Environment.Mirrors

/-! ### The coordinator -/

namespace Drain.State

variable {plan : Plan} (s : State ω)

theorem map_giveUp : (s.map f).giveUp plan = (s.giveUp plan).map f := by
  cases hi : s.initialCount with
  | none => simp only [giveUp, show (s.map f).initialCount = none from hi, hi]; rfl
  | some count => simp only [giveUp, show (s.map f).initialCount = some count from hi, hi]; rfl

theorem map_welcome (declared : Nat) :
    (s.map f).welcome plan declared = (s.welcome plan declared).map f := by
  cases hi : s.initialCount with
  | none => simp only [welcome, show (s.map f).initialCount = none from hi, hi]; rfl
  | some count => simp only [welcome, show (s.map f).initialCount = some count from hi, hi]; rfl

theorem map_closed (ending : Except DrainError Outcome) :
    (s.map f).closed plan ending = (s.closed plan ending).map f := by
  match ending with
  | .ok outcome => rfl
  | .error cause => cases ht : cause.isTransient <;> simp only [closed, ht] <;> rfl

end Drain.State

namespace Environment.Mirrors

open Drain

section Coordinator

variable {plan : Plan} (h : Mirrors f E E') (s : Drain.State ω)
include h

theorem close (ending : Except DrainError Outcome) :
    (s.map f).close E' ending = (s.close E ending).map f := by
  simp only [State.close, show (s.map f).course = s.course.map f from rfl, h.begin]
  rfl

theorem cancel (outcome : Outcome) :
    (s.map f).cancel E' plan outcome = (s.cancel E plan outcome).map f := by
  simp only [State.cancel, show (s.map f).course = s.course.map f from rfl, h.begin]
  rfl

theorem openSession : (s.map f).openSession E' plan = (s.openSession E plan).map f := by
  cases hi : s.course.interrupted with
  | true =>
    simp only [State.openSession, show (s.map f).course.interrupted = true from hi, hi, if_true]
    exact h.close s _
  | false =>
    simp only [State.openSession, show (s.map f).course = s.course.map f from rfl, h.begin,
      Course.map_interrupted, hi, Bool.false_eq_true, if_false]
    rfl

theorem established (result : Connect.Result) :
    (s.map f).established E' plan result = (s.established E plan result).map f := by
  match result with
  | .error _ => rfl
  | .ok none => exact s.map_giveUp
  | .ok (some declared) =>
    rw [State.established, State.established, s.map_welcome]
    exact h.openSession _

theorem polled (stage : Stage Poller.Activity Poller.Result) :
    (s.map f).polled E' plan stage = (s.polled E plan stage).map f := by
  match stage with
  | .ongoing _ => rfl
  | .over (.ok outcome) => exact h.cancel s outcome
  | .over (.error cause) => exact h.close { s with worker := .absent } (.error cause)

theorem abandoned (ending : Consumer.Ending) :
    (s.map f).abandoned E' plan ending = (s.abandoned E plan ending).map f :=
  h.close { s with worker := .absent } _

theorem joined (outcome : Outcome) (ending : Consumer.Ending) :
    (s.map f).joined E' outcome ending = (s.joined E outcome ending).map f := by
  cases ending with
  | stopped => exact h.close { s with worker := .absent } _
  | failed cause =>
    exact h.close { s with course := s.course.tell (.consumerFailed cause), worker := .absent } _
  | panicked text =>
    exact h.close { s with course := s.course.tell (.consumerBroke text), worker := .absent } _

theorem coordinateConnecting (a : Connect.Activity) :
    Drain.coordinateConnecting E' plan (s.map f) a
      = (Drain.coordinateConnecting E plan s a).map (State.map f) := by
  simp only [Drain.coordinateConnecting, show (s.map f).course = s.course.map f from rfl,
    h.connectStep]
  rcases Connect.step E plan.config.reconnectPolicy plan.endpoint a s.course with
    _ | ⟨c', a' | result⟩
  · rfl
  · rfl
  · exact congrArg some (h.established { s with course := c' } result)

theorem coordinateSubscribing (due : Option Nat) :
    Drain.coordinateSubscribing E' plan (s.map f) due
      = (Drain.coordinateSubscribing E plan s due).map (State.map f) := by
  cases hd : reached due s.course.now with
  | true =>
    simp only [Drain.coordinateSubscribing, show (s.map f).course = s.course.map f from rfl,
      Course.map_now, hd, if_true, h.finish]
    rcases s.course.finish E (.subscribe plan.config.consumerTag) with ⟨c', cause | count⟩
    · exact congrArg some (h.close { s with course := c' } (.error cause))
    · exact congrArg some (h.polled { s with course := c', worker := _ } _)
  | false =>
    simp only [Drain.coordinateSubscribing, show (s.map f).course = s.course.map f from rfl,
      Course.map_now, hd, Bool.false_eq_true, if_false]
    rfl

/-- The poller acts, or the consumer is looked at first. -/
theorem coordinatePolling (a : Poller.Activity) :
    Drain.coordinatePolling E' plan (s.map f) a
      = (Drain.coordinatePolling E plan s a).map (State.map f) := by
  cases hw : s.worker with
  | absent | running k =>
    simp only [Drain.coordinatePolling, show (s.map f).worker = s.worker from rfl, hw,
      show (s.map f).course = s.course.map f from rfl, show (s.map f).poller = s.poller from rfl,
      h.pollerStep]
    rcases s.poller.step E a s.course with _ | ⟨c', p', stage⟩
    · rfl
    · exact congrArg some (h.polled { s with course := c', poller := p', worker := _ } stage)
  | _ =>
    rename_i ending
    simp only [Drain.coordinatePolling, show (s.map f).worker = .over ending from hw, hw,
      show (s.map f).course = s.course.map f from rfl, show (s.map f).poller = s.poller from rfl,
      h.pollerStep, h.raced]
    rcases s.poller.step E a s.course with _ | ⟨c', p', stage⟩
    · exact congrArg some (h.abandoned s ending)
    · rcases s.course.race E with ⟨c₀, _ | _⟩
      · exact congrArg some (h.abandoned { s with course := c₀, worker := _ } ending)
      · simp only [Option.map_some, Prod.map, id, if_true, h.pollerStep]
        rcases s.poller.step E a c₀ with _ | ⟨c', p', stage⟩
        · exact congrArg some (h.abandoned { s with course := c₀, worker := _ } ending)
        · exact congrArg some (h.polled { s with course := c', poller := p', worker := _ } stage)

theorem coordinateCancelling (outcome : Outcome) (due : Option Nat) :
    Drain.coordinateCancelling E' plan (s.map f) outcome due
      = (Drain.coordinateCancelling E plan s outcome due).map (State.map f) := by
  cases hd : reached due s.course.now with
  | true =>
    simp only [Drain.coordinateCancelling, show (s.map f).course = s.course.map f from rfl,
      Course.map_now, hd, if_true, h.finish]
    rcases s.course.finish E (.cancel plan.config.consumerTag) with ⟨c', cause | count⟩ <;> rfl
  | false =>
    simp only [Drain.coordinateCancelling, show (s.map f).course = s.course.map f from rfl,
      Course.map_now, hd, Bool.false_eq_true, if_false]
    rfl

theorem coordinate :
    Drain.coordinate E' plan (s.map f) = (Drain.coordinate E plan s).map (State.map f) := by
  rw [Drain.coordinate, Drain.coordinate, show (s.map f).phase = s.phase from rfl]
  split
  · exact h.coordinateConnecting s _
  · exact h.coordinateSubscribing s _
  · exact h.coordinatePolling s _
  · exact h.coordinateCancelling s _ _
  · rename_i outcome _
    rw [show (s.map f).worker = s.worker from rfl]
    split
    · rfl
    · exact congrArg some (h.close s (.ok outcome))
    · exact congrArg some (h.joined s outcome _)
  · rename_i ending due _
    rw [show (s.map f).course = s.course.map f from rfl, Course.map_now, h.finish]
    split
    · exact congrArg some ({ s with course := (s.course.finish E .close).1 }.map_closed ending)
    · rfl
  · rfl

theorem consume :
    Drain.consume E' plan (s.map f) = (Drain.consume E plan s).map (State.map f) id := by
  rw [Drain.consume, Drain.consume, show (s.map f).worker = s.worker from rfl]
  split
  · rename_i k _
    rw [show (s.map f).course = s.course.map f from rfl, h.consumerStep]
    rcases Consumer.step E plan.config.queueName k s.course with ⟨c', k' | ending, moved⟩ <;> rfl
  · rfl

/-- **A step is mapped to a step.** -/
theorem step : Drain.step E' plan (s.map f) = (Drain.step E plan s).map f := by
  cases hu : s.result? with
  | some result => rw [step_of_finished hu, step_of_finished (show (s.map f).result? = _ from hu)]
  | none =>
    rw [step_of_unfinished hu, step_of_unfinished (show (s.map f).result? = _ from hu),
      show (s.map f).course.world = f s.course.world from rfl, h.consumerFirst, h.coordinate,
      h.consume]
    have hskip : (if E.consumerFirst s.course.world then none
          else (Drain.coordinate E plan s).map (State.map f))
        = (if E.consumerFirst s.course.world then none
          else Drain.coordinate E plan s).map (State.map f) := by
      split <;> rfl
    rw [hskip]
    rcases (if E.consumerFirst s.course.world then none else Drain.coordinate E plan s) with _ | s₁
    · rcases Drain.consume E plan s with ⟨s₁, _ | _⟩
      · simp only [Option.map_none, Prod.map, id, h.coordinate]
        rcases Drain.coordinate E plan s₁ with _ | s₂
        · exact congrArg (fun c => { s₁ with course := c : Drain.State ω' })
            (h.advance s₁.course (wakes s₁))
        · rfl
      · rfl
    · rfl

/-- **A run is mapped to a run.** -/
theorem run (n : Nat) : Drain.run E' plan n (s.map f) = (Drain.run E plan n s).map f := by
  induction n generalizing s with
  | zero => rfl
  | succ n ih =>
    rw [Drain.run, Drain.run, show (s.map f).phase = s.phase from rfl]
    split
    · rfl
    · rw [h.step, ih]

theorem started (plan : Plan) (c : Course ω) :
    Drain.start E' plan (c.map f) = (Drain.start E plan c).map f := by
  cases hi : c.interrupted with
  | true =>
    rw [start_of_interrupted hi, start_of_interrupted (show (c.map f).interrupted = true from hi)]
    exact (untouched plan c).map_giveUp
  | false =>
    rw [start_of_not_interrupted hi,
      start_of_not_interrupted (show (c.map f).interrupted = false from hi),
      show (untouched plan (c.map f)).course = (untouched plan c).course.map f from rfl, h.begin]
    rfl

/-- From the beginning on, a run in the image of an environment is the image of the run. -/
theorem runs (plan : Plan) (now : Nat) (w : ω) (rejected : UInt64) (interrupted : Bool) (n : Nat) :
    Drain.run E' plan n (Drain.start E' plan (.opening now (f w) rejected interrupted))
      = (Drain.run E plan n (Drain.start E plan (.opening now w rejected interrupted))).map f := by
  rw [← h.run, ← h.started]
  rfl

end Coordinator

end Environment.Mirrors

end QueueDrain
