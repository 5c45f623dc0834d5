import QueueDrain.Config
import QueueDrain.Connect
import QueueDrain.Consumer
import QueueDrain.Poller

/-!
# Draining a queue

The coordinator of a run. It establishes a session, subscribes, lets the consumer reject deliveries
while the poller reads the depth, and closes the session when either of them is over. A transient
error leads to a new session, any other error ends the run, and so do an empty queue and the
operator's interrupt. When the poller has decided, the subscription is cancelled and the rejections
in flight are awaited before the session is closed.

A run is a machine: `step` performs one action of the coordinator or one round of the consumer, and
lets time pass when neither of them can move. Where both can, the environment says who goes first.

## Main definitions

* `Drain.Plan` — what a run is about
* `Drain.Phase`, `Drain.State` — where a run stands
* `Drain.coordinate`, `Drain.consume`, `Drain.step` — one action
* `Drain.start`, `Drain.run` — the beginning of a run, and several steps
* `Drain.Summary` — what a run that did not fail reports
-/

namespace QueueDrain

namespace Drain

variable {ω : Type}

/-- What a run is about. -/
structure Plan where
  config : Config
  /-- The broker's address as it is shown, without credentials. -/
  endpoint : String

/-- What a run that did not fail reports, its times apart. -/
structure Summary where
  queue : String
  endpoint : String
  outcome : Outcome
  rejected : Nat
  polls : Nat
  reconnects : Nat
  lastMessageCount : Option Nat
deriving DecidableEq, Repr

/-- The consumer of a session, as the coordinator sees it. -/
inductive Worker where
  /-- There is none: not yet, or it was stopped in its tracks. -/
  | absent
  | running (consumer : Consumer)
  /-- It is over, and nobody has looked at its ending yet. -/
  | over (ending : Consumer.Ending)
deriving DecidableEq, Repr

/-- A consumer at work, or its ending. -/
def Worker.ofStage : Stage Consumer Consumer.Ending → Worker
  | .ongoing consumer => .running consumer
  | .over ending => .over ending

/-- A consumer that is at work is stopped in its tracks. -/
def Worker.abort : Worker → Worker
  | .running _ => .absent
  | worker => worker

/-- What the coordinator is at. -/
inductive Phase where
  | connecting (activity : Connect.Activity)
  | subscribing (due : Option Nat)
  | polling (activity : Poller.Activity)
  /-- The outcome is decided and the subscription is being cancelled. -/
  | cancelling (outcome : Outcome) (due : Option Nat)
  /-- The subscription is cancelled and the consumer is awaited. -/
  | joining (outcome : Outcome)
  /-- The session is being closed after what it ended with. -/
  | closing (ending : Except DrainError Outcome) (due : Option Nat)
  | finished (result : Except DrainError Summary)

/-- Where a run stands. -/
structure State (ω : Type) where
  course : Course ω
  poller : Poller
  worker : Worker
  /-- The message count of the first session's declaration. -/
  initialCount : Option Nat
  /-- Sessions after the first; the counter wraps. -/
  reconnects : UInt32
  phase : Phase

namespace State

/-- The run is over. -/
def finish (s : State ω) (result : Except DrainError Summary) : State ω :=
  { s with phase := .finished result }

/-- The run ends with an outcome: it is summed up and told. -/
def report (plan : Plan) (s : State ω) (outcome : Outcome) : State ω :=
  let summary : Summary :=
    { queue := plan.config.queueName
      endpoint := plan.endpoint
      outcome
      rejected := s.course.rejected.toNat
      polls := s.poller.polls
      reconnects := s.reconnects.toNat
      lastMessageCount := s.poller.lastCount <|> s.initialCount }
  { s with
    course := s.course.tell (.finished outcome summary.rejected summary.queue)
    phase := .finished (.ok summary) }

/-- The session is being closed from now on. -/
def close (E : Environment ω) (s : State ω) (ending : Except DrainError Outcome) : State ω :=
  let (course, due) := s.course.begin E .close
  { s with course, phase := .closing ending due }

/-- The outcome is decided: the subscription is being cancelled from now on. -/
def cancel (E : Environment ω) (plan : Plan) (s : State ω) (outcome : Outcome) : State ω :=
  let (course, due) := s.course.begin E (.cancel plan.config.consumerTag)
  { s with course, phase := .cancelling outcome due }

/-- A session is open: it is subscribed to, unless the run is interrupted. -/
def openSession (E : Environment ω) (plan : Plan) (s : State ω) : State ω :=
  if s.course.interrupted then s.close E (.ok .interrupted)
  else
    let (course, due) := s.course.begin E (.subscribe plan.config.consumerTag)
    { s with course, phase := .subscribing due }

/-- The run is interrupted while there is no session. -/
def giveUp (plan : Plan) (s : State ω) : State ω :=
  match s.initialCount with
  | none => { s with course := s.course.tell .interruptedEarly }.report plan .interrupted
  | some _ => s.report plan .interrupted

/-- A session is there: the first one is told and its message count kept, a later one is counted. -/
def welcome (plan : Plan) (s : State ω) (declared : Nat) : State ω :=
  match s.initialCount with
  | none =>
    { s with
      course := s.course.tell
        (.holds plan.config.queueName declared plan.config.prefetchCount.toNat)
      initialCount := some declared }
  | some _ => { s with reconnects := s.reconnects + 1 }

/-- An attempt at a session is over, the first one or a repeated one. -/
def established (E : Environment ω) (plan : Plan) (s : State ω) :
    Connect.Result → State ω
  | .error cause => s.finish (.error cause)
  | .ok none => s.giveUp plan
  | .ok (some declared) => (s.welcome plan declared).openSession E plan

/-- The poller's run goes on or is over. Its failure stops the consumer in its tracks. -/
def polled (E : Environment ω) (plan : Plan) (s : State ω)
    (stage : Stage Poller.Activity Poller.Result) : State ω :=
  match stage with
  | .ongoing activity => { s with phase := .polling activity }
  | .over (.ok outcome) => s.cancel E plan outcome
  | .over (.error cause) => { s with worker := .absent }.close E (.error cause)

/-- The error that a consumer's ending is for the session it served. A stream that just ends was
ended by the broker. -/
def endingError (plan : Plan) : Consumer.Ending → DrainError
  | .stopped => .consumerCancelled plan.config.queueName
  | .failed cause => cause
  | .panicked text => .ofPanic text

/-- The consumer is over before the poller has decided. -/
def abandoned (E : Environment ω) (plan : Plan) (s : State ω) (ending : Consumer.Ending) :
    State ω :=
  { s with worker := .absent }.close E (.error (endingError plan ending))

/-- The consumer is over after the poller has decided: whatever it ended with is only told. -/
def joined (E : Environment ω) (s : State ω) (outcome : Outcome) (ending : Consumer.Ending) :
    State ω :=
  let course :=
    match ending with
    | .stopped => s.course
    | .failed cause => s.course.tell (.consumerFailed cause)
    | .panicked text => s.course.tell (.consumerBroke text)
  { s with course, worker := .absent }.close E (.ok outcome)

/-- The session is closed. A transient error leads to further attempts, anything else ends the
run. -/
def closed (plan : Plan) (s : State ω) (ending : Except DrainError Outcome) : State ω :=
  match ending with
  | .ok outcome => s.report plan outcome
  | .error cause =>
    if cause.isTransient then
      let (course, activity) := Connect.reconnect plan.config.reconnectPolicy plan.endpoint
        (s.course.tell (.lostSession cause))
      { s with course, phase := .connecting activity }
    else s.finish (.error cause)

end State

/-! ### The coordinator -/

/-- One action while a session is being established. -/
def coordinateConnecting (E : Environment ω) (plan : Plan) (s : State ω) (a : Connect.Activity) :
    Option (State ω) :=
  match Connect.step E plan.config.reconnectPolicy plan.endpoint a s.course with
  | none => none
  | some (course, .ongoing a) => some { s with course, phase := .connecting a }
  | some (course, .over result) => some ({ s with course }.established E plan result)

/-- One action while the subscription is being made. -/
def coordinateSubscribing (E : Environment ω) (plan : Plan) (s : State ω) (due : Option Nat) :
    Option (State ω) :=
  if reached due s.course.now then
    match s.course.finish E (.subscribe plan.config.consumerTag) with
    | (course, .error cause) => some ({ s with course }.close E (.error cause))
    | (course, .ok _) =>
      let worker := .running { limit := plan.config.prefetchCount.toNat }
      some ({ s with course, worker }.polled E plan (s.poller.enter course))
  else none

/-- One action while the poller and the consumer are at work. If the consumer is over and the
poller can act too, either may be looked at first. -/
def coordinatePolling (E : Environment ω) (plan : Plan) (s : State ω) (a : Poller.Activity) :
    Option (State ω) :=
  match s.worker, s.poller.step E a s.course with
  | .over ending, none => some (s.abandoned E plan ending)
  | .over ending, some _ =>
    let (course, pollerFirst) := s.course.race E
    let s := { s with course }
    if pollerFirst then
      match s.poller.step E a s.course with
      | some (course, poller, stage) => some ({ s with course, poller }.polled E plan stage)
      | none => some (s.abandoned E plan ending)
    else some (s.abandoned E plan ending)
  | _, some (course, poller, stage) => some ({ s with course, poller }.polled E plan stage)
  | _, none => none

/-- One action while the subscription is being cancelled. If that fails, a consumer that is still
at work is stopped in its tracks. -/
def coordinateCancelling (E : Environment ω) (plan : Plan) (s : State ω) (outcome : Outcome)
    (due : Option Nat) : Option (State ω) :=
  if reached due s.course.now then
    match s.course.finish E (.cancel plan.config.consumerTag) with
    | (course, .ok _) => some { s with course, phase := .joining outcome }
    | (course, .error cause) =>
      let course := course.tell (.cancelFailed plan.config.consumerTag cause)
      some { s with course, worker := s.worker.abort, phase := .joining outcome }
  else none

/-- One action of the coordinator, or nothing if it has to wait. -/
def coordinate (E : Environment ω) (plan : Plan) (s : State ω) : Option (State ω) :=
  match s.phase with
  | .connecting a => coordinateConnecting E plan s a
  | .subscribing due => coordinateSubscribing E plan s due
  | .polling a => coordinatePolling E plan s a
  | .cancelling outcome due => coordinateCancelling E plan s outcome due
  | .joining outcome =>
    match s.worker with
    | .running _ => none
    | .absent => some (s.close E (.ok outcome))
    | .over ending => some (s.joined E outcome ending)
  | .closing ending due =>
    if reached due s.course.now then
      some ({ s with course := (s.course.finish E .close).1 }.closed plan ending)
    else none
  | .finished _ => none

/-! ### The consumer, and time -/

/-- One round of the consumer, if there is one at work. The truth value tells whether more may
happen at this instant. -/
def consume (E : Environment ω) (plan : Plan) (s : State ω) : State ω × Bool :=
  match s.worker with
  | .running k =>
    match k.step E plan.config.queueName s.course with
    | (course, .ongoing k, moved) => ({ s with course, worker := .running k }, moved)
    | (course, .over ending, _) => ({ s with course, worker := .over ending }, true)
  | _ => (s, false)

/-- The instants at which the coordinator or the consumer can go on by itself. -/
def wakes (s : State ω) : List (Option Nat) :=
  let own :=
    match s.phase with
    | .connecting a => a.wake
    | .subscribing due => due
    | .polling a => a.wake
    | .cancelling _ due => due
    | .joining _ => none
    | .closing _ due => due
    | .finished _ => none
  match s.worker with
  | .running k => own :: k.wakes
  | _ => [own]

/-- One step of a run: an action of the coordinator, unless the consumer goes first, or else a round
of the consumer. A round that moved nothing may still have brought the operator's interrupt, so the
coordinator is looked at once more before time passes. A finished run stays as it is. -/
def step (E : Environment ω) (plan : Plan) (s : State ω) : State ω :=
  match s.phase with
  | .finished _ => s
  | _ =>
    match if E.consumerFirst s.course.world then none else coordinate E plan s with
    | some s => s
    | none =>
      match consume E plan s with
      | (s, true) => s
      | (s, false) =>
        match coordinate E plan s with
        | some s => s
        | none => { s with course := s.course.advance E (wakes s) }

/-- The result of a run that is over. -/
def State.result? (s : State ω) : Option (Except DrainError Summary) :=
  match s.phase with
  | .finished result => some result
  | _ => none

/-- The beginning of a run in the course that it is to continue. -/
def start (E : Environment ω) (plan : Plan) (c : Course ω) : State ω :=
  let s : State ω :=
    { course := c.tell (.connecting plan.endpoint plan.config.queueName)
      poller := .create plan.config.pollInterval
      worker := .absent
      initialCount := none
      reconnects := 0
      phase := .connecting (.establishing none none) }
  match Connect.establish E none s.course with
  | (course, .ongoing a) => { s with course, phase := .connecting a }
  | (course, .over result) => { s with course }.established E plan result

/-- As many steps as the fuel allows, or as it takes for the run to be over. -/
def run (E : Environment ω) (plan : Plan) : Nat → State ω → State ω
  | 0, s => s
  | fuel + 1, s =>
    match s.phase with
    | .finished _ => s
    | _ => run E plan fuel (step E plan s)

end Drain

end QueueDrain
