import QueueDrain.Drain

/-!
# Scripted surroundings

An environment that follows a script: how long each answer takes, which of them fail, when messages
arrive, when the operator interrupts and what becomes of each delivery stream. It keeps the ledger
of a broker: a message is ready, or outstanding once delivered, or dead-lettered once rejected, and
closing a session makes what is outstanding ready again.

## Main definitions

* `Scenario` — the script, in full and with defaults that fail nothing
* `Scenario.State` — the ledger, and how far the script has been followed
* `Scenario.environment` — the script as an environment
* `Scenario.opening` — the state before anything happens
-/

namespace QueueDrain

/-- One scripted action: it takes a while, then may interrupt the run, then may fail. -/
structure Scenario.Step where
  delay : Nat := 0
  interrupts : Bool := false
  error : Option DrainError := none

/-- A scripted attempt at a session. -/
structure Scenario.Attempt extends Scenario.Step where
  /-- The attempt never gets an answer. -/
  stalls : Bool := false
  /-- The message count that the declaration gives, if it is not the number of ready messages. -/
  declared : Option Nat := none

/-- A scripted depth reading. -/
structure Scenario.Reading extends Scenario.Step where
  /-- The count, if it is not the number of ready messages. -/
  count : Option Nat := none

/-- How a delivery stream ends by itself. -/
inductive Scenario.Fault where
  | fails (cause : DrainError)
  | ends
  | breaks

/-- A scripted delivery stream. -/
structure Scenario.Stream where
  /-- The pause before each delivery. -/
  pace : Option Nat := none
  /-- The number of deliveries behind which the stream ends by itself. -/
  after : Option Nat := none
  /-- The time without a ready message after which the stream ends by itself. -/
  afterIdle : Option Nat := none
  fault : Scenario.Fault := .ends

/-- A scripted session. -/
structure Scenario.Session where
  subscribe : Scenario.Step := {}
  polls : List Scenario.Reading := []
  cancel : Scenario.Step := {}
  closeDelay : Nat := 0
  stream : Scenario.Stream := {}

/-- How rejecting a certain delivery goes wrong. -/
inductive Scenario.RejectFault where
  | fails (cause : DrainError)
  | breaks

/-- A script. -/
structure Scenario where
  /-- Messages in the queue at the beginning. -/
  messages : Nat := 0
  /-- Later arrivals: instants with numbers of messages. -/
  arrivals : List (Nat × Nat) := []
  /-- The attempts at a session, first to last; further ones succeed at once. -/
  attempts : List Scenario.Attempt := []
  /-- The sessions, first to last; further ones go without a fault. -/
  sessions : List Scenario.Session := []
  /-- How long rejections take: delivery `t` takes what stands at `t - 1` in the endless repetition
  of the list, and nothing if the list is empty. -/
  latencies : List Nat := []
  /-- The deliveries whose rejection goes wrong. -/
  rejectFaults : List (Nat × Scenario.RejectFault) := []
  /-- Who is looked at first where two things are ready; the first one beyond the end. -/
  races : List Bool := []

namespace Scenario

/-- A pause that the delivery stream makes. -/
inductive Pause where
  /-- None. -/
  | none
  /-- Before a delivery, up to an instant. -/
  | pacing (wake : Nat)
  /-- While nothing is ready, up to the instant of the fault. -/
  | idling (wake : Nat)
deriving DecidableEq, Repr

/-- A delivery stream at work. -/
structure StreamState where
  script : Stream
  session : Nat
  delivered : Nat := 0
  cancelled : Bool := false
  pause : Pause := .none

/-- The ledger, and how far the script has been followed. -/
structure State where
  ready : Nat
  outstanding : Nat := 0
  maxOutstanding : Nat := 0
  deadLettered : Nat := 0
  /-- The number of the latest delivery. -/
  lastTag : Nat := 0
  attempts : Nat := 0
  sessions : Nat := 0
  closes : Nat := 0
  /-- Depth readings begun in the session. -/
  polls : Nat := 0
  /-- Arrivals still to come. -/
  arrivals : List (Nat × Nat)
  /-- Messages that have arrived. -/
  arrived : Nat := 0
  /-- When the operator interrupts. -/
  interruptAt : Option Nat := none
  /-- When the stream is cancelled from outside. -/
  cancelAt : Option Nat := none
  stream : Option StreamState := none
  /-- Races decided. -/
  raced : Nat := 0

/-- The state before anything happens. -/
def opening (script : Scenario) : State :=
  { ready := script.messages, arrivals := script.arrivals }

/-- The state with an interrupt that is to come. -/
def State.expecting (s : State) (interrupt : Interrupt) (now : Nat) : State :=
  { s with interruptAt := interrupt.instant? now }

/-- The state with a delivery stream that is there without a session having been opened, to be
cancelled like a run that is interrupted. -/
def State.streaming (s : State) (stream : Stream) (cancel : Interrupt) : State :=
  { s with
    stream := some { script := stream, session := 1, cancelled := cancel.isEarly }
    cancelAt := cancel.instant? 0 }

/-- The script of the current session. -/
def session (script : Scenario) (s : State) : Session :=
  (script.sessions[s.sessions - 1]?).getD {}

/-- The script of the latest attempt. -/
def attempt (script : Scenario) (s : State) : Attempt :=
  (script.attempts[s.attempts - 1]?).getD {}

/-- The script of the latest depth reading. -/
def reading (script : Scenario) (s : State) : Reading :=
  ((script.session s).polls[s.polls - 1]?).getD {}

/-- How long the rejection of a delivery takes. -/
def latency (script : Scenario) (tag : Nat) : Nat :=
  (script.latencies[(tag - 1) % script.latencies.length]?).getD 0

/-! ### Changes without being asked -/

/-- The instant of the next change: an arrival, the operator, or a cancel from outside. -/
def nextChange (s : State) : Option Nat :=
  earliest (s.interruptAt :: s.cancelAt :: s.arrivals.map fun a => some a.1)

/-- The messages that arrive up to an instant. -/
def due (now : Nat) (arrivals : List (Nat × Nat)) : List (Nat × Nat) :=
  arrivals.filter fun a => a.1 ≤ now

/-- A stream that waits for a message starts its wait afresh when one arrives. -/
def StreamState.stir (stream : StreamState) : StreamState :=
  match stream.pause with
  | .idling _ => { stream with pause := .none }
  | _ => stream

/-- The clock reaches an instant. -/
def pass (now : Nat) (s : State) : Effect State Unit :=
  let arriving := due now s.arrivals
  let number := (arriving.map Prod.snd).foldr (· + ·) 0
  let s :=
    if arriving.isEmpty then s
    else
      { s with
        ready := s.ready + number
        arrived := s.arrived + number
        arrivals := s.arrivals.filter fun a => now < a.1
        stream := s.stream.map StreamState.stir }
  let s :=
    if reached s.cancelAt now then
      { s with cancelAt := none, stream := s.stream.map fun st => { st with cancelled := true } }
    else s
  if reached s.interruptAt now then
    { state := { s with interruptAt := none }, value := (), interrupts := true }
  else { state := s, value := () }

/-! ### Requests -/

/-- A request begins. -/
def start (script : Scenario) (now : Nat) (request : Request) (s : State) :
    Effect State (Option Nat) :=
  match request with
  | .establish =>
    let s := { s with attempts := s.attempts + 1 }
    let step := script.attempt s
    { state := s, value := if step.stalls then none else some (now + step.delay) }
  | .depth =>
    let s := { s with polls := s.polls + 1 }
    { state := s, value := some (now + (script.reading s).delay) }
  | .subscribe _ => { state := s, value := some (now + (script.session s).subscribe.delay) }
  | .cancel _ => { state := s, value := some (now + (script.session s).cancel.delay) }
  | .close => { state := s, value := some (now + (script.session s).closeDelay) }

/-- A scripted action comes to its end: it fails as the script says, or else changes the state and
gives a count. -/
def settleStep (step : Step) (s : State) (succeed : State → State × Nat) :
    Effect State (Except DrainError Nat) :=
  match step.error with
  | some cause => { state := s, value := .error cause, interrupts := step.interrupts }
  | none =>
    let (s, count) := succeed s
    { state := s, value := .ok count, interrupts := step.interrupts }

/-- The session is gone: its stream is cancelled and what was outstanding is ready again. -/
def State.requeue (s : State) : State :=
  { s with
    ready := s.ready + s.outstanding
    outstanding := 0
    closes := s.closes + 1
    stream := none }

/-- A request is answered. -/
def answer (script : Scenario) (request : Request) (s : State) :
    Effect State (Except DrainError Nat) :=
  match request with
  | .establish =>
    let step := script.attempt s
    settleStep step.toStep s fun s =>
      ({ s with sessions := s.sessions + 1, polls := 0, stream := none },
        step.declared.getD s.ready)
  | .depth =>
    let step := script.reading s
    settleStep step.toStep s fun s => (s, step.count.getD s.ready)
  | .subscribe _ =>
    let session := script.session s
    settleStep session.subscribe s fun s =>
      ({ s with stream := some { script := session.stream, session := s.sessions } }, 0)
  | .cancel _ =>
    settleStep (script.session s).cancel s fun s =>
      ({ s with stream := s.stream.map fun st => { st with cancelled := true } }, 0)
  | .close => { state := s.requeue, value := .ok 0 }

/-! ### Deliveries -/

/-- What a stream gives when it ends by itself. -/
def StreamState.faultOffer (stream : StreamState) : Offer :=
  match stream.script.fault with
  | .fails cause => .failed cause
  | .ends => .ended
  | .breaks => .panicked ("stream of session " ++ Decimal.text stream.session)

/-- A ready message is delivered. -/
def State.deliver (s : State) (stream : StreamState) : Effect State Offer :=
  let outstanding := s.outstanding + 1
  { state :=
      { s with
        ready := s.ready - 1
        outstanding
        maxOutstanding := max s.maxOutstanding outstanding
        lastTag := s.lastTag + 1
        stream := some { stream with delivered := stream.delivered + 1, pause := .none } }
    value := .delivery (s.lastTag + 1) }

/-- The stream is asked while messages are ready: it pauses if it has to, then delivers. -/
def State.askReady (s : State) (now : Nat) (stream : StreamState) : Effect State Offer :=
  match stream.pause, stream.script.pace with
  | .pacing wake, _ =>
    if wake ≤ now then s.deliver stream
    else { state := s, value := .wait (some wake) }
  | .none, some pace | .idling _, some pace =>
    if pace = 0 then s.deliver stream
    else
      { state := { s with stream := some { stream with pause := .pacing (now + pace) } }
        value := .wait (some (now + pace)) }
  | _, _ => s.deliver stream

/-- The stream is asked while nothing is ready: it waits, and ends by itself if the script says that
it has waited long enough. -/
def State.askIdle (s : State) (now : Nat) (stream : StreamState) : Effect State Offer :=
  match stream.script.afterIdle, stream.pause with
  | none, _ => { state := s, value := .wait none }
  | some _, .idling wake =>
    if wake ≤ now then { state := s, value := stream.faultOffer }
    else { state := s, value := .wait (some wake) }
  | some idle, _ =>
    if idle = 0 then { state := s, value := stream.faultOffer }
    else
      { state := { s with stream := some { stream with pause := .idling (now + idle) } }
        value := .wait (some (now + idle)) }

/-- The stream is asked for the next delivery. -/
def ask (now : Nat) (s : State) : Effect State Offer :=
  match s.stream with
  | none => { state := s, value := .cancelled }
  | some stream =>
    if stream.cancelled then { state := s, value := .cancelled }
    else if stream.script.after = some stream.delivered then
      { state := s, value := stream.faultOffer }
    else if 0 < s.ready then s.askReady now stream
    else s.askIdle now stream

/-- A rejection is over: it goes wrong as the script says, or else the message is dead-lettered. -/
def finishReject (script : Scenario) (tag : Nat) (s : State) : Effect State Settlement :=
  match script.rejectFaults.lookup tag with
  | some (.fails cause) => { state := s, value := .failed cause }
  | some .breaks => { state := s, value := .panicked ("reject " ++ Decimal.text tag) }
  | none =>
    { state :=
        { s with outstanding := s.outstanding - 1, deadLettered := s.deadLettered + 1 }
      value := .done }

/-- The script as an environment. -/
def environment (script : Scenario) : Environment State where
  nextChange := nextChange
  pass := pass
  start := script.start
  answer _ := script.answer
  ask := ask
  startReject now tag s := { state := s, value := some (now + script.latency tag) }
  finishReject _ := script.finishReject
  race s := ({ s with raced := s.raced + 1 }, (script.races[s.raced]?).getD true)

end Scenario

end QueueDrain
