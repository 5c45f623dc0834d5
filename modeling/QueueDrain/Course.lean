import QueueDrain.Environment

/-!
# The course of a run

What the parts of a run share: the clock, the state of the environment, whether the operator has
interrupted, the counter of rejected messages, and the trace of all that has happened, newest first.
Every part of a run changes the course through the operations here, so the trace misses nothing.

## Main definitions

* `Event`, `Entry` — something that happened, and when
* `Course` — how far a run has come
* `Course.begin`, `Course.finish` — a request and its answer
* `Course.ask` — the delivery stream is asked for the next delivery
* `Course.startReject`, `Course.finishReject` — the rejection of a delivery
* `Course.advance` — time passes up to the next thing that can happen
* `Course.request` — a request with the wait for its answer
* `Stage` — an activity that goes on or is over
-/

namespace QueueDrain

/-- Something that happened in a run. -/
inductive Event where
  /-- The operator's interrupt took effect. -/
  | interrupted
  | notice (line : Notice)
  | began (request : Request)
  | answered (request : Request) (count : Nat)
  | failed (request : Request) (cause : DrainError)
  | delivered (tag : Nat)
  | rejected (tag : Nat)
  | rejectFailed (tag : Nat) (cause : DrainError)
  | rejectPanicked (tag : Nat)
  | streamCancelled
  | streamEnded
  | streamFailed (cause : DrainError)
  | streamPanicked (text : String)
deriving DecidableEq, Repr

/-- What asking the delivery stream made happen, if anything. -/
def Offer.event? : Offer → Option Event
  | .delivery tag => some (.delivered tag)
  | .wait _ => none
  | .cancelled => some .streamCancelled
  | .ended => some .streamEnded
  | .failed cause => some (.streamFailed cause)
  | .panicked text => some (.streamPanicked text)

/-- What the end of a rejection made happen. -/
def Settlement.event (tag : Nat) : Settlement → Event
  | .done => .rejected tag
  | .failed cause => .rejectFailed tag cause
  | .panicked _ => .rejectPanicked tag

/-- An event with its instant. -/
structure Entry where
  time : Nat
  event : Event
deriving DecidableEq, Repr

/-- The lines that a history logs, in order, each with its instant. -/
def Entry.log (history : List Entry) : List (Nat × Notice) :=
  history.filterMap fun entry =>
    match entry.event with
    | .notice line => some (entry.time, line)
    | _ => none

/-- How far a run has come. -/
structure Course (ω : Type) where
  /-- What the clock shows. -/
  now : Nat
  /-- The state of the environment. -/
  world : ω
  /-- Whether the operator has interrupted the run. -/
  interrupted : Bool
  /-- Messages rejected so far; the counter wraps. -/
  rejected : UInt64
  /-- What has happened, newest first. -/
  trace : List Entry

/-- An activity that goes on, or its result. -/
inductive Stage (α ρ : Type) where
  | ongoing (activity : α)
  | over (result : ρ)

/-- Whether an instant that may never come has come. -/
def reached (instant : Option Nat) (now : Nat) : Bool :=
  match instant with
  | some t => t ≤ now
  | none => false

/-- The earliest of several instants that may never come. -/
def earliest : List (Option Nat) → Option Nat
  | [] => none
  | none :: rest => earliest rest
  | some t :: rest =>
    match earliest rest with
    | some u => some (min t u)
    | none => some t

namespace Course

variable {ω : Type}

/-- A course that begins at an instant; an interrupt that came earlier is noted at once. -/
def opening (now : Nat) (world : ω) (rejected : UInt64) (interrupted : Bool) : Course ω :=
  { now, world, interrupted, rejected,
    trace := if interrupted then [⟨now, .interrupted⟩] else [] }

/-- Something happens now. -/
def note (c : Course ω) (event : Event) : Course ω :=
  { c with trace := ⟨c.now, event⟩ :: c.trace }

/-- A line is logged. -/
def tell (c : Course ω) (line : Notice) : Course ω := c.note (.notice line)

/-- The environment has changed. An interrupt counts from its first time on. -/
def absorb {α : Type} (c : Course ω) (effect : Effect ω α) : Course ω :=
  let c := effect.notices.foldl tell { c with world := effect.state }
  if effect.interrupts && !c.interrupted then { c.note .interrupted with interrupted := true }
  else c

/-- A request begins; the value is the instant of its answer. -/
def begin (E : Environment ω) (request : Request) (c : Course ω) : Course ω × Option Nat :=
  let c := c.note (.began request)
  let effect := E.start c.now request c.world
  (c.absorb effect, effect.value)

/-- A request is answered. -/
def finish (E : Environment ω) (request : Request) (c : Course ω) :
    Course ω × Except DrainError Nat :=
  let effect := E.answer c.now request c.world
  let c := c.absorb effect
  match effect.value with
  | .ok count => (c.note (.answered request count), .ok count)
  | .error cause => (c.note (.failed request cause), .error cause)

/-- The delivery stream is asked for the next delivery. -/
def ask (E : Environment ω) (c : Course ω) : Course ω × Offer :=
  let effect := E.ask c.now c.world
  let c := c.absorb effect
  (match effect.value.event? with
    | some event => c.note event
    | none => c, effect.value)

/-- The rejection of a delivery begins; the value is the instant of its end. -/
def startReject (E : Environment ω) (tag : Nat) (c : Course ω) : Course ω × Option Nat :=
  let effect := E.startReject c.now tag c.world
  (c.absorb effect, effect.value)

/-- A rejection is over. One that succeeded is counted. -/
def finishReject (E : Environment ω) (tag : Nat) (c : Course ω) : Course ω × Settlement :=
  let effect := E.finishReject c.now tag c.world
  let c := c.absorb effect
  let c := if effect.value = .done then { c with rejected := c.rejected + 1 } else c
  (c.note (effect.value.event tag), effect.value)

/-- Two things are ready at this instant; the value tells whether the first is looked at first. -/
def race (E : Environment ω) (c : Course ω) : Course ω × Bool :=
  let (world, first) := E.race c.world
  ({ c with world }, first)

/-- Time passes up to the earliest of the given instants and of the environment's own changes.
The clock never goes back, and it stands still where nothing more can happen. -/
def advance (E : Environment ω) (wakes : List (Option Nat)) (c : Course ω) : Course ω :=
  match earliest (E.nextChange c.world :: wakes) with
  | none => c
  | some t =>
    let now := max c.now t
    { c with now }.absorb (E.pass now c.world)

/-- Time passes until an instant is reached, as far as the fuel allows. -/
def await (E : Environment ω) (instant : Option Nat) : Nat → Course ω → Option (Course ω)
  | 0, _ => none
  | fuel + 1, c =>
    if reached instant c.now then some c else await E instant fuel (c.advance E [instant])

/-- A request and its answer, with the wait between them as far as the fuel allows. -/
def request (E : Environment ω) (request : Request) (fuel : Nat) (c : Course ω) :
    Option (Course ω × Except DrainError Nat) :=
  let (c, due) := c.begin E request
  (c.await E due fuel).map (finish E request)

/-- The trace in the order in which things happened. -/
def history (c : Course ω) : List Entry := c.trace.reverse

/-- The lines logged, in order, each with its instant. -/
def log (c : Course ω) : List (Nat × Notice) := Entry.log c.history

end Course

end QueueDrain
