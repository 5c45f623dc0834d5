import QueueDrain.Notice

/-!
# The environment of a run

Everything a drain does not decide itself: what the broker answers and when, when messages arrive,
when the operator interrupts, and which of two things that are ready at the same instant is looked
at first. An environment is a record of functions on a state of its own, so a statement about every
environment is a statement about every behaviour of broker, operator and scheduler.

Times are instants of one clock in whole milliseconds.

## Main definitions

* `Request` — what the coordinator asks of the broker
* `Offer` — what a delivery stream gives when it is asked for the next delivery
* `Settlement` — how rejecting one delivery ends
* `Interrupt` — when the operator interrupts
* `Effect` — what a change of the environment leaves behind
* `Environment`
-/

namespace QueueDrain

/-- What the coordinator asks of the broker. -/
inductive Request where
  /-- Open a session: connect, open the channel, declare the queue. -/
  | establish
  /-- Start a delivery stream on the session. -/
  | subscribe (tag : String)
  /-- Declare the queue again and read its message count. -/
  | depth
  /-- Stop the delivery stream. -/
  | cancel (tag : String)
  /-- Close the session. -/
  | close
deriving DecidableEq, Repr

/-- What a delivery stream gives when it is asked for the next delivery. -/
inductive Offer where
  | delivery (tag : Nat)
  /-- Nothing yet; the stream is worth asking again at the given instant, if there is one, and
  whenever the environment changes. -/
  | wait (wake : Option Nat)
  /-- The stream is over because it was cancelled. -/
  | cancelled
  /-- The stream is over without having been cancelled. -/
  | ended
  | failed (cause : DrainError)
  /-- Asking broke the consumer down. -/
  | panicked (text : String)
deriving DecidableEq, Repr

/-- How rejecting one delivery ends. -/
inductive Settlement where
  | done
  | failed (cause : DrainError)
  | panicked (text : String)
deriving DecidableEq, Repr

/-- When the operator interrupts a run. -/
inductive Interrupt where
  | never
  /-- Before it begins. -/
  | before
  /-- So many milliseconds after it has begun. -/
  | after (millis : Nat)
deriving DecidableEq, Repr

namespace Interrupt

/-- Whether a run is interrupted from its beginning on. -/
def isEarly : Interrupt → Bool
  | before => true
  | _ => false

/-- The instant of an interrupt that comes while a run is under way. -/
def instant? (now : Nat) : Interrupt → Option Nat
  | after millis => some (now + millis)
  | _ => none

end Interrupt

/-- What a change of the environment leaves: its new state, a value, whether the operator's
interrupt came with it, and what it tells the operator. -/
structure Effect (ω α : Type) where
  state : ω
  value : α
  interrupts : Bool := false
  /-- Lines for the log, in order. -/
  notices : List Notice := []

/-- The world around a run, with states in `ω`. Instants are handed in as the clock shows them. -/
structure Environment (ω : Type) where
  /-- The next instant at which the world changes without being asked. -/
  nextChange : ω → Option Nat
  /-- The clock reaches an instant. -/
  pass : Nat → ω → Effect ω Unit
  /-- A request begins. The value is the instant of its answer, and `none` if it never comes. -/
  start : Nat → Request → ω → Effect ω (Option Nat)
  /-- A request is answered. The value is the message count of a declaration, and zero for a
  request that declares nothing. -/
  answer : Nat → Request → ω → Effect ω (Except DrainError Nat)
  /-- The delivery stream is asked for the next delivery. -/
  ask : Nat → ω → Effect ω Offer
  /-- The rejection of a delivery begins; the value is as for `start`. -/
  startReject : Nat → Nat → ω → Effect ω (Option Nat)
  /-- The rejection of a delivery is over. -/
  finishReject : Nat → Nat → ω → Effect ω Settlement
  /-- Of two things that are ready at one instant, whether the first is looked at first. -/
  race : ω → ω × Bool
  /-- Where the coordinator and the consumer can both move, whether the consumer moves first. -/
  consumerFirst : ω → Bool := fun _ => false

end QueueDrain
