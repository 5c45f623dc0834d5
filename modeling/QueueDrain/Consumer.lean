import QueueDrain.Course

/-!
# The rejecting consumer

The consumer asks its delivery stream for deliveries and rejects each one, with a limited number of
rejections in flight. It goes round in two moves: while fewer rejections than the limit are in
flight it asks the stream once, and then it takes at most one rejection that is over off the flight.
The first failure of the stream or of a rejection ends everything, and what is in flight then is
never settled.

## Main definitions

* `Consumer`, `Consumer.Rejection` — the rejections in flight and whether the stream is open
* `Consumer.take`, `Consumer.settle` — the two moves
* `Consumer.step` — a round of both
-/

namespace QueueDrain

/-- A rejection in flight. -/
structure Consumer.Rejection where
  /-- The delivery that is being rejected. -/
  tag : Nat
  /-- When the rejection is over, if ever. -/
  due : Option Nat
deriving DecidableEq, Repr

/-- A consumer at work. -/
structure Consumer where
  /-- How many rejections may be in flight; zero sets no limit. -/
  limit : Nat
  /-- The rejections in flight, oldest first. -/
  inFlight : List Consumer.Rejection := []
  /-- Whether the stream may still give deliveries. -/
  streamOpen : Bool := true
  /-- When the stream is worth asking again by itself. -/
  wake : Option Nat := none
deriving DecidableEq, Repr

namespace Consumer

variable {ω : Type}

/-- How a consumer ends. -/
inductive Ending where
  /-- The stream is over and every delivery is rejected. -/
  | stopped
  | failed (cause : DrainError)
  | panicked (text : String)
deriving DecidableEq, Repr

/-- Whether one more rejection may be in flight. -/
def hasRoom (k : Consumer) : Bool := k.limit == 0 || decide (k.inFlight.length < k.limit)

/-- The instants at which the consumer can go on by itself. -/
def wakes (k : Consumer) : List (Option Nat) := k.wake :: k.inFlight.map Rejection.due

/-- Ask the stream once if there is room. A delivery that comes is rejected from then on. The truth
value tells whether a delivery was taken. -/
def take (E : Environment ω) (k : Consumer) (c : Course ω) :
    Course ω × Stage Consumer Ending × Bool :=
  if k.streamOpen && k.hasRoom then
    match c.ask E with
    | (c, .delivery tag) =>
      let (c, due) := c.startReject E tag
      (c, .ongoing { k with inFlight := k.inFlight ++ [⟨tag, due⟩], wake := none }, true)
    | (c, .wait wake) => (c, .ongoing { k with wake }, false)
    | (c, .cancelled) | (c, .ended) =>
      (c, .ongoing { k with streamOpen := false, wake := none }, false)
    | (c, .failed cause) => (c, .over (.failed cause), false)
    | (c, .panicked text) => (c, .over (.panicked text), false)
  else (c, .ongoing k, false)

/-- Take the oldest rejection that is over off the flight. The truth value tells whether there was
one. -/
def settle (E : Environment ω) (k : Consumer) (c : Course ω) :
    Course ω × Stage Consumer Ending × Bool :=
  match k.inFlight.find? (fun r => reached r.due c.now) with
  | none => (c, if k.inFlight.isEmpty && !k.streamOpen then .over .stopped else .ongoing k, false)
  | some r =>
    match c.finishReject E r.tag with
    | (c, .done) => (c, .ongoing { k with inFlight := k.inFlight.erase r }, true)
    | (c, .failed cause) => (c, .over (.failed cause), false)
    | (c, .panicked text) => (c, .over (.panicked text), false)

/-- One round: take, then settle. The truth value tells whether another round may do more at this
instant. A consumer that has rejected everything says so. -/
def step (E : Environment ω) (queue : String) (k : Consumer) (c : Course ω) :
    Course ω × Stage Consumer Ending × Bool :=
  match take E k c with
  | (c, .over ending, _) => (c, .over ending, false)
  | (c, .ongoing k, took) =>
    match settle E k c with
    | (c, .over .stopped, _) => (c.tell (.consumerStopped queue), .over .stopped, false)
    | (c, .over ending, _) => (c, .over ending, false)
    | (c, .ongoing k, settled) => (c, .ongoing k, took || settled)

end Consumer

end QueueDrain
