import QueueDrain.Amqp.Method

/-!
# The other end of a connection

Everything that a client meets: an AMQP server, the operator who interrupts, and the scheduler, by
whom one of two things is looked at first when both are ready. It is a record of functions on a
state of its own, so a statement about every peer is a statement about every behaviour of the three.
A client has one connection at a time and waits for the answer to a method before it sends the next,
rejections apart.

## Main definitions

* `Amqp.Peer`, `Amqp.Reception` — a server with what surrounds it
* `Amqp.Peer.unreachable` — a server that no connection reaches
-/

namespace QueueDrain

namespace Amqp

/-- What comes of a method that a server has got. -/
structure Reception (σ : Type) where
  state : σ
  /-- The instant of the answer, or of the cut that comes in its place, or `none` if neither ever
  comes. A method without an answer is over then. -/
  due : Option Nat
  /-- Whether the operator interrupts the run at this moment. -/
  interrupts : Bool := false

/-- A server with states in `σ`. Instants are handed in as the clock shows them. -/
structure Peer (σ : Type) where
  /-- A connection is made, or fails before anything can be sent. -/
  connect : Nat → σ → σ × Option TransportError
  /-- A method arrives. -/
  receive : Nat → Method → σ → Reception σ
  /-- A method is answered. -/
  reply : Nat → Method → σ → σ × Reply
  /-- The next instant at which the server sends something of its own accord. -/
  nextPush : σ → Option Nat
  /-- What it has sent up to an instant. -/
  push : Nat → σ → σ × List Push
  /-- The scheduler, by the turns of the client so far: of two things that are ready at one instant,
  whether the first is looked at first. -/
  race : Nat → σ → Bool := fun _ _ => true
  /-- By the same, where the coordinator and the consumer can both move, whether the consumer moves
  first. -/
  consumerFirst : Nat → σ → Bool := fun _ _ => false

/-- What the system reports when it has no network for an address. -/
def networkUnreachable : String := "Network is unreachable (os error 101)"

/-- The server without a network between it and its clients. -/
def Peer.unreachable {σ : Type} (P : Peer σ) : Peer σ :=
  { P with connect := fun _ s => (s, some (.io networkUnreachable)) }

end Amqp

end QueueDrain
