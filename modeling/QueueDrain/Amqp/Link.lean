import QueueDrain.Amqp.Peer
import QueueDrain.Environment

/-!
# The client's end of a connection

The state of connection and channel as the client sees it, with what the subscription still has to
give. A method is sent only where its link is open; otherwise it fails at once.

## Main definitions

* `Amqp.Link` — connection, channel and subscription
* `Amqp.Link.refusal?` — why a method cannot be sent
* `Amqp.Link.cut`, `Amqp.Link.absorb` — what the server's messages do to a link
-/

namespace QueueDrain

namespace Amqp

/-- Connection and channel, and what the subscription has to give. -/
structure Link where
  connection : LinkState := .initial
  channel : LinkState := .initial
  /-- What the delivery stream gives next, in order, if there is a subscription. -/
  stream : Option (List Offer) := none
deriving DecidableEq, Repr

namespace Link

/-- Whether a method concerns the connection and not the channel. -/
def concernsConnection : Method → Bool
  | .protocolHeader | .startOk .. | .openConnection _ | .openChannel _ | .closeConnection .. => true
  | _ => false

/-- Why a method cannot be sent: its link has to be open, unless the method is there to open it. -/
def refusal? (l : Link) (m : Method) : Option TransportError :=
  match m with
  | .protocolHeader | .startOk .. | .openConnection _ => none
  | m =>
    if concernsConnection m then
      if l.connection = .connected then none else some (.connectionState l.connection)
    else if l.channel = .connected then none
    else some (.channelState l.channel)

/-- The link after a method was answered in the usual way. -/
def confirm (l : Link) : Method → Link
  | .openConnection _ => { l with connection := .connected }
  | .openChannel _ => { l with channel := .connected }
  | .consume .. => { l with stream := some [] }
  | .cancel .. => { l with stream := l.stream.map (· ++ [.cancelled]) }
  | .closeChannel .. => { l with channel := .closed, stream := none }
  | .closeConnection .. => { l with connection := .closed, channel := .closed, stream := none }
  | _ => l

/-- The link after a closure; the delivery stream fails with it behind what it still has to give. -/
def cut (l : Link) (k : Closure) : Link :=
  let stream := l.stream.map (· ++ [.failed (.transport (k.error none)), .ended])
  match k with
  | .channel .. => { l with channel := .closed, stream }
  | .connection .. => { connection := .closed, channel := .closed, stream }
  | .lost | .unheard => { connection := .error, channel := .error, stream }

/-- The link after what the server sends of its own accord. Deliveries without a subscription are
dropped. -/
def absorb (l : Link) : Push → Link
  | .delivery tag => { l with stream := l.stream.map (· ++ [.delivery tag]) }
  | .consumerCancelled => { l with stream := l.stream.map (· ++ [.ended]) }
  | .cut k => l.cut k

/-- What the delivery stream gives when it is asked. A stream that is over stays so. -/
def ask (l : Link) : Link × Offer :=
  match l.stream with
  | none => (l, .cancelled)
  | some [] => (l, .wait none)
  | some (.ended :: _) => (l, .ended)
  | some (.cancelled :: _) => (l, .cancelled)
  | some (offer :: rest) => ({ l with stream := some rest }, offer)

end Link

end Amqp

end QueueDrain
