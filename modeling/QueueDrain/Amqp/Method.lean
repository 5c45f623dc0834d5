import QueueDrain.Endpoint
import QueueDrain.QueueSpec

/-!
# Methods of the protocol

What a client sends to an AMQP server, its replies to the server's own methods apart, and what comes
back: the answer to a method that waits for one, and what the server sends of its own accord.

## Main definitions

* `Amqp.Method` — what a client sends
* `Amqp.Closure`, `Amqp.Reply`, `Amqp.Push` — what a server sends
* `Amqp.loginResponse` — the credentials as the mechanisms to log in write them
-/

namespace QueueDrain

namespace Amqp

/-- The flags of a subscription. -/
structure ConsumeOptions where
  noLocal : Bool := false
  noAck : Bool := false
  exclusive : Bool := false
  nowait : Bool := false
deriving DecidableEq, Repr

/-- What a client sends on its one channel, or on the connection itself. -/
inductive Method where
  /-- The version of the protocol, with which a connection begins. -/
  | protocolHeader
  /-- The login. -/
  | startOk (mechanism : SaslMechanism) (response : String) (connectionName : String)
  | openConnection (vhost : String)
  | openChannel (channel : Nat)
  | qos (prefetch : Nat) (isGlobal : Bool)
  | declare (name : String) (options : DeclareOptions) (arguments : List (String × String))
  | consume (queue tag : String) (options : ConsumeOptions) (arguments : List (String × String))
  | reject (tag : Nat) (requeue : Bool)
  | cancel (tag : String) (nowait : Bool)
  | closeChannel (code : Nat) (text : String)
  | closeConnection (code : Nat) (text : String)
deriving DecidableEq, Repr

/-- The last four octets of a protocol header: the version. -/
def protocolVersion : List Nat := [0, 0, 9, 1]

/-- The protocol's name of a method. -/
def Method.name : Method → String
  | protocolHeader => "protocol-header"
  | startOk .. => "connection.start-ok"
  | openConnection _ => "connection.open"
  | openChannel _ => "channel.open"
  | qos .. => "basic.qos"
  | declare .. => "queue.declare"
  | consume .. => "basic.consume"
  | reject .. => "basic.reject"
  | cancel .. => "basic.cancel"
  | closeChannel .. => "channel.close"
  | closeConnection .. => "connection.close"

/-- The declaration of a queue. -/
def Method.ofSpec (s : QueueSpec) : Method := .declare s.name s.options s.arguments

/-! ### Logging in -/

/-- A long string as a field table has it. -/
def longField (name value : String) : List UInt8 :=
  let octets := Utf8.encode value.toList
  let length := octets.length
  UInt8.ofNat name.length :: Utf8.encode name.toList ++ [83]
    ++ [16777216, 65536, 256, 1].map (fun unit => UInt8.ofNat (length / unit % 256)) ++ octets

/-- The credentials as a mechanism writes them. -/
def loginResponse (mechanism : SaslMechanism) (username password : String) : String :=
  match mechanism with
  | .plain => "\x00" ++ username ++ "\x00" ++ password
  | .external => ""
  | .rabbitCrDemo => username
  | .amqplain =>
    String.ofList
      (Utf8.decodeLossy (longField "LOGIN" username ++ longField "PASSWORD" password))

/-- The login of an endpoint, in clear text unless the endpoint asks for another mechanism. -/
def Method.login (e : Endpoint) (connectionName : String) : Method :=
  let mechanism := e.authMechanism.getD .plain
  .startOk mechanism (loginResponse mechanism e.username e.password) connectionName

/-! ### The other direction -/

/-- How a channel or a connection comes to its end without the client. -/
inductive Closure where
  /-- The server closes the channel. -/
  | channel (code : Nat) (text : String)
  /-- The server closes the connection. -/
  | connection (code : Nat) (text : String)
  /-- The socket is lost. -/
  | lost
  /-- The server has fallen silent, and its heartbeats are missed. -/
  | unheard
deriving DecidableEq, Repr

/-- The answer to a method. -/
inductive Reply where
  /-- The usual one; of a declaration, with the messages and the consumers of the queue. -/
  | done (messages consumers : Nat)
  | cut (closure : Closure)
deriving DecidableEq, Repr

/-- What a server sends of its own accord. -/
inductive Push where
  | delivery (tag : Nat)
  /-- The subscription is ended. -/
  | consumerCancelled
  | cut (closure : Closure)
deriving DecidableEq, Repr

/-- What the client reports about a closure when a method was waiting for its answer. A code that
the protocol does not have says no more than that the link is closing; an open channel is needed to
close it. -/
def Closure.error (k : Closure) (waiting : Option Method) : TransportError :=
  match k with
  | .lost => .io IoKind.connectionAborted.text
  | .unheard => .missingHeartbeat
  | .channel code text =>
    match waiting with
    | some (.openChannel _) => .channelState .initial
    | _ =>
      match ReplyCode.ofNumber? code with
      | some code => .protocol code text
      | none => .channelState .closing
  | .connection code text =>
    match ReplyCode.ofNumber? code with
    | some code => .protocol code text
    | none => .connectionState .closing

end Amqp

end QueueDrain
