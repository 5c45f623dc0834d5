import QueueDrain.Amqp.ReplyCode
import QueueDrain.Text.Decimal

/-!
# Errors

What can go wrong while a queue is drained. Each error is a cause; its wording is one function, and
so is the question whether reconnecting helps.

## Main definitions

* `TransportError` — what the AMQP client reports about a connection or a channel
* `DrainError` — what a drain can fail with
* `DrainError.isTransient` — whether a new session may succeed where this one failed
* `DrainError.ofDeclare` — a failed queue declaration, with a conflict told apart

## Main results

* `DrainError.ofDeclare_eq_queueConflict_iff` — exactly a failed precondition is a conflict
-/

namespace QueueDrain

/-- The kinds of input and output failure with a wording of their own. -/
inductive IoKind where
  | connectionReset
  | notFound
  | connectionRefused
  | connectionAborted
  | brokenPipe
  | timedOut
  | unexpectedEof
deriving DecidableEq, Repr

/-- The wording of a failure that comes without a text. -/
def IoKind.text : IoKind → String
  | .connectionReset => "connection reset"
  | .notFound => "entity not found"
  | .connectionRefused => "connection refused"
  | .connectionAborted => "connection aborted"
  | .brokenPipe => "broken pipe"
  | .timedOut => "timed out"
  | .unexpectedEof => "unexpected end of file"

/-- Where a channel or a connection stands in its life. -/
inductive LinkState where
  | initial
  | connecting
  | connected
  | reconnecting
  | closing
  | closed
  | error
deriving DecidableEq, Repr

/-- The name of a state in messages. -/
def LinkState.text : LinkState → String
  | .initial => "Initial"
  | .connecting => "Connecting"
  | .connected => "Connected"
  | .reconnecting => "Reconnecting"
  | .closing => "Closing"
  | .closed => "Closed"
  | .error => "Error"

/-- What the AMQP client reports. -/
inductive TransportError where
  /-- The socket failed. -/
  | io (text : String)
  /-- A method was to be sent on a channel that is not open. -/
  | channelState (state : LinkState)
  /-- A method was to be sent on a connection that is not open. -/
  | connectionState (state : LinkState)
  /-- The server fell silent. -/
  | missingHeartbeat
  /-- No channel number is free. -/
  | channelsLimit
  /-- A frame came for a channel that does not exist. -/
  | invalidChannel (id : Nat)
  /-- The server speaks another version of the protocol. -/
  | protocolVersion (major minor revision : Nat)
  /-- The server closed the channel or the connection. -/
  | protocol (code : Amqp.ReplyCode) (text : String)
  /-- A frame did not fit its buffer. -/
  | serialisation (size : Nat)
deriving DecidableEq, Repr

/-- The wording of a transport error. -/
def TransportError.message : TransportError → String
  | .io text => "IO error: " ++ text
  | .channelState state => "invalid channel state: " ++ state.text
  | .connectionState state => "invalid connection state: " ++ state.text
  | .missingHeartbeat => "no heartbeat received from server for too long"
  | .channelsLimit => "the maximum number of channels for this connection has been reached"
  | .invalidChannel id => "invalid channel: " ++ Decimal.text id
  | .protocolVersion major minor revision =>
    "the server only supports AMQP " ++ Decimal.text major ++ "." ++ Decimal.text minor ++ "."
      ++ Decimal.text revision
  | .protocol code text =>
    "protocol error: AMQP " ++ (if code.isHard then "hard" else "soft") ++ " error: " ++ code.name
      ++ ": " ++ text
  | .serialisation size => "failed to serialise: BufferTooSmall(" ++ Decimal.text size ++ ")"

/-- Whether the connection or the channel is lost, so that a new one may do. A soft error is the
server's answer to what was asked, and asking again gets it again. -/
def TransportError.isTransient : TransportError → Bool
  | .io _ | .channelState _ | .connectionState _ | .missingHeartbeat => true
  | .protocol code _ => code.isHard
  | _ => false

/-- What a drain can fail with. -/
inductive DrainError where
  | transport (cause : TransportError)
  /-- The broker URI does not denote an endpoint. -/
  | invalidEndpoint (reason : String)
  /-- The configuration is not admissible. -/
  | invalidConfig (reason : String)
  /-- The queue exists with other arguments. -/
  | queueConflict (queue reason : String)
  /-- The broker ended the subscription. -/
  | consumerCancelled (queue : String)
  /-- The consumer broke down. -/
  | task (reason : String)
  /-- A report or a policy is not readable as JSON. -/
  | serialization (reason : String)
deriving DecidableEq, Repr

namespace DrainError

/-- The wording of an error. -/
def message : DrainError → String
  | transport cause => "RabbitMQ communication error: " ++ cause.message
  | invalidEndpoint reason => "Invalid broker endpoint: " ++ reason
  | invalidConfig reason => "Invalid configuration: " ++ reason
  | queueConflict queue reason =>
    "Queue '" ++ queue ++ "' exists with conflicting properties: " ++ reason
  | consumerCancelled queue => "Consumer on queue '" ++ queue ++ "' was cancelled by the broker"
  | task reason => "Consumer task failed: " ++ reason
  | serialization reason => "Failed to serialize report: " ++ reason

/-- Whether reconnecting may help: a lost connection, a lost channel, or a subscription that the
broker ended. -/
def isTransient : DrainError → Bool
  | transport cause => cause.isTransient
  | consumerCancelled _ => true
  | _ => false

/-- The error of a queue declaration. A failed precondition says that the queue exists with other
properties, and the server's text says which. -/
def ofDeclare (queue : String) : TransportError → DrainError
  | .protocol .preconditionFailed text => .queueConflict queue text
  | cause => .transport cause

/-- The breakdown of the consumer task with the message of its panic. -/
def ofPanic (text : String) : DrainError :=
  .task ("task _ panicked with message \"" ++ text ++ "\"")

/-- **A conflict is a failed precondition.** -/
theorem ofDeclare_eq_queueConflict_iff {queue q r : String} {cause : TransportError} :
    ofDeclare queue cause = queueConflict q r ↔
      q = queue ∧ cause = .protocol .preconditionFailed r := by
  unfold ofDeclare
  split
  · constructor
    · rintro ⟨⟩; exact ⟨rfl, rfl⟩
    · rintro ⟨rfl, ⟨⟩⟩; rfl
  · rename_i h
    constructor
    · rintro ⟨⟩
    · rintro ⟨_, rfl⟩; exact absurd rfl (h r)

end DrainError

end QueueDrain
