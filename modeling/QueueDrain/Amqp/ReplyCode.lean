/-!
# Reply codes

The codes with which an AMQP 0-9-1 server closes a channel (soft errors) or a connection (hard
errors), with the names the protocol gives them.

## Main definitions

* `Amqp.ReplyCode` — the error codes of the protocol
* `Amqp.ReplyCode.number`, `Amqp.ReplyCode.ofNumber?` — a code on the wire, and back
* `Amqp.ReplyCode.isHard` — whether the whole connection is lost
-/

namespace QueueDrain

namespace Amqp

/-- An error code of AMQP 0-9-1. -/
inductive ReplyCode where
  | contentTooLarge
  | noRoute
  | noConsumers
  | accessRefused
  | notFound
  | resourceLocked
  | preconditionFailed
  | connectionForced
  | invalidPath
  | frameError
  | syntaxError
  | commandInvalid
  | channelError
  | unexpectedFrame
  | resourceError
  | notAllowed
  | notImplemented
  | internalError
deriving DecidableEq, Repr

namespace ReplyCode

/-- The number that stands for the code on the wire. -/
def number : ReplyCode → Nat
  | contentTooLarge => 311
  | noRoute => 312
  | noConsumers => 313
  | accessRefused => 403
  | notFound => 404
  | resourceLocked => 405
  | preconditionFailed => 406
  | connectionForced => 320
  | invalidPath => 402
  | frameError => 501
  | syntaxError => 502
  | commandInvalid => 503
  | channelError => 504
  | unexpectedFrame => 505
  | resourceError => 506
  | notAllowed => 530
  | notImplemented => 540
  | internalError => 541

/-- The protocol's name of the code. -/
def name : ReplyCode → String
  | contentTooLarge => "CONTENT-TOO-LARGE"
  | noRoute => "NO-ROUTE"
  | noConsumers => "NO-CONSUMERS"
  | accessRefused => "ACCESS-REFUSED"
  | notFound => "NOT-FOUND"
  | resourceLocked => "RESOURCE-LOCKED"
  | preconditionFailed => "PRECONDITION-FAILED"
  | connectionForced => "CONNECTION-FORCED"
  | invalidPath => "INVALID-PATH"
  | frameError => "FRAME-ERROR"
  | syntaxError => "SYNTAX-ERROR"
  | commandInvalid => "COMMAND-INVALID"
  | channelError => "CHANNEL-ERROR"
  | unexpectedFrame => "UNEXPECTED-FRAME"
  | resourceError => "RESOURCE-ERROR"
  | notAllowed => "NOT-ALLOWED"
  | notImplemented => "NOT-IMPLEMENTED"
  | internalError => "INTERNAL-ERROR"

/-- Hard errors end the connection, soft errors only the channel. -/
def isHard : ReplyCode → Bool
  | contentTooLarge | noRoute | noConsumers | accessRefused | notFound | resourceLocked
  | preconditionFailed => false
  | _ => true

/-- Every code of the protocol, soft ones first. -/
def all : List ReplyCode :=
  [contentTooLarge, noRoute, noConsumers, accessRefused, notFound, resourceLocked,
    preconditionFailed, connectionForced, invalidPath, frameError, syntaxError, commandInvalid,
    channelError, unexpectedFrame, resourceError, notAllowed, notImplemented, internalError]

/-- The code with a given number, if the protocol has one. -/
def ofNumber? (n : Nat) : Option ReplyCode := all.find? (fun c => c.number == n)

theorem ofNumber?_number (c : ReplyCode) : ofNumber? c.number = some c := by
  cases c <;> decide

end ReplyCode

end Amqp

end QueueDrain
