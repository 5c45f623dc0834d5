import QueueDrain.Backoff
import QueueDrain.Error

/-!
# Configuration

What to drain and how. A builder takes settings one by one, the last setting of a kind wins, and
building fills in the defaults and checks the limits that the protocol puts on names.

## Main definitions

* `Config` — an admissible configuration
* `Config.Builder`, `Config.Setting`, `Config.Builder.set` — settings on their way to one
* `Config.Builder.build` — defaults, then checks, in a fixed order
-/

namespace QueueDrain

/-- Everything a drain needs to know. -/
@[ext]
structure Config where
  /-- Where the broker is, credentials included. -/
  brokerUri : String
  queueName : String
  /-- How many deliveries may be unsettled at a time. -/
  prefetchCount : UInt16
  /-- Where the broker puts rejected messages. -/
  deadLetterRoutingKey : String
  consumerTag : String
  pollInterval : Duration
  reconnectPolicy : Backoff.Policy
deriving DecidableEq, Repr

namespace Config

/-- The names that the protocol writes as short strings. -/
inductive ShortName where
  | queueName
  | consumerTag
  | deadLetterRoutingKey
deriving DecidableEq, Repr

/-- What a short name is called in messages. -/
def ShortName.text : ShortName → String
  | .queueName => "queue name"
  | .consumerTag => "consumer tag"
  | .deadLetterRoutingKey => "dead-letter routing key"

/-- A short string holds at most this many bytes. -/
def maxShortStringBytes : Nat := 255

/-- Why a configuration is not admissible. -/
inductive Fault where
  | emptyQueueName
  | tooLong (what : ShortName) (bytes : Nat)
  | zeroPrefetch
  | zeroPollInterval
deriving DecidableEq, Repr

/-- The wording of a fault. -/
def Fault.message : Fault → String
  | .emptyQueueName => "queue name must not be empty"
  | .tooLong what bytes =>
    what.text ++ " is " ++ Decimal.text bytes ++ " bytes long, at most "
      ++ Decimal.text maxShortStringBytes ++ " are allowed"
  | .zeroPrefetch => "prefetch count must be a positive integer"
  | .zeroPollInterval => "poll interval must be non-zero"

/-- The error that a fault is reported as. -/
def Fault.toError (fault : Fault) : DrainError := .invalidConfig fault.message

/-- One setting. -/
inductive Setting where
  | prefetchCount (count : UInt16)
  | deadLetterRoutingKey (key : String)
  | consumerTag (tag : String)
  | pollInterval (interval : Duration)
  | reconnectPolicy (policy : Backoff.Policy)
deriving DecidableEq, Repr

/-- The settings made so far. -/
@[ext]
structure Builder where
  brokerUri : String
  queueName : String
  prefetchCount : Option UInt16 := none
  deadLetterRoutingKey : Option String := none
  consumerTag : Option String := none
  pollInterval : Option Duration := none
  reconnectPolicy : Option Backoff.Policy := none
deriving DecidableEq, Repr

/-- Messages are handled one at a time unless asked otherwise. -/
def defaultPrefetchCount : UInt16 := 1

/-- Rejected messages go to the queue `in`. -/
def defaultDeadLetterRoutingKey : String := "in"

/-- The queue's depth is read every five seconds. -/
def defaultPollInterval : Duration := Duration.seconds 5

/-- A consumer is named after its queue. -/
def defaultConsumerTag (queueName : String) : String := queueName ++ "_rejector"

/-- A name that has to fit a short string. -/
def checkShortString (what : ShortName) (value : String) : Except Fault Unit :=
  if maxShortStringBytes < value.utf8ByteSize then .error (.tooLong what value.utf8ByteSize)
  else .ok ()

namespace Builder

/-- One more setting, replacing an earlier one of its kind. -/
def set (b : Builder) : Setting → Builder
  | .prefetchCount count => { b with prefetchCount := some count }
  | .deadLetterRoutingKey key => { b with deadLetterRoutingKey := some key }
  | .consumerTag tag => { b with consumerTag := some tag }
  | .pollInterval interval => { b with pollInterval := some interval }
  | .reconnectPolicy policy => { b with reconnectPolicy := some policy }

/-- The configuration with the defaults filled in, before any check. -/
def filled (b : Builder) : Config where
  brokerUri := b.brokerUri
  queueName := b.queueName
  prefetchCount := b.prefetchCount.getD defaultPrefetchCount
  deadLetterRoutingKey := b.deadLetterRoutingKey.getD defaultDeadLetterRoutingKey
  consumerTag := b.consumerTag.getD (defaultConsumerTag b.queueName)
  pollInterval := b.pollInterval.getD defaultPollInterval
  reconnectPolicy := b.reconnectPolicy.getD .default

/-- The configuration, if it is admissible, and else the first fault in the order queue name,
prefetch count, poll interval, consumer tag, routing key. -/
def build (b : Builder) : Except Fault Config := do
  let c := b.filled
  if c.queueName.isEmpty then throw .emptyQueueName
  checkShortString .queueName c.queueName
  if c.prefetchCount = 0 then throw .zeroPrefetch
  if c.pollInterval.isZero then throw .zeroPollInterval
  checkShortString .consumerTag c.consumerTag
  checkShortString .deadLetterRoutingKey c.deadLetterRoutingKey
  return c

end Builder

end Config

end QueueDrain
