import QueueDrain.Duration
import QueueDrain.Error

/-!
# Notices

What a drain tells its operator while it runs: each line of the log is a value with a level, an
origin and a wording.

## Main definitions

* `Outcome` — how a drain that did not fail ended
* `Level`, `Notice` — a line of the log and how urgent it is
* `Notice.level`, `Notice.target`, `Notice.message`
-/

namespace QueueDrain

/-- How a drain that did not fail ended. -/
inductive Outcome where
  /-- The broker reported an empty queue. -/
  | drained
  /-- The operator asked to stop. -/
  | interrupted
deriving DecidableEq, Repr

/-- The outcome in messages. -/
def Outcome.text : Outcome → String
  | .drained => "Drained"
  | .interrupted => "Interrupted"

/-- How urgent a line of the log is, from the most urgent level down. -/
inductive Level where
  | error
  | warn
  | info
  | debug
  | trace
deriving DecidableEq, Repr

/-- The level in the log. -/
def Level.text : Level → String
  | .error => "ERROR"
  | .warn => "WARN"
  | .info => "INFO"
  | .debug => "DEBUG"
  | .trace => "TRACE"

/-- Levels by urgency: the greater the rank, the more is shown. -/
def Level.rank : Level → Nat
  | .error => 1
  | .warn => 2
  | .info => 3
  | .debug => 4
  | .trace => 5

/-- A line of the log. -/
inductive Notice where
  /-- A drain begins. -/
  | connecting (endpoint queue : String)
  /-- It ended before there was a session. -/
  | interruptedEarly
  /-- The first session is open. -/
  | holds (queue : String) (count prefetch : Nat)
  /-- A session ended with a transient error. -/
  | lostSession (cause : DrainError)
  /-- The drain is over. -/
  | finished (outcome : Outcome) (rejected : Nat) (queue : String)
  /-- The broker refused to end the subscription. -/
  | cancelFailed (tag : String) (cause : DrainError)
  /-- The consumer failed after the drain was decided. -/
  | consumerFailed (cause : DrainError)
  /-- The consumer broke down after the drain was decided. -/
  | consumerBroke (panic : String)
  /-- The wait before an attempt to reconnect begins. -/
  | reconnecting (endpoint : String) (delay : Duration) (attempt : Nat)
  | reestablished (attempts : Nat)
  | attemptFailed (attempt : Nat) (cause : DrainError)
  /-- A depth reading was zero. -/
  | emptied (polls : Nat)
  /-- A depth reading was not zero. -/
  | left (count : Nat)
  /-- Every delivery has been rejected and no more will come. -/
  | consumerStopped (queue : String)
  | withoutTls (endpoint : String)
  | connected (endpoint : String)
  | prefetchSet (count : Nat)
  | consumerStarted (tag queue : String)
  | consumerCancelled (tag : String)
  | connectionClosed
  /-- The operator pressed Ctrl+C. -/
  | stopRequested
  /-- The report of the run, as JSON. -/
  | report (json : String)
  /-- The run failed. -/
  | failed (cause : DrainError)
deriving DecidableEq, Repr

namespace Notice

/-- How urgent a line is: warnings are about what the drain recovers from or tolerates. -/
def level : Notice → Level
  | lostSession _ | cancelFailed .. | consumerFailed _ | consumerBroke _ | attemptFailed ..
  | withoutTls _ => .warn
  | failed _ => .error
  | _ => .info

/-- The part of the program that a line comes from, as log filters name it. -/
def target : Notice → String
  | connecting .. | interruptedEarly | holds .. | lostSession _ | finished .. | cancelFailed ..
  | consumerFailed _ | consumerBroke _ => "rabbitmq_reject_all::drainer"
  | reconnecting .. | reestablished _ | attemptFailed .. => "rabbitmq_reject_all::session"
  | emptied _ | left _ => "rabbitmq_reject_all::poller"
  | consumerStopped _ | consumerStarted .. => "rabbitmq_reject_all::consumer"
  | withoutTls _ | connected _ | prefetchSet _ | consumerCancelled _ | connectionClosed =>
    "rabbitmq_reject_all::connection"
  | stopRequested | report _ | failed _ => "reject_all"

/-- The wording of a line. The clock of a run is its own, so the length of the run in wall-clock
seconds is not known here and an underscore stands for it. -/
def message : Notice → String
  | connecting endpoint queue =>
    "Connecting to " ++ endpoint ++ " to drain queue '" ++ queue ++ "'..."
  | interruptedEarly => "Interrupted before a session was established"
  | holds queue count prefetch =>
    "Queue '" ++ queue ++ "' holds " ++ Decimal.text count
      ++ " message(s); rejecting with prefetch " ++ Decimal.text prefetch
  | lostSession cause => "Lost broker session: " ++ cause.message
  | finished outcome rejected queue =>
    "Finished (" ++ outcome.text ++ ") after _s: rejected " ++ Decimal.text rejected
      ++ " message(s) from '" ++ queue ++ "'"
  | cancelFailed tag cause => "Failed to cancel consumer '" ++ tag ++ "': " ++ cause.message
  | consumerFailed cause => "Consumer ended with an error during shutdown: " ++ cause.message
  | consumerBroke panic =>
    "Consumer task failed during shutdown: task _ panicked with message \"" ++ panic ++ "\""
  | reconnecting endpoint delay attempt =>
    "Reconnecting to " ++ endpoint ++ " in " ++ delay.text ++ " (attempt "
      ++ Decimal.text attempt ++ ")"
  | reestablished attempts =>
    "Session re-established after " ++ Decimal.text attempts ++ " attempt(s)"
  | attemptFailed attempt cause =>
    "Reconnection attempt " ++ Decimal.text attempt ++ " failed: " ++ cause.message
  | emptied polls => "Queue is empty after " ++ Decimal.text polls ++ " poll(s)"
  | left count => Decimal.text count ++ " message(s) left in queue"
  | consumerStopped queue => "Consumer on '" ++ queue ++ "' stopped"
  | withoutTls endpoint => "Connecting to " ++ endpoint ++ " without TLS"
  | connected endpoint => "Connected to " ++ endpoint
  | prefetchSet count => "QoS prefetch count set to " ++ Decimal.text count
  | consumerStarted tag queue =>
    "Consumer started with tag '" ++ tag ++ "'. Rejecting messages from '" ++ queue ++ "'..."
  | consumerCancelled tag => "Consumer '" ++ tag ++ "' cancelled"
  | connectionClosed => "Connection closed"
  | stopRequested => "Ctrl+C received. Shutting down."
  | report json => json
  | failed cause => cause.message

end Notice

end QueueDrain
