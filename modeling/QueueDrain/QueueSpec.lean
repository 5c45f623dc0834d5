import QueueDrain.Config

/-!
# The declaration of the drained queue

Every declaration of a run, the first and those that read the depth, is made from one `QueueSpec`,
so repeating it changes nothing on the broker.

## Main definitions

* `QueueSpec`, `QueueSpec.ofConfig` — the queue with its dead-letter routing key
* `QueueSpec.options`, `QueueSpec.arguments` — what is sent with each declaration
-/

namespace QueueDrain

/-- The flags of a queue declaration. -/
structure DeclareOptions where
  passive : Bool := false
  durable : Bool := false
  exclusive : Bool := false
  autoDelete : Bool := false
  nowait : Bool := false
deriving DecidableEq, Repr

/-- The queue being drained. -/
@[ext]
structure QueueSpec where
  name : String
  deadLetterRoutingKey : String
deriving DecidableEq, Repr

namespace QueueSpec

/-- The queue that a configuration drains. -/
def ofConfig (c : Config) : QueueSpec := ⟨c.queueName, c.deadLetterRoutingKey⟩

/-- The queue survives a restart of the broker; no other flag is set. -/
def options (_ : QueueSpec) : DeclareOptions := { durable := true }

/-- Lazy storage, and dead-lettering through the default exchange: argument names with their
values, all of them long strings. -/
def arguments (s : QueueSpec) : List (String × String) :=
  [("x-queue-mode", "lazy"), ("x-dead-letter-exchange", ""),
    ("x-dead-letter-routing-key", s.deadLetterRoutingKey)]

end QueueSpec

end QueueDrain
