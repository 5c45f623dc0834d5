import QueueDrain.Drain

/-!
# Runs of one drain, one after the other

A drain may be run again after it has ended. Clock, environment and the counter of rejected messages
go on; everything else starts afresh.

## Main definitions

* `Drain.Series` — a drain between its runs
* `Drain.Series.start`, `Drain.Series.after` — a run begins, and has ended
-/

namespace QueueDrain

namespace Drain

variable {ω : Type}

/-- A drain between its runs. -/
structure Series (ω : Type) where
  now : Nat := 0
  world : ω
  /-- Messages rejected in all runs so far; the counter wraps. -/
  rejected : UInt64 := 0
  /-- What has happened so far, in order. -/
  history : List Entry := []

namespace Series

/-- A run begins, already interrupted or not. -/
def start (E : Environment ω) (plan : Plan) (interrupted : Bool) (s : Series ω) : State ω :=
  Drain.start E plan (.opening s.now s.world s.rejected interrupted)

/-- The series after a run has come to a state. -/
def after (s : Series ω) (final : State ω) : Series ω :=
  { now := final.course.now
    world := final.course.world
    rejected := final.course.rejected
    history := s.history ++ final.course.history }

end Series

end Drain

end QueueDrain
