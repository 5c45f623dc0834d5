import QueueDrain.Duration

/-!
# Exponential backoff

How long to wait before each attempt to reconnect: the initial delay, multiplied again before every
further attempt, up to a cap.

## Main definitions

* `Backoff.Policy`, `Backoff.Policy.create` — a policy, and one whose delays never shrink
* `Backoff.Policy.delayFor` — the wait before the attempt of a given number
-/

namespace QueueDrain

namespace Backoff

/-- The waits between attempts to reconnect. -/
@[ext]
structure Policy where
  /-- The wait before the first attempt. -/
  initialDelay : Duration
  /-- No wait is longer. -/
  maxDelay : Duration
  /-- What a wait is multiplied with to give the next one. -/
  multiplier : UInt32
deriving DecidableEq, Repr

/-- The largest growth factor, which is the largest word. -/
def growthLimit : UInt32 := 4294967295

/-- `multiplier ^ exponent`, held at `growthLimit`. -/
def growth (multiplier : UInt32) (exponent : Nat) : UInt32 :=
  ((Word.pow? multiplier.toBitVec exponent).map UInt32.ofBitVec).getD growthLimit

namespace Policy

/-- A policy with a multiplier of at least one: a multiplier of zero acts as one. -/
def create (initialDelay maxDelay : Duration) (multiplier : UInt32) : Policy :=
  { initialDelay, maxDelay, multiplier := if multiplier = 0 then 1 else multiplier }

/-- One second, doubled up to half a minute. -/
def default : Policy := create (Duration.seconds 1) (Duration.seconds 30) 2

/-- The wait before attempt number `attempt`, counted from one. A product that is no duration any
more is past every cap. -/
def delayFor (p : Policy) (attempt : Nat) : Duration :=
  match p.initialDelay.mul? (growth p.multiplier (attempt - 1)) with
  | some delay => delay.min p.maxDelay
  | none => p.maxDelay

end Policy

end Backoff

end QueueDrain
