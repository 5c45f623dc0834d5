import QueueDrain.Standalone

/-!
# Uses of one poller, one after the other

A poller outlives its runs: it can be run again, asked for single readings in between, or left alone
for a while. Clock and environment go on, and what it remembers stays.

## Main definitions

* `Poller.Usage` — a poller between its uses
* `Poller.Usage.wait`, `Poller.Usage.readOnce`, `Poller.Usage.run` — one use
-/

namespace QueueDrain

namespace Poller

variable {ω : Type}

/-- A poller between its uses. -/
structure Usage (ω : Type) where
  now : Nat := 0
  world : ω
  poller : Poller
  /-- What has happened so far, in order. -/
  history : List Entry := []

namespace Usage

/-- The course that the next use begins with. -/
def course (u : Usage ω) (interrupted : Bool) : Course ω := .opening u.now u.world 0 interrupted

/-- A use has ended. -/
def after (u : Usage ω) (c : Course ω) (p : Poller) : Usage ω :=
  { now := c.now, world := c.world, poller := p, history := u.history ++ c.history }

/-- Nothing is done for a while. -/
def wait (millis : Nat) (u : Usage ω) : Usage ω := { u with now := u.now + millis }

/-- A single reading, as far as the fuel allows. -/
def readOnce (E : Environment ω) (fuel : Nat) (u : Usage ω) :
    Usage ω × Option (Except DrainError Nat) :=
  match Poller.readOnce E u.poller (u.course false) fuel with
  | (c, p, result) => (u.after c p, result)

/-- A run, already interrupted or not, as far as the fuel allows. -/
def run (E : Environment ω) (interrupted : Bool) (fuel : Nat) (u : Usage ω) :
    Usage ω × Option Result :=
  let r := (Run.enter u.poller (u.course interrupted)).run E fuel
  (u.after r.course r.poller,
    match r.stage with
    | .over result => some result
    | .ongoing _ => none)

end Usage

end Poller

end QueueDrain
