import QueueDrain.Drain

/-!
# The parts of a drain on their own

The poller, the attempts at a session and the consumer, each as a run of its own in any environment:
the part acts while it can, and otherwise time passes.

## Main definitions

* `Poller.Run`, `Connect.Run`, `Consumer.Run` — where such a run stands
* `Poller.Run.step`, `Connect.Run.step`, `Consumer.Run.step` — one action, or time passes
* `Poller.Run.run`, `Connect.Run.run`, `Consumer.Run.run` — several steps
-/

namespace QueueDrain

variable {ω : Type}

namespace Poller

/-- Where a run of the poller stands. -/
structure Run (ω : Type) where
  course : Course ω
  poller : Poller
  stage : Stage Activity Result

namespace Run

/-- One step; a run that is over stays as it is. -/
def step (E : Environment ω) (r : Run ω) : Run ω :=
  match r.stage with
  | .over _ => r
  | .ongoing a =>
    match r.poller.step E a r.course with
    | some (course, poller, stage) => { course, poller, stage }
    | none => { r with course := r.course.advance E [a.wake] }

/-- As many steps as the fuel allows, or as it takes for the run to be over. -/
def run (E : Environment ω) : Nat → Run ω → Run ω
  | 0, r => r
  | fuel + 1, r =>
    match r.stage with
    | .over _ => r
    | .ongoing _ => run E fuel (r.step E)

/-- A run of a poller begins. -/
def enter (p : Poller) (c : Course ω) : Run ω := { course := c, poller := p, stage := p.enter c }

end Run

/-- A reading on its own, without a wait before it: time passes until it is answered, as far as the
fuel allows. A poller that has seen the queue empty does not read again. -/
def readOnce (E : Environment ω) (p : Poller) (c : Course ω) (fuel : Nat) :
    Course ω × Poller × Option (Except DrainError Nat) :=
  if p.done then (c, p, some (.ok 0))
  else
    let (c, due) := c.begin E .depth
    match c.await E due fuel with
    | none => (c, p, none)
    | some c =>
      let (c, p, result) := receive E p c
      (c, p, some result)

end Poller

namespace Connect

/-- Where a series of attempts stands. -/
structure Run (ω : Type) where
  course : Course ω
  stage : Stage Activity Result

namespace Run

/-- One step; attempts that are over stay as they are. -/
def step (E : Environment ω) (policy : Backoff.Policy) (endpoint : String) (r : Run ω) : Run ω :=
  match r.stage with
  | .over _ => r
  | .ongoing a =>
    match Connect.step E policy endpoint a r.course with
    | some (course, stage) => { course, stage }
    | none => { r with course := r.course.advance E [a.wake] }

/-- As many steps as the fuel allows, or as it takes for the attempts to be over. -/
def run (E : Environment ω) (policy : Backoff.Policy) (endpoint : String) : Nat → Run ω → Run ω
  | 0, r => r
  | fuel + 1, r =>
    match r.stage with
    | .over _ => r
    | .ongoing _ => run E policy endpoint fuel (r.step E policy endpoint)

/-- A single attempt begins. -/
def once (E : Environment ω) (c : Course ω) : Run ω :=
  let (course, stage) := establish E none c
  { course, stage }

/-- A series of attempts begins. -/
def repeated (policy : Backoff.Policy) (endpoint : String) (c : Course ω) : Run ω :=
  let (course, a) := reconnect policy endpoint c
  { course, stage := .ongoing a }

end Run

end Connect

namespace Consumer

/-- Where a consumer on its own stands. -/
structure Run (ω : Type) where
  course : Course ω
  stage : Stage Consumer Ending

namespace Run

/-- One step; a consumer that is over stays as it is. -/
def step (E : Environment ω) (queue : String) (r : Run ω) : Run ω :=
  match r.stage with
  | .over _ => r
  | .ongoing k =>
    match k.step E queue r.course with
    | (course, .over ending, _) => { course, stage := .over ending }
    | (course, .ongoing k, true) => { course, stage := .ongoing k }
    | (course, .ongoing k, false) =>
      { course := course.advance E k.wakes, stage := .ongoing k }

/-- As many steps as the fuel allows, or as it takes for the consumer to be over. -/
def run (E : Environment ω) (queue : String) : Nat → Run ω → Run ω
  | 0, r => r
  | fuel + 1, r =>
    match r.stage with
    | .over _ => r
    | .ongoing _ => run E queue fuel (r.step E queue)

/-- A consumer begins. -/
def enter (limit : Nat) (c : Course ω) : Run ω := { course := c, stage := .ongoing { limit } }

end Run

end Consumer

end QueueDrain
