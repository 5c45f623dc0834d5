import QueueDrain.Course

/-!
# Polling the depth

The poller decides when a drain is over: it waits an interval, reads the depth of the queue, and
repeats until it reads zero or the operator interrupts. A reading in progress is never given up;
the interrupt is looked at in the waits.

## Main definitions

* `Poller`, `Poller.record` — what is remembered of the readings, and one more reading
* `Poller.Activity`, `Poller.enter`, `Poller.step` — a run of the poller, one action at a time

## Main results

* `Poller.done_record` — the poller is done exactly after a reading of zero
-/

namespace QueueDrain

/-- What is remembered of the readings so far. -/
@[ext]
structure Poller where
  /-- The wait before each reading. -/
  interval : Duration
  /-- Whether the queue was seen empty, which is final. -/
  done : Bool := false
  /-- Readings that succeeded; the counter wraps. -/
  succeeded : UInt64 := 0
  /-- The count of the last of them. -/
  lastCount : Option Nat := none
deriving DecidableEq, Repr

namespace Poller

variable {ω : Type}

/-- The number of readings that the poller reports. -/
def polls (p : Poller) : Nat := p.succeeded.toNat

/-- A poller that has not read yet. -/
def create (interval : Duration) : Poller := { interval }

/-- A reading succeeded. -/
def record (p : Poller) (count : Nat) : Poller :=
  { p with succeeded := p.succeeded + 1, lastCount := some count, done := count == 0 }

/-- **Done after zero.** -/
theorem done_record (p : Poller) (count : Nat) : (p.record count).done = true ↔ count = 0 := by
  simp [record]

/-- What a run of the poller is waiting for. -/
inductive Activity where
  /-- The end of the interval. -/
  | waiting (wake : Nat)
  /-- The answer to a reading. -/
  | reading (due : Option Nat)
deriving DecidableEq, Repr

/-- When an activity can go on by itself. -/
def Activity.wake : Activity → Option Nat
  | .waiting wake => some wake
  | .reading due => due

/-- How a run of the poller ends. -/
abbrev Result := Except DrainError Outcome

/-- A wait of one interval begins now. -/
def wait (p : Poller) (c : Course ω) : Activity := .waiting (c.now + p.interval.millisCeil)

/-- A run begins: at once over if the queue was seen empty before. -/
def enter (p : Poller) (c : Course ω) : Stage Activity Result :=
  if p.done then .over (.ok .drained) else .ongoing (p.wait c)

/-- A reading begins. -/
def read (E : Environment ω) (c : Course ω) : Course ω × Activity :=
  let (c, due) := c.begin E .depth
  (c, .reading due)

/-- A reading has been answered: a count is recorded and told, a failure leaves the poller as it
was. -/
def receive (E : Environment ω) (p : Poller) (c : Course ω) :
    Course ω × Poller × Except DrainError Nat :=
  match c.finish E .depth with
  | (c, .ok count) =>
    let p := p.record count
    (c.tell (if p.done then .emptied p.polls else .left count), p, .ok count)
  | (c, .error cause) => (c, p, .error cause)

/-- One action of a run, or nothing if it has to wait. -/
def step (E : Environment ω) (p : Poller) (a : Activity) (c : Course ω) :
    Option (Course ω × Poller × Stage Activity Result) :=
  match a with
  | .waiting wake =>
    let elapsed := decide (wake ≤ c.now)
    if c.interrupted then
      let (c, interruptFirst) := if elapsed then c.race E else (c, true)
      if interruptFirst then some (c, p, .over (.ok .interrupted))
      else
        let (c, a) := read E c
        some (c, p, .ongoing a)
    else if elapsed then
      let (c, a) := read E c
      some (c, p, .ongoing a)
    else none
  | .reading due =>
    if reached due c.now then
      match receive E p c with
      | (c, p, .ok _) => some (c, p, p.enter c)
      | (c, p, .error cause) => some (c, p, .over (.error cause))
    else none

end Poller

end QueueDrain
