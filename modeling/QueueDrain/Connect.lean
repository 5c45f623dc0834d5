import QueueDrain.Backoff
import QueueDrain.Course

/-!
# Establishing and re-establishing a session

A session is established unless the operator interrupts: the interrupt is looked at before an
attempt begins and whenever an attempt has to wait, and an attempt that it overtakes is abandoned.
After a transport failure attempts are repeated, each behind a wait that the backoff policy sets,
until one succeeds or fails with an error that another attempt would meet again.

## Main definitions

* `Connect.Activity` — waiting before an attempt, or for its answer
* `Connect.establish`, `Connect.reconnect` — the two ways to begin
* `Connect.step` — one action
-/

namespace QueueDrain

namespace Connect

variable {ω : Type}

/-- What is being waited for. -/
inductive Activity where
  /-- The end of the wait before an attempt. -/
  | backingOff (attempt wake : Nat)
  /-- The answer to an attempt; the attempt of a first session has no number. -/
  | establishing (attempt : Option Nat) (due : Option Nat)
deriving DecidableEq, Repr

/-- When an activity can go on by itself. -/
def Activity.wake : Activity → Option Nat
  | .backingOff _ wake => some wake
  | .establishing _ due => due

/-- The declared message count of a new session, or `none` if the operator interrupted. -/
abbrev Result := Except DrainError (Option Nat)

/-- Attempts are counted up to this number and stay there. -/
def maxAttempt : Nat := 4294967295

/-- An attempt begins, unless the run is interrupted. -/
def establish (E : Environment ω) (attempt : Option Nat) (c : Course ω) :
    Course ω × Stage Activity Result :=
  if c.interrupted then (c, .over (.ok none))
  else
    let (c, due) := c.begin E .establish
    (c, .ongoing (.establishing attempt due))

/-- The wait before an attempt begins. -/
def backOff (policy : Backoff.Policy) (endpoint : String) (attempt : Nat) (c : Course ω) :
    Course ω × Activity :=
  let delay := policy.delayFor attempt
  (c.tell (.reconnecting endpoint delay attempt), .backingOff attempt (c.now + delay.millisCeil))

/-- The first of a series of attempts is prepared. -/
def reconnect (policy : Backoff.Policy) (endpoint : String) (c : Course ω) : Course ω × Activity :=
  backOff policy endpoint 1 c

/-- An attempt has been answered. -/
def receive (E : Environment ω) (policy : Backoff.Policy) (endpoint : String)
    (attempt : Option Nat) (c : Course ω) : Course ω × Stage Activity Result :=
  match c.finish E .establish, attempt with
  | (c, .ok declared), none => (c, .over (.ok (some declared)))
  | (c, .ok declared), some k => (c.tell (.reestablished k), .over (.ok (some declared)))
  | (c, .error cause), none => (c, .over (.error cause))
  | (c, .error cause), some k =>
    if cause.isTransient then
      let (c, a) :=
        backOff policy endpoint (min (k + 1) maxAttempt) (c.tell (.attemptFailed k cause))
      (c, .ongoing a)
    else (c, .over (.error cause))

/-- One action, or nothing if it has to wait. -/
def step (E : Environment ω) (policy : Backoff.Policy) (endpoint : String) (a : Activity)
    (c : Course ω) : Option (Course ω × Stage Activity Result) :=
  match a with
  | .backingOff attempt wake =>
    let elapsed := decide (wake ≤ c.now)
    if c.interrupted then
      let (c, interruptFirst) := if elapsed then c.race E else (c, true)
      if interruptFirst then some (c, .over (.ok none))
      else some (establish E (some attempt) c)
    else if elapsed then some (establish E (some attempt) c)
    else none
  | .establishing attempt due =>
    if c.interrupted then some (c, .over (.ok none))
    else if reached due c.now then some (receive E policy endpoint attempt c)
    else none

end Connect

end QueueDrain
