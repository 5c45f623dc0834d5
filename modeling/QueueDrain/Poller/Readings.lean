import QueueDrain.Environment

/-!
# A scripted source of depth readings

An environment for a poller on its own: readings are answered one after the other as a script says,
and everything else that could be asked is never answered.

## Main definitions

* `Readings.Answer`, `Readings` — the script
* `Readings.environment` — the script as an environment
-/

namespace QueueDrain

/-- A scripted answer to a reading. -/
structure Readings.Answer where
  delay : Nat := 0
  result : Except DrainError Nat

/-- The answers still to come, and what has been asked. -/
structure Readings where
  answers : List Readings.Answer
  /-- The answer when the script is at its end. -/
  beyond : DrainError
  /-- Readings begun. -/
  calls : Nat := 0
  /-- The answer to the latest reading. -/
  current : Except DrainError Nat := .ok 0
  /-- When the operator interrupts. -/
  interruptAt : Option Nat := none

namespace Readings

/-- The script with an interrupt that is to come. -/
def expecting (s : Readings) (interrupt : Interrupt) (now : Nat) : Readings :=
  { s with interruptAt := interrupt.instant? now }

/-- A reading begins: the next answer is its answer. -/
def read (now : Nat) (s : Readings) : Effect Readings (Option Nat) :=
  match s.answers with
  | [] =>
    { state := { s with calls := s.calls + 1, current := .error s.beyond }, value := some now }
  | a :: rest =>
    { state := { s with calls := s.calls + 1, current := a.result, answers := rest }
      value := some (now + a.delay) }

/-- The script as an environment. -/
def environment : Environment Readings where
  nextChange s := s.interruptAt
  pass now s :=
    match s.interruptAt with
    | some t =>
      if t ≤ now then { state := { s with interruptAt := none }, value := (), interrupts := true }
      else { state := s, value := () }
    | none => { state := s, value := () }
  start now request s :=
    match request with
    | .depth => s.read now
    | _ => { state := s, value := none }
  answer _ _ s := { state := s, value := s.current }
  ask _ s := { state := s, value := .wait none }
  startReject _ _ s := { state := s, value := none }
  finishReject _ _ s := { state := s, value := .done }
  race s := (s, true)

end Readings

end QueueDrain
