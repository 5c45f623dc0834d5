import QueueDrain.Backoff
import QueueDrain.Json.Record

/-!
# Backoff policies as JSON

A policy is an object of its three fields; its delays are objects of seconds and nanoseconds.

## Main definitions

* `Duration.json`, `Duration.record` — a duration as JSON
* `Backoff.Policy.json` — the text of a policy
* `Backoff.Policy.ofJson` — the policy of a text
-/

namespace QueueDrain

/-! ### Durations -/

/-- The parts of a duration that are known. -/
structure Duration.Parts where
  secs : Option Nat := none
  nanos : Option Nat := none

/-- A duration in JSON. Nanoseconds past a full second carry over, and no other field may occur. -/
def Duration.record : Json.Record Duration.Parts Duration where
  fields :=
    [{ name := "secs"
       isKnown := (·.secs.isSome)
       read := fun parts cs =>
         (Json.readNatural "u64" 18446744073709551615 cs).map fun (n, rest) =>
           ({ parts with secs := some n }, rest) },
     { name := "nanos"
       isKnown := (·.nanos.isSome)
       read := fun parts cs =>
         (Json.readNatural "u32" 4294967295 cs).map fun (n, rest) =>
           ({ parts with nanos := some n }, rest) }]
  nothing := {}
  complete := fun parts =>
    match Duration.ofParts? (parts.secs.getD 0) (parts.nanos.getD 0) with
    | some d => .ok d
    | none => .error .durationTooLong
  expected := "struct Duration"
  expectedArray := "struct Duration"
  isOpen := false

/-- The text of a duration in JSON. -/
def Duration.json (d : Duration) : String :=
  "\x7b\"secs\":" ++ Decimal.text d.secs ++ ",\"nanos\":" ++ Decimal.text d.subsecNanos ++ "\x7d"

namespace Backoff

namespace Policy

/-! ### Policies -/

/-- The parts of a policy that are known. -/
structure Parts where
  initialDelay : Option Duration := none
  maxDelay : Option Duration := none
  multiplier : Option Nat := none

/-- A policy in JSON. Other fields may occur. -/
def record : Json.Record Parts Policy where
  fields :=
    [{ name := "initial_delay"
       isKnown := (·.initialDelay.isSome)
       read := fun parts cs =>
         (Duration.record.read cs).map fun (d, rest) =>
           ({ parts with initialDelay := some d }, rest) },
     { name := "max_delay"
       isKnown := (·.maxDelay.isSome)
       read := fun parts cs =>
         (Duration.record.read cs).map fun (d, rest) =>
           ({ parts with maxDelay := some d }, rest) },
     { name := "multiplier"
       isKnown := (·.multiplier.isSome)
       read := fun parts cs =>
         (Json.readNatural "u32" 4294967295 cs).map fun (n, rest) =>
           ({ parts with multiplier := some n }, rest) }]
  nothing := {}
  complete := fun parts =>
    .ok
      { initialDelay := parts.initialDelay.getD .zero
        maxDelay := parts.maxDelay.getD .zero
        multiplier := UInt32.ofNat (parts.multiplier.getD 0) }
  expected := "struct ReconnectPolicy"
  expectedArray := "struct ReconnectPolicy with 3 elements"
  isOpen := true

/-- The text of a policy in JSON, without blanks. -/
def json (p : Policy) : String :=
  "\x7b\"initial_delay\":" ++ p.initialDelay.json ++ ",\"max_delay\":" ++ p.maxDelay.json
    ++ ",\"multiplier\":" ++ Decimal.text p.multiplier.toNat ++ "\x7d"

/-- The policy of a text in JSON. Its fields are taken as they are, a multiplier of zero too. -/
def ofJson (text : String) : Except Json.Fault Policy := Json.readAll record.read text

end Policy

end Backoff

end QueueDrain
