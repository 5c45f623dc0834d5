import QueueDrain.Drain
import QueueDrain.Json.Quoted
import QueueDrain.Timestamp

/-!
# Reports

What a run did and when, as one line of JSON.

## Main definitions

* `Report` — the report of a run
* `Report.json` — its text
* `Report.elapsedSeconds`, `Report.elapsedMillis`, `Report.elapsedSubsecNanos` — how long it took
-/

namespace QueueDrain

/-- What a run did, and when. -/
structure Report extends Drain.Summary where
  startedAt : Timestamp
  finishedAt : Timestamp
deriving DecidableEq, Repr

/-- The outcome in JSON. -/
def Outcome.json : Outcome → String
  | .drained => "drained"
  | .interrupted => "interrupted"

namespace Report

/-! ### Text -/

/-- A name and a value in an object. -/
def member (name : String) (value : List Char) : List Char :=
  Json.Quoted.encode name.toList ++ [':'] ++ value

/-- The members of a report, in order. -/
def members (r : Report) : List (List Char) :=
  [member "queue" (Json.Quoted.encode r.queue.toList),
    member "endpoint" (Json.Quoted.encode r.endpoint.toList),
    member "outcome" (Json.Quoted.encode r.outcome.json.toList),
    member "rejected" (Decimal.digits r.rejected),
    member "polls" (Decimal.digits r.polls),
    member "reconnects" (Decimal.digits r.reconnects),
    member "last_message_count" (match r.lastMessageCount with
      | some n => Decimal.digits n
      | none => "null".toList),
    member "started_at" (Json.Quoted.encode r.startedAt.text),
    member "finished_at" (Json.Quoted.encode r.finishedAt.text)]

/-- The report as an object in JSON, on one line and without blanks. -/
def json (r : Report) : String :=
  String.ofList (['\x7b'] ++ List.intercalate [','] r.members ++ ['\x7d'])

/-! ### Length -/

/-- Nanoseconds from the beginning of the run to its end. -/
def elapsedNanos (r : Report) : Int := r.finishedAt.nanosSince r.startedAt

/-- Whole seconds of the run. -/
def elapsedSeconds (r : Report) : Int := r.elapsedNanos.tdiv 1000000000

/-- Whole milliseconds of the run. -/
def elapsedMillis (r : Report) : Int := r.elapsedNanos.tdiv 1000000

/-- Nanoseconds past the whole seconds of the run. -/
def elapsedSubsecNanos (r : Report) : Int := r.elapsedNanos.tmod 1000000000

end Report

end QueueDrain
