import QueueDrain.Course

/-!
# Transcripts

The trace of a run as its audience reads it: the calls that the broker got, with the numbers of
attempts and sessions, and the deliveries with their fates, in an order that does not depend on who
moved first within one millisecond.

## Main definitions

* `Transcript.Call`, `Transcript.calls` — requests and answers, numbered
* `Transcript.Happening`, `Transcript.happenings` — deliveries, rejections and ends of streams
-/

namespace QueueDrain

namespace Transcript

/-- A request or an answer, with the number of the attempt or of the session. -/
inductive Call where
  | establish (attempt : Nat)
  | establishFailed (attempt : Nat)
  | session (number declared : Nat)
  | poll (session count : Nat)
  | pollFailed (session : Nat)
  | subscribe (session : Nat) (tag : String)
  | subscribeFailed (session : Nat)
  | cancel (session : Nat) (tag : String)
  | cancelFailed (session : Nat)
  | close (session : Nat)
deriving DecidableEq, Repr

/-- What kind of thing happened to a delivery or a stream. -/
inductive Kind where
  | rejected
  | delivered
  | rejectFailed
  | rejectPanicked
  | streamCancelled
  | streamEnded
  | streamFailed
  | streamPanicked
deriving DecidableEq, Repr

/-- The order of kinds within one instant. -/
def Kind.rank : Kind → Nat
  | .rejected => 0
  | .delivered => 1
  | .rejectFailed | .rejectPanicked => 2
  | _ => 3

/-- Something that happened to a delivery, or to the stream of a session. -/
structure Happening where
  time : Nat
  kind : Kind
  /-- The delivery, or the session of the stream. -/
  number : Nat
deriving DecidableEq, Repr

/-- How far attempts and sessions have been counted. -/
structure Count where
  attempts : Nat := 0
  sessions : Nat := 0

/-- The count after an event. -/
def Count.next (n : Count) : Event → Count
  | .began .establish => { n with attempts := n.attempts + 1 }
  | .answered .establish _ => { n with sessions := n.sessions + 1 }
  | _ => n

/-- The call that an event is, counted up to and including it. -/
def call? (n : Count) : Event → Option Call
  | .began .establish => some (.establish n.attempts)
  | .failed .establish _ => some (.establishFailed n.attempts)
  | .answered .establish declared => some (.session n.sessions declared)
  | .answered .depth count => some (.poll n.sessions count)
  | .failed .depth _ => some (.pollFailed n.sessions)
  | .answered (.subscribe tag) _ => some (.subscribe n.sessions tag)
  | .failed (.subscribe _) _ => some (.subscribeFailed n.sessions)
  | .answered (.cancel tag) _ => some (.cancel n.sessions tag)
  | .failed (.cancel _) _ => some (.cancelFailed n.sessions)
  | .answered .close _ => some (.close n.sessions)
  | _ => none

/-- What an event did to a delivery or a stream. -/
def happening? (n : Count) (time : Nat) : Event → Option Happening
  | .rejected tag => some ⟨time, .rejected, tag⟩
  | .delivered tag => some ⟨time, .delivered, tag⟩
  | .rejectFailed tag _ => some ⟨time, .rejectFailed, tag⟩
  | .rejectPanicked tag => some ⟨time, .rejectPanicked, tag⟩
  | .streamCancelled => some ⟨time, .streamCancelled, n.sessions⟩
  | .streamEnded => some ⟨time, .streamEnded, n.sessions⟩
  | .streamFailed _ => some ⟨time, .streamFailed, n.sessions⟩
  | .streamPanicked _ => some ⟨time, .streamPanicked, n.sessions⟩
  | _ => none

/-- The events of a history with the count at each. -/
def counted : Count → List Entry → List (Count × Entry)
  | _, [] => []
  | n, e :: rest =>
    let n := n.next e.event
    (n, e) :: counted n rest

/-- The calls of a history, in order. -/
def calls (n : Count) (history : List Entry) : List (Nat × Call) :=
  (counted n history).filterMap fun (n, e) => (call? n e.event).map fun c => (e.time, c)

/-- Whether one happening is listed before another: by instant, then by kind, then by number. -/
def Happening.before (a b : Happening) : Bool :=
  if a.time ≠ b.time then a.time < b.time
  else if a.kind.rank ≠ b.kind.rank then a.kind.rank < b.kind.rank
  else a.number ≤ b.number

/-- The deliveries, rejections and ends of streams in a history. -/
def happenings (n : Count) (history : List Entry) : List Happening :=
  ((counted n history).filterMap fun (n, e) => happening? n e.time e.event).mergeSort
    Happening.before

end Transcript

end QueueDrain
