import QueueDrain.Amqp.Peer
import QueueDrain.Course

/-!
# A scripted server

An AMQP server with one queue. It answers every method in the usual way and delivers ready messages
up to the prefetch limit, except where its script has a fault: a close of the channel or of the
connection, a lost socket, a subscription that it ends, an interrupt of the operator.

## Main definitions

* `Amqp.Server`, `Amqp.Server.Fault` — the script
* `Amqp.Server.State` — the server at some instant
* `Amqp.Server.peer` — the script as a peer
* `Amqp.Server.State.received` — what each connection brought
-/

namespace QueueDrain

namespace Amqp

namespace Server

/-- What happens in place of an answer. -/
inductive Action where
  | cut (closure : Closure)
  /-- The subscription is ended, and the method is answered all the same. -/
  | cancelConsumer
  /-- The operator interrupts; a silent server answers nothing from then on. -/
  | interrupt (isSilent : Bool)
deriving DecidableEq, Repr

/-- A departure from the usual answers. -/
structure Fault where
  /-- The name of the method. -/
  method : String
  /-- The how-manieth of its kind on the connection. -/
  nth : Nat := 1
  action : Action
  delay : Nat := 0
deriving DecidableEq, Repr

/-- How one connection goes. -/
structure Line where
  faults : List Fault := []
  /-- The message counts that declarations give, in turn; then it is that of the ready messages. -/
  counts : List Nat := []
deriving DecidableEq, Repr

end Server

/-- A server's script. -/
structure Server where
  /-- Messages at the beginning. -/
  messages : Nat := 0
  /-- The connections, in order. -/
  lines : List Server.Line := []
deriving DecidableEq, Repr

namespace Server

/-- The server at some instant. -/
structure State where
  ready : Nat
  deadLettered : Nat := 0
  /-- The script of the current connection. -/
  line : Line := {}
  /-- Whether there is a connection that is not over. -/
  isOpen : Bool := false
  /-- What came on each connection and when, the latest connection first, each latest first. -/
  received : List (List (Nat × Method)) := []
  /-- Deliveries on the current connection without a rejection. -/
  unsettled : Nat := 0
  /-- The limit for them; zero sets none. -/
  prefetch : Nat := 0
  lastTag : Nat := 0
  hasConsumer : Bool := false
  /-- The server has fallen silent. -/
  isSilent : Bool := false
  /-- The fault that answers the method under way. -/
  fault : Option Closure := none
  /-- What is sent of the server's own accord, with its instants. -/
  outbox : List (Nat × Push) := []
deriving DecidableEq, Repr

/-- The server before its first connection. -/
def opening (script : Server) : State := { ready := script.messages }

namespace State

/-- How many methods of a name have come on the current connection. -/
def count (s : State) (name : String) : Nat :=
  match s.received with
  | [] => 0
  | current :: _ => (current.filter fun (_, m) => m.name == name).length

/-- A method came. -/
def note (s : State) (now : Nat) (m : Method) : State :=
  match s.received with
  | [] => { s with received := [[(now, m)]] }
  | current :: earlier => { s with received := ((now, m) :: current) :: earlier }

/-- The connection is over: what was delivered on it is ready again unless it was rejected. -/
def hangUp (s : State) : State :=
  { s with
    ready := s.ready + s.unsettled
    unsettled := 0
    isOpen := false
    hasConsumer := false }

/-- Something is sent at an instant. -/
def send (s : State) (instant : Nat) (p : Push) : State :=
  { s with outbox := s.outbox ++ [(instant, p)] }

/-- How many more messages may be delivered. -/
def room (s : State) : Nat :=
  if !s.hasConsumer then 0
  else if s.prefetch = 0 then s.ready
  else min s.ready (s.prefetch - s.unsettled)

/-- Ready messages are delivered up to the limit. -/
def deliver (s : State) (now : Nat) : State :=
  let number := s.room
  let tags := (List.range number).map fun i => s.lastTag + 1 + i
  { s with
    ready := s.ready - number
    unsettled := s.unsettled + number
    lastTag := s.lastTag + number
    outbox := s.outbox ++ tags.map fun tag => (now, Push.delivery tag) }

/-- The answer to a declaration. -/
def declared (s : State) : Reply :=
  let scripted := s.line.counts[s.count "queue.declare" - 1]?
  .done (scripted.getD s.ready) (if s.hasConsumer then 1 else 0)

/-- What a method does, and its usual answer. -/
def perform (s : State) (now : Nat) : Method → State × Reply
  | .qos prefetch _ => ({ s with prefetch }, .done 0 0)
  | .declare .. => (s, s.declared)
  | .consume .. => ({ s with hasConsumer := true }.deliver now, .done 0 0)
  | .reject .. =>
    ({ s with unsettled := s.unsettled - 1, deadLettered := s.deadLettered + 1 }.deliver now,
      .done 0 0)
  | .cancel .. => ({ s with hasConsumer := false }, .done 0 0)
  | .closeConnection .. => (s.hangUp, .done 0 0)
  | _ => (s, .done 0 0)

/-- The state after a closure has been sent. -/
def cut (s : State) : Closure → State
  | .channel .. => { s with hasConsumer := false }
  | _ => s.hangUp

end State

/-! ### As a peer -/

/-- A connection is made. -/
def connect (script : Server) (s : State) : State :=
  { s with
    line := (script.lines[s.received.length]?).getD {}
    isOpen := true
    received := [] :: s.received
    unsettled := 0
    prefetch := 0
    lastTag := 0
    hasConsumer := false
    outbox := [] }

/-- A method that needs no answer has come. -/
def settle (now : Nat) (m : Method) (s : State) : State :=
  match m with
  | .reject .. => (s.perform now m).1
  | _ => s

/-- A method arrives: it is answered at once, unless a fault delays the answer or prevents it. -/
def receive (now : Nat) (m : Method) (s : State) : Reception State :=
  if s.isSilent then { state := s, due := none }
  else
    let s := { s.note now m with fault := none }
    let isRejection := m.name == "basic.reject"
    match s.line.faults.find? fun f => f.method == m.name && f.nth == s.count m.name with
    | none => { state := settle now m s, due := some now }
    | some f =>
      match f.action with
      | .cut k =>
        if isRejection then { state := s.send (now + f.delay) (.cut k), due := some now }
        else { state := { s with fault := some k }, due := some (now + f.delay) }
      | .cancelConsumer =>
        let s := { s with hasConsumer := false }.send (now + f.delay) .consumerCancelled
        { state := settle now m s, due := some now }
      | .interrupt true =>
        { state := { s with isSilent := true }
          due := if isRejection then some now else none
          interrupts := true }
      | .interrupt false => { state := settle now m s, due := some now, interrupts := true }

/-- A method is answered. -/
def reply (now : Nat) (m : Method) (s : State) : State × Reply :=
  match s.fault with
  | some k => ({ s with fault := none }.cut k, .cut k)
  | none => s.perform now m

/-- What has been sent up to an instant. -/
def push (now : Nat) (s : State) : State × List Push :=
  let due := (s.outbox.filter fun (instant, _) => instant ≤ now).map Prod.snd
  let s := { s with outbox := s.outbox.filter fun (instant, _) => now < instant }
  (due.foldl (fun s p => match p with
    | .cut k => s.cut k
    | _ => s) s, due)

/-- The script as a peer. -/
def peer (script : Server) : Peer State where
  connect _ s := (script.connect s, none)
  receive := receive
  reply := reply
  nextPush s := earliest (s.outbox.map fun (instant, _) => some instant)
  push := push

/-! ### What came -/

/-- The tag of a rejection. -/
def rejectedTag : Method → Nat
  | .reject tag _ => tag
  | _ => 0

/-- Methods in order, with rejections that follow one another sorted by tag. -/
def sortRejections : List Method → List Method
  | [] => []
  | m :: rest =>
    match m, sortRejections rest with
    | .reject tag requeue, sorted =>
      let run := sorted.takeWhile fun n => n.name == "basic.reject" && rejectedTag n < tag
      run ++ .reject tag requeue :: sorted.drop run.length
    | m, sorted => m :: sorted

/-- What each connection brought by some instant, in order. -/
def State.receivedBy (s : State) (now : Nat) : List (List Method) :=
  s.received.reverse.map fun line =>
    sortRejections ((line.reverse.filter fun (instant, _) => instant ≤ now).map Prod.snd)

end Server

end Amqp

end QueueDrain
