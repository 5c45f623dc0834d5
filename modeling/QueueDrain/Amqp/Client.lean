import QueueDrain.Amqp.Exchange
import QueueDrain.Course

/-!
# The client

An AMQP client on any server as the environment of a drain: requests of the drain become methods,
and what the server sends becomes answers, deliveries and failures. A method whose link is cut while
it waits for its answer fails. The client counts its turns, by which the scheduler decides what is
looked at first.

## Main definitions

* `Amqp.Client` — the state of client and server
* `Amqp.Client.environment` — the client as the environment of a drain
* `Amqp.Client.sentBy` — what was sent on each connection by some instant
-/

namespace QueueDrain

namespace Amqp

variable {σ : Type}

/-- Client and server. -/
structure Client (σ : Type) where
  server : σ
  link : Link := {}
  /-- What was tried on each connection, the latest connection first, each in order. -/
  trials : List (List Trial) := []
  /-- The method whose answer is awaited. -/
  waiting : Option Method := none
  /-- How the request under way ends, if that is known before its answer. -/
  ending : Option (Except DrainError Nat) := none
  /-- What the request under way tells when it is answered. -/
  notices : List Notice := []
  /-- Rejections that could not be sent. -/
  refused : List (Nat × TransportError) := []
  /-- When the operator interrupts. -/
  interruptAt : Option Nat := none
  /-- How often the stream was asked, a rejection was looked at, time passed or two things raced. -/
  turns : Nat := 0

namespace Client

/-- A method was tried on the current connection. -/
def note (c : Client σ) (trial : Trial) : Client σ :=
  match c.trials with
  | [] => { c with trials := [[trial]] }
  | current :: earlier => { c with trials := (current ++ [trial]) :: earlier }

/-- One turn more. -/
def turn (c : Client σ) : Client σ := { c with turns := c.turns + 1 }

/-- What was sent on each connection by some instant, in order. -/
def sentBy (c : Client σ) (now : Nat) : List (List Method) :=
  c.trials.reverse.map fun trials =>
    (trials.filter fun t => t.isSent && t.time ≤ now).map Trial.method

/-! ### Requests -/

/-- A method is sent whose answer is awaited. One that cannot be sent fails at once. -/
def submit (P : Peer σ) (now : Nat) (m : Method) (c : Client σ) : Effect (Client σ) (Option Nat) :=
  let c := { c with waiting := some m, ending := none, notices := [] }
  match c.link.refusal? m with
  | some cause =>
    { state :=
        { c.note ⟨now, m, false, some cause⟩ with ending := some (.error (.transport cause)) }
      value := some now }
  | none =>
    let got := P.receive now m c.server
    { state := { c.note ⟨now, m, true, none⟩ with server := got.state }
      value := got.due
      interrupts := got.interrupts }

/-- The method of a request that is a single one. -/
def method (t : Target) : Request → Method
  | .subscribe tag => .consume t.spec.name tag {} []
  | .cancel tag => .cancel tag false
  | _ => .ofSpec t.spec

/-- A request begins. -/
def start (P : Peer σ) (t : Target) (now : Nat) (request : Request) (c : Client σ) :
    Effect (Client σ) (Option Nat) :=
  match request with
  | .establish =>
    let (p, result) := Amqp.establish P t now c.server
    let ending :=
      match result with
      | .opened declared => some (.ok declared)
      | .failed cause => some (.error cause)
      | .silent => none
    { state :=
        { c with
          server := p.server, link := p.link, trials := p.trials :: c.trials
          waiting := none, ending, notices := p.notices, refused := [] }
      value := ending.map fun _ => p.time
      interrupts := p.interrupts }
  | .close =>
    let (p, isOver) := Amqp.close P { server := c.server, link := c.link, time := now }
    { state :=
        p.trials.foldl note
          { c with
            server := p.server, link := { p.link with stream := none }
            waiting := none, ending := some (.ok 0), notices := p.notices }
      value := if isOver then some p.time else none
      interrupts := p.interrupts }
  | request => c.submit P now (method t request)

/-- The error of a request. -/
def requestError (t : Target) (request : Request) (cause : TransportError) : DrainError :=
  match request with
  | .depth => .ofDeclare t.spec.name cause
  | _ => .transport cause

/-- What a request tells when it has succeeded. -/
def requestNotices (t : Target) : Request → List Notice
  | .subscribe tag => [.consumerStarted tag t.spec.name]
  | .cancel tag => [.consumerCancelled tag]
  | _ => []

/-- The answer to a single method. -/
def collect (P : Peer σ) (now : Nat) (m : Method) (c : Client σ) :
    Client σ × Except TransportError (Nat × Nat) :=
  match P.reply now m c.server with
  | (server, .done messages consumers) =>
    ({ c with server, link := c.link.confirm m }, .ok (messages, consumers))
  | (server, .cut k) => ({ c with server, link := c.link.cut k }, .error (k.error (some m)))

/-- A request is answered. -/
def answer (P : Peer σ) (t : Target) (now : Nat) (request : Request) (c : Client σ) :
    Effect (Client σ) (Except DrainError Nat) :=
  let idle (c : Client σ) : Client σ := { c with waiting := none, ending := none, notices := [] }
  match c.ending with
  | some result => { state := idle c, value := result, notices := c.notices }
  | none =>
    match c.collect P now (method t request) with
    | (c, .ok (messages, _)) =>
      { state := idle c, value := .ok messages, notices := requestNotices t request }
    | (c, .error cause) => { state := idle c, value := .error (requestError t request cause) }

/-! ### What the server sends -/

/-- Something that the server sends of its own accord. If it cuts the link, the method whose answer
is awaited fails. -/
def absorb (t : Target) (c : Client σ) (p : Push) : Client σ :=
  let c := { c with link := c.link.absorb p }
  match p, c.waiting, c.ending with
  | .cut k, some m, none =>
    let cause := k.error (some m)
    let ending :=
      match m with
      | .declare .. => DrainError.ofDeclare t.spec.name cause
      | _ => .transport cause
    { c with ending := some (.error ending) }
  | _, _, _ => c

/-- The clock reaches an instant. -/
def pass (P : Peer σ) (t : Target) (now : Nat) (c : Client σ) : Effect (Client σ) Unit :=
  let (server, pushes) := P.push now c.server
  let c := pushes.foldl (absorb t) { c.turn with server }
  match c.interruptAt with
  | some instant =>
    if instant ≤ now then
      { state := { c with interruptAt := none }, value := (), interrupts := true
        notices := [.stopRequested] }
    else { state := c, value := () }
  | none => { state := c, value := () }

/-! ### Deliveries -/

/-- The delivery stream is asked. -/
def ask (c : Client σ) : Effect (Client σ) Offer :=
  let (link, offer) := c.link.ask
  { state := { c.turn with link }, value := offer }

/-- A delivery is rejected, not to be queued again: there is no answer to wait for. -/
def startReject (P : Peer σ) (now tag : Nat) (c : Client σ) : Effect (Client σ) (Option Nat) :=
  let m := Method.reject tag false
  match c.link.refusal? m with
  | some cause =>
    { state := { c.note ⟨now, m, false, some cause⟩ with refused := (tag, cause) :: c.refused }
      value := some now }
  | none =>
    let got := P.receive now m c.server
    { state := { c.note ⟨now, m, true, none⟩ with server := got.state }
      value := got.due
      interrupts := got.interrupts }

/-- A rejection is over. -/
def finishReject (tag : Nat) (c : Client σ) : Effect (Client σ) Settlement :=
  match c.refused.lookup tag with
  | some cause => { state := c.turn, value := .failed (.transport cause) }
  | none => { state := c.turn, value := .done }

/-- The client as the environment of a drain. -/
def environment (P : Peer σ) (t : Target) : Environment (Client σ) where
  nextChange c := earliest [c.interruptAt, P.nextPush c.server]
  pass := pass P t
  start := start P t
  answer := answer P t
  ask _ := ask
  startReject := startReject P
  finishReject _ := finishReject
  race c := (c.turn, P.race c.turns c.server)
  consumerFirst c := P.consumerFirst c.turns c.server

end Client

end Amqp

end QueueDrain
