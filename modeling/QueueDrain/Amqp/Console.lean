import QueueDrain.Amqp.Client
import QueueDrain.Standalone

/-!
# A session by hand

Single steps on a session, given one by one, each carried out to its end before the next: what a
drain does on its own, and what it never does.

## Main definitions

* `Amqp.Command`, `Amqp.Answer` — a step, and what comes of it
* `Amqp.Console`, `Amqp.Console.run` — one step
* `Amqp.Console.runConfig` — several steps
-/

namespace QueueDrain

namespace Amqp

variable {σ : Type}

/-- A step. -/
inductive Command where
  | establish
  | messageCount
  | declare (spec : QueueSpec)
  | subscribe (tag : String)
  | cancel (tag : String)
  /-- Take deliveries, and reject each at once or not at all. -/
  | next (number : Nat) (rejects : Bool)
  /-- Let the consumer work until it is over. -/
  | runConsumer
  | close
  /-- A whole drain, on a connection of its own. -/
  | drain (interrupted : Bool)
deriving DecidableEq, Repr

/-- Why deliveries end. -/
inductive StreamEnd where
  | ended
  | failed (cause : DrainError)
deriving DecidableEq, Repr

/-- What comes of a step. -/
inductive Answer where
  | declared (messages : Nat)
  | count (messages : Nat)
  | queue (name : String) (messages consumers : Nat)
  | done
  | deliveries (tags : List Nat) (ending : Option StreamEnd)
  | rejected (number : Nat)
  | summary (s : Drain.Summary)
  | failed (cause : DrainError)
  | noSession
  | noSubscription
deriving DecidableEq, Repr

/-- A client in use. -/
structure Console (σ : Type) where
  course : Course (Client σ)
  /-- Whether there is a session. -/
  isOpen : Bool := false

namespace Console

/-- A console before its first step. -/
def opening (server : σ) : Console σ := { course := .opening 0 { server } 0 false }

/-- A request of a session, with the answer that its success gives. -/
def request (E : Environment (Client σ)) (r : Request) (fuel : Nat) (success : Nat → Answer)
    (k : Console σ) : Option (Console σ × Answer) :=
  if !k.isOpen then some (k, .noSession)
  else
    (k.course.request E r fuel).map fun (course, result) =>
      ({ k with course }, match result with
        | .ok count => success count
        | .error cause => .failed cause)

/-- The declaration of any queue. -/
def declare (P : Peer σ) (t : Target) (s : QueueSpec) (fuel : Nat) (k : Console σ) :
    Option (Console σ × Answer) :=
  if !k.isOpen then some (k, .noSession)
  else
    let m := Method.ofSpec s
    let effect := k.course.world.submit P k.course.now m
    let c := k.course.absorb effect
    (c.await (Client.environment P t) effect.value fuel).map fun c =>
      match c.world.ending with
      | some (.error cause) => ({ k with course := c }, .failed cause)
      | _ =>
        match c.world.collect P c.now m with
        | (world, .ok (messages, consumers)) =>
          ({ k with course := { c with world } }, .queue s.name messages consumers)
        | (world, .error cause) =>
          ({ k with course := { c with world } }, .failed (.ofDeclare s.name cause))

/-- A delivery is rejected, if it is to be. -/
def reject (E : Environment (Client σ)) (rejects : Bool) (tag fuel : Nat)
    (c : Course (Client σ)) : Option (Course (Client σ) × Settlement) :=
  if !rejects then some (c, .done)
  else
    let effect := E.startReject c.now tag c.world
    ((c.absorb effect).await E effect.value fuel).map fun c =>
      let effect := E.finishReject c.now tag c.world
      (c.absorb effect, effect.value)

/-- The next deliveries, up to a number of them or to the end of the stream. -/
def next (E : Environment (Client σ)) (rejects : Bool) :
    Nat → Nat → Course (Client σ) → Option (Course (Client σ) × List Nat × Option StreamEnd)
  | 0, _, _ => none
  | _, 0, c => some (c, [], none)
  | fuel + 1, number + 1, c =>
    let effect := E.ask c.now c.world
    let c := c.absorb effect
    match effect.value with
    | .wait wake => next E rejects fuel (number + 1) (c.advance E [wake])
    | .delivery tag =>
      match reject E rejects tag fuel c with
      | none => none
      | some (c, .failed cause) => some (c, [tag], some (.failed cause))
      | some (c, .panicked text) => some (c, [tag], some (.failed (.ofPanic text)))
      | some (c, .done) =>
        (next E rejects fuel number c).map fun (c, tags, ending) => (c, tag :: tags, ending)
    | .failed cause => some (c, [], some (.failed cause))
    | .panicked text => some (c, [], some (.failed (.ofPanic text)))
    | .ended => some (c, [], some .ended)
    | .cancelled => some (c, [], some .ended)

/-- The consumer works until it is over; its rejections are counted from zero. -/
def consume (E : Environment (Client σ)) (t : Target) (fuel : Nat) (k : Console σ) :
    Option (Console σ × Answer) :=
  let c := { k.course with rejected := 0 }
  let r := (Consumer.Run.enter t.prefetch c).run E t.spec.name fuel
  match r.stage with
  | .ongoing _ => none
  | .over .stopped => some ({ k with course := r.course }, .rejected r.course.rejected.toNat)
  | .over (.failed cause) => some ({ k with course := r.course }, .failed cause)
  | .over (.panicked text) => some ({ k with course := r.course }, .failed (.ofPanic text))

/-- A whole drain on a connection of its own; the session, if there is one, is left alone. -/
def drain (E : Environment (Client σ)) (plan : Drain.Plan) (interrupted : Bool) (fuel : Nat)
    (k : Console σ) : Option (Console σ × Answer) :=
  let c : Course (Client σ) :=
    .opening k.course.now { k.course.world with link := {} } 0 interrupted
  let s := Drain.run E plan fuel (Drain.start E plan c)
  s.result?.map fun result =>
    ({ k with
        course :=
          { k.course with
            now := s.course.now
            world := { s.course.world with link := k.course.world.link } } },
      match result with
      | .ok summary => .summary summary
      | .error cause => .failed cause)

/-- One step, as far as the fuel allows. -/
def run (P : Peer σ) (t : Target) (plan : Drain.Plan) (fuel : Nat) (command : Command)
    (k : Console σ) : Option (Console σ × Answer) :=
  let E := Client.environment P t
  match command with
  | .establish =>
    (k.course.request E .establish fuel).map fun (course, result) =>
      match result with
      | .ok declared => ({ course, isOpen := true }, .declared declared)
      | .error cause => ({ course, isOpen := false }, .failed cause)
  | .messageCount => k.request E .depth fuel .count
  | .declare s => k.declare P t s fuel
  | .subscribe tag => k.request E (.subscribe tag) fuel fun _ => .done
  | .cancel tag => k.request E (.cancel tag) fuel fun _ => .done
  | .next number rejects =>
    if !k.isOpen then some (k, .noSession)
    else if k.course.world.link.stream.isNone then some (k, .noSubscription)
    else
      (next E rejects fuel number k.course).map fun (course, tags, ending) =>
        ({ k with course }, .deliveries tags ending)
  | .runConsumer =>
    if !k.isOpen then some (k, .noSession)
    else if k.course.world.link.stream.isNone then some (k, .noSubscription)
    else k.consume E t fuel
  | .close =>
    (k.request E .close fuel fun _ => .done).map fun (k, answer) =>
      ({ k with isOpen := false }, answer)
  | .drain interrupted => k.drain E plan interrupted fuel

/-- The steps of a client whose URI denotes no endpoint. -/
def withoutEndpoint (cause : DrainError) : Command → Answer
  | .establish | .drain _ => .failed cause
  | _ => .noSession

/-- Several steps, as far as the fuel of each allows. -/
def runAll (P : Peer σ) (t : Target) (plan : Drain.Plan) (fuel : Nat) :
    List Command → Console σ → Option (Console σ × List Answer)
  | [], k => some (k, [])
  | command :: rest, k =>
    match k.run P t plan fuel command with
    | none => none
    | some (k, answer) =>
      (runAll P t plan fuel rest k).map fun (k, answers) => (k, answer :: answers)

/-- Several steps with a configuration, whose endpoint is shown in a way of its own. -/
def runConfig (P : Peer σ) (config : Config) (shown : Endpoint → String) (fuel : Nat)
    (commands : List Command) (k : Console σ) : Option (Console σ × List Answer) :=
  match Endpoint.parse config.brokerUri with
  | .error fault => some (k, commands.map (withoutEndpoint fault.toError))
  | .ok e =>
    runAll P (.ofConfig e (shown e) config) { config, endpoint := shown e } fuel commands k

end Console

end Amqp

end QueueDrain
