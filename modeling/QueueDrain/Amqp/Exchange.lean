import QueueDrain.Amqp.Link

/-!
# Sequences of methods

A session is opened, and closed, by several methods one after the other, each sent when the one
before it is answered. Such a sequence is computed from its first instant on: it notes what was
tried when, what it told, and at which instant it is over. Nothing else uses the connection
meanwhile, so a sequence that is given up has sent what it had sent by then.

## Main definitions

* `Amqp.Trial`, `Amqp.Progress` — how far a sequence has come
* `Amqp.exchange` — a method and its answer
* `Amqp.establish` — a session is opened, and closed again if a step fails
* `Amqp.close` — a session is closed
* `Amqp.parting` — the closes of handles that are dropped
-/

namespace QueueDrain

namespace Amqp

variable {σ : Type}

/-- Where a client connects to, and what it does there. -/
structure Target where
  endpoint : Endpoint
  /-- How the endpoint is shown. -/
  shown : String
  prefetch : Nat
  spec : QueueSpec

/-- What a configuration makes of an endpoint. -/
def Target.ofConfig (endpoint : Endpoint) (shown : String) (c : Config) : Target :=
  { endpoint, shown, prefetch := c.prefetchCount.toNat, spec := .ofConfig c }

/-- A method that the client tried. -/
structure Trial where
  time : Nat
  method : Method
  /-- Whether it was sent, its link being open. -/
  isSent : Bool
  /-- How it failed, if it did and that is known. -/
  failure : Option TransportError
deriving DecidableEq, Repr

/-- How far a sequence has come. -/
structure Progress (σ : Type) where
  server : σ
  link : Link
  time : Nat
  /-- What was tried, in order. -/
  trials : List Trial := []
  /-- What was told, in order. -/
  notices : List Notice := []
  interrupts : Bool := false

/-- How an exchange ends. -/
inductive Result where
  /-- The method was answered; of a declaration, with the messages of the queue. -/
  | done (messages : Nat)
  | failed (cause : TransportError)
  /-- The answer never comes. -/
  | silent
deriving DecidableEq, Repr

namespace Progress

/-- A method was tried. -/
def note (p : Progress σ) (trial : Trial) : Progress σ := { p with trials := p.trials ++ [trial] }

/-- A line is logged. -/
def tell (p : Progress σ) (line : Notice) : Progress σ := { p with notices := p.notices ++ [line] }

end Progress

/-- A method and its answer. -/
def exchange (P : Peer σ) (m : Method) (p : Progress σ) : Progress σ × Result :=
  match p.link.refusal? m with
  | some cause => (p.note ⟨p.time, m, false, some cause⟩, .failed cause)
  | none =>
    let got := P.receive p.time m p.server
    let p := { p with server := got.state, interrupts := p.interrupts || got.interrupts }
    match got.due with
    | none => (p.note ⟨p.time, m, true, none⟩, .silent)
    | some due =>
      let time := max p.time due
      match P.reply time m p.server with
      | (server, .done messages _) =>
        ({ p.note ⟨p.time, m, true, none⟩ with server, time, link := p.link.confirm m },
          .done messages)
      | (server, .cut k) =>
        let cause := k.error (some m)
        ({ p.note ⟨p.time, m, true, some cause⟩ with server, time, link := p.link.cut k },
          .failed cause)

/-- Methods one after the other, up to the first that is not answered in the usual way. -/
def exchangeAll (P : Peer σ) : List Method → Progress σ → Progress σ × Result
  | [], p => (p, .done 0)
  | m :: rest, p =>
    match exchange P m p with
    | (p, .done _) => exchangeAll P rest p
    | (p, other) => (p, other)

/-! ### Closing -/

/-- The code and the text with which the client closes. -/
def closingCode : Nat := 200

def closingText : String := "queue drained"

def closeChannel : Method := .closeChannel closingCode closingText

def closeConnection : Method := .closeConnection closingCode closingText

/-- Closes are tried one after the other, whatever becomes of each. The truth value tells whether
every one of them is over. -/
def closeAll (P : Peer σ) : List Method → Progress σ → Progress σ × Bool
  | [], p => (p, true)
  | m :: rest, p =>
    match exchange P m p with
    | (p, .silent) => (p, false)
    | (p, .done _) => closeAll P rest (if m = closeConnection then p.tell .connectionClosed else p)
    | (p, .failed _) => closeAll P rest p

/-- A session is closed: the channel, then the connection. -/
def close (P : Peer σ) (p : Progress σ) : Progress σ × Bool :=
  closeAll P [closeChannel, closeConnection] p

/-- The text with which handles that are dropped close what they stand for. -/
def partingText : String := "OK"

/-- The closes that may follow what was sent on a connection when its handles are dropped, as those
of an attempt are that is given up: of the channel, if there is one, and of the connection, each
unless it is closed already. -/
def parting (ms : List Method) : List Method :=
  let isSent (name : String) : Bool := ms.any fun m => m.name == name
  if isSent "connection.close" then []
  else if isSent "channel.open" && !isSent "channel.close" then
    [.closeChannel closingCode partingText, .closeConnection closingCode partingText]
  else [.closeConnection closingCode partingText]

/-! ### Opening -/

/-- The name under which the client introduces itself. -/
def connectionName : String := "reject-all"

/-- The methods that open a connection. -/
def handshake (t : Target) : List Method :=
  [.protocolHeader, .login t.endpoint connectionName, .openConnection t.endpoint.vhost]

/-- The methods that open the channel and limit what is delivered on it. -/
def channelSetup (t : Target) : List Method := [.openChannel 1, .qos t.prefetch false]

/-- How an attempt at a session ends. -/
inductive Establishment where
  /-- The session is open; the queue held so many messages when it was declared. -/
  | opened (declared : Nat)
  | failed (cause : DrainError)
  /-- The attempt never ends. -/
  | silent
deriving DecidableEq, Repr

/-- What is open is closed again, and the attempt fails with the error that it met. -/
def giveUp (P : Peer σ) (closes : List Method) (cause : DrainError) (p : Progress σ) :
    Progress σ × Establishment :=
  match closeAll P closes p with
  | (p, true) => (p, .failed cause)
  | (p, false) => (p, .silent)

/-- The queue is declared on the open channel. -/
def declareFirst (P : Peer σ) (t : Target) (p : Progress σ) : Progress σ × Establishment :=
  match exchange P (.ofSpec t.spec) p with
  | (p, .done messages) => (p, .opened messages)
  | (p, .failed cause) =>
    giveUp P [closeChannel, closeConnection] (.ofDeclare t.spec.name cause) p
  | (p, .silent) => (p, .silent)

/-- The channel is opened on the open connection. -/
def openChannel (P : Peer σ) (t : Target) (p : Progress σ) : Progress σ × Establishment :=
  match exchangeAll P (channelSetup t) p with
  | (p, .done _) => declareFirst P t (p.tell (.prefetchSet t.prefetch))
  | (p, .failed cause) => giveUp P [closeConnection] (.transport cause) p
  | (p, .silent) => (p, .silent)

/-- The handshake on a connection that has just been made. -/
def openConnection (P : Peer σ) (t : Target) (p : Progress σ) : Progress σ × Establishment :=
  match exchangeAll P (handshake t) p with
  | (p, .done _) => openChannel P t (p.tell (.connected t.shown))
  | (p, .failed cause) => (p, .failed (.transport cause))
  | (p, .silent) => (p, .silent)

/-- A session is opened: connect, open the channel, declare the queue. -/
def establish (P : Peer σ) (t : Target) (now : Nat) (server : σ) : Progress σ × Establishment :=
  let p : Progress σ := { server, link := {}, time := now }
  let p := if t.endpoint.secure then p else p.tell (.withoutTls t.shown)
  match P.connect now p.server with
  | (server, some cause) => ({ p with server }, .failed (.transport cause))
  | (server, none) => openConnection P t { p with server }

end Amqp

end QueueDrain
