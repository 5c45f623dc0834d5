import QueueDrain.Amqp.Client
import QueueDrain.CommandLine.Arguments
import QueueDrain.CommandLine.LogFilter
import QueueDrain.Report

/-!
# The program

What the command line does: it reads its arguments, makes a configuration of them, and drains the
queue. Arguments that it refuses end it before anything is logged; a configuration or a URI that is
not admissible ends it before anything is sent.

## Main definitions

* `Program.Setting` — what a run of the program depends on besides its arguments
* `Program.Execution` — what a run of the program leaves behind
* `Program.configure` — the configuration and the endpoint that arguments make
* `Program.decline` — what comes of arguments that do not make a run
* `Program.execute` — a run of the program
-/

namespace QueueDrain

namespace Program

variable {σ : Type}

/-- What a run of the program depends on besides its arguments. -/
structure Setting (σ : Type) where
  /-- The server that connections are made to, with the scheduler, and its state. -/
  peer : Amqp.Peer σ
  server : σ
  /-- When the run begins. -/
  startedAt : Timestamp := .epoch
  /-- When the operator interrupts. -/
  interruptAt : Option Nat := none
  /-- How the endpoint is shown. -/
  shown : Endpoint → String := Endpoint.shown

/-- What a run of the program leaves behind. -/
structure Execution (σ : Type) where
  exitCode : Nat
  /-- What it printed. -/
  stdout : String := ""
  /-- What it printed about arguments that it refused. -/
  usageError : String := ""
  /-- What it logged, in order. -/
  log : List Notice := []
  /-- The instant at which the run was over. -/
  time : Nat := 0
  server : σ

/-- The configuration that arguments make. -/
def configuration (a : CommandLine.Arguments) : Except DrainError Config :=
  let builder : Config.Builder := { brokerUri := a.uri, queueName := a.queue }
  match (builder.set (.prefetchCount a.prefetch)).build with
  | .ok c => .ok c
  | .error fault => .error fault.toError

/-- The configuration and the endpoint that arguments make. -/
def configure (a : CommandLine.Arguments) : Except DrainError (Config × Endpoint) := do
  let c ← configuration a
  match Endpoint.parse c.brokerUri with
  | .ok e => return (c, e)
  | .error fault => throw fault.toError

/-- The report of a run of so many milliseconds. -/
def reportOf (s : Drain.Summary) (startedAt : Timestamp) (millis : Nat) : Report :=
  let nanos := startedAt.nanos + millis % 1000 * 1000000
  let finishedAt :=
    Timestamp.ofParts? (startedAt.secs + millis / 1000 + nanos / 1000000000) (nanos % 1000000000)
  { toSummary := s, startedAt, finishedAt := finishedAt.getD startedAt }

/-- The queue is drained, as far as the fuel allows. -/
def drain (s : Setting σ) (fuel : Nat) (config : Config) (endpoint : Endpoint) :
    Option (Execution σ) :=
  let shown := s.shown endpoint
  let E := Amqp.Client.environment s.peer (.ofConfig endpoint shown config)
  let plan : Drain.Plan := { config, endpoint := shown }
  let world : Amqp.Client σ := { server := s.server, interruptAt := s.interruptAt }
  let final := Drain.run E plan fuel (Drain.start E plan (.opening 0 world 0 false))
  let course := final.course
  let logged := course.log.map Prod.snd
  final.result?.map fun result =>
    match result with
    | .ok summary =>
      { exitCode := 0
        log := logged ++ [.report (reportOf summary s.startedAt course.now).json]
        time := course.now
        server := course.world.server }
    | .error cause =>
      { exitCode := 1
        log := logged ++ [.failed cause]
        time := course.now
        server := course.world.server }

/-- What the program leaves behind if it does not run. What it prints is an error unless its status
is zero. -/
def decline (answer : CommandLine.Answer) (server : σ) : Option (Execution σ) := do
  let exitCode ← answer.exitCode?
  let text ← answer.text?
  return if exitCode = 0 then { exitCode, stdout := text, server }
    else { exitCode, usageError := text, server }

/-- A run of the program, as far as the fuel allows. -/
def execute (s : Setting σ) (fuel : Nat) (arguments : List String) : Option (Execution σ) :=
  match CommandLine.parse arguments with
  | .run a =>
    match configure a with
    | .ok (config, endpoint) => drain s fuel config endpoint
    | .error cause => some { exitCode := 1, log := [.failed cause], server := s.server }
  | answer => decline answer s.server

end Program

end QueueDrain
