import QueueDrain.Amqp.Server
import QueueDrain.CommandLine.Program

/-!
# The command line

The program as an executable. It has no sockets of its own, so every broker is out of its reach: it
checks its arguments, its configuration and the URI, and reports that there is no network.
-/

namespace QueueDrain

namespace Program

/-- The variable of the environment that holds the log filter. -/
def filterVariable : String := "RUST_LOG"

/-- Steps that a run may take. -/
def stepLimit : Nat := 1000000

/-- The program runs, prints and logs; the value is its exit status. -/
def perform (arguments : List String) : IO UInt32 := do
  let server : Amqp.Server := {}
  let setting : Setting Amqp.Server.State :=
    { peer := server.peer.unreachable, server := server.opening }
  let filter := ((← IO.getEnv filterVariable).map LogFilter.parse).getD .default
  let stdout ← IO.getStdout
  let stderr ← IO.getStderr
  match execute setting stepLimit arguments with
  | none => return 1
  | some execution =>
    stdout.putStr execution.stdout
    stderr.putStr execution.usageError
    for line in execution.log do
      if filter.shows line then stderr.putStrLn ("[" ++ line.text)
    return UInt32.ofNat execution.exitCode

end Program

end QueueDrain

def main (arguments : List String) : IO UInt32 := QueueDrain.Program.perform arguments
