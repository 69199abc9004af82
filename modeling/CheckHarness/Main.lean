import CheckHarness.Cli.Run

namespace CheckHarness.Cli

/-- The content of a file, if it can be read. -/
def readFile? (path : String) : IO (Option Bytes) := do
  try
    let content ← IO.FS.readBinFile path
    return some content.data.toList
  catch _ =>
    return none

/-- The variables that the program may look at. -/
def environmentNames : List String :=
  Log.filterVariable :: Setting.all.map Setting.environmentName

/-- Runs a command in the world as it is and gives its exit status. The program has no sockets of
its own: to a command that talks to a service it looks as if nobody listened, and a server ends as
soon as it is ready. -/
def perform (arguments : List String) : IO UInt32 := do
  let mut found : List (String × String) := []
  for name in environmentNames do
    if let some value ← IO.getEnv name then
      found := (name, value) :: found
  let file ← match Command.ofArguments arguments with
    | .ok (.serve (some path) _) => readFile? path
    | _ => pure none
  let ending := run {
    environment := fun name => found.lookup name
    file := fun _ => file
    unavailable := fun _ => none
    exchange := fun _ _ => .failed
    network := fun _ _ _ => .refuses } arguments
  match ending with
  | .printed output => IO.print output
  | .failed fault => IO.eprintln fault.display
  | .usage _ => IO.eprintln "usage: serve | checkers | info | task"
  | .serving server => IO.println ("Checker service ready on " ++ server.address.write)
  | .crashed => IO.eprintln "the program crashed"
  return ending.status

end CheckHarness.Cli

def main (arguments : List String) : IO UInt32 :=
  CheckHarness.Cli.perform arguments
