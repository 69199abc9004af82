import CheckHarness.Cli.Command
import CheckHarness.Client
import CheckHarness.Log.Setup
import CheckHarness.Server

namespace CheckHarness.Cli

/-- The world of a command: the files that can be read, the environment, the addresses that can be
had, and what comes of an exchange with a server. -/
structure World where
  environment : Environment
  /-- The content of a file, if it can be read. -/
  file : String → Option Bytes
  /-- Why an address cannot be had, if it cannot. -/
  unavailable : SocketAddress → Option String
  /-- How the exchange over a request goes, given where the service is. -/
  exchange : String → Http.Request → HttpExchange
  /-- What services do with the connections of checkers. -/
  network : String → UInt16 → Bytes → LineStore.Peer

/-- How a command ends. -/
inductive Ending where
  /-- The arguments make no command. -/
  | usage (usage : Usage)
  | printed (output : String)
  | failed (fault : Fault)
  /-- The server is ready to answer. -/
  | serving (server : Server)
  | crashed

namespace Ending

def ofExcept : Except (Failure Fault) Ending → Ending
  | .ok ending => ending
  | .error (.fault fault) => .failed fault
  | .error .crash => .crashed

end Ending

/-- The configuration of a command that talks to a service. Such a command logs warnings only. -/
def clientConfig (world : World) : Except (Failure Fault) Config := do
  let config ← Config.fromEnvironment world.environment
  Log.setup false "warn" world.environment
  return config

def serve (world : World) (configFile : Option String) (flags : Config.Flags) :
    Except (Failure Fault) Ending := do
  let config ← Config.forServer (configFile.map world.file) world.environment flags
  Log.setup false config.logLevel world.environment
  let server ← Server.ofConfig config (Registry.builtins world.network)
  match world.unavailable server.address with
  | none => return .serving server
  | some cause => .error (.fault (server.bindFault cause))

def listCheckers (world : World) : Ending :=
  .printed (String.join ((Registry.builtins world.network).names.map fun name => name ++ "\n"))

def info (world : World) (url : String) : Except (Failure Fault) Ending := do
  let config ← clientConfig world
  let client := Client.ofUrl url config.requestGrace
  let info ← Client.serviceInfo (world.exchange client.baseUrl Client.infoRequest)
  return .printed (info.toJson.indented ++ "\n")

/-- The time limit of a request has to be a span of time. -/
def submit (world : World) (options : TaskOptions) : Except (Failure Fault) Ending := do
  let config ← clientConfig world
  let task ← (options.toDraft config).finish
  let client := Client.ofUrl options.url config.requestGrace
  match client.limit? task with
  | none => .error .crash
  | some _ =>
    let report := Client.report (world.exchange client.baseUrl (Client.submission task))
    return .printed (report.toJson.indented ++ "\n")

def execute (world : World) : Command → Ending
  | .serve configFile flags => .ofExcept (serve world configFile flags)
  | .checkers => listCheckers world
  | .info url => .ofExcept (info world url)
  | .task options => .ofExcept (submit world options)

/-- Runs the command that the arguments make. -/
def run (world : World) (arguments : List String) : Ending :=
  match Command.ofArguments arguments with
  | .ok command => execute world command
  | .error (.fault usage) => .usage usage
  | .error .crash => .crashed

/-- The status that tells the caller how the command ended. -/
def Ending.status : Ending → UInt32
  | .usage .help | .printed _ | .serving _ => 0
  | .failed _ => 1
  | .usage .invalid => 2
  | .crashed => 101

end CheckHarness.Cli
