import CheckHarness.Cli.Arguments
import CheckHarness.Config.Source
import CheckHarness.Task.Draft
import CheckHarness.Time.Duration.Reader

namespace CheckHarness.Cli

/-- A task as it is described on the command line. -/
structure TaskOptions where
  url : String
  method : Method
  address : String
  flag : Option String
  taskId : UInt64
  teamId : UInt64
  teamName : String
  /-- The service's id, if it is not the configured one. -/
  serviceId : Option UInt64
  currentRound : UInt64
  /-- The round of the put task, if it is not the current one. -/
  relatedRound : Option UInt64
  variant : UInt64
  timeout : Duration
  roundLength : Duration
  deriving DecidableEq, Repr

/-- What the program is asked to do: run a checker service, list the checkers, ask a running service
for its description or submit one task to it. -/
inductive Command where
  | serve (configFile : Option String) (flags : Config.Flags)
  | checkers
  | info (url : String)
  | task (options : TaskOptions)
  deriving DecidableEq, Repr

/-- An integer with an optional sign that fits a port. -/
def port? (text : String) : Option UInt16 :=
  match text.toList with
  | '-' :: digits =>
    match Numeral.extend 1 0 digits with
    | .ok _ => if digits.isEmpty then none else some 0
    | .error _ => none
  | _ => (Numeral.parse16 text).toOption

def word? (text : String) : Option UInt64 :=
  (Numeral.parse64 text).toOption

def duration? (text : String) : Option Duration :=
  (Duration.parse text).toOption

/-- An option whose values are texts with a property. -/
def option (name : String) (accepts : String → Bool) : OptionSpec :=
  ⟨name, fun text => if accepts text then .ok () else misused⟩

def anyText (name : String) : OptionSpec :=
  option name fun _ => true

/-- A path is not empty. -/
def pathOption (name : String) : OptionSpec :=
  option name fun text => text != ""

def wordOption (name : String) : OptionSpec :=
  option name fun text => (word? text).isSome

def durationOption (name : String) : OptionSpec :=
  ⟨name, fun text => ((Duration.parse text).map fun _ => ()).mapError (Failure.map fun _ => .invalid)⟩

def serveOptions : List OptionSpec :=
  [pathOption "config", anyText "bind", anyText "checker",
    option "service-port" fun text => (port? text).isSome]

def infoOptions : List OptionSpec :=
  [anyText "url"]

def taskOptions : List OptionSpec :=
  [anyText "url", option "method" fun text => (Method.ofName? text).isSome, anyText "address",
    anyText "flag", wordOption "task-id", wordOption "team-id", anyText "team-name",
    wordOption "service-id", wordOption "current-round", wordOption "related-round",
    wordOption "variant-id", durationOption "timeout", durationOption "round-length"]

/-- The value of an option as something read from its text, or a standard value. -/
def valueOr (given : Given) (name : String) (read : String → Option α) (standard : α) : α :=
  ((given.lookup name).bind read).getD standard

def readServe (given : Given) : Command :=
  .serve (given.lookup "config") {
    bindAddress := given.lookup "bind"
    checkerName := given.lookup "checker"
    servicePort := (given.lookup "service-port").bind port? }

def readTask (given : Given) : Read Command := do
  let url ← required given "url"
  let method ← required given "method"
  let address ← required given "address"
  match Method.ofName? method with
  | none => misused
  | some method =>
    return .task {
      url, method, address
      flag := given.lookup "flag"
      taskId := valueOr given "task-id" word? 1
      teamId := valueOr given "team-id" word? 1
      teamName := valueOr given "team-name" some "team1"
      serviceId := (given.lookup "service-id").bind word?
      currentRound := valueOr given "current-round" word? 1
      relatedRound := (given.lookup "related-round").bind word?
      variant := valueOr given "variant-id" word? 0
      timeout := valueOr given "timeout" duration? (.ofSeconds 10)
      roundLength := valueOr given "round-length" duration? (.ofSeconds 60) }

def commandNames : List String :=
  ["serve", "checkers", "info", "task", "help"]

/-- Help is asked for in general or about one command. -/
def readHelp : List String → Usage
  | [] => .help
  | [name] => if commandNames.contains name then .help else .invalid
  | _ => .invalid

/-- The command that the arguments make. -/
def Command.ofArguments : List String → Read Command
  | "serve" :: arguments => (readOptions serveOptions [] arguments).map readServe
  | "checkers" :: arguments => (readOptions [] [] arguments).map fun _ => .checkers
  | "info" :: arguments => do
    let given ← readOptions infoOptions [] arguments
    return .info (← required given "url")
  | "task" :: arguments => do readTask (← readOptions taskOptions [] arguments)
  | "help" :: arguments => .error (.fault (readHelp arguments))
  | argument :: _ => .error (.fault (if isHelp argument then .help else .invalid))
  | [] => misused

namespace TaskOptions

/-- The draft of the described task; the configured service id fills in for a missing one. -/
def toDraft (options : TaskOptions) (config : Config) : TaskDraft :=
  (TaskDraft.new options.method options.address).changeAll
    ([.taskId options.taskId,
      .team options.teamId options.teamName,
      .service (options.serviceId.getD config.serviceId),
      .rounds options.currentRound (options.relatedRound.getD options.currentRound),
      .variant options.variant,
      .timeout options.timeout,
      .roundLength options.roundLength] ++ options.flag.toList.map .flag)

end TaskOptions

end CheckHarness.Cli
