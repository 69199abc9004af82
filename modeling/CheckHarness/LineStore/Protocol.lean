import CheckHarness.Checker.Outcome
import CheckHarness.Task.Basic
import CheckHarness.Task.Noise

namespace CheckHarness.LineStore

/-- A request to the store. -/
inductive Request where
  | set (key value : String)
  | get (key : String)
  | ping
  deriving DecidableEq, Repr

namespace Request

/-- The request without its line end. -/
def text : Request → String
  | .set key value => "SET " ++ key ++ " " ++ value
  | .get key => "GET " ++ key
  | .ping => "PING"

/-- The line that is sent. -/
def line (request : Request) : Bytes :=
  Bytes.ofText (request.text ++ "\n")

end Request

/-- What a task asks of the store, and what is made of the answer: there is one request line and one
answer line. Flags and noise are kept under the text of the chain, so a get task finds what the put
task of its chain stored. -/
structure Exchange where
  request : Request
  /-- The answer of a store that works. -/
  expected : String
  /-- The complaint about every other answer. -/
  complaint : String
  attackInfo : Option String
  deriving DecidableEq, Repr

/-- Storing a value publishes the key. -/
def store (key value : String) : Exchange :=
  ⟨.set key value, "OK", "Unexpected response to SET", some key⟩

def retrieve (key expected complaint : String) : Exchange :=
  ⟨.get key, expected, complaint, none⟩

/-- The flag of a task that has to have one. -/
def requiredFlag (task : Task) : Except Fault String :=
  match task.flag with
  | some flag => .ok flag
  | none => .error (.internal "flag task without a flag")

/-- The exchange that a task makes with the store. -/
def exchange (task : Task) : Except Fault Exchange :=
  let key := task.chain.render
  match task.method with
  | .putFlag => (requiredFlag task).map (store key ·)
  | .getFlag => (requiredFlag task).map (retrieve key · "Flag not found")
  | .putNoise => .ok (store key (Noise.ofChain key))
  | .getNoise => .ok (retrieve key (Noise.ofChain key) "Noise not found")
  | .havoc => .ok ⟨.ping, "PONG", "Unexpected response to PING", none⟩

/-- A line without the carriage returns and line feeds at its end. -/
def trimLineEnd (line : List Char) : List Char :=
  (line.reverse.dropWhile fun c => c = '\r' || c = '\n').reverse

namespace Exchange

/-- The conclusion from a received line. -/
def judge (exchange : Exchange) (line : Bytes) : Conclusion :=
  match Bytes.text? line with
  | none => .error (.mumble "Service returned invalid UTF-8")
  | some text =>
    if String.ofList (trimLineEnd text.toList) = exchange.expected then
      .ok (.success exchange.attackInfo)
    else .ok (.mumble exchange.complaint)

/-- The conclusion from a line that was received or not. -/
def conclude (exchange : Exchange) (received : Except Fault Bytes) : Conclusion :=
  received.bind exchange.judge

end Exchange

end CheckHarness.LineStore
