import CheckHarness.Api.Router
import CheckHarness.Config.Validation
import CheckHarness.Net.SocketAddress.Printer
import CheckHarness.Registry

namespace CheckHarness

/-- A checker with the address under which it answers. A server is made from a valid configuration
only. -/
structure Server where
  address : SocketAddress
  checker : Checker

namespace Server

/-- The server that a configuration describes, with a checker of the registry. -/
def ofConfig (config : Config) (registry : Registry) : Except (Failure Fault) Server := do
  config.validate
  let address ← SocketAddress.parse config.bindAddress
  let checker ← registry.build config.checkerName config
  return ⟨address, checker⟩

/-- The fault when the address cannot be had. -/
def bindFault (server : Server) (cause : String) : Fault :=
  .network ("Failed to bind to " ++ server.address.write ++ ": " ++ cause)

/-- The answer to a request that arrives at the given time. -/
def answer (server : Server) (timestamp : String) (request : Http.Request) : Http.Reply :=
  Api.answerWith server.checker timestamp request

end Server

end CheckHarness
