import CheckHarness.Log.Format
import CheckHarness.Time.Duration

namespace CheckHarness

/-- The configuration of a checker process: where it listens, which checker it runs, how that
checker talks to its service, what is logged, and how long a client waits for answers. -/
structure Config where
  /-- The address that the server listens on. -/
  bindAddress : String := "0.0.0.0:8000"
  checkerName : String := "dummy"
  /-- The TCP port where the service under test listens. -/
  servicePort : UInt16 := 8080
  serviceId : UInt64 := 1
  connectTimeout : Duration := .ofSeconds 5
  /-- How many bytes a connection buffers. -/
  bufferCapacity : UInt64 := 65536
  /-- How many bytes one read of a socket asks for at most. -/
  readChunkSize : UInt64 := 4096
  /-- The limit of each send or receive; without one only the task's deadline counts. -/
  ioTimeout : Option Duration := none
  /-- The filter of the log. -/
  logLevel : String := "info"
  logFormat : Log.Format := .text
  /-- How long a client waits for an answer beyond the task's own timeout. -/
  requestGrace : Duration := .ofMilliseconds 500
  deriving DecidableEq, Repr

namespace Config

/-- The configuration when nothing is said. -/
def standard : Config :=
  {}

/-- A configuration that listens on a free loopback port. -/
def loopback : Config :=
  { bindAddress := "127.0.0.1:0", connectTimeout := .ofSeconds 1 }

end Config

end CheckHarness
