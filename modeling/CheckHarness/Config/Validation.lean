import CheckHarness.Config
import CheckHarness.Log.Filter
import CheckHarness.Net.SocketAddress.Parser

namespace CheckHarness.Config

/-- The most bytes that a connection may buffer. -/
def maxBufferCapacity : UInt64 :=
  67108864

/-- The flaws a configuration may have apart from its log, in the order in which they are reported.
Nothing is started with a configuration that has one. -/
def flaws (config : Config) : List (Bool × Fault) :=
  [((SocketAddress.ofText? config.bindAddress).isNone,
      .configuration "server.bind_address" SocketAddress.badSyntax),
    (Text.isBlankText config.checkerName, .configuration "checker.name" "must not be empty"),
    (config.servicePort == 0, .configuration "checker.service_port" "must be non-zero"),
    (config.connectTimeout.isZero, .configuration "connection.connect_timeout" "must be positive"),
    (config.bufferCapacity == 0 || maxBufferCapacity < config.bufferCapacity,
      .configuration "connection.buffer_capacity"
        s!"must be between 1 and {maxBufferCapacity.toNat} bytes"),
    (config.readChunkSize == 0, .configuration "connection.read_chunk_size" "must be non-zero"),
    (config.ioTimeout.any Duration.isZero,
      .configuration "connection.io_timeout" "must be positive when set")]

/-- Passes for a configuration without flaws. The filter of the log is looked at last. -/
def validate (config : Config) : Except (Failure Fault) Unit := do
  (Fault.rejectFirst config.flaws).mapError .fault
  Log.Filter.require config.logLevel

/-- The given configuration, if it has no flaws. -/
def checked (config : Config) : Except (Failure Fault) Config :=
  config.validate.map fun _ => config

end CheckHarness.Config
