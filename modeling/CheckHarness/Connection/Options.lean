import CheckHarness.Config
import CheckHarness.Text.Bytes

namespace CheckHarness

/-- Options of a connection: the limits in time and space, and what to say when nobody can be
reached. -/
structure ConnectOptions where
  connectTimeout : Duration
  bufferCapacity : UInt64
  readChunkSize : UInt64
  /-- The limit of each send or receive, besides the task's deadline. -/
  ioTimeout : Option Duration
  /-- The message of the fault when no connection is made. -/
  connectError : String
  deriving DecidableEq, Repr

namespace ConnectOptions

def ofConfig (config : Config) : ConnectOptions where
  connectTimeout := config.connectTimeout
  bufferCapacity := config.bufferCapacity
  readChunkSize := config.readChunkSize
  ioTimeout := config.ioTimeout
  connectError := "Could not establish TCP connection"

def withConnectError (options : ConnectOptions) (message : String) : ConnectOptions :=
  { options with connectError := message }

def withBufferCapacity (options : ConnectOptions) (capacity : UInt64) : ConnectOptions :=
  { options with bufferCapacity := capacity }

def withReadChunkSize (options : ConnectOptions) (size : UInt64) : ConnectOptions :=
  { options with readChunkSize := size }

def withIoTimeout (options : ConnectOptions) (timeout : Duration) : ConnectOptions :=
  { options with ioTimeout := some timeout }

/-- The capacity that a connection uses: at least one byte. -/
def capacity (options : ConnectOptions) : Nat :=
  max options.bufferCapacity.toNat 1

/-- The chunk size that a connection uses: at least one byte. -/
def chunk (options : ConnectOptions) : Nat :=
  max options.readChunkSize.toNat 1

/-- There is room for the buffer of a connection, and for what is read into it at a time. -/
structure Fits (options : ConnectOptions) : Prop where
  capacity : options.capacity < Bytes.roomBound
  chunk : options.chunk < Bytes.roomBound

end ConnectOptions

end CheckHarness
