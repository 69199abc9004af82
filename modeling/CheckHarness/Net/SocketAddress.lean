namespace CheckHarness

/-- An IPv4 or IPv6 address and a port. -/
inductive SocketAddress where
  | v4 (octets : Vector UInt8 4) (port : UInt16)
  /-- The scope names a network interface; zero names none. -/
  | v6 (groups : Vector UInt16 8) (scope : UInt32) (port : UInt16)
  deriving DecidableEq, Repr

namespace SocketAddress

def port : SocketAddress → UInt16
  | .v4 _ port | .v6 _ _ port => port

end SocketAddress

end CheckHarness
