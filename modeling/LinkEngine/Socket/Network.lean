/-!
# The network a process finds

Connections over a network can be opened only where the network can be reached.
A process that finds none learns so from the operating system, and no connection
comes to be.
-/

namespace LinkEngine.Socket

/-- An error as the operating system reports it. -/
structure SystemError where
  code : Nat
  name : String
  text : String
  deriving DecidableEq, Repr

/-- The error of a process that finds no way to an address. -/
def SystemError.networkUnreachable : SystemError :=
  { code := 101, name := "NetworkUnreachable", text := "Network is unreachable" }

/-- The network as a process finds it. -/
structure Network where
  /-- Addresses of the machine itself can be reached. -/
  hasLoopback : Bool
  deriving DecidableEq, Repr

/-- Opens a connection between two ends on the machine itself. -/
def Network.openLoopback (n : Network) : Except SystemError Unit :=
  if n.hasLoopback then .ok () else .error .networkUnreachable

end LinkEngine.Socket
