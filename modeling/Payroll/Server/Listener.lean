import Payroll.Server.Address
import Payroll.Server.Config
import Payroll.Server.Shutdown
/-!
The life of a listening server: it listens at its host, and stops once shutdown begins.
-/

namespace Payroll

/-- A server that has been given a port. -/
structure Listener where
  address : Address
  port : UInt16
  shutdown : Shutdown
deriving DecidableEq

namespace Listener

/-- What is said of a host at which nothing can listen. -/
def bindFault : String := "cannot bind"

/-- Listens at the host. A server that asks for any free port gets `free`. -/
def bind (config : ServerConfig) (free : UInt16) : Except String Listener :=
  match Address.ofHost? config.host with
  | some address =>
    .ok { address, port := if config.port = 0 then free else config.port, shutdown := .idle }
  | none => .error bindFault

/-- The server takes calls. -/
def isRunning (l : Listener) : Bool :=
  !l.shutdown.begun

/-- Begins the shutdown. -/
def stop (l : Listener) : Listener :=
  { l with shutdown := l.shutdown.begin }

end Listener

end Payroll
