import Payroll.Settings.Basic
/-!
What the server is told when it is made: where it listens, how long a request may take and how large
it may be, and whether requests are logged.
-/

namespace Payroll

/-- How a server is set up. Port 0 asks for any free port. -/
structure ServerConfig where
  host : String
  port : UInt16
  requestTimeoutMs : Nat
  maxBodyBytes : Nat
  logRequests : Bool
deriving DecidableEq

namespace ServerConfig

/-- A server that only its own machine can reach. -/
def default : ServerConfig :=
  { host := "127.0.0.1", port := 0, requestTimeoutMs := 10000, maxBodyBytes := 1048576,
    logRequests := true }

/-- A server as the settings want it. -/
def ofSettings (s : Settings) : ServerConfig :=
  { host := s.server.host
    port := s.server.port
    requestTimeoutMs := s.server.requestTimeoutMs.toNat
    maxBodyBytes := s.server.maxBodyBytes.toNat
    logRequests := s.logging.logRequests }

end ServerConfig

end Payroll
