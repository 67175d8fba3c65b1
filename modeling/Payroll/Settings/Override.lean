import Payroll.Settings.Variable
/-!
Settings taken from variables of the process, which win over anything in a file. A variable that is
blank, or whose text is no value of its setting, changes nothing.
-/

namespace Payroll

open Settings.Variable (flag? natWithin? items)

/-- The variables of a process: the text of each one that is set. -/
abbrev Variables := String → Option String

namespace Settings

/-- The variables that settings are taken from. -/
def variableNames : List String :=
  ["PAYTRACK_ENV", "PAYTRACK_HOST", "PAYTRACK_PORT", "PAYTRACK_REQUEST_TIMEOUT_MS",
   "PAYTRACK_DB_PATH", "PAYTRACK_DB_REPLICAS", "PAYTRACK_DB_POOL_SIZE",
   "PAYTRACK_DB_MIGRATE_ON_START", "PAYTRACK_LOG_LEVEL", "PAYTRACK_LOG_FORMAT"]

/-- The value that a variable has for a setting. -/
def override? {α : Type} (vars : Variables) (name : String) (read : String → Option α) :
    Option α := do
  let text ← vars name
  if Text.isBlankText text then none else read text

/-- The section under the variables. -/
def Server.override (vars : Variables) (s : Server) : Server :=
  { s with
    host := (override? vars "PAYTRACK_HOST" some).getD s.host
    port := ((override? vars "PAYTRACK_PORT" (natWithin? 0 65535)).map .ofNat).getD s.port
    requestTimeoutMs :=
      ((override? vars "PAYTRACK_REQUEST_TIMEOUT_MS" (natWithin? 1 600000)).map .ofNat).getD
        s.requestTimeoutMs }

/-- The section under the variables. -/
def Database.override (vars : Variables) (d : Database) : Database :=
  { d with
    path := (override? vars "PAYTRACK_DB_PATH" some).getD d.path
    replicaPaths := ((override? vars "PAYTRACK_DB_REPLICAS" some).map items).getD d.replicaPaths
    poolSize :=
      ((override? vars "PAYTRACK_DB_POOL_SIZE" (natWithin? 1 256)).map .ofNat).getD d.poolSize
    migrateOnStart :=
      (override? vars "PAYTRACK_DB_MIGRATE_ON_START" flag?).getD d.migrateOnStart }

/-- The section under the variables. -/
def Logging.override (vars : Variables) (l : Logging) : Logging :=
  { l with
    level := (override? vars "PAYTRACK_LOG_LEVEL" some).getD l.level
    format := (override? vars "PAYTRACK_LOG_FORMAT" LogFormat.ofText?).getD l.format }

/-- The settings under the variables. -/
def override (vars : Variables) (s : Settings) : Settings :=
  { s with
    environment :=
      (override? vars "PAYTRACK_ENV" fun text => (Environment.ofText text).toOption).getD
        s.environment
    server := s.server.override vars
    database := s.database.override vars
    logging := s.logging.override vars }

end Settings

end Payroll
