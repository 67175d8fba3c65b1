/-!
The settings of the service: where it runs, how it listens, where its databases are, what it logs,
and whether it looks for newer settings. Each number has the width it may need, so that a value of
the type is a value that can be written.
-/

namespace Payroll

/-- Where the service is deployed. -/
inductive Environment where
  | development
  | staging
  | production
  | localRun
deriving DecidableEq

/-- The environment's name. -/
def Environment.name : Environment → String
  | .development => "development"
  | .staging => "staging"
  | .production => "production"
  | .localRun => "local"

/-- The environment of a name. Two of them have a short name too. -/
def Environment.ofName? : String → Option Environment
  | "development" | "dev" => some .development
  | "staging" => some .staging
  | "production" | "prod" => some .production
  | "local" => some .localRun
  | _ => none

@[simp] theorem Environment.ofName?_name (e : Environment) : ofName? e.name = some e := by
  cases e <;> rfl

/-- How a line of the log is written. -/
inductive LogFormat where
  | json
  | text
deriving DecidableEq

/-- The format's name. -/
def LogFormat.name : LogFormat → String
  | .json => "json"
  | .text => "text"

/-- The format of a name. -/
def LogFormat.ofName? : String → Option LogFormat
  | "json" => some .json
  | "text" => some .text
  | _ => none

@[simp] theorem LogFormat.ofName?_name (f : LogFormat) : ofName? f.name = some f := by
  cases f <;> rfl

namespace Settings

/-- How the server listens. Port 0 asks for any free port. -/
structure Server where
  host : String
  port : UInt16
  requestTimeoutMs : UInt64
  shutdownTimeoutMs : UInt64
  maxBodyBytes : UInt64
deriving DecidableEq

/-- The databases and how connections to them are made. -/
structure Database where
  path : String
  replicaPaths : List String
  poolSize : UInt32
  busyTimeoutMs : UInt32
  cacheSizeKib : Int64
  acquireTimeoutMs : UInt64
  migrateOnStart : Bool
deriving DecidableEq

/-- What is logged and how. -/
structure Logging where
  level : String
  format : LogFormat
  logRequests : Bool
deriving DecidableEq

/-- Whether the settings file is looked at again, and how often. -/
structure Reload where
  enabled : Bool
  pollIntervalSecs : UInt64
deriving DecidableEq

/-- The server listens everywhere unless told otherwise. -/
def Server.default : Server :=
  { host := "0.0.0.0", port := 8080, requestTimeoutMs := 10000, shutdownTimeoutMs := 25000,
    maxBodyBytes := 1048576 }

/-- One database without replicas, brought up to date when the server starts. -/
def Database.default : Database :=
  { path := "data/paytrack.db", replicaPaths := [], poolSize := 16, busyTimeoutMs := 5000,
    cacheSizeKib := 8192, acquireTimeoutMs := 5000, migrateOnStart := true }

/-- Everything of note is logged, as JSON. -/
def Logging.default : Logging :=
  { level := "info", format := .json, logRequests := true }

/-- The file is looked at twice a minute. -/
def Reload.default : Reload :=
  { enabled := true, pollIntervalSecs := 30 }

end Settings

/-- The settings of the service. -/
structure Settings where
  environment : Environment
  server : Settings.Server
  database : Settings.Database
  logging : Settings.Logging
  reload : Settings.Reload
deriving DecidableEq

/-- The settings where nothing else is said. -/
def Settings.default : Settings :=
  { environment := .development, server := .default, database := .default, logging := .default,
    reload := .default }

end Payroll
