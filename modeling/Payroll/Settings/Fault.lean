/-!
What can be wrong with settings: the file cannot be read, is not settings in JSON, or has a value
the service cannot run with.
-/

namespace Payroll

/-- The shortest time between two looks at the settings file, in seconds. -/
def Settings.leastPollIntervalSecs : Nat := 10

/-- A value the service cannot run with. -/
inductive BadSetting where
  | pollInterval (secs : Nat)
  | databasePath
  | poolSize
  | requestTimeout
  | environment (name : String)
deriving DecidableEq

/-- What is wrong with the value. -/
def BadSetting.message : BadSetting → String
  | .pollInterval secs =>
    "reload.pollIntervalSecs must be at least " ++ toString Settings.leastPollIntervalSecs ++
      ", got " ++ toString secs
  | .databasePath => "database.path must not be empty"
  | .poolSize => "database.poolSize must be at least 1"
  | .requestTimeout => "server.requestTimeoutMs must be at least 1"
  | .environment name => "unknown environment: " ++ name

/-- Why there are no settings. -/
inductive SettingsFault where
  | unreadable
  | malformed
  | invalid (cause : BadSetting)
deriving DecidableEq

/-- The fault as a message. -/
def SettingsFault.message : SettingsFault → String
  | .unreadable => "failed to read settings file"
  | .malformed => "failed to parse settings JSON"
  | .invalid cause => "invalid settings value: " ++ cause.message

end Payroll
