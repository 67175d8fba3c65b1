import Payroll.Json.Merge
import Payroll.Json.Tree
import Payroll.Settings.Form
import Payroll.Settings.Override
/-!
Loading settings: the defaults, over them what the settings file says, over that the variables of
the process. The outcome has to be something the service can run with.
-/

namespace Payroll

open JsonForm (toJson ofJson?)

/-- What is found at the place of the settings file. Whatever is there was last written at some
time. -/
inductive SettingsFile where
  | absent
  | directory (modified : Nat)
  | text (modified : Nat) (content : Text.Source)

namespace Settings

/-- The value the file writes; a missing file writes an empty object. -/
def fileValue : SettingsFile → Except SettingsFault Json
  | .absent => .ok (.object [])
  | .directory _ => .error .unreadable
  | .text _ content =>
    if content.toString?.isNone then .error .unreadable
    else match Json.parse? content with
      | some j => .ok j
      | none => .error .malformed

/-- The settings that a file's value makes of the defaults. -/
def ofFileValue? (value : Json) : Option Settings :=
  ofJson? (Json.merge (toJson default) value)

/-- The service can run with the settings, or the first reason why not. -/
def validate (s : Settings) : Except BadSetting Unit :=
  let interval := s.reload.pollIntervalSecs.toNat
  if s.reload.enabled ∧ interval < leastPollIntervalSecs then .error (.pollInterval interval)
  else if Text.isBlankText s.database.path then .error .databasePath
  else if s.database.poolSize = 0 then .error .poolSize
  else if s.server.requestTimeoutMs = 0 then .error .requestTimeout
  else .ok ()

/-- The settings that the file and the variables give. -/
def load (vars : Variables) (file : SettingsFile) : Except SettingsFault Settings := do
  let value ← fileValue file
  let some layered := ofFileValue? value | throw .malformed
  let s := layered.override vars
  match s.validate with
  | .ok () => return s
  | .error cause => throw (.invalid cause)

/-- Where the settings file is unless a variable says otherwise. -/
def defaultPath : String := "config/settings.json"

/-- The variable that names the settings file. -/
def pathVariable : String := "PAYTRACK_CONFIG"

/-- The path of the settings file. -/
def path (vars : Variables) : String :=
  match vars pathVariable with
  | none | some "" => defaultPath
  | some path => path

end Settings

end Payroll
