import Payroll.Database.Migration
import Payroll.Log.Event
/-!
What the program logs, each with the part of the program that says it.
-/

namespace Payroll.Program

namespace Notice

/-- The part that starts and stops everything. -/
def program : String := "paytrack"

/-- The part that takes calls. -/
def server : String := "paytrack_server::server"

/-- The part that waits for work to end. -/
def shutdown : String := "paytrack_server::shutdown"

/-- The part that opens databases. -/
def cluster : String := "paytrack_store::sqlite::cluster"

/-- The part that brings databases to the present schema. -/
def migrations : String := "paytrack_store::sqlite::migrations"

/-- The part that watches the settings. -/
def watcher : String := "paytrack_settings::watcher"

/-- All databases are open. -/
def opened (primary : String) (replicas : Nat) : Log.Event :=
  { part := cluster, level := .debug, text := "database cluster opened"
    fields := [("primary", .text primary), ("replicas", .number replicas)] }

/-- A migration begins. -/
def applying (m : Migration) : Log.Event :=
  { part := migrations, level := .info, text := "applying migration"
    fields := [("version", .number m.version), ("description", .quoted m.description)] }

/-- There was no migration to apply. -/
def upToDate (version : Nat) : Log.Event :=
  { part := migrations, level := .debug, text := "schema up to date"
    fields := [("version", .number version)] }

/-- All migrations have been applied, up to a version. -/
def complete (applied version : Nat) : Log.Event :=
  { part := migrations, level := .info, text := "migrations complete"
    fields := [("applied", .number applied), ("version", .number version)] }

/-- The program has done what it was called for, which was to migrate. -/
def applied (count : Nat) : Log.Event :=
  { part := program, level := .info, text := "migrations applied"
    fields := [("applied", .number count)] }

/-- The text that tells that calls are taken. -/
def listeningText : String := "paytrack listening"

/-- The server takes calls at an address. -/
def listening (address : String) : Log.Event :=
  { part := server, level := .info, text := listeningText, fields := [("local_addr", .text address)] }

/-- The program serves at an address. -/
def serving (address : String) (environment : Environment) (replicas : Nat) : Log.Event :=
  { part := program, level := .info, text := listeningText ++ " on http://" ++ address
    fields := [("environment", .text environment.name), ("replicas", .number replicas)] }

/-- The program has been told to stop. -/
def stopping : Log.Event :=
  { part := program, level := .info, text := "Shutting down...", fields := [] }

/-- The tasks under way have to end within some milliseconds. -/
def waiting (tasks timeoutMs : Nat) : Log.Event :=
  { part := shutdown, level := .info, text := "waiting for tasks to complete"
    fields := [("task_count", .number tasks), ("timeout_secs", .number (timeoutMs / 1000))] }

/-- A time in the largest unit of which it has one. -/
def timeText (ms : Nat) : String :=
  if ms = 0 then "0ns"
  else if ms < 1000 then toString ms ++ "ms"
  else
    let thousandths := (toString (1000 + ms % 1000)).toList.drop 1
    let digits := (thousandths.reverse.dropWhile (· = '0')).reverse
    toString (ms / 1000) ++ (if digits.isEmpty then "" else "." ++ String.ofList digits) ++ "s"

/-- Some tasks did not end within some milliseconds. -/
def timedOut (ms : Nat) : Log.Event :=
  { part := shutdown, level := .warn
    text := "shutdown timed out after " ++ timeText ms ++ ", aborting remaining tasks"
    fields := [] }

/-- The settings are watched no more. -/
def watcherStopped : Log.Event :=
  { part := watcher, level := .debug, text := "settings watcher stopped", fields := [] }

/-- The program ends although tasks were under way. -/
def incomplete : Log.Event :=
  { part := program, level := .warn, text := "shutdown drain incomplete", fields := [] }

/-- The program ends. -/
def stopped : Log.Event :=
  { part := program, level := .info, text := "Shutdown complete", fields := [] }

end Notice

end Payroll.Program
