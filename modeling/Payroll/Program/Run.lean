import Payroll.Log.Control
import Payroll.Program.Notice
import Payroll.Program.Opening
import Payroll.Program.Page
import Payroll.Server.Listener
import Payroll.Store.Connection
/-!
What the program does from its start to its end. It loads the settings, sets logging up, opens the
databases, and then either brings the primary one to the present schema and ends, or serves until it
is told to stop. The first thing that fails ends it.
-/

namespace Payroll.Program

/-- Why the program ends before its work is done. -/
inductive Failure where
  | settings (path : String)
  | logging
  | directory (path : String)
  | noWaitingTime
  | database (path : String)
  | migrations
  | listener
deriving DecidableEq

namespace Failure

/-- What is said of the failure. The program breaks off without a word if connections may take no
time at all. -/
def message? : Failure → Option String
  | .settings path => some ("Failed to load settings: " ++ path)
  | .logging => some "Failed to initialize logging"
  | .directory path => some ("Failed to create directory: " ++ path)
  | .noWaitingTime => none
  | .database path => some ("Failed to open database: " ++ path)
  | .migrations => some "Failed to apply migrations"
  | .listener => some "Failed to bind server"

/-- The exit code. -/
def code : Failure → Nat
  | .noWaitingTime => 101
  | _ => 1

end Failure

/-- What the program works on: files, the format and the filter of its log once that is set up, and
the lines logged so far. -/
structure World where
  files : Files
  format : LogFormat
  control : Option Log.Control
  log : List String

/-- The world before the program has done anything. -/
def World.start (files : Files) : World :=
  { files, format := Settings.default.logging.format, control := none, log := [] }

/-- A part of the program's work. -/
abbrev Task := ExceptT Failure (StateM World)

namespace Task

/-- Logs what the filter lets through. Nothing is logged before there is a filter. -/
def say (e : Log.Event) : Task Unit :=
  modify fun w =>
    if w.control.any fun c => c.filter.admits e then { w with log := w.log ++ [e.line w.format] }
    else w

/-- Loads the settings. -/
def loadSettings (vars : Variables) (path : String) : Task Settings := do
  let w ← get
  match Settings.load vars (w.files.settingsFile path) with
  | .ok s => return s
  | .error _ => throw (.settings path)

/-- The variable with the filter of the log. -/
def filterVariable : String := "RUST_LOG"

/-- Sets logging up. A variable that holds no filter is passed over, which is always said. -/
def setUpLog (vars : Variables) (s : Settings) : Task Unit := do
  if let some text := (vars filterVariable).filter fun text => !Text.isBlankText text then
    if (Log.Filter.ofText? text).isNone then
      let note := "ignoring invalid " ++ filterVariable ++ ": invalid log filter '" ++ text ++ "'"
      modify fun w => { w with log := w.log ++ [note] }
  match Log.Control.setUp none (vars filterVariable) s.logging.level with
  | .ok c => modify fun w => { w with control := some c, format := s.logging.format }
  | .error _ => throw .logging

/-- Makes the directory for the primary database. -/
def makeParent (text : String) : Task Unit := do
  let (made, files) := (← get).files.makeParent text
  modify fun w => { w with files }
  if !made then throw (.directory (Path.parentText text))

/-- Opens the database that a text locates, for a cluster with this primary. -/
def openDatabase (primary text : String) (asPrimary : Bool) : Task Opened := do
  let (opened, files) := (← get).files.openDatabase text asPrimary
  modify fun w => { w with files }
  match opened with
  | some o => return o
  | none => throw (.database primary)

/-- Opens the databases, the primary one first. A replica that is kept at the same place is the
primary itself. -/
def openCluster (s : Settings.Database) : Task (Opened × Cluster) := do
  makeParent s.path
  if s.acquireTimeoutMs = 0 then throw .noWaitingTime
  let primary ← openDatabase s.path s.path true
  let connection : Connection := ⟨s.busyTimeoutMs.toNat, s.cacheSizeKib.toInt⟩
  if !connection.isUsable then throw (.database s.path)
  let replicas ← s.replicaPaths.mapM fun path => do
    let o ← openDatabase s.path path false
    let shared := o.place.isSome && o.place = primary.place
    return if shared then Replica.shared else Replica.separate o.database
  say (Notice.opened s.path s.replicaPaths.length)
  return (primary, { primary := primary.database, replicas, turn := 0 })

/-- Brings the primary database to the present schema, and counts the migrations this took. -/
def migrate (primary : Opened) (c : Cluster) : Task (Nat × Cluster) := do
  if !primary.writable then throw .migrations
  let before := c.primary.schemaVersion.toOption.getD 0
  let (outcome, c) := c.onPrimary .migrate
  modify fun w => { w with files := w.files.keep primary c.primary }
  match outcome with
  | .error _ => throw .migrations
  | .ok applied =>
    for m in migrations.filter (before < ·.version) do
      say (Notice.applying m)
    if applied = 0 then say (Notice.upToDate before)
    else say (Notice.complete applied (migrations.foldl (fun v m => max v m.version) 0))
    return (applied, c)

end Task

/-- A program that serves. -/
structure Running where
  settings : Settings
  config : ServerConfig
  cluster : Cluster
  listener : Listener

/-- The port of a server that may take any. -/
def freePort : UInt16 := 49152

namespace Running

/-- Starts to serve. -/
def start (s : Settings) : Task Running := do
  let (primary, opened) ← Task.openCluster s.database
  let cluster ← if s.database.migrateOnStart then do
      let (_, migrated) ← Task.migrate primary opened
      pure migrated
    else pure opened
  let config := ServerConfig.ofSettings s
  match Listener.bind config freePort with
  | .error _ => throw .listener
  | .ok listener =>
    let address := listener.address.render ++ ":" ++ toString listener.port
    Task.say (Notice.listening address)
    Task.say (Notice.serving address s.environment s.database.replicaPaths.length)
    return { settings := s, config, cluster, listener }

/-- The work that is under way while the program serves without calls: the server itself, and the
watcher of the settings if there is one. All of it ends as soon as shutdown begins. -/
def tasks (r : Running) : List ServerTask :=
  ⟨0, false⟩ :: if r.settings.reload.enabled then [⟨0, false⟩] else []

/-- Stops serving. -/
def stop (r : Running) : Task Unit := do
  let timeout := r.settings.server.shutdownTimeoutMs.toNat
  Task.say Notice.stopping
  Task.say (Notice.waiting r.tasks.length timeout)
  let (drain, _) := r.listener.shutdown.complete r.tasks (some timeout)
  if drain.drained then
    if r.settings.reload.enabled then Task.say Notice.watcherStopped
  else
    Task.say (Notice.timedOut timeout)
    Task.say Notice.incomplete
  Task.say Notice.stopped

end Running

/-- Does what an invocation asks for, up to the point where it serves. -/
def begin (vars : Variables) (i : Invocation) : Task (Option Running) := do
  let path := i.config.getD (Settings.path vars)
  let s ← Task.loadSettings vars path
  Task.setUpLog vars s
  match i.command with
  | .serve => return some (← Running.start s)
  | .migrate =>
    let (primary, cluster) ← Task.openCluster s.database
    let (applied, _) ← Task.migrate primary cluster
    Task.say (Notice.applied applied)
    return none

/-- What is left of a run: the exit code, the line that says why it failed, what was printed, what
was logged and the files. -/
structure Outcome where
  code : Nat
  error : Option String
  output : String
  log : List String
  files : Files

namespace Outcome

/-- The exit code of arguments that cannot be understood. -/
def misuseCode : Nat := 2

/-- The outcome of a task. -/
def ofTask {α : Type} (task : Task α) (files : Files) : Outcome :=
  let (result, w) := task.run (.start files)
  let (code, error) := match result with
    | .ok _ => (0, none)
    | .error failure => (failure.code, failure.message?.map ("Error: " ++ ·))
  { code, error, output := "", log := w.log, files := w.files }

/-- Some line of the log holds the text. The last line says why the run failed. -/
def logHas (o : Outcome) (text : String) : Bool :=
  (o.log ++ o.error.toList).any fun line => Text.holds text.toList line.toList

/-- The server took calls, and said so. -/
def listened (o : Outcome) : Bool :=
  o.logHas Notice.listeningText

end Outcome

/-- Runs the program. If it serves, it is told to stop at once. -/
def run (vars : Variables) (args : List String) (files : Files) : Outcome :=
  match Demand.read vars args with
  | .misuse => { code := Outcome.misuseCode, error := none, output := "", log := [], files }
  | .tell page => { code := 0, error := none, output := page.text vars, log := [], files }
  | .run i => Outcome.ofTask (do
      match ← begin vars i with
      | some running => running.stop
      | none => return) files

end Payroll.Program
