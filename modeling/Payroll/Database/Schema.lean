import Payroll.Database.Row
/-!
Statements on the schema: tables, indexes and triggers, and the log of schema versions.
-/

namespace Payroll.Database

variable {α : Type}

/-- Makes a table. One that is there is left as it is. -/
def addTable (d : Database) : Table → Database
  | .company => { d with companies := d.companies.or (some []) }
  | .contractor => { d with contractors := d.contractors.or (some []) }
  | .job => { d with jobs := d.jobs.or (some []) }
  | .timelog => { d with timelogs := d.timelogs.or (some []) }
  | .payment => { d with payments := d.payments.or (some []) }

/-- Takes a table away with all its rows. -/
def removeTable (d : Database) : Table → Database
  | .company => { d with companies := none }
  | .contractor => { d with contractors := none }
  | .job => { d with jobs := none }
  | .timelog => { d with timelogs := none }
  | .payment => { d with payments := none }

/-- The name of the log of schema versions. -/
def logName : String := "schema_version"

/-- The names of the catalog, either of which is good for the other. -/
def catalogNames : List String := ["sqlite_master", "sqlite_schema"]

/-- The names of the catalog of what a connection keeps for itself, which is nothing. -/
def temporaryCatalogNames : List String := ["sqlite_temp_master", "sqlite_temp_schema"]

/-- The names of the tables that are there. -/
def tableNames (d : Database) : List String :=
  (Table.all.filter d.hasTable).map Table.name ++ if d.log = .absent then [] else [logName]

/-- An index goes by the name. -/
def hasIndex (d : Database) (name : String) : Bool :=
  d.indexes.any fun i => sameName i.name name

/-- Makes a table unless it is there. -/
def createTable (d : Database) (t : Table) : Except DatabaseFault Database :=
  if d.hasTable t then .ok d
  else if d.hasIndex t.name then .error (.indexNamed t.name)
  else .ok (d.addTable t)

/-- Two versions of the list have one id and one number. -/
def hasTwins (rows : List (Version α)) : Bool :=
  match rows with
  | [] => false
  | r :: rs => rs.any (fun s => s.id == r.id && s.version == r.version) || hasTwins rs

/-- The table has two rows that a unique index keeps apart. -/
def hasDuplicates (d : Database) : Table → Bool
  | .job => hasTwins (d.jobs.getD [])
  | .timelog => hasTwins (d.timelogs.getD [])
  | .payment => hasTwins (d.payments.getD [])
  | .company | .contractor => false

/-- Makes an index of a table unless it is there. -/
def createIndex (d : Database) (t : Table) (i : Index) : Except DatabaseFault Database :=
  if !d.hasTable t then .error (.noTable ("main." ++ t.name))
  else if d.tableNames.any (sameName i.name) then .error (.tableNamed i.name)
  else if d.hasIndex i.name then .ok d
  else if i.unique && d.hasDuplicates t then .error (.notUnique t.name i.columns)
  else .ok { d with indexes := d.indexes ++ [i] }

/-- Drops an index. -/
def dropIndex (d : Database) (name : String) : Except DatabaseFault Database :=
  if d.hasIndex name then
    .ok { d with indexes := d.indexes.filter fun i => !sameName i.name name }
  else .error (.noIndex name)

/-- The name of the catalog that goes by a name, if one does. -/
def catalogName? (name : String) : Option String :=
  ([catalogNames, temporaryCatalogNames].find? fun names => names.any (sameName name)).bind
    List.head?

/-- Drops a table and all that hangs on it. A catalog is never dropped. -/
def dropTable (d : Database) (name : String) : Except DatabaseFault Database :=
  match catalogName? name, Table.ofName? name with
  | some catalog, _ => .error (.notDropped catalog)
  | none, some t =>
    if d.hasTable t then
      .ok { d.removeTable t with
        indexes := d.indexes.filter fun i => i.table != t.name
        triggers := d.triggers.filter fun r => r.table ≠ t }
    else .error (.noTable name)
  | none, none =>
    if sameName name logName && d.log ≠ .absent then .ok { d with log := .absent }
    else .error (.noTable name)

/-- Makes a trigger. -/
def createTrigger (d : Database) (t : Trigger) : Except DatabaseFault Database :=
  if !d.hasTable t.table then .error (.noTable ("main." ++ t.table.name))
  else if d.triggers.any (sameName t.name ·.name) then .error (.triggerExists t.name)
  else .ok { d with triggers := t :: d.triggers }

/-- Makes the log of schema versions unless it is there. -/
def createLog (d : Database) : Except DatabaseFault Database :=
  if d.log = .absent then
    if d.hasIndex logName then .error (.indexNamed logName)
    else .ok { d with log := .versions [] }
  else .ok d

/-- What is recorded in the log. -/
def logEntries (d : Database) : Except DatabaseFault (List LogEntry) :=
  match d.log with
  | .absent => .error (.noTable logName)
  | .foreign => .error (.noColumn "version")
  | .versions entries => .ok entries

/-- The versions recorded in the log. -/
def recorded (d : Database) : Except DatabaseFault (List Int) :=
  d.logEntries.map fun entries => entries.map (·.version)

/-- Records a version in the log. -/
def record (d : Database) (e : LogEntry) : Except DatabaseFault Database :=
  match d.log with
  | .absent => .error (.noTable logName)
  | .foreign => .error (.noColumnNamed logName "version")
  | .versions entries =>
    if entries.any (·.version == e.version) then .error (.notUnique logName ["version"])
    else .ok { d with log := .versions (entries ++ [e]) }

/-- Takes a version out of the log. -/
def forget (d : Database) (version : Int) : Except DatabaseFault Database := do
  let entries ← d.logEntries
  return { d with log := .versions (entries.filter (·.version != version)) }

end Payroll.Database
