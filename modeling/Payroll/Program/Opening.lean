import Payroll.Program.Files
import Payroll.Program.Locator
/-!
Opening the databases of a cluster. The primary one keeps a log of its own beside its file, for which
it has to be writable at once; a replica is only looked at. What is opened is kept at a path, or by
no file at all. Main statement: what has become of a database is found where it is kept.
-/

namespace Payroll.Program

/-- A database that has been opened: where it is kept, and whether it may change. -/
structure Opened where
  database : Database
  place : Option Path
  writable : Bool

namespace Files

/-- Where the names of a database's path lead to from a path. Two dots undo the name before them,
whatever it leads to; but no name may follow one that leads to a file. -/
def place? (files : Files) (path : Path) : List String → Option Path
  | [] => some path
  | name :: rest =>
    if Path.isStay name || name = Path.backName then files.place? (path.step name) rest
    else if Path.isName name && (files.get? path).all Entry.isDirectory then
      files.place? (path.step name) rest
    else none

/-- The most bytes that the path of a database may have. -/
def maxPathBytes : Nat := 504

/-- The most bytes that the last name of a path may have if a log is to be kept beside it. -/
def maxLoggedBytes : Nat := 247

/-- The bytes of a path. -/
def pathBytes (path : Path) : Nat :=
  path.foldl (fun n name => n + name.utf8ByteSize + 1) 0

/-- The database that is found at a path, or made there if that is asked for. Of texts only the
shortest are databases, all of them empty. -/
def open? (files : Files) (l : Locator) (path : Path) : Option Database :=
  match files.get? path with
  | some .directory => none
  | some (.database d) => some d
  | some (.text content) => if content.byteSize ≤ 1 then some .empty else none
  | none => if l.access = .create && files.isDirectory path.dropLast then some .empty else none

/-- The log of a database at the path can be kept. One that may not change needs none. -/
def keepsLog (l : Locator) (path : Path) : Bool :=
  l.immutable || l.access != .read && path.getLast?.all fun name => name.utf8ByteSize ≤ maxLoggedBytes

/-- Opens the database that a text locates. It may be made although it then cannot be opened. -/
def openDatabase (files : Files) (text : String) (primary : Bool) : Option Opened × Files :=
  match Locator.ofText? text with
  | none => (none, files)
  | some l =>
    if !l.isKept then
      (some { database := .empty, place := none, writable := l.isWritable }, files)
    else
      let found := do
        let path ← files.place? (.start l.file) (Path.names l.file)
        if maxPathBytes < pathBytes path then none else return (path, ← files.open? l path)
      match found with
      | none => (none, files)
      | some (path, database) =>
        let opened : Opened := { database, place := some path, writable := l.isWritable }
        (if primary && !keepsLog l path then none else some opened,
          files.put path (.database database))

/-- Keeps what a database has become. -/
def keep (files : Files) (o : Opened) (d : Database) : Files :=
  match o.place with
  | some path => files.put path (.database d)
  | none => files

end Files

end Payroll.Program
