import Payroll.Database.Migration
import Payroll.Settings.Load
/-!
The files that the program finds and makes: a tree in which a path leads to a directory, a text or a
database. Main statements: a file is found at the path where it was put, and no other path is
touched by that.
-/

namespace Payroll.Program

/-- The names to go through from the directory in which the program runs. The root comes first in a
path that starts there, and two dots for every directory that lies above. -/
abbrev Path := List String

namespace Path

/-- The name of the root. -/
def rootName : String := "/"

/-- The name that goes back by one directory. -/
def backName : String := ".."

/-- The name stays where it is. -/
def isStay (name : String) : Bool :=
  name = "" || name = "."

/-- The path leads to the root, to the directory of the program or to one above it. -/
def isGiven (path : Path) : Bool :=
  path = [rootName] || path.all (· = backName)

/-- One directory back. Above the root there is nothing. -/
def back (path : Path) : Path :=
  if path = [rootName] then path
  else if path.all (· = backName) then path ++ [backName]
  else path.dropLast

/-- Goes on by one name. -/
def step (path : Path) (name : String) : Path :=
  if isStay name then path
  else if name = backName then path.back
  else path ++ [name]

/-- The place where a text's names start. -/
def start (text : String) : Path :=
  if text.toList.head? = some '/' then [rootName] else []

/-- The names of a text, between its slashes. -/
def names (text : String) : List String :=
  (Text.splitAll '/' text.toList).map String.ofList

/-- A file may have the name: it is not too long, and no character of it is zero. -/
def isName (name : String) : Bool :=
  name.utf8ByteSize ≤ 255 && !name.toList.contains '\x00'

/-- The names without those at the end that stay where they are. -/
def trimEnd (names : List String) : List String :=
  (names.reverse.dropWhile isStay).reverse

/-- The text of the directory of a path, which is empty if that is the directory of the program. The
name that comes last is left out, and with it what stays where it is; a dot at the very front
counts as a name. -/
def parentText (text : String) : String :=
  match names text with
  | first :: rest =>
    let anchored := isStay first
    let last := trimEnd (if anchored then rest else first :: rest)
    let before := trimEnd last.dropLast
    if last.isEmpty then ""
    else if before.isEmpty then (if anchored then (if first = "" then rootName else first) else "")
    else "/".intercalate (if anchored then first :: before else before)
  | [] => ""

end Path

/-- What a path leads to. -/
inductive Entry where
  | directory
  | text (content : Text.Source)
  | database (database : Database)

namespace Entry

/-- The entry is a directory. -/
def isDirectory : Entry → Bool
  | .directory => true
  | _ => false

end Entry

/-- All that paths lead to. -/
structure Files where
  entries : List (Path × Entry)

namespace Files

/-- No files. -/
def empty : Files := ⟨[]⟩

/-- What the path leads to. Some directories are always there. -/
def get? (files : Files) (path : Path) : Option Entry :=
  if path.isGiven then some .directory else files.entries.lookup path

/-- Puts an entry at the path. -/
def put (files : Files) (path : Path) (entry : Entry) : Files :=
  ⟨(path, entry) :: files.entries⟩

/-- The path leads to a directory. -/
def isDirectory (files : Files) (path : Path) : Bool :=
  (files.get? path).any Entry.isDirectory

/-- Where names lead to from a path. Every place on the way has to be a directory, also one that the
way goes back from. -/
def walk? (files : Files) (path : Path) : List String → Option Path
  | [] => some path
  | name :: rest => if files.isDirectory path then files.walk? (path.step name) rest else none

/-- What the text of a path leads to. -/
def find? (files : Files) (text : String) : Option Entry :=
  if text = "" then none
  else (files.walk? (.start text) (Path.names text)).bind files.get?

/-- Makes the directories that names lead through from a path, up to one that cannot be made; tells
whether there is none such. -/
def makeDirectories (files : Files) (path : Path) : List String → Bool × Files
  | [] => (true, files)
  | name :: rest =>
    let next := path.step name
    match files.get? next with
    | some .directory => files.makeDirectories next rest
    | some _ => (false, files)
    | none =>
      if Path.isName name then (files.put next .directory).makeDirectories next rest
      else (false, files)

/-- Makes the directory of a path's text. -/
def makeParent (files : Files) (text : String) : Bool × Files :=
  let parent := Path.parentText text
  if parent.toList.contains '\x00' then (false, files)
  else files.makeDirectories (.start parent) (Path.names parent)

/-- The files with these texts, in the directories that they need. -/
def ofTexts (texts : List (String × Text.Source)) : Files :=
  texts.foldl (fun files (name, content) =>
    let files := (files.makeParent name).2
    match files.walk? (.start name) (Path.names name) with
    | some path => files.put path (.text content)
    | none => files) empty

/-- What is found at the place of the settings file. A database is no text. -/
def settingsFile (files : Files) (text : String) : SettingsFile :=
  match files.find? text with
  | none => .absent
  | some .directory => .directory 0
  | some (.text content) => .text 0 content
  | some (.database _) => .text 0 [none]

end Files

end Payroll.Program
