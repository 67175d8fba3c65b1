import Payroll.Text.Integer
import Payroll.Text.Split
/-!
The addresses a server can listen at, and the hosts that write them: an address of the fourth or the
sixth version of the internet protocol, or the name of the machine itself. No other name is known.
Main statement: an address of version 6 that can be read has eight groups.
-/

namespace Payroll

/-- An address: four bytes as one number, or eight groups of two bytes. -/
inductive Address where
  | version4 (value : Nat)
  | version6 (groups : List Nat)
deriving DecidableEq

namespace Address

/-- The number that digits write in a base. -/
def inBase (base : Nat) (ds : List Char) : Option Nat :=
  if ds.isEmpty then none
  else ds.foldlM (fun n d => do
    let k ← Text.hexDigit? d
    if k < base then return n * base + k else none) 0

/-- The number below the bound that a part of an address writes, in decimal, or in base 16 after
`0x`, or in base 8 after `0`. -/
def part? (bound : Nat) (cs : List Char) : Option Nat := do
  let n ← match cs with
    | '0' :: 'x' :: ds | '0' :: 'X' :: ds => inBase 16 ds
    | '0' :: d :: ds => inBase 8 (d :: ds)
    | ds => inBase 10 ds
  if n < bound then return n else none

/-- An address of version 4: up to four numbers between points, of which the last fills all the
bytes that are left. -/
def value? (cs : List Char) : Option Nat := do
  let parts := Text.splitAll '.' cs
  let last ← parts.getLast?
  if 4 < parts.length then none
  else
    let front ← parts.dropLast.mapM (part? 256)
    let left := Nat.pow 256 (5 - parts.length)
    return front.foldl (fun n byte => n * 256 + byte) 0 * left + (← part? left last)

/-- A byte in decimal, without zeros at its front. -/
def byte? (cs : List Char) : Option Nat := do
  let n ← inBase 10 cs
  if n < 256 && (cs.length = 1 || cs.head? != some '0') then return n else none

/-- Two groups written as four bytes between points. -/
def dotted? (cs : List Char) : Option (List Nat) := do
  match ← (Text.splitAll '.' cs).mapM byte? with
  | [a, b, c, d] => return [a * 256 + b, c * 256 + d]
  | _ => none

/-- A group of version 6: up to four hexadecimal digits. -/
def group? (cs : List Char) : Option Nat :=
  if cs.length ≤ 4 then inBase 16 cs else none

/-- The groups between colons; an empty text has none. The last two of an address may be dotted. -/
def groups? (cs : List Char) (last : Bool) : Option (List Nat) := do
  let pieces := Text.splitAll ':' cs
  let final ← pieces.getLast?
  if cs.isEmpty then return []
  else
    let front ← pieces.dropLast.mapM group?
    match group? final with
    | some g => return front ++ [g]
    | none => if last then return front ++ (← dotted? final) else none

/-- The text before and after the first two colons in a row. -/
def splitGap : List Char → Option (List Char × List Char)
  | [] => none
  | ':' :: ':' :: after => some ([], after)
  | c :: cs => (splitGap cs).map fun (before, after) => (c :: before, after)

/-- An address of version 6: eight groups, or fewer if two colons in a row stand for one or more
groups of zeros. -/
def allGroups? (cs : List Char) : Option (List Nat) := do
  match splitGap cs with
  | none =>
    let groups ← groups? cs true
    if groups.length = 8 then return groups else none
  | some (before, after) =>
    let before ← groups? before false
    let after ← groups? after true
    let given := before.length + after.length
    if given < 8 then return before ++ List.replicate (8 - given) 0 ++ after else none

theorem length_allGroups? {cs : List Char} {groups : List Nat} (h : allGroups? cs = some groups) :
    groups.length = 8 := by
  simp only [allGroups?] at h
  split at h
  · simp only [Option.bind_eq_bind, Option.bind_eq_some_iff] at h
    obtain ⟨gs, -, h⟩ := h
    split at h
    · next hl => simpa [← Option.some.inj h] using hl
    · exact absurd h (by simp)
  · simp only [Option.bind_eq_bind, Option.bind_eq_some_iff] at h
    obtain ⟨before, -, after, -, h⟩ := h
    split at h
    · next hl =>
      rw [← Option.some.inj h]
      simp only [List.length_append, List.length_replicate]
      omega
    · exact absurd h (by simp)

/-- The host without the brackets that may stand around an address of version 6. -/
def unbracketed (cs : List Char) : Option (List Char) :=
  match cs with
  | '[' :: rest => if rest.getLast? = some ']' then some rest.dropLast else none
  | cs => some cs

/-- The address of the machine itself. -/
def loopback : Address := .version4 (127 * Nat.pow 256 3 + 1)

/-- The address that a host writes or names. -/
def ofHost? (host : String) : Option Address :=
  if host.toLower = "localhost" then some loopback
  else match value? host.toList, (unbracketed host.toList).bind allGroups? with
    | some value, _ => some (.version4 value)
    | none, some groups => some (.version6 groups)
    | none, none => none

/-- Four bytes with points between them. -/
def bytesText (value : Nat) : String :=
  ".".intercalate ([3, 2, 1, 0].map fun place => toString (value / Nat.pow 256 place % 256))

/-- Groups with colons between them. -/
def groupsText (groups : List Nat) : String :=
  ":".intercalate (groups.map fun g => String.ofList (Nat.toDigits 16 g))

/-- The place and the length of the longest run of zeros, and of the first such run. -/
def longestGap (groups : List Nat) : Nat × Nat :=
  (List.range groups.length).foldl (fun best place =>
    let run := ((groups.drop place).takeWhile (· = 0)).length
    if best.2 < run then (place, run) else best) (0, 0)

/-- The address as text, as it stands before a port. Two or more zeros in a row are left out, and an
address that stands for one of version 4 shows that one. -/
def render : Address → String
  | .version4 value => bytesText value
  | .version6 groups =>
    let inner := match groups with
      | [0, 0, 0, 0, 0, 0xFFFF, a, b] => "::ffff:" ++ bytesText (a * 65536 + b)
      | groups =>
        let (place, run) := longestGap groups
        if run ≤ 1 then groupsText groups
        else groupsText (groups.take place) ++ "::" ++ groupsText (groups.drop (place + run))
    "[" ++ inner ++ "]"

end Address

end Payroll
