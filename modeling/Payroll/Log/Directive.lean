import Payroll.Decimal.Plain
import Payroll.Log.Level
import Payroll.Text.Blank
import Payroll.Text.Pattern
import Payroll.Text.Split
import Payroll.Text.WordTable
/-!
Directives set a level, for all that is logged or for a part of it: the parts of the program whose
names begin with a target, what happens within a span, or what has a field, perhaps one of a given
value. A directive is written `target[span{field=value}]=level`, of which most may be left out. Of two
directives the more specific one comes first.
-/

namespace Payroll.Log

/-- The value that a field is to have. -/
inductive FieldValue where
  | flag (value : Bool)
  | real (value : Float)
  | notNumber
  | nat (value : Nat)
  | int (value : Int)
  | pattern (text : String)

namespace FieldValue

/-- The value that a text writes; what is no other value has to be a pattern. -/
def ofText? (s : String) : Option FieldValue :=
  if s = "true" then some (.flag true)
  else if s = "false" then some (.flag false)
  else match Text.nat64? s, Text.int64? s, Decimal.floatOfText? s with
    | some n, _, _ => some (.nat n)
    | none, some i, _ => some (.int i)
    | none, none, some x => some (if x.isNaN then .notNumber else .real x)
    | none, none, none => if Text.isPattern s then some (.pattern s) else none

/-- The value as text. -/
def render : FieldValue → String
  | .flag b => if b then "true" else "false"
  | .real x => Decimal.plainText x
  | .notNumber => "NaN"
  | .nat n => toString n
  | .int i => toString i
  | .pattern s => s

/-- The place of a kind of value in their order. -/
def kind : FieldValue → Nat
  | .flag _ => 0
  | .real _ => 1
  | .notNumber => 2
  | .nat _ => 3
  | .int _ => 4
  | .pattern _ => 5

/-- The order of values. -/
def order : FieldValue → FieldValue → Ordering
  | .flag a, .flag b => compare a b
  | .real a, .real b => if a < b then .lt else if a == b then .eq else .gt
  | .nat a, .nat b => compare a b
  | .int a, .int b => compare a b
  | .pattern a, .pattern b => compare a b
  | a, b => compare a.kind b.kind

end FieldValue

/-- The order of what may be missing, which comes before all else. -/
def orderOption {α : Type} (order : α → α → Ordering) : Option α → Option α → Ordering
  | none, none => .eq
  | none, some _ => .lt
  | some _, none => .gt
  | some a, some b => order a b

/-- A field that has to be there, perhaps with a value. -/
structure FieldTest where
  name : String
  value : Option FieldValue

namespace FieldTest

/-- The field that a text names, and the value behind an equals sign. What follows a second one does
not matter. -/
def ofText? (cs : List Char) : Option FieldTest :=
  match Text.splitAll '=' cs with
  | name :: value :: _ =>
    (FieldValue.ofText? (String.ofList value)).map fun v => ⟨String.ofList name, some v⟩
  | _ => some ⟨String.ofList cs, none⟩

/-- The test as text. -/
def render (t : FieldTest) : String :=
  match t.value with
  | some v => t.name ++ "=" ++ v.render
  | none => t.name

/-- The order of tests. One that asks for a value comes after those that do not. -/
def order (t u : FieldTest) : Ordering :=
  (compare t.value.isSome u.value.isSome).then
    ((compare t.name u.name).then (orderOption FieldValue.order t.value u.value))

end FieldTest

/-- A level for a part of what is logged. -/
structure Directive where
  target : Option String
  span : Option String
  field : Option FieldTest
  level : Level

namespace Directive

/-- How far the reading of a directive has come. Pieces that are still being read began at a place,
which is counted in bytes. -/
inductive Stage where
  | start
  | word (start : Nat)
  | span (start : Nat)
  | field (start : Nat)
  | fieldEnd
  | spanEnd
  | level (start : Nat)
deriving DecidableEq

/-- The characters from one place up to another, both counted in bytes; the first one stands at
`place`. -/
def between (start stop : Nat) (place : Nat) : List Char → List Char
  | [] => []
  | c :: cs =>
    let rest := between start stop (place + c.utf8Size) cs
    if start ≤ place && place < stop then c :: rest else rest

/-- The text from one place up to another. -/
def piece (cs : List Char) (start stop : Nat) : String :=
  String.ofList (between start stop 0 cs)

/-- A directive may begin with the character, unless it begins with a bracket. -/
def startsWord (c : Char) : Bool :=
  c = '-' || c = ':' || c = '_' || Text.isWordChar c

/-- Goes on by the character that stands at a place of the text `cs`. -/
def step (cs : List Char) (d : Directive) (place : Nat) (c : Char) :
    Stage → Option (Directive × Stage)
  | .start =>
    if c = '[' then some (d, .span (place + 1))
    else if startsWord c then some (d, .word place)
    else none
  | .word start =>
    if c = '=' then some ({ d with target := some (piece cs start place) }, .level (place + 1))
    else if c = '[' then some ({ d with target := some (piece cs start place) }, .span (place + 1))
    else some (d, .word start)
  | .span start =>
    let name := piece cs start place
    if c = ']' then some ({ d with span := some name }, .spanEnd)
    else if c = '\x7b' then
      some ({ d with span := if name = "" then none else some name }, .field (place + 1))
    else some (d, .span start)
  | .field start =>
    if c = '\x7d' then
      match between start place 0 cs with
      | [] => none
      | test => (FieldTest.ofText? test).map fun t => ({ d with field := some t }, .fieldEnd)
    else some (d, .field start)
  | .fieldEnd => if c = ']' then some (d, .spanEnd) else none
  | .spanEnd => if c = '=' then some (d, .level (place + 1)) else none
  | .level start => some (d, .level start)

/-- Reads the characters that begin at a place of the text `cs`. -/
def readFrom (cs : List Char) (d : Directive) (stage : Stage) (place : Nat) :
    List Char → Option (Directive × Stage)
  | [] => some (d, stage)
  | c :: rest => do
    let (d, stage) ← step cs d place c stage
    readFrom cs d stage (place + c.utf8Size) rest

/-- The directive that a text writes: a level, a target, or either side of an equals sign. Without a
level, or with nothing behind the sign, all levels are meant. Blanks at the ends are not looked at,
but places are those of the text with them. -/
def ofText? (cs : List Char) : Option Directive := do
  let all : Directive := { target := none, span := none, field := none, level := .trace }
  let size := (String.ofList cs).utf8ByteSize
  let (d, stage) ← readFrom cs all .start 0 (Text.trimChars cs)
  match stage with
  | .word start =>
    let word := piece cs start size
    match Level.ofText? word with
    | some l => return { d with level := l }
    | none => return { d with target := some word }
  | .level start =>
    match piece cs start size with
    | "" => return d
    | word => return { d with level := ← Level.ofText? word }
  | .spanEnd => return d
  | _ => none

/-- The directive speaks of spans or of fields. -/
def isDynamic (d : Directive) : Bool :=
  d.span.isSome || d.field.isSome

/-- The directive speaks of no span and asks for no value, so that it can be held against whatever is
logged. -/
def isStatic (d : Directive) : Bool :=
  d.span.isNone && !d.field.any fun t => t.value.isSome

/-- The directive as text. -/
def render (d : Directive) : String :=
  let field := (d.field.map fun t => "\x7b" ++ t.render ++ "\x7d").getD ""
  let part := d.target.getD "" ++
    if d.isDynamic then "[" ++ d.span.getD "" ++ field ++ "]" else ""
  if d.target.isSome || d.isDynamic then part ++ "=" ++ d.level.name else d.level.name

/-- How specific directives are: by the length of the target, then by whether there is a span and a
field, and then by what they are. -/
def order (d e : Directive) : Ordering :=
  (orderOption compare (d.target.map String.utf8ByteSize) (e.target.map String.utf8ByteSize)).then
    ((compare d.span.isSome e.span.isSome).then
      ((compare d.field.isSome e.field.isSome).then
        ((orderOption compare d.target e.target).then
          ((orderOption compare d.span e.span).then
            (orderOption FieldTest.order d.field e.field)))))

end Directive

end Payroll.Log
