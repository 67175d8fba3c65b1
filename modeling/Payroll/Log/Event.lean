import Payroll.Json.Printer
import Payroll.Log.Level
import Payroll.Settings.Basic
/-!
What is logged, and the lines that it makes. A line is an object, or a text for people with colours
for terminals. The time of a line is not written.
-/

namespace Payroll.Log

/-- What a field holds: a number, a text as it is, or a text in quotes, which none of its characters
may end. -/
inductive Content where
  | number (value : Nat)
  | text (value : String)
  | quoted (value : String)
deriving DecidableEq

/-- Something that is logged: the part of the program that says it, its level, its text, and the
fields that come with the text. -/
structure Event where
  part : String
  level : Level
  text : String
  fields : List (String × Content)
deriving DecidableEq

/-- The level's name as lines show it. -/
def Level.label (l : Level) : String :=
  l.name.toUpper

/-- The number of the colour in which a terminal shows the level. -/
def Level.colour : Level → Nat
  | .off | .error => 31
  | .warn => 33
  | .info => 32
  | .debug => 34
  | .trace => 35

namespace Content

/-- The content as JSON, where quotes make no difference. -/
def toJson : Content → Json
  | .number n => .int n
  | .text s | .quoted s => .string s

/-- The content as text. -/
def render : Content → String
  | .number n => toString n
  | .text s => s
  | .quoted s => "\"" ++ s ++ "\""

end Content

namespace Event

/-- The name of the field that holds the text. -/
def textField : String := "message"

/-- The names of all fields. -/
def fieldNames (e : Event) : List String :=
  textField :: e.fields.map (·.1)

/-- The event as an object. -/
def toJson (e : Event) : Json :=
  .object [("level", .string e.level.label),
    ("fields", .object ((textField, .string e.text) :: e.fields.map fun (name, c) => (name, c.toJson))),
    ("target", .string e.part)]

/-- Text in a style of the terminal, given by its number. -/
def styled (style : Nat) (text : String) : String :=
  "\x1b[" ++ toString style ++ "m" ++ text ++ "\x1b[0m"

/-- The style of what is dimmed. -/
def dimmed : Nat := 2

/-- The style of the names of fields. -/
def slanted : Nat := 3

/-- The event as a text for people. All levels are equally wide. -/
def render (e : Event) : String :=
  let level := String.ofList (List.replicate (5 - e.level.label.length) ' ') ++ e.level.label
  let field (f : String × Content) := " " ++ styled slanted f.1 ++ styled dimmed "=" ++ f.2.render
  styled e.level.colour level ++ " " ++ styled dimmed e.part ++ styled dimmed ":" ++ " " ++ e.text ++
    String.join (e.fields.map field)

/-- The line of an event. -/
def line (format : LogFormat) (e : Event) : String :=
  match format with
  | .json => Json.render e.toJson
  | .text => e.render

end Event

end Payroll.Log
