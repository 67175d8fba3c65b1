import Payroll.Json.Tree
/-!
Flat objects: a fixed list of fields, each holding one text, number or truth value. The tokens are
read once from left to right, and the first thing that is wrong decides the fault, so a text whose
end is broken can still fail for a field of the wrong kind.
-/

namespace Payroll.Json

open Payroll.Text (Source)

/-- Why a text is refused: it is not JSON, or its values do not fit the fields. -/
inductive Fault where
  | malformed
  | mismatch
deriving DecidableEq

/-- The value that an object's fields give, if they all fit. -/
def fitting {α : Type} : Option α → Except Fault α
  | some a => .ok a
  | none => .error .mismatch

/-- What a field holds. -/
inductive Scalar where
  | text (value : String)
  | int (value : Int)
  | real (value : Float)
  | flag (value : Bool)

/-- The kinds of field. Integers are signed and have 64 bits; a float may be written as an
integer, but not the other way round. -/
inductive Kind where
  | text
  | int
  | real
  | flag
deriving DecidableEq

/-- The field's value that a JSON value gives. -/
def Kind.ofJson? (k : Kind) (j : Json) : Option Scalar :=
  match k, j with
  | .text, .string s => some (.text s)
  | .int, .number n => n.int64?.map .int
  | .real, .number n => some (.real n.toFloat)
  | .flag, .bool b => some (.flag b)
  | _, _ => none

/-- The fault of a token where nothing of its sort is wanted. -/
def Token.fault : Token → Fault
  | .openObject | .openArray => .mismatch
  | t => if t.value?.isSome then .mismatch else .malformed

/-- Reads a value of the kind from the front of the tokens. -/
def Kind.read (k : Kind) : List Token → Except Fault (Scalar × List Token)
  | [] => .error .malformed
  | t :: rest =>
    match t.value?.bind k.ofJson? with
    | some v => .ok (v, rest)
    | none => .error t.fault

/-- A field of a flat object. An optional one may be null. -/
structure Field where
  name : String
  kind : Kind
  optional : Bool
deriving DecidableEq

/-- Reads the field's value; null is no value. -/
def Field.read (f : Field) (ts : List Token) : Except Fault (Option Scalar × List Token) :=
  match f.optional, ts with
  | true, .null :: rest => .ok (none, rest)
  | _, _ => (f.kind.read ts).map fun (v, rest) => (some v, rest)

/-- What a flat object's text gives: the fields met, in the order of the text, and the values under
other keys if they are kept. -/
structure Flat where
  fields : List (String × Option Scalar)
  others : List (String × Json)

namespace Flat

/-- The value of a field; none if it is null or was not met. -/
def get? (o : Flat) (name : String) : Option Scalar :=
  (o.fields.lookup name).join

/-- The text in a field. -/
def text? (o : Flat) (name : String) : Option String :=
  match o.get? name with
  | some (.text s) => some s
  | _ => none

/-- The integer in a field. -/
def int? (o : Flat) (name : String) : Option Int :=
  match o.get? name with
  | some (.int i) => some i
  | _ => none

/-- The float in a field. -/
def real? (o : Flat) (name : String) : Option Float :=
  match o.get? name with
  | some (.real x) => some x
  | _ => none

/-- The truth value in a field. -/
def flag? (o : Flat) (name : String) : Option Bool :=
  match o.get? name with
  | some (.flag b) => some b
  | _ => none

end Flat

/-- How a flat object is read: its fields, whether an array of their values stands for it too, and
whether values under other keys are kept. -/
structure Layout where
  fields : List Field
  positional : Bool
  keepOthers : Bool

namespace Layout

/-- Reads the value under a key after its colon. A known key must be new. -/
def readMember (l : Layout) (o : Flat) (key : String) (ts : List Token) :
    Except Fault (Flat × List Token) :=
  match l.fields.find? (·.name == key), ts with
  | some f, ts =>
    if o.fields.any (·.1 == key) then .error .mismatch
    else match ts with
      | .colon :: r => (f.read r).map fun (v, r) => ({ o with fields := o.fields ++ [(key, v)] }, r)
      | _ => .error .malformed
  | none, .colon :: r =>
    match frontTree? r with
    | none => .error .malformed
    | some (x, r) =>
      if l.keepOthers then
        match x.value? (maxDepth - 1) with
        | some v => .ok ({ o with others := o.others ++ [(key, v)] }, r)
        | none => .error .malformed
      else .ok (o, r)
  | none, _ => .error .malformed

/-- Reads the members up to the closing brace. The first argument bounds the steps. -/
def readMembers (l : Layout) : Nat → Flat → List Token → Except Fault (Flat × List Token)
  | 0, _, _ => .error .malformed
  | fuel + 1, o, .text (some key) :: rest =>
    match l.readMember o key rest with
    | .error e => .error e
    | .ok (o, .closeObject :: r) => .ok (o, r)
    | .ok (o, .comma :: r) => l.readMembers fuel o r
    | .ok _ => .error .malformed
  | _ + 1, _, _ => .error .malformed

/-- Reads the values of the fields in their order, up to the closing bracket; `start` tells the
first value, which no comma precedes. -/
def readItems (start : Bool) (o : Flat) :
    List Field → List Token → Except Fault (Flat × List Token)
  | [], .closeArray :: r => .ok (o, r)
  | [], _ => .error .malformed
  | _ :: _, .closeArray :: _ => .error .mismatch
  | f :: fs, ts =>
    let value := match start, ts with
      | true, ts => some ts
      | false, .comma :: .closeArray :: _ => none
      | false, .comma :: r => some r
      | false, _ => none
    match value with
    | none => .error .malformed
    | some ts =>
      match f.read ts with
      | .error e => .error e
      | .ok (v, r) => readItems false { o with fields := o.fields ++ [(f.name, v)] } fs r

/-- Reads a flat object from the front of the tokens. -/
def readObject (l : Layout) : List Token → Except Fault (Flat × List Token)
  | [] => .error .malformed
  | .openObject :: .closeObject :: r => .ok (⟨[], []⟩, r)
  | .openObject :: r => l.readMembers r.length ⟨[], []⟩ r
  | .openArray :: r =>
    if l.positional then readItems true ⟨[], []⟩ l.fields r else .error .mismatch
  | t :: _ => .error t.fault

/-- Reads a text that is one flat object and gives what `give` makes of it. What the object lacks
is noticed at its end, before what follows it. -/
def read {α : Type} (l : Layout) (give : Flat → Except Fault α) (s : Source) : Except Fault α :=
  match l.readObject (tokens s) with
  | .error e => .error e
  | .ok (o, rest) =>
    match give o, rest with
    | .error e, _ => .error e
    | .ok a, [] => .ok a
    | .ok _, _ => .error .malformed

end Layout

end Payroll.Json
