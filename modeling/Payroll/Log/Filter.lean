import Payroll.Log.Directive
import Payroll.Log.Event
import Payroll.Text.Split
/-!
What is let through to the log. A filter is a list of directives. Those that speak of no span and ask for no value
decide about events: of the ones that are about an event, the most specific. The others are about
what happens within spans.
-/

namespace Payroll.Log

/-- What is let through: directives for events and directives for spans, either of them with the most
specific first. -/
structure Filter where
  statics : List Directive
  dynamics : List Directive

namespace Filter

/-- Puts a directive in its place, where it takes over from one that is about the same. -/
def insert (d : Directive) : List Directive → List Directive
  | [] => [d]
  | e :: es =>
    match d.order e with
    | .gt => d :: e :: es
    | .eq => d :: es
    | .lt => e :: insert d es

/-- The directives, the most specific first. -/
def sorted (ds : List Directive) : List Directive :=
  ds.foldl (fun es d => insert d es) []

/-- The filter of directives. One that asks for a field, whatever its value, is for events and for
spans. -/
def ofDirectives (ds : List Directive) : Filter :=
  let (dynamics, plain) := ds.partition Directive.isDynamic
  { statics := sorted (plain ++ dynamics.filter Directive.isStatic), dynamics := sorted dynamics }

/-- The filter that a text writes: directives with commas between them. -/
def ofText? (s : String) : Option Filter :=
  let pieces := (Text.splitAll ',' s.toList).filter fun piece => !piece.isEmpty
  (pieces.mapM Directive.ofText?).map ofDirectives

/-- The filter as text. -/
def render (f : Filter) : String :=
  ",".intercalate ((f.statics ++ f.dynamics).map Directive.render)

end Filter

/-- The directive is about the event. -/
def Directive.covers (d : Directive) (e : Event) : Bool :=
  d.target.all (fun target => target.toList.isPrefixOf e.part.toList) &&
    d.field.all fun t => e.fieldNames.contains t.name

/-- The filter lets the event through, outside of all spans. -/
def Filter.admits (f : Filter) (e : Event) : Bool :=
  match f.statics.find? (·.covers e) with
  | none => false
  | some d => e.level.rank ≤ d.level.rank

end Payroll.Log
