import Payroll.Text.Percent
import Payroll.Text.Split
/-!
The target of a call: the segments of its path as they are written, and the pairs of its query. A
target may be absolute; then it names a scheme and an authority first, which do not matter.
-/

namespace Payroll.Http

open Text (splitAll splitFirst)

/-- Where a call is directed. -/
structure Target where
  path : List String
  query : List (String × String)
deriving DecidableEq

namespace Target

/-- The pair that a piece of a query is. Without an equals sign its value is empty. -/
def pair (piece : List Char) : String × String :=
  let (key, value) := splitFirst '=' piece
  (Text.formDecoded (String.ofList key), Text.formDecoded (String.ofList (value.getD [])))

/-- The pairs of a query. -/
def queryPairs (cs : List Char) : List (String × String) :=
  ((splitAll '&' cs).filter fun piece => !piece.isEmpty).map pair

/-- A scheme may hold the character. -/
def isSchemeChar (c : Char) : Bool :=
  c.isAlphanum || c = '+' || c = '-' || c = '.'

/-- What stands behind the scheme and the authority, if the target is absolute. -/
def afterAuthority? (cs : List Char) : Option (List Char) :=
  match cs.dropWhile isSchemeChar with
  | ':' :: '/' :: '/' :: rest => some (rest.dropWhile fun c => c != '/' && c != '?' && c != '#')
  | _ => none

/-- Reads a target. An absolute one that names no path has the path of the root. What follows a
number sign is no part of a target. -/
def ofString (s : String) : Target :=
  let behind := afterAuthority? s.toList
  let (path, query) := splitFirst '?' ((behind.getD s.toList).takeWhile (· != '#'))
  let path := if behind.isSome && path.isEmpty then ['/'] else path
  { path := (splitAll '/' path).map String.ofList
    query := queryPairs (query.getD []) }

end Target

end Payroll.Http
