import Payroll.Text.Blank
/-!
The shape of an e-mail address: a local part, an at sign, and a domain with a point inside it. No
blank stands anywhere.
-/

namespace Payroll.Text

/-- The characters before and after the first `sep`. -/
def splitOnce (sep : Char) : List Char → Option (List Char × List Char)
  | [] => none
  | c :: cs =>
    if c = sep then some ([], cs)
    else (splitOnce sep cs).map fun (before, after) => (c :: before, after)

/-- The domain has a point with something before it, and does not end in one. -/
def isDomain (domain : List Char) : Bool :=
  !domain.contains '@' &&
    (match splitOnce '.' domain with
     | some (host, _) => !host.isEmpty
     | none => false) &&
    domain.getLast? != some '.'

/-- The text has the shape of an e-mail address. -/
def isEmail (s : String) : Bool :=
  match splitOnce '@' s.toList with
  | none => false
  | some (localPart, domain) =>
    !localPart.isEmpty && isDomain domain && !s.toList.any isBlank

end Payroll.Text
