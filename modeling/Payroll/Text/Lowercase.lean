import Payroll.Text.Blank
import Payroll.Text.CaseTable
/-!
Lower case of any text by the full Unicode mapping. Two characters do not map one to one: the
capital I with a dot becomes two characters, and the capital sigma becomes the final sigma at the
end of a word.
-/

namespace Payroll.Text

/-- The lower-case form of a character on its own. -/
def lowerChar (c : Char) : List Char :=
  if c.toNat < 0x80 then [c.toLower]
  else if c = 'İ' then ['i', '\u0307']
  else
    match caseRuns.find? (·.covers c.toNat) with
    | some run => [Char.ofNat (Int.ofNat c.toNat + run.shift).toNat]
    | none => [c]

/-- The first character that is not passed over is cased. -/
def meetsCased (cs : List Char) : Bool :=
  match cs.dropWhile fun c => inRanges passedRanges c.toNat with
  | [] => false
  | c :: _ => inRanges casedRanges c.toNat

/-- The lower-case form of `cs`, where `before` holds what precedes it, last character first. -/
def lowerAfter (before : List Char) : List Char → List Char
  | [] => []
  | c :: cs =>
    let here := if c = 'Σ' then [if meetsCased before && !meetsCased cs then 'ς' else 'σ']
      else lowerChar c
    here ++ lowerAfter (c :: before) cs

/-- The text in lower case. -/
def lowercase (s : String) : String :=
  String.ofList (lowerAfter [] s.toList)

end Payroll.Text
