/-!
Text as it arrives: characters, with a gap for every byte that is part of no character. Main
statement: a text that was a string to begin with has no gap.
-/

namespace Payroll.Text

/-- A text read from bytes; `none` stands for a byte that belongs to no UTF-8 character. -/
abbrev Source := List (Option Char)

namespace Source

/-- The source of a string. -/
def ofString (s : String) : Source :=
  s.toList.map some

/-- The string, if every byte belongs to a character. -/
def toString? (s : Source) : Option String :=
  (s.mapM id).map String.ofList

/-- The number of bytes of the text. -/
def byteSize (s : Source) : Nat :=
  s.foldl (fun | n, some c => n + c.utf8Size | n, none => n + 1) 0

theorem toString?_ofString (s : String) : (ofString s).toString? = some s := by
  have h (cs : List Char) : (cs.map some).mapM (id : Option Char → Option Char) = some cs := by
    induction cs with
    | nil => rfl
    | cons c cs ih => simp [ih]
  simp [ofString, toString?, h]

end Source

/-- The low six bits of a byte that continues a character. -/
def continuation? (b : UInt8) : Option Nat :=
  if 0x80 ≤ b && b < 0xC0 then some (b.toNat - 0x80) else none

/-- The character of this code point, if it lies between `least` and the last one and is no
surrogate. -/
def scalar? (least n : Nat) : Option Char :=
  if least ≤ n && n ≤ 0x10FFFF && !(0xD800 ≤ n && n ≤ 0xDFFF) then some (Char.ofNat n) else none

/-- The character at the front of the bytes, and how many bytes it takes. -/
def frontChar? : List UInt8 → Option (Char × Nat)
  | [] => none
  | a :: rest =>
    if a < 0x80 then some (Char.ofNat a.toNat, 1)
    else if a < 0xC0 then none
    else if a < 0xE0 then do
      let b ← rest[0]?.bind continuation?
      let c ← scalar? 0x80 ((a.toNat - 0xC0) * 64 + b)
      return (c, 2)
    else if a < 0xF0 then do
      let b ← rest[0]?.bind continuation?
      let c ← rest[1]?.bind continuation?
      let d ← scalar? 0x800 (((a.toNat - 0xE0) * 64 + b) * 64 + c)
      return (d, 3)
    else if a < 0xF8 then do
      let b ← rest[0]?.bind continuation?
      let c ← rest[1]?.bind continuation?
      let d ← rest[2]?.bind continuation?
      let e ← scalar? 0x10000 ((((a.toNat - 0xF0) * 64 + b) * 64 + c) * 64 + d)
      return (e, 4)
    else none

/-- The text of the bytes. -/
def Source.ofBytes : List UInt8 → Source
  | [] => []
  | a :: rest =>
    match frontChar? (a :: rest) with
    | some (c, size) => some c :: ofBytes (rest.drop (size - 1))
    | none => none :: ofBytes rest
termination_by bytes => bytes.length
decreasing_by
  · simp only [List.length_drop, List.length_cons]; omega
  · simp

end Payroll.Text
