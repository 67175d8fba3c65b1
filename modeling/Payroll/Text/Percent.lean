import Payroll.Text.Integer
import Payroll.Text.Source
/-!
Percent-encoded text. A percent sign with two hexadecimal digits stands for a byte; any other stands
for itself.
-/

namespace Payroll.Text

/-- The bytes of a text. -/
def bytes (s : String) : List UInt8 :=
  s.toUTF8.data.toList

/-- The value of a byte that is a hexadecimal digit. -/
def hexByte? (b : UInt8) : Option Nat :=
  hexDigit? (Char.ofNat b.toNat)

/-- The bytes that percent-encoded bytes stand for. -/
def percentDecode : List UInt8 → List UInt8
  | [] => []
  | b :: rest =>
    match b, rest with
    | 0x25, h :: l :: tail =>
      match hexByte? h, hexByte? l with
      | some h, some l => UInt8.ofNat (h * 16 + l) :: percentDecode tail
      | _, _ => b :: percentDecode (h :: l :: tail)
    | b, rest => b :: percentDecode rest

/-- The text that a percent-encoded text stands for, if its bytes are one. -/
def percentDecoded? (s : String) : Option String :=
  (Source.ofBytes (percentDecode (bytes s))).toString?

/-- The number of bytes at the front that could start a character but do not finish it, or one. -/
def brokenLength : List UInt8 → Nat
  | a :: b :: rest =>
    let second (low high : UInt8) := low ≤ b && b ≤ high
    let third := match rest with
      | c :: _ => 0x80 ≤ c && c < 0xC0
      | [] => false
    if a = 0xE0 then (if second 0xA0 0xBF then 2 else 1)
    else if a = 0xED then (if second 0x80 0x9F then 2 else 1)
    else if 0xE1 ≤ a && a < 0xF0 then (if second 0x80 0xBF then 2 else 1)
    else if a = 0xF0 then (if second 0x90 0xBF then (if third then 3 else 2) else 1)
    else if 0xF1 ≤ a && a < 0xF4 then (if second 0x80 0xBF then (if third then 3 else 2) else 1)
    else if a = 0xF4 then (if second 0x80 0x8F then (if third then 3 else 2) else 1)
    else 1
  | _ => 1

/-- The characters of bytes, with a replacement character for every piece that is none. -/
def lossyChars (bs : List UInt8) : List Char :=
  match bs with
  | [] => []
  | a :: rest =>
    match frontChar? (a :: rest) with
    | some (c, size) => c :: lossyChars (rest.drop (size - 1))
    | none => '\uFFFD' :: lossyChars (rest.drop (brokenLength (a :: rest) - 1))
termination_by bs.length
decreasing_by
  · simp only [List.length_drop, List.length_cons]; omega
  · simp only [List.length_drop, List.length_cons]; omega

/-- The text that an encoded piece of a form stands for: a plus is a blank, and bytes that are no
text are replaced. -/
def formDecoded (s : String) : String :=
  let spaced := (bytes s).map fun b => if b = 0x2B then 0x20 else b
  String.ofList (lossyChars (percentDecode spaced))

end Payroll.Text
