import Payroll.Json.Numeral
import Payroll.Text.Integer
import Payroll.Text.Source
/-!
The tokens of a JSON text. Blanks between tokens vanish here. What cannot start or finish a token
ends the list with `broken`, so that a reader which stops early never learns of it.
-/

namespace Payroll.Json

open Payroll.Text (Source hexDigit?)

/-- A token. A text whose characters cannot be told (half a surrogate pair, a byte outside UTF-8)
has no content. -/
inductive Token where
  | openObject
  | closeObject
  | openArray
  | closeArray
  | colon
  | comma
  | null
  | bool (value : Bool)
  | number (text : Numeral)
  | text (content : Option String)
  | broken
deriving DecidableEq

/-- A piece of a text between quotes: a character as it stands or escaped by a letter, a unit of
sixteen bits escaped by its number, or a gap. -/
inductive Piece where
  | char (c : Char)
  | unit (value : Nat)
  | gap
deriving DecidableEq

/-- The number that four hexadecimal digits write. -/
def hexUnit? (a b c d : Char) : Option Nat := do
  let a ← hexDigit? a
  let b ← hexDigit? b
  let c ← hexDigit? c
  let d ← hexDigit? d
  return ((a * 16 + b) * 16 + c) * 16 + d

/-- The character a letter stands for after a backslash. -/
def escaped? : Char → Option Char
  | '"' => some '"'
  | '\\' => some '\\'
  | '/' => some '/'
  | 'b' => some '\x08'
  | 'f' => some '\x0c'
  | 'n' => some '\n'
  | 'r' => some '\r'
  | 't' => some '\t'
  | _ => none

/-- What follows a backslash, and the rest. -/
def escape? : Source → Option (Piece × Source)
  | some 'u' :: some a :: some b :: some c :: some d :: rest =>
    (hexUnit? a b c d).map fun n => (.unit n, rest)
  | some c :: rest => (escaped? c).map fun e => (.char e, rest)
  | _ => none

theorem length_escape? {s rest : Source} {p : Piece} (h : escape? s = some (p, rest)) :
    rest.length < s.length := by
  unfold escape? at h
  split at h
  · obtain ⟨_, _, h⟩ := Option.map_eq_some_iff.1 h
    cases h; simp; omega
  · obtain ⟨_, _, h⟩ := Option.map_eq_some_iff.1 h
    cases h; simp
  · cases h

/-- The pieces up to the closing quote, and the rest. -/
def pieces? (s : Source) : Option (List Piece × Source) :=
  match s with
  | [] => none
  | none :: rest => (pieces? rest).map fun (ps, r) => (.gap :: ps, r)
  | some c :: rest =>
    if c = '"' then some ([], rest)
    else if c = '\\' then
      match _h : escape? rest with
      | some (p, after) => (pieces? after).map fun (ps, r) => (p :: ps, r)
      | none => none
    else if c.toNat < 0x20 then none
    else (pieces? rest).map fun (ps, r) => (.char c :: ps, r)
termination_by s.length
decreasing_by
  · simp
  · have := length_escape? _h; simp; omega
  · simp

/-- The characters of the pieces: a high surrogate goes with the low one after it, and neither
stands alone. -/
def joinPieces : List Piece → Option (List Char)
  | [] => some []
  | .char c :: ps => (joinPieces ps).map (c :: ·)
  | .gap :: _ => none
  | .unit n :: ps =>
    if n < 0xD800 || 0xDFFF < n then (joinPieces ps).map (Char.ofNat n :: ·)
    else match ps with
      | .unit m :: rest =>
        if n < 0xDC00 && 0xDC00 ≤ m && m ≤ 0xDFFF then
          (joinPieces rest).map (Char.ofNat ((n - 0xD800) * 0x400 + (m - 0xDC00) + 0x10000) :: ·)
        else none
      | _ => none

/-- The value of a decimal digit. -/
def digit? : Option Char → Option Nat
  | some c => if '0' ≤ c && c ≤ '9' then some (c.toNat - '0'.toNat) else none
  | none => none

/-- The digits at the front, and the rest. -/
def spanDigits : Source → List Nat × Source
  | [] => ([], [])
  | c :: rest =>
    match digit? c with
    | some d => let (ds, r) := spanDigits rest; (d :: ds, r)
    | none => ([], c :: rest)

theorem length_spanDigits (s : Source) : (spanDigits s).2.length ≤ s.length := by
  induction s with
  | nil => simp [spanDigits]
  | cons c rest ih =>
    unfold spanDigits
    split
    · simp only [List.length_cons]; omega
    · simp

/-- The digits of a fraction, if a point starts one. A point without digits is refused. -/
def fraction? : Source → Option (List Nat × Source)
  | some '.' :: rest =>
    match spanDigits rest with
    | ([], _) => none
    | found => some found
  | rest => some ([], rest)

/-- The sign and digits of an exponent, if a letter starts one. A letter without digits is
refused. -/
def exponent? : Source → Option (Bool × List Nat × Source)
  | some c :: rest =>
    if c = 'e' || c = 'E' then
      let (negative, digits) := match rest with
        | some '+' :: r => (false, r)
        | some '-' :: r => (true, r)
        | r => (false, r)
      match spanDigits digits with
      | ([], _) => none
      | (ds, r) => some (negative, ds, r)
    else some (false, [], some c :: rest)
  | rest => some (false, [], rest)

/-- The number at the front, after its sign. No digit follows a leading zero. -/
def numeral? (negative : Bool) (s : Source) : Option (Numeral × Source) := do
  let (whole, r) := spanDigits s
  if whole.isEmpty || (whole.head? = some 0 && 1 < whole.length) then none
  let (fraction, r) ← fraction? r
  let (exponentNegative, exponent, r) ← exponent? r
  return (⟨negative, whole, fraction, exponentNegative, exponent⟩, r)

/-- The rest, if the source starts with the word. -/
def afterWord? (word : List Char) (s : Source) : Option Source :=
  if word.map some == s.take word.length then some (s.drop word.length) else none

/-- The token that starts with the character `c`, and the rest. -/
def token? (c : Char) (rest : Source) : Option (Token × Source) :=
  match c with
  | '\x7b' => some (.openObject, rest)
  | '\x7d' => some (.closeObject, rest)
  | '[' => some (.openArray, rest)
  | ']' => some (.closeArray, rest)
  | ':' => some (.colon, rest)
  | ',' => some (.comma, rest)
  | '"' => (pieces? rest).map fun (ps, r) => (.text ((joinPieces ps).map String.ofList), r)
  | 'n' => (afterWord? ['u', 'l', 'l'] rest).map fun r => (.null, r)
  | 't' => (afterWord? ['r', 'u', 'e'] rest).map fun r => (.bool true, r)
  | 'f' => (afterWord? ['a', 'l', 's', 'e'] rest).map fun r => (.bool false, r)
  | '-' => (numeral? true rest).map fun (n, r) => (.number n, r)
  | c => (numeral? false (some c :: rest)).map fun (n, r) => (.number n, r)

/-- The blanks that may stand between tokens. -/
def isSpace (c : Char) : Bool :=
  c = ' ' || c = '\n' || c = '\t' || c = '\r'

theorem length_pieces? {s rest : Source} {ps : List Piece} (h : pieces? s = some (ps, rest)) :
    rest.length < s.length := by
  fun_induction pieces? s generalizing ps with
  | case1 => cases h
  | case2 s ih =>
    obtain ⟨⟨qs, r⟩, hr, heq⟩ := Option.map_eq_some_iff.1 h
    cases heq
    have := ih hr
    simp; omega
  | case3 => cases h; simp
  | case4 s p after he _ ih =>
    obtain ⟨⟨qs, r⟩, hr, heq⟩ := Option.map_eq_some_iff.1 h
    cases heq
    have := ih hr
    have := length_escape? he
    simp; omega
  | case5 => cases h
  | case6 => cases h
  | case7 c s _ _ _ ih =>
    obtain ⟨⟨qs, r⟩, hr, heq⟩ := Option.map_eq_some_iff.1 h
    cases heq
    have := ih hr
    simp; omega

theorem length_fraction? {s rest : Source} {ds : List Nat} (h : fraction? s = some (ds, rest)) :
    rest.length ≤ s.length := by
  unfold fraction? at h
  split at h
  · rename_i r
    have := length_spanDigits r
    split at h
    · cases h
    · rw [Option.some.inj h] at this
      simp only [List.length_cons] at this ⊢; omega
  · cases h; simp

theorem length_exponent? {s rest : Source} {negative : Bool} {ds : List Nat}
    (h : exponent? s = some (negative, ds, rest)) : rest.length ≤ s.length := by
  unfold exponent? at h
  split at h
  · rename_i c r
    split at h
    · split at h
      rename_i digits hd
      have hdigits : digits.length ≤ r.length := by
        revert hd
        split <;> rintro ⟨⟩ <;> simp
      have := length_spanDigits digits
      split at h
      · cases h
      · rename_i found hf
        cases h
        simp_all; omega
    · cases h; simp
  · cases h; simp

theorem length_spanDigits_of_ne_nil {s : Source} (h : (spanDigits s).1 ≠ []) :
    (spanDigits s).2.length < s.length := by
  cases s with
  | nil => simp [spanDigits] at h
  | cons c rest =>
    unfold spanDigits at h ⊢
    have := length_spanDigits rest
    split
    · simp only [List.length_cons]; omega
    · rename_i hc; simp [hc] at h

theorem length_numeral? {s rest : Source} {negative : Bool} {n : Numeral}
    (h : numeral? negative s = some (n, rest)) : rest.length < s.length := by
  unfold numeral? at h
  simp only [Option.bind_eq_bind] at h
  split at h
  · simp at h
  · rename_i hw
    obtain ⟨⟨ds, r⟩, hf, h⟩ := Option.bind_eq_some_iff.1 h
    obtain ⟨⟨e, es, r'⟩, he, h⟩ := Option.bind_eq_some_iff.1 h
    cases h
    have := length_spanDigits_of_ne_nil (s := s) (by intro h; simp [h] at hw)
    have hr := length_fraction? hf
    have hr' := length_exponent? he
    simp only at hr' ⊢
    omega

theorem length_afterWord? {word : List Char} {s rest : Source}
    (h : afterWord? word s = some rest) : rest.length ≤ s.length := by
  unfold afterWord? at h
  split at h
  · cases h; simp
  · cases h

theorem length_token? {c : Char} {s rest : Source} {t : Token} (h : token? c s = some (t, rest)) :
    rest.length ≤ s.length := by
  unfold token? at h
  split at h
  all_goals first
    | (cases h; exact Nat.le_refl _)
    | (obtain ⟨⟨_, _⟩, hr, heq⟩ := Option.map_eq_some_iff.1 h
       cases heq
       first
         | exact Nat.le_of_lt (length_pieces? hr)
         | exact Nat.le_of_lt (length_numeral? hr)
         | exact Nat.le_of_lt_succ (length_numeral? hr))
    | (obtain ⟨_, hr, heq⟩ := Option.map_eq_some_iff.1 h
       cases heq
       exact length_afterWord? hr)

/-- The tokens of a text. -/
def tokens (s : Source) : List Token :=
  match s with
  | [] => []
  | none :: _ => [.broken]
  | some c :: rest =>
    if isSpace c then tokens rest
    else match _h : token? c rest with
      | some (t, after) => t :: tokens after
      | none => [.broken]
termination_by s.length
decreasing_by
  · simp
  · have := length_token? _h; simp; omega

end Payroll.Json
