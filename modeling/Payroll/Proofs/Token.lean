import Payroll.Json.Printer
import Payroll.Json.Token
/-!
# The tokens of what is printed

A text in quotes is one token, whatever follows it. A number is one token too, unless what follows
goes on with it: a digit, a point or the letter of an exponent.

## Key results

- `tokens_quote`: a text in quotes is read back
- `numeral?_append`, `tokens_append`: what follows makes no difference to what comes before it
- `tokens_sign`: a bracket, a comma or a colon is a token by itself
-/

namespace Payroll.Json

open Payroll.Text (Source)

/-! ## One token at the front -/

/-- A token at the front is followed by the tokens of the rest. -/
theorem tokens_cons {c : Char} {rest after : Source} {t : Token} (hc : isSpace c = false)
    (h : token? c rest = some (t, after)) : tokens (some c :: rest) = t :: tokens after := by
  rw [tokens, hc]
  simp only [Bool.false_eq_true, if_false]
  split
  · rename_i t' after' heq
    rw [h] at heq
    cases heq
    rfl
  · rename_i heq
    rw [h] at heq
    cases heq

/-- A blank between tokens is passed over. -/
theorem tokens_space {c : Char} (rest : Source) (hc : isSpace c = true) :
    tokens (some c :: rest) = tokens rest := by
  rw [tokens, hc]
  simp

/-! ## Texts -/

/-- The piece of a text that a character is written as: control characters without a letter of their
own are written by their number. -/
def pieceOf (c : Char) : Piece :=
  if c.toNat < 0x20 ∧ c ∉ ['\x08', '\x0c', '\n', '\r', '\t'] then .unit c.toNat else .char c

/-- A number below 32 is read back from its two hexadecimal digits. -/
theorem hexUnit?_hexDigit {n : Nat} (h : n < 0x20) :
    hexUnit? '0' '0' (hexDigit (n / 16)) (hexDigit (n % 16)) = some n := by
  have hall : ∀ m < 0x20, hexUnit? '0' '0' (hexDigit (m / 16)) (hexDigit (m % 16)) = some m := by
    decide
  exact hall n h

/-- A character after a backslash stands for one piece. -/
theorem pieces?_backslash {s after : Source} {p : Piece} (h : escape? s = some (p, after)) :
    pieces? (some '\\' :: s) = (pieces? after).map fun (ps, r) => (p :: ps, r) := by
  rw [pieces?]
  simp only [show ('\\' : Char) ≠ '"' by decide, if_false, if_true]
  split
  · rename_i p' after' heq
    rw [h] at heq
    cases heq
    rfl
  · rename_i heq
    rw [h] at heq
    cases heq

/-- A character that needs no escape stands for itself. -/
theorem pieces?_plain {c : Char} (s : Source) (hquote : c ≠ '"') (hslash : c ≠ '\\')
    (hc : ¬ c.toNat < 0x20) :
    pieces? (some c :: s) = (pieces? s).map fun (ps, r) => (.char c :: ps, r) := by
  rw [pieces?]
  simp only [hquote, hslash, hc, if_false]

/-- What a character is written as is read as one piece. -/
theorem pieces?_escape (c : Char) (s : Source) :
    pieces? ((escape c).map some ++ s) = (pieces? s).map fun (ps, r) => (pieceOf c :: ps, r) := by
  -- The seven characters with a letter of their own, then the others.
  unfold escape
  split
  · exact pieces?_backslash rfl
  · exact pieces?_backslash rfl
  · exact pieces?_backslash rfl
  · exact pieces?_backslash rfl
  · exact pieces?_backslash rfl
  · exact pieces?_backslash rfl
  · exact pieces?_backslash rfl
  · rename_i hquote hslash hb hf hn hr ht
    have hletters : c ∉ ['\x08', '\x0c', '\n', '\r', '\t'] := by
      simp only [List.mem_cons, List.not_mem_nil, or_false, not_or]
      exact ⟨hb, hf, hn, hr, ht⟩
    by_cases hc : c.toNat < 0x20
    · have hunit := hexUnit?_hexDigit hc
      have hpiece : pieceOf c = .unit c.toNat := by simp only [pieceOf, hc, hletters]; simp
      rw [if_pos hc, hpiece]
      apply pieces?_backslash
      simp [escape?, hunit]
    · have hpiece : pieceOf c = .char c := by simp only [pieceOf, hc]; simp
      rw [if_neg hc, hpiece]
      exact pieces?_plain s hquote hslash hc

/-- A text up to its closing quote is read as the pieces of its characters. -/
theorem pieces?_flatMap_escape (cs : List Char) (rest : Source) :
    pieces? ((cs.flatMap escape).map some ++ some '"' :: rest) = some (cs.map pieceOf, rest) := by
  induction cs with
  | nil => simp [pieces?]
  | cons c cs ih =>
    rw [List.flatMap_cons, List.map_append, List.append_assoc, pieces?_escape, ih]
    rfl

/-- The pieces of characters join to the characters. -/
theorem joinPieces_map_pieceOf (cs : List Char) : joinPieces (cs.map pieceOf) = some cs := by
  induction cs with
  | nil => rfl
  | cons c cs ih =>
    rw [List.map_cons, pieceOf]
    split
    · rename_i h
      have hlow : c.toNat < 0xD800 := by have := h.1; omega
      unfold joinPieces
      simp [hlow, ih]
    · rw [joinPieces, ih]
      rfl

/-- A text in quotes is one token with that text. -/
theorem tokens_quote (s : String) (rest : Source) :
    tokens ((quote s).map some ++ rest) = .text (some s) :: tokens rest := by
  rw [quote, List.map_cons, List.cons_append, List.map_append, List.append_assoc]
  have hfront : token? '"' ((s.toList.flatMap escape).map some ++ some '"' :: rest) =
      some (.text (some s), rest) := by
    rw [token?, pieces?_flatMap_escape]
    simp [joinPieces_map_pieceOf]
  exact tokens_cons (by decide) hfront

/-! ## Numbers -/

/-- What follows cannot go on with a number. -/
def EndsNumber (rest : Source) : Prop :=
  ∀ c ∈ rest.head?, digit? c = none ∧ c ∉ [some '.', some 'e', some 'E']

@[simp] theorem endsNumber_nil : EndsNumber [] := by
  simp [EndsNumber]

/-- Only the first character decides. -/
theorem endsNumber_cons {c : Option Char} (rest : Source) :
    EndsNumber (c :: rest) ↔ digit? c = none ∧ c ∉ [some '.', some 'e', some 'E'] := by
  simp [EndsNumber]

/-- Digits come to their end where the source does, unless what follows goes on with them. -/
theorem spanDigits_append {s r rest : Source} {ds : List Nat} (h : spanDigits s = (ds, r))
    (hr : r = [] → EndsNumber rest) : spanDigits (s ++ rest) = (ds, r ++ rest) := by
  induction s generalizing ds with
  | nil =>
    -- The digits reach the end of the source, so what follows must not begin with one.
    cases h
    have hrest := hr rfl
    cases rest with
    | nil => rfl
    | cons c rest => simp [spanDigits, ((endsNumber_cons rest).mp hrest).1]
  | cons c s ih =>
    cases hc : digit? c with
    | none =>
      simp only [spanDigits, hc] at h
      cases h
      simp [spanDigits, hc]
    | some d =>
      simp only [spanDigits, hc] at h
      cases h
      simp [spanDigits, hc, ih rfl]

/-- A point starts a fraction, which has to have digits. -/
theorem fraction?_point (s : Source) :
    fraction? (some '.' :: s) = if (spanDigits s).1 = [] then none else some (spanDigits s) := by
  simp only [fraction?]
  split
  · rename_i h
    simp [h]
  · rename_i h
    have hne : (spanDigits s).1 ≠ [] := by
      intro hnil
      exact h (spanDigits s).2 (Prod.ext hnil rfl)
    rw [if_neg hne]

/-- Without a point there is no fraction. -/
theorem fraction?_of_ne {s : Source} (h : s.head? ≠ some (some '.')) :
    fraction? s = some ([], s) := by
  unfold fraction?
  split
  · simp at h
  · rfl

/-- A fraction is the same whatever follows it. -/
theorem fraction?_append {s r rest : Source} {ds : List Nat} (h : fraction? s = some (ds, r))
    (hr : r = [] → EndsNumber rest) : fraction? (s ++ rest) = some (ds, r ++ rest) := by
  cases s with
  | nil =>
    -- What follows must not begin with a point.
    cases h
    apply fraction?_of_ne
    intro hpoint
    have := (hr rfl _ hpoint).2
    simp at this
  | cons c s =>
    by_cases hc : c = some '.'
    · subst hc
      rw [fraction?_point] at h
      split at h
      · cases h
      · rename_i hne
        have hspan : spanDigits s = (ds, r) := Option.some.inj h
        rw [List.cons_append, fraction?_point, spanDigits_append hspan hr]
        rw [hspan] at hne
        exact if_neg hne
    · rw [fraction?_of_ne (by simpa using hc)] at h
      cases h
      exact fraction?_of_ne (by simpa using hc)

/-- The sign that an exponent may start with, true for a minus, and the rest. -/
def exponentSign : Source → Bool × Source
  | some '+' :: r => (false, r)
  | some '-' :: r => (true, r)
  | r => (false, r)

/-- A letter starts an exponent, which has to have digits. -/
theorem exponent?_letter {c : Char} (s : Source) (hc : c = 'e' ∨ c = 'E') :
    exponent? (some c :: s) =
      if (spanDigits (exponentSign s).2).1 = [] then none
      else some ((exponentSign s).1, spanDigits (exponentSign s).2) := by
  have hletter : (c = 'e' || c = 'E') = true := by simpa using hc
  unfold exponent?
  dsimp only
  rw [if_pos hletter]
  split
  · rename_i rest h
    have hnone : spanDigits (exponentSign s).2 = ([], rest) := h
    simp [hnone]
  · rename_i ds rest hne h
    have hsome : spanDigits (exponentSign s).2 = (ds, rest) := h
    have hdigits : (spanDigits (exponentSign s).2).1 ≠ [] := by
      rw [hsome]
      exact hne
    rw [if_neg hdigits, hsome]
    rfl

/-- Without a letter there is no exponent. -/
theorem exponent?_of_ne {s : Source} (he : s.head? ≠ some (some 'e'))
    (hE : s.head? ≠ some (some 'E')) : exponent? s = some (false, [], s) := by
  unfold exponent?
  split
  · rename_i c rest
    have hc : ¬ (c = 'e' || c = 'E') = true := by
      simpa using And.intro he hE
    rw [if_neg hc]
  · rfl

/-- What follows the digits of an exponent stands after its sign too. -/
theorem exponentSign_append {s : Source} (rest : Source) (h : s ≠ []) :
    exponentSign (s ++ rest) = ((exponentSign s).1, (exponentSign s).2 ++ rest) := by
  cases s with
  | nil => exact absurd rfl h
  | cons c s =>
    rw [List.cons_append]
    unfold exponentSign
    split <;> simp_all

/-- An exponent is the same whatever follows it. -/
theorem exponent?_append {s r rest : Source} {negative : Bool} {ds : List Nat}
    (h : exponent? s = some (negative, ds, r)) (hr : r = [] → EndsNumber rest) :
    exponent? (s ++ rest) = some (negative, ds, r ++ rest) := by
  have hne (hrest : EndsNumber rest) (c : Char) (hc : c = 'e' ∨ c = 'E') :
      rest.head? ≠ some (some c) := by
    intro hhead
    have := (hrest _ hhead).2
    rcases hc with rfl | rfl <;> simp at this
  cases s with
  | nil =>
    cases h
    have hrest := hr rfl
    exact exponent?_of_ne (hne hrest 'e' (.inl rfl)) (hne hrest 'E' (.inr rfl))
  | cons c s =>
    by_cases hc : ∃ letter, c = some letter ∧ (letter = 'e' ∨ letter = 'E')
    · obtain ⟨letter, rfl, hletter⟩ := hc
      rw [exponent?_letter s hletter] at h
      split at h
      · cases h
      · rename_i hdigits
        -- Without a character there are no digits, so the sign is read from what is there.
        have hs : s ≠ [] := by
          rintro rfl
          exact hdigits rfl
        have hspan : spanDigits (exponentSign s).2 = (ds, r) := by
          simpa using (Prod.mk.inj (Option.some.inj h)).2
        have hnegative : (exponentSign s).1 = negative := (Prod.mk.inj (Option.some.inj h)).1
        rw [hspan] at hdigits
        rw [List.cons_append, exponent?_letter _ hletter, exponentSign_append rest hs,
          spanDigits_append hspan hr, hnegative]
        exact if_neg hdigits
    · have he : c ≠ some 'e' := fun h => hc ⟨'e', h, .inl rfl⟩
      have hE : c ≠ some 'E' := fun h => hc ⟨'E', h, .inr rfl⟩
      rw [exponent?_of_ne (by simpa using he) (by simpa using hE)] at h
      cases h
      exact exponent?_of_ne (by simpa using he) (by simpa using hE)

/-- A number is the same whatever follows it. -/
theorem numeral?_append {s r rest : Source} {negative : Bool} {n : Numeral}
    (h : numeral? negative s = some (n, r)) (hr : r = [] → EndsNumber rest) :
    numeral? negative (s ++ rest) = some (n, r ++ rest) := by
  unfold numeral? at h ⊢
  rcases hspan : spanDigits s with ⟨whole, r₀⟩
  simp only [hspan, Option.bind_eq_bind] at h
  split at h
  · simp at h
  · rename_i hwhole
    obtain ⟨⟨fraction, r₁⟩, hfraction, h⟩ := Option.bind_eq_some_iff.mp h
    obtain ⟨⟨exponentNegative, exponent, r₂⟩, hexponent, h⟩ := Option.bind_eq_some_iff.mp h
    cases h
    -- Where one part leaves nothing, neither do those after it.
    have hr₁ : r₁ = [] → EndsNumber rest := by
      rintro rfl
      cases hexponent
      exact hr rfl
    have hr₀ : r₀ = [] → EndsNumber rest := by
      rintro rfl
      cases hfraction
      exact hr₁ rfl
    rw [spanDigits_append hspan hr₀]
    simp only [hwhole, Option.bind_eq_bind]
    rw [fraction?_append hfraction hr₁, Option.bind_some, exponent?_append hexponent hr]
    rfl

/-! ## Any token -/

/-- What an escape stands for is the same whatever follows it. -/
theorem escape?_append {s r : Source} {p : Piece} (h : escape? s = some (p, r)) (rest : Source) :
    escape? (s ++ rest) = some (p, r ++ rest) := by
  unfold escape? at h
  split at h
  · obtain ⟨n, hn, heq⟩ := Option.map_eq_some_iff.mp h
    cases heq
    simp [escape?, hn]
  · rename_i c s' _
    obtain ⟨e, he, heq⟩ := Option.map_eq_some_iff.mp h
    cases heq
    -- The letter of a number of four digits stands for no character of its own.
    have hc : c ≠ 'u' := by
      rintro rfl
      cases he
    unfold escape?
    split
    · rename_i heq
      exact absurd (Option.some.inj (List.cons.inj heq).1) hc
    · rename_i heq
      obtain ⟨hchar, rfl⟩ := List.cons.inj heq
      cases hchar
      rw [he]
      rfl
    · rename_i hnone
      exact (hnone _ _ rfl).elim
  · cases h

/-- A text up to its closing quote is the same whatever follows it. -/
theorem pieces?_append {s r : Source} {ps : List Piece} (h : pieces? s = some (ps, r))
    (rest : Source) : pieces? (s ++ rest) = some (ps, r ++ rest) := by
  fun_induction pieces? s generalizing ps with
  | case1 => cases h
  | case2 s ih =>
    obtain ⟨⟨qs, r'⟩, hr, heq⟩ := Option.map_eq_some_iff.mp h
    cases heq
    rw [List.cons_append, pieces?, ih hr]
    rfl
  | case3 s =>
    cases h
    simp [pieces?]
  | case4 s p after he hquote ih =>
    obtain ⟨⟨qs, r'⟩, hr, heq⟩ := Option.map_eq_some_iff.mp h
    cases heq
    rw [List.cons_append, pieces?_backslash (escape?_append he rest), ih hr]
    rfl
  | case5 => cases h
  | case6 => cases h
  | case7 c s hquote hslash hc ih =>
    obtain ⟨⟨qs, r'⟩, hr, heq⟩ := Option.map_eq_some_iff.mp h
    cases heq
    rw [List.cons_append, pieces?_plain _ hquote hslash hc, ih hr]
    rfl

/-- A word is the same whatever follows it. -/
theorem afterWord?_append {word : List Char} {s r : Source} (h : afterWord? word s = some r)
    (rest : Source) : afterWord? word (s ++ rest) = some (r ++ rest) := by
  unfold afterWord? at h
  split at h
  · rename_i hword
    cases h
    have hlength : word.length ≤ s.length := by
      have := congrArg List.length (eq_of_beq hword)
      rw [List.length_map, List.length_take] at this
      omega
    rw [afterWord?, List.take_append_of_le_length hlength, List.drop_append_of_le_length hlength,
      if_pos hword]
  · cases h

/-- A token is the same whatever follows it, but for what goes on with a number. -/
theorem token?_append {c : Char} {s after rest : Source} {t : Token}
    (h : token? c s = some (t, after)) (hafter : after = [] → EndsNumber rest) :
    token? c (s ++ rest) = some (t, after ++ rest) := by
  unfold token? at h ⊢
  split at h
  case h_1 | h_2 | h_3 | h_4 | h_5 | h_6 =>
    cases h
    rfl
  case h_7 =>
    obtain ⟨⟨ps, r⟩, hr, heq⟩ := Option.map_eq_some_iff.mp h
    cases heq
    simp [pieces?_append hr]
  case h_8 | h_9 | h_10 =>
    obtain ⟨r, hr, heq⟩ := Option.map_eq_some_iff.mp h
    cases heq
    simp [afterWord?_append hr]
  case h_11 =>
    obtain ⟨⟨m, r⟩, hm, heq⟩ := Option.map_eq_some_iff.mp h
    cases heq
    simp [numeral?_append hm hafter]
  case h_12 =>
    obtain ⟨⟨m, r⟩, hm, heq⟩ := Option.map_eq_some_iff.mp h
    cases heq
    have hlonger := numeral?_append hm hafter
    rw [List.cons_append] at hlonger
    simp [hlonger]

/-- A source whose tokens are whole has the same tokens whatever follows it, but for what goes on with a
number. -/
theorem tokens_append {s rest : Source} (h : .broken ∉ tokens s) (hrest : EndsNumber rest) :
    tokens (s ++ rest) = tokens s ++ tokens rest := by
  fun_induction tokens s with
  | case1 => rfl
  | case2 => simp at h
  | case3 c s hc ih => rw [List.cons_append, tokens_space _ hc, ih h]
  | case4 c s hc t after ht ih =>
    have hlonger := token?_append ht fun _ => hrest
    rw [List.cons_append, tokens_cons (by simpa using hc) hlonger,
      ih fun hmem => h (List.mem_cons_of_mem t hmem), List.cons_append]
  | case5 => simp at h

/-! ## Brackets, commas and colons -/

/-- The character that a token is, if it is a bracket, a comma or a colon. -/
def Token.sign? : Token → Option Char
  | .openObject => some '\x7b'
  | .closeObject => some '\x7d'
  | .openArray => some '['
  | .closeArray => some ']'
  | .colon => some ':'
  | .comma => some ','
  | _ => none

theorem token?_sign {t : Token} {c : Char} (hsign : t.sign? = some c) (s : Source) :
    token? c s = some (t, s) := by
  cases t <;> cases hsign <;> rfl

theorem tokens_sign {t : Token} {c : Char} (hsign : t.sign? = some c) (s : Source) :
    tokens (some c :: s) = t :: tokens s := by
  refine tokens_cons ?_ (token?_sign hsign s)
  cases t <;> cases hsign <;> decide

theorem endsNumber_sign {t : Token} {c : Char} (hsign : t.sign? = some c) (s : Source) :
    EndsNumber (some c :: s) := by
  rw [endsNumber_cons]
  cases t <;> cases hsign <;> decide

/-! ## Integers -/

/-- The value of a digit. -/
def digitValue (c : Char) : Nat :=
  c.toNat - '0'.toNat

theorem digit?_of_isDigit {c : Char} (h : c.isDigit = true) : digit? (some c) = some (digitValue c) := by
  have hc : ('0' ≤ c && c ≤ '9') = true := by simpa [Char.isDigit, Char.le_def] using h
  simp [digit?, hc, digitValue]

/-- Digits alone are read to their end. -/
theorem spanDigits_map_some {cs : List Char} (h : ∀ c ∈ cs, c.isDigit = true) :
    spanDigits (cs.map some) = (cs.map digitValue, []) := by
  induction cs with
  | nil => rfl
  | cons c cs ih =>
    have hc := digit?_of_isDigit (h c (by simp))
    simp [spanDigits, hc, ih fun d hd => h d (by simp [hd])]

/-- A digit more makes no number smaller. -/
theorem le_foldl_digits (n : Nat) (ds : List Nat) : n ≤ ds.foldl (fun n d => n * 10 + d) n := by
  induction ds generalizing n with
  | nil => exact Nat.le_refl n
  | cons d ds ih =>
    have := ih (n * 10 + d)
    rw [List.foldl_cons]
    omega

/-- Where the whole number fits 64 bits, all its digits are taken. -/
theorem takeDigits_eq {n : Nat} {ds : List Nat}
    (h : ds.foldl (fun n d => n * 10 + d) n < UInt64.size) :
    takeDigits n ds = (ds.foldl (fun n d => n * 10 + d) n, []) := by
  induction ds generalizing n with
  | nil => rfl
  | cons d ds ih =>
    rw [List.foldl_cons] at h ⊢
    have hd := le_foldl_digits (n * 10 + d) ds
    rw [takeDigits, if_pos (by omega), ih h]

/-- The digits of a number in base ten, as numbers. -/
def decimalDigits (n : Nat) : List Nat :=
  (Nat.toDigits 10 n).map digitValue

/-- The digits of a number stand for it. -/
theorem foldl_decimalDigits (n : Nat) : (decimalDigits n).foldl (fun n d => n * 10 + d) 0 = n := by
  have h := Nat.ofDigitChars_toDigits (b := 10) (n := n) (by decide) (by decide)
  rw [decimalDigits, List.foldl_map]
  simpa only [Nat.ofDigitChars, Nat.mul_comm, digitValue] using h

/-- No digits start with a zero but those of zero. -/
theorem head?_decimalDigits {n : Nat} (h : n ≠ 0) : (decimalDigits n).head? ≠ some 0 := by
  induction n using Nat.strongRecOn with
  | ind n ih =>
    rw [decimalDigits, Nat.toDigits_eq_if (by decide)]
    split
    · rename_i hlt
      simp only [List.map_cons, List.head?_cons, digitValue, Nat.toNat_digitChar_of_lt_ten hlt]
      simp
      omega
    · rename_i hge
      have hhead := ih (n / 10) (by omega) (by omega)
      rw [decimalDigits] at hhead
      rw [List.map_append, List.head?_append]
      cases hmap : ((Nat.toDigits 10 (n / 10)).map digitValue).head? with
      | none => simp [Nat.toDigits_ne_nil] at hmap
      | some d => rw [hmap] at hhead; exact hhead

/-- The parts of an integer's text. -/
def intNumeral (i : Int) : Numeral :=
  ⟨decide (i < 0), decimalDigits i.natAbs, [], false, []⟩

/-- The digits of a number are read to their end; no zero leads them. -/
theorem numeral?_decimalDigits (negative : Bool) (n : Nat) :
    numeral? negative ((Nat.toDigits 10 n).map some) =
      some (⟨negative, decimalDigits n, [], false, []⟩, []) := by
  have hspan : spanDigits ((Nat.toDigits 10 n).map some) = (decimalDigits n, []) :=
    spanDigits_map_some fun c hc => Nat.isDigit_of_mem_toDigits (by decide) (by decide) hc
  have hsome : (decimalDigits n).isEmpty = false := by
    simp [decimalDigits, Nat.toDigits_ne_nil]
  have hleading : ¬ ((decimalDigits n).head? = some 0 ∧ 1 < (decimalDigits n).length) := by
    rintro ⟨hhead, hlength⟩
    by_cases hn : n = 0
    · subst hn
      simp [decimalDigits] at hlength
    · exact head?_decimalDigits hn hhead
  unfold numeral?
  simp only [hspan, hsome, Bool.false_or, Bool.and_eq_true, decide_eq_true_eq, hleading, if_false]
  rfl

/-- A digit starts a number without a sign. -/
theorem token?_digit {c : Char} (s : Source) (hc : c.isDigit = true) :
    token? c s = (numeral? false (some c :: s)).map fun (n, r) => (.number n, r) := by
  unfold token?
  split
  case h_12 => rfl
  all_goals exact absurd hc (by decide)

/-- An integer is one token. -/
theorem tokens_intText (i : Int) :
    tokens ((intText i).map some) = [.number (intNumeral i)] := by
  have hdigits := numeral?_decimalDigits (decide (i < 0)) i.natAbs
  -- The sign of a negative number is the first character of the token; otherwise a digit is.
  by_cases hi : i < 0
  · have hfront : token? '-' ((Nat.toDigits 10 i.natAbs).map some) =
        some (.number (intNumeral i), []) := by
      rw [decide_eq_true hi] at hdigits
      rw [token?, hdigits, intNumeral, decide_eq_true hi]
      rfl
    rw [intText, if_pos hi, List.map_append, List.map_cons, List.map_nil, List.cons_append,
      List.nil_append, tokens_cons (by decide) hfront, tokens]
  · rw [decide_eq_false hi] at hdigits
    rw [intText, if_neg hi, List.nil_append]
    cases htext : Nat.toDigits 10 i.natAbs with
    | nil => exact absurd htext Nat.toDigits_ne_nil
    | cons c cs =>
      have hc : c.isDigit = true := by
        apply Nat.isDigit_of_mem_toDigits (b := 10) (n := i.natAbs) (by decide) (by decide)
        simp [htext]
      have hfront : token? c (cs.map some) = some (.number (intNumeral i), []) := by
        rw [htext, List.map_cons] at hdigits
        rw [token?_digit _ hc, hdigits, intNumeral, decide_eq_false hi]
        rfl
      have hspace : isSpace c = false := by
        cases hspace : isSpace c with
        | false => rfl
        | true =>
          simp only [isSpace, Bool.or_eq_true, decide_eq_true_eq] at hspace
          rcases hspace with ((rfl | rfl) | rfl) | rfl <;> exact absurd hc (by decide)
      rw [List.map_cons, tokens_cons hspace hfront, tokens]

/-- An integer of 64 bits, with a sign or without, is read back as an integer. -/
theorem value_intNumeral {i : Int} (hlow : -(maxInt64 + 1) ≤ i) (hhigh : i < UInt64.size) :
    (intNumeral i).value = some (.int i) := by
  have hmax : maxInt64 = 9223372036854775807 := rfl
  have hsize : UInt64.size = 18446744073709551616 := rfl
  -- All of the digits are taken, since the number is small enough.
  have htake : takeDigits 0 (decimalDigits i.natAbs) = (i.natAbs, []) := by
    have h := @takeDigits_eq 0 (decimalDigits i.natAbs)
    rw [foldl_decimalDigits] at h
    exact h (by omega)
  unfold Numeral.value
  simp only [intNumeral, htake, List.isEmpty_nil, Bool.and_self, if_true, Bool.not_true,
    Bool.false_eq_true, if_false]
  by_cases hi : i < 0
  · have habs : ¬ (i.natAbs = 0 ∨ maxInt64 + 1 < (i.natAbs : Int)) := by omega
    have hback : -Int.ofNat i.natAbs = i := by simp only [Int.ofNat_eq_natCast]; omega
    simp only [hi, decide_true, Bool.not_true, Bool.false_eq_true, if_false, habs, hback,
      Bool.or_eq_true, decide_eq_true_eq]
  · have hback : (i.natAbs : Int) = i := by omega
    simp only [hi, decide_false, Bool.not_false, if_true, hback]

end Payroll.Json
