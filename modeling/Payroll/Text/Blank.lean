/-!
Blank characters and trimming. Blank means the Unicode property White_Space, so the no-break space
and the ideographic space are blank and the zero-width space is not. Main statements: trimming
leaves no blank at either end, and a text with none there is its own trimming.
-/

namespace Payroll.Text

/-- The ranges of the property White_Space. -/
def blankRanges : List (Nat × Nat) :=
  [(0x09, 0x0D), (0x20, 0x20), (0x85, 0x85), (0xA0, 0xA0), (0x1680, 0x1680), (0x2000, 0x200A),
   (0x2028, 0x2029), (0x202F, 0x202F), (0x205F, 0x205F), (0x3000, 0x3000)]

/-- Some range of the list holds the number. -/
def inRanges (ranges : List (Nat × Nat)) (n : Nat) : Bool :=
  ranges.any fun r => r.1 ≤ n && n ≤ r.2

/-- The character is white space. -/
def isBlank (c : Char) : Bool :=
  inRanges blankRanges c.toNat

/-- The characters without the blanks that end them. -/
def trimEnd (cs : List Char) : List Char :=
  (cs.reverse.dropWhile isBlank).reverse

/-- The characters without the blanks at either end. -/
def trimChars (cs : List Char) : List Char :=
  trimEnd (cs.dropWhile isBlank)

/-- The text without the blanks at either end. -/
def trim (s : String) : String :=
  String.ofList (trimChars s.toList)

/-- Nothing is left of the text once it is trimmed. -/
def isBlankText (s : String) : Bool :=
  s.toList.all isBlank

theorem head_dropWhile_isBlank {cs : List Char} {c : Char}
    (h : (cs.dropWhile isBlank).head? = some c) : isBlank c = false := by
  have := List.head?_dropWhile_not isBlank cs
  rwa [h] at this

theorem dropWhile_isBlank_eq_self {cs : List Char}
    (h : ∀ c, cs.head? = some c → isBlank c = false) : cs.dropWhile isBlank = cs := by
  cases cs with
  | nil => rfl
  | cons c cs => rw [List.dropWhile_cons_of_neg (by simp [h c rfl])]

/-- Where something is left before trailing blanks, it starts as before. -/
theorem head?_trimEnd {cs : List Char} {c : Char} (h : (trimEnd cs).head? = some c) :
    cs.head? = some c := by
  obtain ⟨rest, hr⟩ : trimEnd cs <+: cs := by
    have := List.dropWhile_suffix (l := cs.reverse) isBlank
    rwa [← List.reverse_prefix, List.reverse_reverse] at this
  cases ht : trimEnd cs with
  | nil => simp [ht] at h
  | cons d ds =>
    rw [ht] at h hr
    rw [← hr]
    exact h

/-- A trimmed text starts with no blank. -/
theorem head_trimChars {cs : List Char} {c : Char} (h : (trimChars cs).head? = some c) :
    isBlank c = false :=
  head_dropWhile_isBlank (head?_trimEnd h)

/-- A trimmed text ends with no blank. -/
theorem getLast_trimChars {cs : List Char} {c : Char} (h : (trimChars cs).getLast? = some c) :
    isBlank c = false := by
  rw [trimChars, trimEnd, List.getLast?_reverse] at h
  exact head_dropWhile_isBlank h

/-- A text with no blank at either end is its own trimming. -/
theorem trimChars_eq_self {cs : List Char} (hf : ∀ c, cs.head? = some c → isBlank c = false)
    (hl : ∀ c, cs.getLast? = some c → isBlank c = false) : trimChars cs = cs := by
  rw [trimChars, dropWhile_isBlank_eq_self hf, trimEnd, dropWhile_isBlank_eq_self,
    List.reverse_reverse]
  intro c hc
  exact hl c (by rwa [List.head?_reverse] at hc)

theorem trimChars_trimChars (cs : List Char) : trimChars (trimChars cs) = trimChars cs :=
  trimChars_eq_self (fun _ => head_trimChars) (fun _ => getLast_trimChars)

end Payroll.Text
