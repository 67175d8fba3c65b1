/-!
Taking a text apart at a character. Main statements: the pieces joined by the character are the
text again, and the character stands in none of them.
-/

namespace Payroll.Text

/-- The pieces of a text between the places where a character stands. -/
def splitAll (c : Char) : List Char → List (List Char)
  | [] => [[]]
  | d :: ds =>
    if d = c then [] :: splitAll c ds else (splitAll c ds).modifyHead (d :: ·)

/-- The text before the first place where a character stands, and the text after it if there is
one. -/
def splitFirst (c : Char) (cs : List Char) : List Char × Option (List Char) :=
  match cs.dropWhile (· != c) with
  | [] => (cs, none)
  | _ :: rest => (cs.takeWhile (· != c), some rest)

/-- The text stands somewhere in the characters. -/
def holds (text : List Char) : List Char → Bool
  | [] => text.isEmpty
  | c :: cs => text.isPrefixOf (c :: cs) || holds text cs

theorem splitAll_ne_nil (c : Char) (cs : List Char) : splitAll c cs ≠ [] := by
  induction cs with
  | nil => simp [splitAll]
  | cons d ds ih =>
    simp only [splitAll]
    split
    · simp
    · simpa using ih

/-- No piece holds the character the text was taken apart at. -/
theorem not_mem_of_mem_splitAll {c : Char} {cs piece : List Char} (h : piece ∈ splitAll c cs) :
    c ∉ piece := by
  induction cs generalizing piece with
  | nil => simp_all [splitAll]
  | cons d ds ih =>
    simp only [splitAll] at h
    split at h
    · rcases List.mem_cons.mp h with rfl | h
      · simp
      · exact ih h
    · rename_i hd
      cases hs : splitAll c ds with
      | nil => exact absurd hs (splitAll_ne_nil c ds)
      | cons first rest =>
        simp only [hs, List.modifyHead_cons, List.mem_cons] at h
        rcases h with rfl | h
        · simpa [Ne.symm hd] using ih (by simp [hs])
        · exact ih (by simp [hs, h])

/-- The pieces joined again are the text. -/
theorem intercalate_splitAll (c : Char) (cs : List Char) :
    [c].intercalate (splitAll c cs) = cs := by
  induction cs with
  | nil => rfl
  | cons d ds ih =>
    simp only [splitAll]
    cases hs : splitAll c ds with
    | nil => exact absurd hs (splitAll_ne_nil c ds)
    | cons first rest =>
      split
      · subst d
        simp_all [List.intercalate]
      · cases rest <;> simp_all [List.intercalate]

/-- Up to the first place where the character stands, a text is one piece. -/
theorem splitAll_append_cons {c : Char} {before : List Char} (h : c ∉ before) (after : List Char) :
    splitAll c (before ++ c :: after) = before :: splitAll c after := by
  induction before with
  | nil => simp [splitAll]
  | cons d ds ih =>
    have hd : d ≠ c := fun e => h (by simp [e])
    simp [splitAll, hd, ih fun m => h (List.mem_cons_of_mem d m)]

/-- A text without the character is one piece. -/
theorem splitAll_eq_singleton {c : Char} {cs : List Char} (h : c ∉ cs) : splitAll c cs = [cs] := by
  induction cs with
  | nil => rfl
  | cons d ds ih =>
    have hd : d ≠ c := fun e => h (by simp [e])
    simp [splitAll, hd, ih fun m => h (List.mem_cons_of_mem d m)]

end Payroll.Text
