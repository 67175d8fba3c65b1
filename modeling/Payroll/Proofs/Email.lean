import Mathlib.Data.List.Basic
import Payroll.Text.Email
/-!
# The grammar of e-mail addresses

An address is a local part, an at sign, a host, a point and what comes after it. The check cuts a text at
its first at sign and the domain at its first point, so the parts it looks at are those of the grammar:
no part but the last may hold the character that ends it.

## Key results

- `splitOnce_eq_some_iff`: a text is cut where the character stands first
- `isDomain_iff`: the domains, by their parts
- `isEmail_iff_exists_isAddress`: the texts that pass the check, by their parts
-/

namespace Payroll.Text

/-! ## Cutting a text -/

/-- A text is cut at the first place where the character stands, and nowhere else. -/
theorem splitOnce_eq_some_iff {sep : Char} {cs before after : List Char} :
    splitOnce sep cs = some (before, after) ↔ cs = before ++ sep :: after ∧ sep ∉ before := by
  induction cs generalizing before with
  | nil => simp [splitOnce]
  | cons c cs ih =>
    by_cases hc : c = sep
    · -- The cut is made here, since what comes before it must not hold the character.
      subst hc
      cases before with
      | nil => simp [splitOnce]
      | cons d ds =>
        simp only [splitOnce, if_true, Option.some.injEq, Prod.mk.injEq, List.cons_append,
          List.cons.injEq, List.mem_cons, not_or]
        constructor
        · rintro ⟨h, -⟩
          cases h
        · rintro ⟨⟨rfl, -⟩, h, -⟩
          exact absurd rfl h
    · rw [splitOnce, if_neg hc, Option.map_eq_some_iff]
      constructor
      · rintro ⟨⟨first, rest⟩, hsplit, heq⟩
        cases heq
        obtain ⟨rfl, hfirst⟩ := ih.mp hsplit
        exact ⟨rfl, by simpa [Ne.symm hc] using hfirst⟩
      · rintro ⟨heq, hbefore⟩
        cases before with
        | nil => exact absurd (List.cons.inj heq).1 hc
        | cons d ds =>
          obtain ⟨rfl, rfl⟩ := List.cons.inj heq
          exact ⟨(ds, after), ih.mpr ⟨rfl, fun h => hbefore (List.mem_cons_of_mem _ h)⟩, rfl⟩

/-! ## Domains -/

/-- A domain is a host, a point and what comes after it. The host ends at the first point, and the domain
does not end in one. -/
theorem isDomain_iff {domain : List Char} :
    isDomain domain = true ↔
      '@' ∉ domain ∧ ∃ host rest, domain = host ++ '.' :: rest ∧ '.' ∉ host ∧ host ≠ [] ∧ rest ≠ [] ∧
        rest.getLast? ≠ some '.' := by
  -- Behind a point, a domain ends in a point if nothing comes after it or what comes after it does.
  have hlast (host rest : List Char) :
      (host ++ '.' :: rest).getLast? ≠ some '.' ↔ rest ≠ [] ∧ rest.getLast? ≠ some '.' := by
    cases rest <;> simp [List.getLast?_append]
  constructor
  · intro h
    rw [isDomain] at h
    split at h
    · rename_i host rest hsplit
      obtain ⟨heq, hhost⟩ := splitOnce_eq_some_iff.mp hsplit
      simp only [Bool.and_eq_true, Bool.not_eq_true', List.contains_eq_mem, decide_eq_false_iff_not,
        List.isEmpty_eq_false_iff, bne_iff_ne] at h
      obtain ⟨⟨hat, hne⟩, hend⟩ := h
      rw [heq, hlast] at hend
      exact ⟨hat, host, rest, heq, hhost, hne, hend⟩
    · simp at h
  · rintro ⟨hat, host, rest, heq, hhost, hne, hend⟩
    have hsplit : splitOnce '.' domain = some (host, rest) := splitOnce_eq_some_iff.mpr ⟨heq, hhost⟩
    rw [← hlast host, ← heq] at hend
    simp [isDomain, hsplit, hat, hne, hend]

/-! ## Addresses -/

/-- The text is an e-mail address with these parts. -/
structure IsAddress (e localPart host rest : String) : Prop where
  text : e = localPart ++ "@" ++ host ++ "." ++ rest
  nonempty : localPart ≠ "" ∧ host ≠ "" ∧ rest ≠ ""
  /-- The at sign stands between the local part and the domain only. -/
  at_not_mem : '@' ∉ localPart.toList ∧ '@' ∉ host.toList ∧ '@' ∉ rest.toList
  point_not_mem : '.' ∉ host.toList
  getLast_ne : rest.toList.getLast? ≠ some '.'

/-- The texts that pass the check are those without white space that are made of the parts of an address. -/
theorem isEmail_iff_exists_isAddress (e : String) :
    isEmail e = true ↔
      (∀ c ∈ e.toList, isBlank c = false) ∧
        ∃ localPart host rest, IsAddress e localPart host rest := by
  constructor
  · intro h
    rw [isEmail] at h
    split at h
    · cases h
    · rename_i localPart domain hsplit
      obtain ⟨heq, hlocal⟩ := splitOnce_eq_some_iff.mp hsplit
      simp only [Bool.and_eq_true, Bool.not_eq_true', List.isEmpty_eq_false_iff] at h
      obtain ⟨⟨hne, hdomain⟩, hblank⟩ := h
      obtain ⟨hat, host, rest, rfl, hhost, hhostne, hrest, hlast⟩ := isDomain_iff.mp hdomain
      refine ⟨by simpa using hblank, .ofList localPart, .ofList host, .ofList rest, ?_⟩
      simp only [List.mem_append, List.mem_cons, not_or] at hat
      exact {
        text := String.toList_inj.mp (by simp [heq])
        nonempty := by simp [hne, hhostne, hrest]
        at_not_mem := by simp [hlocal, hat]
        point_not_mem := by simp [hhost]
        getLast_ne := by simpa using hlast }
  · rintro ⟨hblank, localPart, host, rest, h⟩
    have hsplit : splitOnce '@' e.toList =
        some (localPart.toList, host.toList ++ '.' :: rest.toList) :=
      splitOnce_eq_some_iff.mpr ⟨by simp [h.text], h.at_not_mem.1⟩
    have hdomain : isDomain (host.toList ++ '.' :: rest.toList) = true := by
      refine isDomain_iff.mpr ⟨?_, host.toList, rest.toList, rfl, h.point_not_mem, ?_, ?_, h.getLast_ne⟩
      · simp [h.at_not_mem]
      · simpa using h.nonempty.2.1
      · simpa using h.nonempty.2.2
    have hlocal : localPart.toList.isEmpty = false := by simpa using h.nonempty.1
    have hany : e.toList.any isBlank = false := by simpa using hblank
    rw [isEmail, hsplit]
    simp only [hlocal, hdomain, hany, Bool.not_false, Bool.and_self]

end Payroll.Text
