import Mathlib.Data.Nat.Digits.Defs
import Payroll.Proofs.Override
/-!
# Numbers and lists in the text of a variable

A number is read from its digits, a plus before them or none, and blanks around; its value is that of the
digits, however many there are, and it is read only inside its bounds. The items of a list stand between
commas, with blanks and further commas where one likes, and whatever is written between them the same
items are read.

## Key results

- `exists_trimChars`, `trimChars_append`: trimming takes blanks away and nothing else
- `nat64?_eq_some_iff`: the numbers of 64 bits, by their digits
- `natWithin?_iff_isNumeral`: the numbers inside bounds that a text writes
- `items_item_append`: an item is read up to the gap behind it
- `items_inverts`: reading a list and joining its items are inverse
-/

namespace Payroll

namespace Text

variable {cs before after : List Char}

/-! ## Trimming -/

theorem trimEnd_append (h : ∀ c ∈ after, isBlank c = true) (cs : List Char) :
    trimEnd (cs ++ after) = trimEnd cs := by
  rw [trimEnd, List.reverse_append, List.dropWhile_append_of_pos (by simpa using h), trimEnd]

/-- Blanks around a text do not show once it is trimmed. -/
theorem trimChars_append (hbefore : ∀ c ∈ before, isBlank c = true) (hafter : ∀ c ∈ after, isBlank c = true)
    (cs : List Char) : trimChars (before ++ cs ++ after) = trimChars cs := by
  rw [trimChars, List.append_assoc, List.dropWhile_append_of_pos hbefore, List.dropWhile_append]
  split
  · -- All of the text is blank, and so is what follows.
    rename_i hblank
    rw [List.isEmpty_iff] at hblank
    rw [List.dropWhile_eq_nil_iff.mpr hafter, trimChars, hblank]
  · rw [trimEnd_append hafter, trimChars]

/-- Only blanks are taken away from a text that is trimmed. -/
theorem exists_trimChars (cs : List Char) :
    ∃ before after, cs = before ++ trimChars cs ++ after ∧
      (∀ c ∈ before, isBlank c = true) ∧ ∀ c ∈ after, isBlank c = true := by
  have hleft : cs.takeWhile isBlank ++ cs.dropWhile isBlank = cs := List.takeWhile_append_dropWhile
  have hright (ds : List Char) : trimEnd ds ++ (ds.reverse.takeWhile isBlank).reverse = ds := by
    rw [trimEnd, ← List.reverse_append, List.takeWhile_append_dropWhile, List.reverse_reverse]
  refine ⟨cs.takeWhile isBlank, ((cs.dropWhile isBlank).reverse.takeWhile isBlank).reverse, ?_, ?_, ?_⟩
  · rw [trimChars, List.append_assoc, hright, hleft]
  · exact fun c hc => List.mem_takeWhile_imp hc
  · intro c hc
    exact List.mem_takeWhile_imp (List.mem_reverse.mp hc)

/-! ## Whole numbers -/

/-- The value of decimal digits, the most significant one first. -/
def decimalValue (digits : List Char) : Nat :=
  Nat.ofDigits 10 (digits.reverse.map fun c => c.toNat - '0'.toNat)

theorem foldl_digits_eq (cs : List Char) :
    cs.foldl (fun n c => n * 10 + (c.toNat - '0'.toNat)) 0 = decimalValue cs := by
  rw [decimalValue, Nat.ofDigits_eq_foldr, List.foldr_map, List.foldr_reverse]
  simp only [Nat.cast_id, Nat.mul_comm, Nat.add_comm]

theorem isDigit_iff {c : Char} : c.isDigit = true ↔ '0' ≤ c ∧ c ≤ '9' := by
  simp [Char.isDigit, Char.le_def]

/-- Digits are read if there are some and nothing else. -/
theorem digits?_eq_some_iff {n : Nat} :
    digits? cs = some n ↔ cs ≠ [] ∧ (∀ c ∈ cs, '0' ≤ c ∧ c ≤ '9') ∧ decimalValue cs = n := by
  rw [digits?, foldl_digits_eq]
  simp only [← isDigit_iff]
  have hread : (cs.isEmpty || !cs.all Char.isDigit) = false ↔ cs ≠ [] ∧ ∀ c ∈ cs, c.isDigit = true := by
    simp
  cases h : cs.isEmpty || !cs.all Char.isDigit with
  | false =>
    obtain ⟨hne, hdigit⟩ := hread.mp h
    simp only [Bool.false_eq_true, if_false, Option.some.injEq]
    exact ⟨fun hn => ⟨hne, hdigit, hn⟩, fun hn => hn.2.2⟩
  | true =>
    simp only [if_true, reduceCtorEq, false_iff]
    intro ⟨hne, hdigit, _⟩
    rw [hread.mpr ⟨hne, hdigit⟩] at h
    cases h

/-- A plus may stand before the digits of a number, and the number has to fit 64 bits. -/
theorem nat64?_eq_some_iff {s : String} {n : Nat} :
    nat64? s = some n ↔ n < 2 ^ 64 ∧ ∃ sign digits, s.toList = sign ++ digits ∧
      (sign = [] ∨ sign = ['+']) ∧ digits? digits = some n := by
  have hfits (m : Nat) : (if m < UInt64.size then some m else none) = some n ↔ m = n ∧ n < 2 ^ 64 := by
    rw [Option.ite_none_right_eq_some, Option.some.injEq, UInt64.size]
    exact ⟨fun ⟨h, heq⟩ => ⟨heq, heq ▸ h⟩, fun ⟨heq, h⟩ => ⟨heq ▸ h, heq⟩⟩
  constructor
  · intro h
    rw [nat64?] at h
    split at h
    · rename_i cs hs
      obtain ⟨m, hm, hread⟩ := Option.bind_eq_some_iff.mp h
      obtain ⟨rfl, hlt⟩ := (hfits m).mp hread
      exact ⟨hlt, ['+'], cs, hs, .inr rfl, hm⟩
    · obtain ⟨m, hm, hread⟩ := Option.bind_eq_some_iff.mp h
      obtain ⟨rfl, hlt⟩ := (hfits m).mp hread
      exact ⟨hlt, [], s.toList, rfl, .inl rfl, hm⟩
  · rintro ⟨hlt, sign, digits, hs, hsign, hdigits⟩
    rw [nat64?]
    cases hsign with
    | inl hnone =>
      subst hnone
      split
      · -- What starts with a plus are no digits.
        rename_i cs hplus
        have hdigit := (digits?_eq_some_iff.mp hdigits).2.1
        rw [hs, List.nil_append] at hplus
        exact absurd (hdigit '+' (by simp [hplus])) (by decide)
      · rw [hs, List.nil_append]
        exact Option.bind_eq_some_iff.mpr ⟨n, hdigits, (hfits n).mpr ⟨rfl, hlt⟩⟩
    | inr hplus =>
      subst hplus
      simp only [hs, List.cons_append, List.nil_append]
      exact Option.bind_eq_some_iff.mpr ⟨n, hdigits, (hfits n).mpr ⟨rfl, hlt⟩⟩

theorem isBlank_of_digit {c : Char} (h : '0' ≤ c ∧ c ≤ '9') : isBlank c = false := by
  have hleast : 48 ≤ c.toNat := h.1
  have hmost : c.toNat ≤ 57 := h.2
  simp [isBlank, inRanges, blankRanges]
  omega

/-- The text writes a number: blanks, a plus or none, digits of the number, and blanks. -/
structure IsNumeral (text : String) (n : Nat) (before sign digits after : List Char) : Prop where
  text : text.toList = before ++ (sign ++ digits) ++ after
  blank : ∀ c, c ∈ before ∨ c ∈ after → isBlank c = true
  sign : sign = [] ∨ sign = ['+']
  nonempty : digits ≠ []
  digit : ∀ c ∈ digits, '0' ≤ c ∧ c ≤ '9'
  value : decimalValue digits = n

/-- A text that is trimmed reads as a number of 64 bits if the whole text writes it. -/
theorem nat64?_trim_eq_some_iff {text : String} {n : Nat} :
    nat64? (trim text) = some n ↔
      n < 2 ^ 64 ∧ ∃ before sign digits after, IsNumeral text n before sign digits after := by
  rw [nat64?_eq_some_iff, trim, String.toList_ofList]
  refine and_congr_right fun _ => ?_
  constructor
  · rintro ⟨sign, digits, htrim, hsign, hdigits⟩
    obtain ⟨before, after, htext, hbefore, hafter⟩ := exists_trimChars text.toList
    obtain ⟨hne, hdigit, hvalue⟩ := digits?_eq_some_iff.mp hdigits
    exact ⟨before, sign, digits, after, by rw [htext, htrim], fun c hc => hc.elim (hbefore c) (hafter c),
      hsign, hne, hdigit, hvalue⟩
  · rintro ⟨before, sign, digits, after, h⟩
    refine ⟨sign, digits, ?_, h.sign, digits?_eq_some_iff.mpr ⟨h.nonempty, h.digit, h.value⟩⟩
    rw [h.text, trimChars_append (fun c hc => h.blank c (.inl hc)) fun c hc => h.blank c (.inr hc)]
    -- Neither a plus nor a digit is blank.
    have hproper : ∀ c ∈ sign ++ digits, isBlank c = false := by
      intro c hc
      cases List.mem_append.mp hc with
      | inl hc =>
        cases h.sign with
        | inl hnone => simp [hnone] at hc
        | inr hplus =>
          obtain rfl : c = '+' := by simpa [hplus] using hc
          decide
      | inr hc => exact isBlank_of_digit (h.digit c hc)
    exact trimChars_eq_self (fun c hc => hproper c (List.mem_of_mem_head? hc))
      fun c hc => hproper c (List.mem_of_getLast? hc)

end Text

namespace Settings.Variable

open Text (IsNumeral isBlank splitAll trim trimChars)

/-- A number is read from the texts that write it, if it fits 64 bits and is inside the bounds. From all other
texts none is read. -/
theorem natWithin?_iff_isNumeral (text : String) (least most : Nat) :
    (∀ n, natWithin? least most text = some n ↔
      (∃ before sign digits after, IsNumeral text n before sign digits after) ∧
        n < 2 ^ 64 ∧ least ≤ n ∧ n ≤ most) ∧
    (natWithin? least most text = none ↔
      ¬∃ n before sign digits after, IsNumeral text n before sign digits after ∧
        n < 2 ^ 64 ∧ least ≤ n ∧ n ≤ most) := by
  have hread (n : Nat) : natWithin? least most text = some n ↔
      (∃ before sign digits after, IsNumeral text n before sign digits after) ∧
        n < 2 ^ 64 ∧ least ≤ n ∧ n ≤ most := by
    rw [natWithin?_eq_some_iff, Text.nat64?_trim_eq_some_iff]
    constructor
    · exact fun ⟨⟨hlt, hwritten⟩, hbounds⟩ => ⟨hwritten, hlt, hbounds⟩
    · exact fun ⟨hwritten, hlt, hbounds⟩ => ⟨⟨hlt, hwritten⟩, hbounds⟩
  refine ⟨hread, ?_⟩
  rw [Option.eq_none_iff_forall_ne_some]
  constructor
  · intro hnone ⟨n, before, sign, digits, after, h, hbounds⟩
    exact hnone n ((hread n).mpr ⟨⟨before, sign, digits, after, h⟩, hbounds⟩)
  · intro hnone n hn
    obtain ⟨⟨before, sign, digits, after, h⟩, hbounds⟩ := (hread n).mp hn
    exact hnone ⟨n, before, sign, digits, after, h, hbounds⟩

/-- Zeros may stand before a number, as may a plus and blanks. -/
example : natWithin? 1 65535 "\u3000+0065535\t" = some 65535 := by decide

/-- What is too large for 64 bits does not start again at zero. -/
example : natWithin? 0 (2 ^ 64) "18446744073709551616" = none := by decide

/-! ## Lists -/

/-- The text can stand around the items of a list: it is made of commas and blanks. -/
def IsGap (s : String) : Prop :=
  ∀ c ∈ s.toList, c = ',' ∨ isBlank c = true

/-- The text can be an item of a list: there is something in it, no comma, and no blank at either end. -/
structure IsItem (s : String) : Prop where
  nonempty : s ≠ ""
  comma_not_mem : ',' ∉ s.toList
  head : ∀ c ∈ s.toList.head?, isBlank c = false
  last : ∀ c ∈ s.toList.getLast?, isBlank c = false

instance (s : String) : Decidable (IsGap s) :=
  List.decidableBAll (fun c => c = ',' ∨ isBlank c = true) s.toList

instance (s : String) : Decidable (IsItem s) :=
  -- The characters at the two ends are looked at, and not all characters there are.
  haveI (o : Option Char) : Decidable (∀ c ∈ o, isBlank c = false) := Option.decidableForallMem o
  decidable_of_iff (s ≠ "" ∧ ',' ∉ s.toList ∧ (∀ c ∈ s.toList.head?, isBlank c = false) ∧
      ∀ c ∈ s.toList.getLast?, isBlank c = false)
    ⟨fun h => ⟨h.1, h.2.1, h.2.2.1, h.2.2.2⟩, fun h => ⟨h.nonempty, h.comma_not_mem, h.head, h.last⟩⟩

/-- The items of a list are its pieces that are not blank, trimmed. -/
theorem items_ofList (cs : List Char) : items (.ofList cs) =
    ((splitAll ',' cs).map fun piece => trim (.ofList piece)).filter (· != "") := by
  rw [items, String.toList_ofList]

/-- What is read from a list fits between commas. -/
theorem isItem_of_mem_items {v x : String} (h : x ∈ items v) : IsItem x := by
  obtain ⟨hpiece, hne⟩ := List.mem_filter.mp h
  obtain ⟨piece, hmem, rfl⟩ := List.mem_map.mp hpiece
  have htrim : (trim (.ofList piece)).toList = trimChars piece := by
    rw [trim, String.toList_ofList, String.toList_ofList]
  refine ⟨by simpa using hne, ?_, fun c hc => ?_, fun c hc => ?_⟩
  · intro hcomma
    obtain ⟨before, after, hparts, _⟩ := Text.exists_trimChars piece
    rw [htrim] at hcomma
    refine Text.not_mem_of_mem_splitAll hmem ?_
    rw [hparts]
    exact List.mem_append_left _ (List.mem_append_right _ hcomma)
  · exact Text.head_trimChars (htrim ▸ hc)
  · exact Text.getLast_trimChars (htrim ▸ hc)

/-- Nothing is read from a comma or a blank before the rest of a list. -/
theorem items_cons {c : Char} (h : c = ',' ∨ isBlank c = true) (cs : List Char) :
    items (.ofList (c :: cs)) = items (.ofList cs) := by
  rw [items_ofList, items_ofList, splitAll]
  split
  · rfl
  · rename_i hcomma
    have hblank : ∀ d ∈ [c], isBlank d = true := by simpa using h.resolve_left hcomma
    -- The blank goes to the piece that comes first, and is trimmed away there.
    cases hpieces : splitAll ',' cs with
    | nil => exact absurd hpieces (Text.splitAll_ne_nil ',' cs)
    | cons first rest =>
      have htrim : trim (.ofList (c :: first)) = trim (.ofList first) := by
        have h := Text.trimChars_append hblank (List.forall_mem_nil _) first
        rw [List.append_nil, List.singleton_append] at h
        rw [trim, trim, String.toList_ofList, String.toList_ofList, h]
      rw [List.modifyHead_cons, List.map_cons, List.map_cons, htrim]

/-- Nothing is read from a gap before the rest of a list. -/
theorem items_gap_append {gap : List Char} (h : ∀ c ∈ gap, c = ',' ∨ isBlank c = true)
    (rest : List Char) : items (.ofList (gap ++ rest)) = items (.ofList rest) := by
  induction gap with
  | nil => rfl
  | cons c gap ih =>
    obtain ⟨hc, hgap⟩ := List.forall_mem_cons.mp h
    rw [List.cons_append, items_cons hc, ih hgap]

/-- An item is read up to the gap behind it, which ends the list or holds a comma. -/
theorem items_item_append {x gap rest : String} (hx : IsItem x) (hgap : IsGap gap)
    (hend : ',' ∈ gap.toList ∨ rest = "") : items (x ++ gap ++ rest) = x :: items rest := by
  have hchars : x ++ gap ++ rest = .ofList (x.toList ++ (gap.toList ++ rest.toList)) := by
    simp [String.append_assoc]
  have htrim {blanks : List Char} (h : ∀ c ∈ blanks, isBlank c = true) :
      trim (.ofList (x.toList ++ blanks)) = x := by
    have hblanks := Text.trimChars_append (List.forall_mem_nil _) h x.toList
    rw [List.nil_append] at hblanks
    rw [trim, String.toList_ofList, hblanks, Text.trimChars_eq_self hx.head hx.last,
      String.ofList_toList]
  have hblank {cs : List Char} (hsub : cs ⊆ gap.toList) (hcomma : ',' ∉ cs) :
      ∀ c ∈ cs, isBlank c = true :=
    fun c hc => (hgap c (hsub hc)).resolve_left fun heq => hcomma (heq ▸ hc)
  have hnot {cs : List Char} (hcomma : ',' ∉ cs) : ',' ∉ x.toList ++ cs := by
    simp [hx.comma_not_mem, hcomma]
  rw [hchars]
  by_cases hcomma : ',' ∈ gap.toList
  · -- The item and the blanks behind it are the piece before the first comma.
    obtain ⟨blanks, more, hparts, hfirst⟩ := List.eq_append_cons_of_mem hcomma
    have hmore : ∀ c ∈ more, c = ',' ∨ isBlank c = true :=
      fun c hc => hgap c (by simp [hparts, hc])
    have hpiece : x.toList ++ (gap.toList ++ rest.toList) =
        x.toList ++ blanks ++ ',' :: (more ++ rest.toList) := by
      simp [hparts]
    rw [hpiece, items_ofList, Text.splitAll_append_cons (hnot hfirst), List.map_cons,
      htrim (hblank (by simp [hparts]) hfirst), List.filter_cons_of_pos (by simpa using hx.nonempty),
      ← items_ofList, items_gap_append hmore, String.ofList_toList]
  · obtain rfl := hend.resolve_left hcomma
    rw [String.toList_empty, List.append_nil, items_ofList, Text.splitAll_eq_singleton (hnot hcomma),
      List.map_singleton, htrim (hblank (List.Subset.refl _) hcomma),
      List.filter_cons_of_pos (by simpa using hx.nonempty)]
    rfl

/-- Items that are joined, a gap behind each of them, are read again. -/
theorem items_join {parts : List (String × String)} (hparts : ∀ p ∈ parts, IsItem p.1 ∧ IsGap p.2)
    (hcomma : ∀ p ∈ parts.dropLast, ',' ∈ p.2.toList) :
    items (String.join (parts.map fun p => p.1 ++ p.2)) = parts.map Prod.fst := by
  -- Only the last gap may be without a comma, and behind it nothing is left that could join its item.
  induction parts with
  | nil => rfl
  | cons p parts ih =>
    obtain ⟨⟨hx, hgap⟩, hrest⟩ := List.forall_mem_cons.mp hparts
    rw [List.map_cons, String.join_cons]
    cases parts with
    | nil => exact items_item_append hx hgap (.inr rfl)
    | cons q parts =>
      obtain ⟨hhead, htail⟩ := List.forall_mem_cons.mp hcomma
      rw [items_item_append hx hgap (.inl hhead), ih hrest htail]
      rfl

/-- Items that commas alone join are read again. -/
theorem items_intercalate {xs : List String} (h : ∀ x ∈ xs, IsItem x) :
    items (",".intercalate xs) = xs := by
  have hcomma : IsGap "," := by
    intro c hc
    exact .inl (by simpa using hc)
  induction xs with
  | nil => rfl
  | cons x xs ih =>
    obtain ⟨hx, hxs⟩ := List.forall_mem_cons.mp h
    cases xs with
    | nil =>
      -- Behind the last item stands the empty gap.
      have hlast : items (x ++ "" ++ "") = [x] := items_item_append hx (by decide) (.inr rfl)
      rwa [String.append_empty, String.append_empty] at hlast
    | cons y ys =>
      rw [String.intercalate_cons_cons, items_item_append hx hcomma (.inl (by decide)), ih hxs]

/-- The items read from a text, joined by commas, are read again; and whatever gaps stand around items,
with a comma between any two of them, those items are read, in their order. -/
theorem items_inverts :
    (∀ v, (∀ x ∈ items v, IsItem x) ∧ items (",".intercalate (items v)) = items v) ∧
    ∀ (front : String) (parts : List (String × String)), IsGap front →
      (∀ p ∈ parts, IsItem p.1 ∧ IsGap p.2) → (∀ p ∈ parts.dropLast, ',' ∈ p.2.toList) →
      items (front ++ String.join (parts.map fun p => p.1 ++ p.2)) = parts.map Prod.fst := by
  refine ⟨fun v => ⟨fun x => isItem_of_mem_items, items_intercalate fun x => isItem_of_mem_items⟩, ?_⟩
  intro front parts hfront hparts hcomma
  rw [← String.ofList_toList (s := front ++ _), String.toList_append, items_gap_append hfront,
    String.ofList_toList, items_join hparts hcomma]

theorem items_inverts_spaced :
    IsGap " ,\t" ∧
    (∀ p ∈ [("/var/pay roll.db", "\u3000,, "), ("b", "\n")], IsItem p.1 ∧ IsGap p.2) ∧
    (∀ p ∈ [("/var/pay roll.db", "\u3000,, "), ("b", "\n")].dropLast, ',' ∈ p.2.toList) ∧
    items " ,\t/var/pay roll.db\u3000,, b\n" = ["/var/pay roll.db", "b"] := by
  have hfront : IsGap " ,\t" := by decide
  have hparts : ∀ p ∈ [("/var/pay roll.db", "\u3000,, "), ("b", "\n")], IsItem p.1 ∧ IsGap p.2 := by decide
  have hcomma : ∀ p ∈ [("/var/pay roll.db", "\u3000,, "), ("b", "\n")].dropLast, ',' ∈ p.2.toList := by
    decide
  exact ⟨hfront, hparts, hcomma, items_inverts.2 " ,\t" _ hfront hparts hcomma⟩

end Settings.Variable

end Payroll
