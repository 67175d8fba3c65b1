import Payroll.Proofs.Spelling
import Payroll.Proofs.Token
/-!
# Printed values are read back

The text of a value has the tokens that the value is made of, and their tree has the value. A value can
be read back if its numbers can, no key of an object comes twice, and it nests no deeper than a reader
follows.

## Key results

- `tokens_chars`: the tokens of a value's text, whatever follows it
- `parse?_render`: a value is read back from its text
-/

namespace Payroll.Json

open Payroll.Text (Source)

/-- The source of a value's text is its characters. -/
theorem ofString_render (j : Json) : Source.ofString (render j) = (chars j).map some := by
  simp [render, Source.ofString]

/-! ## Numbers that are read back -/

/-- The number is read back from its own text. -/
def Number.ReadsBack (x : Number) : Prop :=
  parse? (Source.ofString (render (.number x))) = some (.number x)

/-- The parts of a number's text, if it is one token. -/
def numeralOf (x : Number) : Numeral :=
  match tokens ((chars (.number x)).map some) with
  | [.number n] => n
  | _ => ⟨false, [], [], false, []⟩

/-- A tree whose value is a number is the leaf of that number. -/
theorem eq_leaf_of_value?_number {depth : Nat} {t : Tree} {x : Number}
    (h : t.value? depth = some (.number x)) :
    ∃ n : Numeral, t = .leaf (.number n) ∧ n.value = some x := by
  cases t with
  | leaf t =>
    cases t with
    | number n =>
      rw [Tree.value?, Token.value?] at h
      obtain ⟨y, hy, heq⟩ := Option.map_eq_some_iff.mp h
      cases heq
      exact ⟨n, rfl, hy⟩
    | text s =>
      rw [Tree.value?, Token.value?] at h
      obtain ⟨_, _, heq⟩ := Option.map_eq_some_iff.mp h
      cases heq
    | _ => cases h
  | array xs =>
    obtain ⟨-, _, -, heq⟩ := Tree.value?_array_eq_some_iff.mp h
    cases heq
  | object ms =>
    obtain ⟨-, _, -, heq⟩ := Tree.value?_object_eq_some_iff.mp h
    cases heq

/-- The text of a number that is read back is one token, whose value is the number. -/
theorem Number.ReadsBack.spec {x : Number} (h : x.ReadsBack) :
    tokens ((chars (.number x)).map some) = [.number (numeralOf x)] ∧
      (numeralOf x).value = some x := by
  rw [Number.ReadsBack, ofString_render, parse?] at h
  split at h
  · rename_i t htree
    obtain ⟨n, rfl, hvalue⟩ := eq_leaf_of_value?_number h
    obtain ⟨-, htokens⟩ := tree?_eq_some htree
    rw [Tree.tokens, List.append_nil] at htokens
    have hn : numeralOf x = n := by rw [numeralOf, htokens]
    rw [hn]
    exact ⟨htokens, hvalue⟩
  · cases h

/-- Integers of 64 bits are read back. -/
theorem readsBack_int {i : Int} (hlow : -(maxInt64 + 1) ≤ i) (hhigh : i < UInt64.size) :
    (Number.int i).ReadsBack := by
  have htokens : tokens ((chars (.number (.int i))).map some) = [.number (intNumeral i)] := by
    rw [chars]
    exact tokens_intText i
  rw [Number.ReadsBack, ofString_render, parse?, htokens]
  simp [frontTree?, tree?, Tree.value?, Token.value?, value_intNumeral hlow hhigh]

/-! ## The tokens of a value -/

mutual

/-- The tokens that a value is made of. -/
def spelled : Json → List Token
  | .null => [.null]
  | .bool b => [.bool b]
  | .number x => [.number (numeralOf x)]
  | .string s => [.text (some s)]
  | .array [] => [.openArray, .closeArray]
  | .array (x :: xs) => .openArray :: (spelled x ++ spelledItems xs)
  | .object [] => [.openObject, .closeObject]
  | .object ((key, x) :: ms) =>
    .openObject :: .text (some key) :: .colon :: (spelled x ++ spelledMembers ms)

/-- The tokens of the items after the first, and the closing bracket. -/
def spelledItems : List Json → List Token
  | [] => [.closeArray]
  | x :: xs => .comma :: (spelled x ++ spelledItems xs)

/-- The tokens of the members after the first, and the closing brace. -/
def spelledMembers : List (String × Json) → List Token
  | [] => [.closeObject]
  | (key, x) :: ms => .comma :: .text (some key) :: .colon :: (spelled x ++ spelledMembers ms)

end

mutual

/-- The value can be read back by a reader that follows `depth` levels. -/
def Fits (depth : Nat) : Json → Prop
  | .number x => x.ReadsBack
  | .array xs => 0 < depth ∧ ItemsFit (depth - 1) xs
  | .object ms => 0 < depth ∧ (ms.map Prod.fst).Nodup ∧ MembersFit (depth - 1) ms
  | _ => True

/-- All of the items can be read back. -/
def ItemsFit (depth : Nat) : List Json → Prop
  | [] => True
  | x :: xs => Fits depth x ∧ ItemsFit depth xs

/-- The values of all of the members can be read back. -/
def MembersFit (depth : Nat) : List (String × Json) → Prop
  | [] => True
  | (_, x) :: ms => Fits depth x ∧ MembersFit depth ms

end

/-- A key is followed by its colon. -/
theorem tokens_key (key : String) (rest : Source) :
    tokens ((quote key).map some ++ some ':' :: rest) = .text (some key) :: .colon :: tokens rest := by
  rw [tokens_quote, tokens_sign (t := .colon) rfl]

/-- After an item comes a comma or a bracket. -/
theorem endsNumber_itemChars (xs : List Json) (rest : Source) :
    EndsNumber ((itemChars xs).map some ++ rest) := by
  cases xs with
  | nil => exact endsNumber_sign (t := .closeArray) rfl rest
  | cons x xs => exact endsNumber_sign (t := .comma) rfl _

/-- After a member comes a comma or a brace. -/
theorem endsNumber_memberChars (ms : List (String × Json)) (rest : Source) :
    EndsNumber ((memberChars ms).map some ++ rest) := by
  cases ms with
  | nil => exact endsNumber_sign (t := .closeObject) rfl rest
  | cons m ms => exact endsNumber_sign (t := .comma) rfl _

mutual

/-- The text of a value has the tokens of the value, whatever follows it. -/
theorem tokens_chars {depth : Nat} : ∀ (j : Json) {rest : Source}, Fits depth j → EndsNumber rest →
    tokens ((chars j).map some ++ rest) = spelled j ++ tokens rest
  | .null, rest, _, _ => tokens_cons (c := 'n') (by decide) rfl
  | .bool true, rest, _, _ => tokens_cons (c := 't') (by decide) rfl
  | .bool false, rest, _, _ => tokens_cons (c := 'f') (by decide) rfl
  | .number x, rest, h, hrest => by
    have hx := (Number.ReadsBack.spec h).1
    rw [tokens_append (by simp [hx]) hrest, hx]
    rfl
  | .string s, rest, _, _ => tokens_quote s rest
  | .array [], rest, _, _ => by
    change tokens (some '[' :: some ']' :: rest) = _
    rw [tokens_sign (t := .openArray) rfl, tokens_sign (t := .closeArray) rfl]
    rfl
  | .array (x :: xs), rest, h, hrest => by
    have hx := tokens_chars x h.2.1 (endsNumber_itemChars xs rest)
    have hxs := tokens_itemChars xs rest h.2.2
    simp only [chars, spelled, List.map_cons, List.map_append, List.cons_append, List.append_assoc,
      tokens_sign (t := .openArray) rfl, hx, hxs]
  | .object [], rest, _, _ => by
    change tokens (some '\x7b' :: some '\x7d' :: rest) = _
    rw [tokens_sign (t := .openObject) rfl, tokens_sign (t := .closeObject) rfl]
    rfl
  | .object ((key, x) :: ms), rest, h, hrest => by
    have hx := tokens_chars x h.2.2.1 (endsNumber_memberChars ms rest)
    have hms := tokens_memberChars ms rest h.2.2.2
    simp only [chars, spelled, List.map_cons, List.map_append, List.cons_append, List.append_assoc,
      tokens_sign (t := .openObject) rfl, tokens_key, hx, hms]

/-- The items after the first, with the closing bracket. -/
theorem tokens_itemChars {depth : Nat} : ∀ (xs : List Json) (rest : Source), ItemsFit depth xs →
    tokens ((itemChars xs).map some ++ rest) = spelledItems xs ++ tokens rest
  | [], rest, _ => tokens_sign (t := .closeArray) rfl rest
  | x :: xs, rest, h => by
    have hx := tokens_chars x h.1 (endsNumber_itemChars xs rest)
    have hxs := tokens_itemChars xs rest h.2
    simp only [itemChars, spelledItems, List.map_cons, List.map_append, List.cons_append,
      List.append_assoc, tokens_sign (t := .comma) rfl, hx, hxs]

/-- The members after the first, with the closing brace. -/
theorem tokens_memberChars {depth : Nat} : ∀ (ms : List (String × Json)) (rest : Source),
    MembersFit depth ms →
    tokens ((memberChars ms).map some ++ rest) = spelledMembers ms ++ tokens rest
  | [], rest, _ => tokens_sign (t := .closeObject) rfl rest
  | (key, x) :: ms, rest, h => by
    have hx := tokens_chars x h.1 (endsNumber_memberChars ms rest)
    have hms := tokens_memberChars ms rest h.2
    simp only [memberChars, spelledMembers, List.map_cons, List.map_append, List.cons_append,
      List.append_assoc, tokens_sign (t := .comma) rfl, tokens_key, hx, hms]

end

/-! ## The tree of a value -/

mutual

/-- The tree that a value's tokens make. -/
def treeOf : Json → Tree
  | .null => .leaf .null
  | .bool b => .leaf (.bool b)
  | .number x => .leaf (.number (numeralOf x))
  | .string s => .leaf (.text (some s))
  | .array xs => .array (itemTrees xs)
  | .object ms => .object (memberTrees ms)

/-- The trees of the items. -/
def itemTrees : List Json → List Tree
  | [] => []
  | x :: xs => treeOf x :: itemTrees xs

/-- The trees of the members, each under its key. -/
def memberTrees : List (String × Json) → List (Option String × Tree)
  | [] => []
  | (key, x) :: ms => (some key, treeOf x) :: memberTrees ms

end

mutual

/-- The tree of a value is made of the tokens that the value is made of. -/
theorem tokens_treeOf : ∀ j : Json, (treeOf j).tokens = spelled j ∧ (treeOf j).IsSound
  | .null | .bool _ | .number _ | .string _ => ⟨rfl, trivial⟩
  | .array xs => itemTokens_itemTrees xs
  | .object ms => memberTokens_memberTrees ms

theorem itemTokens_itemTrees : ∀ xs : List Json,
    .openArray :: (itemTokens (itemTrees xs) ++ [.closeArray]) = spelled (.array xs) ∧
      ItemsSound (itemTrees xs)
  | [] => ⟨rfl, trivial⟩
  | [x] => by
    obtain ⟨hx, hsound⟩ := tokens_treeOf x
    refine ⟨?_, hsound, trivial⟩
    rw [itemTrees, itemTrees, itemTokens, hx, spelled, spelledItems]
  | x :: y :: ys => by
    obtain ⟨hx, hsound⟩ := tokens_treeOf x
    obtain ⟨hys, hsounds⟩ := itemTokens_itemTrees (y :: ys)
    refine ⟨?_, hsound, hsounds⟩
    rw [itemTrees, spelled] at hys
    rw [itemTrees, itemTrees, itemTokens, hx, spelled, spelledItems, List.append_assoc,
      List.cons_append, (List.cons.inj hys).2]

theorem memberTokens_memberTrees : ∀ ms : List (String × Json),
    .openObject :: (memberTokens (memberTrees ms) ++ [.closeObject]) = spelled (.object ms) ∧
      MembersSound (memberTrees ms)
  | [] => ⟨rfl, trivial⟩
  | [(key, x)] => by
    obtain ⟨hx, hsound⟩ := tokens_treeOf x
    refine ⟨?_, hsound, trivial⟩
    rw [memberTrees, memberTrees, memberTokens, hx, spelled, spelledMembers]
    rfl
  | (key, x) :: (next, y) :: ms => by
    obtain ⟨hx, hsound⟩ := tokens_treeOf x
    obtain ⟨hms, hsounds⟩ := memberTokens_memberTrees ((next, y) :: ms)
    refine ⟨?_, hsound, hsounds⟩
    rw [memberTrees, spelled] at hms
    rw [memberTrees, memberTrees, memberTokens, hx, spelled, spelledMembers, List.cons_append,
      List.cons_append, List.append_assoc, List.cons_append, (List.cons.inj hms).2]

end

/-! ## The value of the tree -/

namespace Members

/-- A new key comes to the end. -/
theorem put_of_not_mem {key : String} (x : Json) {ms : Members} (h : key ∉ ms.map Prod.fst) :
    put key x ms = ms ++ [(key, x)] := by
  induction ms with
  | nil => rfl
  | cons m ms ih =>
    obtain ⟨k, v⟩ := m
    simp only [List.map_cons, List.mem_cons, not_or] at h
    rw [put, if_neg (Ne.symm h.1), ih h.2]
    rfl

/-- Pairs whose keys are new and all differ come to the end one after the other. -/
theorem foldl_put_of_nodup {pairs : List (String × Json)} {ms : Members}
    (h : ((ms ++ pairs).map Prod.fst).Nodup) :
    pairs.foldl (fun ms (key, value) => put key value ms) ms = ms ++ pairs := by
  induction pairs generalizing ms with
  | nil => simp
  | cons pair pairs ih =>
    obtain ⟨key, x⟩ := pair
    have hkey : key ∉ ms.map Prod.fst := by
      intro hmem
      rw [List.map_append, List.nodup_append] at h
      exact h.2.2 key hmem key (by simp) rfl
    have hassoc : ms ++ (key, x) :: pairs = ms ++ [(key, x)] ++ pairs := by simp
    rw [hassoc] at h ⊢
    rw [List.foldl_cons, ← ih h]
    simp only [put_of_not_mem x hkey]

/-- Pairs whose keys all differ are the members of their object. -/
theorem ofList_of_nodup {pairs : List (String × Json)} (h : (pairs.map Prod.fst).Nodup) :
    ofList pairs = pairs :=
  foldl_put_of_nodup h

end Members

mutual

/-- The tree of a value that can be read back has that value. -/
theorem value?_treeOf {depth : Nat} : ∀ (j : Json), Fits depth j → (treeOf j).value? depth = some j
  | .null, _ => rfl
  | .bool _, _ => rfl
  | .number x, h => by
    rw [treeOf, Tree.value?, Token.value?, (Number.ReadsBack.spec h).2]
    rfl
  | .string _, _ => rfl
  | .array xs, h => by
    have hxs := itemValues?_itemTrees xs h.2
    rw [treeOf, Tree.value?, if_neg (by have := h.1; omega), hxs]
    rfl
  | .object ms, h => by
    have hms := memberValues?_memberTrees ms h.2.2
    rw [treeOf, Tree.value?, if_neg (by have := h.1; omega), hms, Option.map_some,
      Members.ofList_of_nodup h.2.1]

theorem itemValues?_itemTrees {depth : Nat} : ∀ (xs : List Json), ItemsFit depth xs →
    itemValues? depth (itemTrees xs) = some xs
  | [], _ => rfl
  | x :: xs, h => by
    have hx := value?_treeOf x h.1
    have hxs := itemValues?_itemTrees xs h.2
    simp [itemTrees, itemValues?, hx, hxs]

theorem memberValues?_memberTrees {depth : Nat} : ∀ (ms : List (String × Json)),
    MembersFit depth ms → memberValues? depth (memberTrees ms) = some ms
  | [], _ => rfl
  | (key, x) :: ms, h => by
    have hx := value?_treeOf x h.1
    have hms := memberValues?_memberTrees ms h.2
    simp [memberTrees, memberValues?, hx, hms]

end

/-- The text of a value that fits the reader has the tokens of the value. -/
theorem tokens_render {j : Json} (h : Fits maxDepth j) :
    tokens (Source.ofString (render j)) = spelled j := by
  have htokens := tokens_chars j h endsNumber_nil
  rwa [List.append_nil, tokens, List.append_nil, ← ofString_render] at htokens

/-- The tree of a value stands at the front of its tokens, whatever follows them. -/
theorem frontTree?_spelled (j : Json) (rest : List Token) :
    frontTree? (spelled j ++ rest) = some (treeOf j, rest) := by
  obtain ⟨htokens, hsound⟩ := tokens_treeOf j
  rw [← htokens]
  exact frontTree?_tokens hsound rest

/-- A value that fits the reader is read back from its text. -/
theorem parse?_render {j : Json} (h : Fits maxDepth j) :
    parse? (Source.ofString (render j)) = some j := by
  have htree := frontTree?_spelled j []
  rw [List.append_nil] at htree
  rw [parse?, tokens_render h, htree]
  exact value?_treeOf j h

end Payroll.Json
