import Payroll.Json.Tree
/-!
# The tokens of trees

A tree is made of tokens: its leaves, and the brackets, commas and colons between them. The tokens of a tree
are read as the tree, whatever follows them, and what is read as a tree was its tokens.

## Key results

- `tree?_tokens`: a tree is read from its tokens
- `tree?_eq_some`: what a tree was read from
-/

namespace Payroll.Json

/-! ## Trees as tokens -/

mutual

/-- The tokens that a tree is made of. -/
def Tree.tokens : Tree → List Token
  | .leaf t => [t]
  | .array xs => .openArray :: (itemTokens xs ++ [.closeArray])
  | .object ms => .openObject :: (memberTokens ms ++ [.closeObject])

/-- The tokens of items, with commas between them. -/
def itemTokens : List Tree → List Token
  | [] => []
  | [x] => x.tokens
  | x :: y :: xs => x.tokens ++ .comma :: itemTokens (y :: xs)

/-- The tokens of members, with commas between them. -/
def memberTokens : List (Option String × Tree) → List Token
  | [] => []
  | [(key, x)] => .text key :: .colon :: x.tokens
  | (key, x) :: m :: ms => .text key :: .colon :: (x.tokens ++ .comma :: memberTokens (m :: ms))

end

/-- The token is a value by itself, or would be if it could be told. -/
def Token.IsLeaf : Token → Prop
  | .null | .bool _ | .number _ | .text _ => True
  | _ => False

mutual

/-- The leaves of the tree are tokens that are values. -/
def Tree.IsSound : Tree → Prop
  | .leaf t => t.IsLeaf
  | .array xs => ItemsSound xs
  | .object ms => MembersSound ms

def ItemsSound : List Tree → Prop
  | [] => True
  | x :: xs => x.IsSound ∧ ItemsSound xs

def MembersSound : List (Option String × Tree) → Prop
  | [] => True
  | (_, x) :: ms => x.IsSound ∧ MembersSound ms

end

/-- A tree starts with a leaf or with a bracket that opens it. -/
theorem Tree.tokens_head (x : Tree) (h : x.IsSound) :
    ∃ t ts, x.tokens = t :: ts ∧ t ≠ .closeArray ∧ t ≠ .closeObject := by
  cases x with
  | leaf t => exact ⟨t, [], rfl, by rintro rfl; exact h, by rintro rfl; exact h⟩
  | array xs => exact ⟨_, _, by rw [Tree.tokens], by simp⟩
  | object ms => exact ⟨_, _, by rw [Tree.tokens], by simp⟩

theorem Tree.one_le_length_tokens (x : Tree) : 1 ≤ x.tokens.length := by
  cases x <;> simp [Tree.tokens]

/-- The tokens of items start with those of the first. -/
theorem itemTokens_cons (x : Tree) (xs : List Tree) : ∃ more, itemTokens (x :: xs) = x.tokens ++ more := by
  cases xs with
  | nil => exact ⟨[], by rw [itemTokens, List.append_nil]⟩
  | cons y xs => exact ⟨_, by rw [itemTokens]⟩

/-- The tokens of members start with a key. -/
theorem memberTokens_cons (key : Option String) (x : Tree) (ms : List (Option String × Tree)) :
    ∃ more, memberTokens ((key, x) :: ms) = .text key :: .colon :: (x.tokens ++ more) := by
  cases ms with
  | nil => exact ⟨[], by rw [memberTokens, List.append_nil]⟩
  | cons m ms => exact ⟨_, by rw [memberTokens]⟩

/-! ## Tokens as trees -/

mutual

/-- The tokens of a tree are read as the tree, whatever follows them. -/
theorem tree?_tokens : ∀ (x : Tree) (fuel : Nat) (rest : List Token), x.IsSound →
    2 * x.tokens.length ≤ fuel → tree? fuel (x.tokens ++ rest) = some (x, rest)
  | x, 0, rest, _, hfuel => by
    have := x.one_le_length_tokens
    omega
  | .leaf t, fuel + 1, rest, h, _ => by
    cases t with
    | null | bool _ | number _ | text _ => rfl
    | _ => exact h.elim
  | .array [], fuel + 1, rest, _, _ => rfl
  | .array (x :: xs), fuel + 1, rest, h, hfuel => by
    simp only [Tree.tokens, List.length_cons, List.length_append, List.length_nil] at hfuel
    have hitems := items?_itemTokens x xs fuel rest h (by omega)
    -- No value begins with a closing bracket, so the array is not taken for an empty one.
    obtain ⟨t, ts, hx, ht, -⟩ := x.tokens_head h.1
    obtain ⟨more, hmore⟩ := itemTokens_cons x xs
    simp only [hmore, hx, List.cons_append] at hitems
    simp only [Tree.tokens, hmore, hx, List.cons_append, List.append_assoc, List.nil_append,
      tree?] at hitems ⊢
    rw [hitems]
    split
    · rename_i heq
      exact absurd (List.cons.inj heq).1 ht
    · rfl
  | .object [], fuel + 1, rest, _, _ => rfl
  | .object ((key, x) :: ms), fuel + 1, rest, h, hfuel => by
    simp only [Tree.tokens, List.length_cons, List.length_append, List.length_nil] at hfuel
    have hmembers := members?_memberTokens key x ms fuel rest h (by omega)
    obtain ⟨more, hmore⟩ := memberTokens_cons key x ms
    simp only [Tree.tokens, hmore, List.cons_append, List.append_assoc, List.nil_append,
      tree?] at hmembers ⊢
    rw [hmembers]
    rfl

/-- The tokens of items are read as the items. -/
theorem items?_itemTokens : ∀ (x : Tree) (xs : List Tree) (fuel : Nat) (rest : List Token),
    ItemsSound (x :: xs) → 2 * (itemTokens (x :: xs)).length + 1 ≤ fuel →
    items? fuel (itemTokens (x :: xs) ++ .closeArray :: rest) = some (x :: xs, rest)
  | x, xs, 0, rest, _, hfuel => by omega
  | x, [], fuel + 1, rest, h, hfuel => by
    have hx := tree?_tokens x fuel (.closeArray :: rest) h.1 (by rw [itemTokens] at hfuel; omega)
    rw [items?, itemTokens, hx]
  | x, y :: ys, fuel + 1, rest, h, hfuel => by
    simp only [itemTokens, List.length_cons, List.length_append] at hfuel
    have hx := tree?_tokens x fuel (.comma :: (itemTokens (y :: ys) ++ .closeArray :: rest)) h.1
      (by omega)
    have hys := items?_itemTokens y ys fuel rest h.2 (by omega)
    rw [items?, itemTokens, List.append_assoc, List.cons_append, hx]
    simp only [hys, Option.map_some]

/-- The tokens of members are read as the members. -/
theorem members?_memberTokens : ∀ (key : Option String) (x : Tree)
    (ms : List (Option String × Tree)) (fuel : Nat) (rest : List Token),
    MembersSound ((key, x) :: ms) → 2 * (memberTokens ((key, x) :: ms)).length + 1 ≤ fuel →
    members? fuel (memberTokens ((key, x) :: ms) ++ .closeObject :: rest) =
      some ((key, x) :: ms, rest)
  | key, x, ms, 0, rest, _, hfuel => by omega
  | key, x, [], fuel + 1, rest, h, hfuel => by
    simp only [memberTokens, List.length_cons] at hfuel
    have hx := tree?_tokens x fuel (.closeObject :: rest) h.1 (by omega)
    simp only [memberTokens, List.cons_append, members?, hx]
  | key, x, (next, y) :: ms, fuel + 1, rest, h, hfuel => by
    simp only [memberTokens, List.length_cons, List.length_append] at hfuel
    have hx := tree?_tokens x fuel (.comma :: (memberTokens ((next, y) :: ms) ++ .closeObject :: rest))
      h.1 (by omega)
    have hms := members?_memberTokens next y ms fuel rest h.2 (by omega)
    simp only [memberTokens, List.cons_append, List.append_assoc, members?, hx, hms, Option.map_some]

end

/-- A tree stands at the front of its tokens, whatever follows them. -/
theorem frontTree?_tokens {x : Tree} (h : x.IsSound) (rest : List Token) :
    frontTree? (x.tokens ++ rest) = some (x, rest) := by
  rw [frontTree?]
  exact tree?_tokens x _ rest h (by rw [List.length_append]; omega)

mutual

/-- What is read as a tree was its tokens, and the rest. -/
theorem tree?_eq_some : ∀ {fuel : Nat} {ts rest : List Token} {x : Tree},
    tree? fuel ts = some (x, rest) → x.IsSound ∧ ts = x.tokens ++ rest
  | 0, _, _, _, h => by cases h
  | _ + 1, [], _, _, h => by cases h
  | fuel + 1, t :: ts, rest, x, h => by
    unfold tree? at h
    split at h
    case h_1 | h_2 | h_3 | h_4 =>
      cases h
      exact ⟨trivial, rfl⟩
    case h_5 =>
      split at h
      · cases h
        exact ⟨trivial, rfl⟩
      · obtain ⟨⟨xs, r⟩, hitems, heq⟩ := Option.map_eq_some_iff.mp h
        cases heq
        obtain ⟨hsound, -, rfl⟩ := items?_eq_some hitems
        exact ⟨hsound, by simp [Tree.tokens]⟩
    case h_6 =>
      split at h
      · cases h
        exact ⟨trivial, rfl⟩
      · obtain ⟨⟨ms, r⟩, hmembers, heq⟩ := Option.map_eq_some_iff.mp h
        cases heq
        obtain ⟨hsound, -, rfl⟩ := members?_eq_some hmembers
        exact ⟨hsound, by simp [Tree.tokens]⟩
    case h_7 => cases h

/-- What is read as items was their tokens and a closing bracket. -/
theorem items?_eq_some : ∀ {fuel : Nat} {ts rest : List Token} {xs : List Tree},
    items? fuel ts = some (xs, rest) →
      ItemsSound xs ∧ xs ≠ [] ∧ ts = itemTokens xs ++ .closeArray :: rest
  | 0, _, _, _, h => by cases h
  | fuel + 1, ts, rest, xs, h => by
    unfold items? at h
    split at h
    · rename_i x r htree
      cases h
      obtain ⟨hx, rfl⟩ := tree?_eq_some htree
      exact ⟨⟨hx, trivial⟩, by simp, rfl⟩
    · rename_i x r htree
      obtain ⟨⟨ys, r'⟩, hitems, heq⟩ := Option.map_eq_some_iff.mp h
      cases heq
      obtain ⟨hx, rfl⟩ := tree?_eq_some htree
      obtain ⟨hys, hne, rfl⟩ := items?_eq_some hitems
      refine ⟨⟨hx, hys⟩, by simp, ?_⟩
      cases ys with
      | nil => exact absurd rfl hne
      | cons y ys => simp [itemTokens]
    · cases h

/-- What is read as members was their tokens and a closing brace. -/
theorem members?_eq_some : ∀ {fuel : Nat} {ts rest : List Token} {ms : List (Option String × Tree)},
    members? fuel ts = some (ms, rest) →
      MembersSound ms ∧ ms ≠ [] ∧ ts = memberTokens ms ++ .closeObject :: rest
  | 0, _, _, _, h => by cases h
  | fuel + 1, ts, rest, ms, h => by
    unfold members? at h
    split at h
    · split at h
      · rename_i x r htree
        cases h
        obtain ⟨hx, rfl⟩ := tree?_eq_some htree
        exact ⟨⟨hx, trivial⟩, by simp, rfl⟩
      · rename_i x r htree
        obtain ⟨⟨ms', r'⟩, hmembers, heq⟩ := Option.map_eq_some_iff.mp h
        cases heq
        obtain ⟨hx, rfl⟩ := tree?_eq_some htree
        obtain ⟨hms, hne, rfl⟩ := members?_eq_some hmembers
        refine ⟨⟨hx, hms⟩, by simp, ?_⟩
        cases ms' with
        | nil => exact absurd rfl hne
        | cons m ms' => simp [memberTokens]
      · cases h
    · cases h

end

/-- A tree stands at the front of tokens exactly if they are its own and the rest. -/
theorem frontTree?_eq_some_iff {ts rest : List Token} {x : Tree} :
    frontTree? ts = some (x, rest) ↔ x.IsSound ∧ ts = x.tokens ++ rest := by
  constructor
  · exact tree?_eq_some
  · rintro ⟨h, rfl⟩
    exact frontTree?_tokens h rest

end Payroll.Json
