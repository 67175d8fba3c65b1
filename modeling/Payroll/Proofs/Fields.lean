import Payroll.Json.Flat
import Payroll.Proofs.Outcome
import Payroll.Proofs.Spelling
/-!
# Flat objects as trees

A flat object is read from its tokens one by one, and yet only the tree that they make up matters: a field
takes its value from a leaf, a member of an unknown key is passed over whatever it holds, and an array gives
the fields one after the other.

## Key results

- `Field.read_eq_ok_iff`: what a field is read from
- `Layout.readObject_eq_ok_iff`: what a flat object is read from
-/

namespace Payroll.Json

/-! ## One field -/

/-- The value that a tree gives the field. Null is no value where the field is optional. -/
def Field.ofTree? (f : Field) : Tree → Option (Option Scalar)
  | .leaf t =>
    if f.optional = true ∧ t = .null then some none else (t.value?.bind f.kind.ofJson?).map some
  | .array _ | .object _ => none

/-- A token that has a value is a leaf. -/
theorem Token.isLeaf_of_value? {t : Token} {j : Json} (h : t.value? = some j) : t.IsLeaf := by
  cases t with
  | null | bool | number | text => trivial
  | _ => cases h

namespace Field

variable {f : Field} {t : Token} {ts rest : List Token} {v : Option Scalar}

theorem isLeaf_of_ofTree? (h : f.ofTree? (.leaf t) = some v) : t.IsLeaf := by
  rw [ofTree?] at h
  split at h
  · rename_i hnull
    rw [hnull.2]
    trivial
  · obtain ⟨x, hx, -⟩ := Option.map_eq_some_iff.mp h
    obtain ⟨j, hj, -⟩ := Option.bind_eq_some_iff.mp hx
    exact Token.isLeaf_of_value? hj

/-- A field is read from one token. -/
theorem read_cons_eq_ok_iff :
    f.read (t :: ts) = .ok (v, rest) ↔ f.ofTree? (.leaf t) = some v ∧ ts = rest := by
  unfold Field.read
  split
  · rename_i hoptional heq
    cases heq
    simp [ofTree?, hoptional]
  · rename_i hother
    have hnull : ¬ (f.optional = true ∧ t = .null) := by
      rintro ⟨hoptional, rfl⟩
      exact hother _ hoptional rfl
    rw [ofTree?, if_neg hnull, Kind.read]
    cases t.value?.bind f.kind.ofJson? <;> simp [Except.map]

/-- A field is read from the tokens of a tree that gives it its value. -/
theorem read_eq_ok_iff :
    f.read ts = .ok (v, rest) ↔ ∃ x : Tree, x.IsSound ∧ ts = x.tokens ++ rest ∧ f.ofTree? x = some v := by
  constructor
  · intro h
    cases ts with
    | nil =>
      unfold Field.read at h
      split at h
      · rename_i heq
        cases heq
      · cases h
    | cons t ts =>
      obtain ⟨hv, rfl⟩ := read_cons_eq_ok_iff.mp h
      exact ⟨.leaf t, isLeaf_of_ofTree? hv, rfl, hv⟩
  · rintro ⟨x, -, rfl, hv⟩
    cases x with
    | leaf t => exact read_cons_eq_ok_iff.mpr ⟨hv, rfl⟩
    | array | object => cases hv

end Field

/-! ## Members -/

namespace Layout

variable {l : Layout} {o o' : Flat} {ts rest : List Token}

/-- What has been read once a member is read too. One of a known key gives its field, which has to be new; one
of another key is kept, if it has a value, or passed over. -/
def takeMember? (l : Layout) (o : Flat) : Option String × Tree → Option Flat
  | (none, _) => none
  | (some key, x) =>
    match l.fields.find? (·.name == key) with
    | none =>
      if l.keepOthers then
        (x.value? (maxDepth - 1)).map fun v => { o with others := o.others ++ [(key, v)] }
      else some o
    | some f =>
      if key ∈ o.fields.map Prod.fst then none
      else (f.ofTree? x).map fun v => { o with fields := o.fields ++ [(key, v)] }

/-- A member is read from a colon and the tokens of a value that can be taken. -/
theorem readMember_eq_ok_iff {key : String} :
    l.readMember o key ts = .ok (o', rest) ↔ ∃ x : Tree, x.IsSound ∧
      ts = .colon :: (x.tokens ++ rest) ∧ l.takeMember? o (some key, x) = some o' := by
  unfold readMember
  cases hfind : l.fields.find? (·.name == key) with
  | none =>
    simp only [takeMember?, hfind]
    constructor
    · intro h
      split at h
      · rename_i heq
        cases heq
      · split at h
        · cases h
        · rename_i x r hfront
          obtain ⟨hx, rfl⟩ := frontTree?_eq_some_iff.mp hfront
          cases hkeep : l.keepOthers with
          | true =>
            cases hvalue : x.value? (maxDepth - 1) with
            | none => simp [hkeep, hvalue] at h
            | some v =>
              simp only [hkeep, hvalue, if_true, Except.ok.injEq, Prod.mk.injEq] at h
              obtain ⟨rfl, rfl⟩ := h
              exact ⟨x, hx, rfl, by simp [hvalue]⟩
          | false =>
            simp only [hkeep, Bool.false_eq_true, if_false, Except.ok.injEq, Prod.mk.injEq] at h
            obtain ⟨rfl, rfl⟩ := h
            exact ⟨x, hx, rfl, rfl⟩
      · cases h
    · rintro ⟨x, hx, rfl, h⟩
      cases hkeep : l.keepOthers with
      | true =>
        rw [if_pos hkeep] at h
        obtain ⟨v, hv, rfl⟩ := Option.map_eq_some_iff.mp h
        simp [frontTree?_tokens hx, hv]
      | false =>
        rw [if_neg (by simp [hkeep])] at h
        cases h
        simp [frontTree?_tokens hx]
  | some f =>
    simp only [takeMember?, hfind]
    have hany : o.fields.any (·.1 == key) = true ↔ key ∈ o.fields.map Prod.fst := by simp
    by_cases hmet : key ∈ o.fields.map Prod.fst
    · simp [hany.mpr hmet, hmet]
    · rw [if_neg (fun h => hmet (hany.mp h))]
      simp only [hmet, if_false]
      constructor
      · intro h
        split at h
        · obtain ⟨⟨v, r⟩, hread, heq⟩ := map_eq_ok_iff.mp h
          cases heq
          obtain ⟨x, hx, rfl, hv⟩ := Field.read_eq_ok_iff.mp hread
          exact ⟨x, hx, rfl, by rw [hv]; rfl⟩
        · cases h
      · rintro ⟨x, hx, rfl, h⟩
        obtain ⟨v, hv, rfl⟩ := Option.map_eq_some_iff.mp h
        exact map_eq_ok_iff.mpr ⟨(v, rest), Field.read_eq_ok_iff.mpr ⟨x, hx, rfl, hv⟩, rfl⟩

theorem length_le_memberTokens (ms : List (Option String × Tree)) :
    ms.length ≤ (memberTokens ms).length := by
  induction ms with
  | nil => simp [memberTokens]
  | cons m ms ih =>
    obtain ⟨key, x⟩ := m
    cases ms with
    | nil => simp [memberTokens]
    | cons m ms =>
      simp only [memberTokens, List.length_cons, List.length_append] at ih ⊢
      omega

/-- Members are read from their tokens and a closing brace, if one after the other can be taken. -/
theorem exists_of_readMembers {fuel : Nat}
    (h : l.readMembers fuel o ts = .ok (o', rest)) :
    ∃ ms, ms ≠ [] ∧ MembersSound ms ∧ ts = memberTokens ms ++ .closeObject :: rest ∧
      ms.foldlM l.takeMember? o = some o' := by
  -- The first member is read, and then the others from where it has come to.
  fun_induction readMembers l fuel o ts with
  | case1 | case2 | case5 | case6 => cases h
  | case3 fuel o key ts o₁ r hmember =>
    cases h
    obtain ⟨x, hx, rfl, htaken⟩ := readMember_eq_ok_iff.mp hmember
    refine ⟨[(some key, x)], by simp, ⟨hx, trivial⟩, rfl, ?_⟩
    simp [htaken]
  | case4 fuel o key ts o₁ r hmember ih =>
    obtain ⟨x, hx, rfl, htaken⟩ := readMember_eq_ok_iff.mp hmember
    obtain ⟨ms, hne, hms, rfl, hfold⟩ := ih h
    refine ⟨(some key, x) :: ms, by simp, ⟨hx, hms⟩, ?_, by simp [htaken, hfold]⟩
    cases ms with
    | nil => exact absurd rfl hne
    | cons m ms => simp [memberTokens]

theorem readMembers_of_foldlM {fuel : Nat}
    {ms : List (Option String × Tree)} (hne : ms ≠ []) (hms : MembersSound ms)
    (hfuel : ms.length ≤ fuel) (h : ms.foldlM l.takeMember? o = some o') (rest : List Token) :
    l.readMembers fuel o (memberTokens ms ++ .closeObject :: rest) = .ok (o', rest) := by
  -- By induction on the members, each of which takes one step.
  induction ms generalizing o fuel with
  | nil => exact absurd rfl hne
  | cons m ms ih =>
    obtain ⟨fuel, rfl⟩ : ∃ n, fuel = n + 1 := ⟨fuel - 1, by simp at hfuel; omega⟩
    obtain ⟨key, x⟩ := m
    rw [List.foldlM_cons] at h
    obtain ⟨o₁, htaken, hfold⟩ := Option.bind_eq_some_iff.mp h
    obtain ⟨key, rfl⟩ : ∃ name, key = some name := by
      cases key with
      | none => cases htaken
      | some key => exact ⟨key, rfl⟩
    have hmember (after : List Token) :
        l.readMember o key (.colon :: (x.tokens ++ after)) = .ok (o₁, after) :=
      readMember_eq_ok_iff.mpr ⟨x, hms.1, rfl, htaken⟩
    cases ms with
    | nil =>
      cases hfold
      simp only [memberTokens, List.cons_append, readMembers, hmember]
    | cons m ms =>
      have hrest := ih (by simp) hms.2 (Nat.le_of_succ_le_succ hfuel) hfold
      simp only [memberTokens, List.cons_append, List.append_assoc, readMembers, hmember, hrest]

/-- An object is read from the tokens of its members, if one after the other can be taken. -/
theorem readObject_openObject_iff :
    l.readObject (.openObject :: ts) = .ok (o, rest) ↔ ∃ ms, MembersSound ms ∧
      .openObject :: ts = (Tree.object ms).tokens ++ rest ∧
      ms.foldlM l.takeMember? ⟨[], []⟩ = some o := by
  have hopen (ms : List (Option String × Tree)) :
      .openObject :: ts = (Tree.object ms).tokens ++ rest ↔ ts = memberTokens ms ++ .closeObject :: rest := by
    simp [Tree.tokens]
  simp only [hopen]
  constructor
  · intro h
    unfold readObject at h
    split at h
    · rename_i heq
      cases heq
    · rename_i heq
      cases heq
      cases h
      exact ⟨[], trivial, rfl, rfl⟩
    · rename_i heq
      cases heq
      obtain ⟨ms, -, hms, hts, hfold⟩ := exists_of_readMembers h
      exact ⟨ms, hms, hts, hfold⟩
    · rename_i heq
      cases heq
    · rename_i heq
      cases heq
      cases h
  · rintro ⟨ms, hms, rfl, hfold⟩
    cases ms with
    | nil =>
      cases hfold
      rfl
    | cons m ms =>
      obtain ⟨key, x⟩ := m
      have hlength := length_le_memberTokens ((key, x) :: ms)
      have hread (fuel : Nat) (hfuel : (memberTokens ((key, x) :: ms)).length ≤ fuel) :=
        readMembers_of_foldlM (by simp) hms (Nat.le_trans hlength hfuel) hfold rest
      -- Members begin with a key, so the object is not taken for an empty one.
      obtain ⟨more, hmore⟩ := memberTokens_cons key x ms
      rw [hmore] at hread ⊢
      exact hread _ (by simp)

/-! ## Items -/

/-- What has been read once trees are read as the values of fields, one for each field. -/
def takeItems? (o : Flat) : List Field → List Tree → Option Flat
  | [], [] => some o
  | f :: fs, x :: xs =>
    (f.ofTree? x).bind fun v => takeItems? { o with fields := o.fields ++ [(f.name, v)] } fs xs
  | _, _ => none

/-- The value of the first field is read, after a comma unless it is the first of all, and then those of the
others. -/
theorem readItems_cons_eq_ok_iff {start : Bool} {f : Field} {fs : List Field} :
    readItems start o (f :: fs) ts = .ok (o', rest) ↔
      ∃ r v after, ts = (if start = true then r else .comma :: r) ∧ f.read r = .ok (v, after) ∧
        readItems false { o with fields := o.fields ++ [(f.name, v)] } fs after = .ok (o', rest) := by
  have hclose (r after : List Token) (v : Option Scalar) : f.read (.closeArray :: r) ≠ .ok (v, after) := by
    intro h
    exact Field.isLeaf_of_ofTree? (Field.read_cons_eq_ok_iff.mp h).1
  constructor
  · intro h
    unfold readItems at h
    split at h
    case h_1 | h_2 | h_3 => simp_all
    case h_4 f' fs' heq hother =>
      cases heq
      dsimp only at h
      split at h
      · cases h
      · rename_i r hvalue
        split at h
        · cases h
        · rename_i v after hread
          refine ⟨r, v, after, ?_, hread, h⟩
          split at hvalue <;> simp_all
  · rintro ⟨r, v, after, rfl, hread, hrest⟩
    have hr (tail : List Token) : r ≠ .closeArray :: tail := by
      rintro rfl
      exact hclose tail after v hread
    -- What the value is read from does not begin with a closing bracket, nor does the comma before it.
    have hopen (tail : List Token) : (if start = true then r else .comma :: r) ≠ .closeArray :: tail := by
      cases start with
      | true => exact hr tail
      | false => simp
    unfold readItems
    split
    case h_1 | h_2 => simp_all
    case h_3 heq => exact absurd heq (hopen _)
    case h_4 f' fs' heq hother =>
      cases heq
      cases start with
      | true => simp only [if_true, hread, hrest]
      | false => simp [hread, hrest]

/-- The tokens of items, with a comma before each but the first of all. -/
def commaTokens (start : Bool) : List Tree → List Token
  | [] => []
  | x :: xs => (if start = true then x.tokens else .comma :: x.tokens) ++ commaTokens false xs

theorem commaTokens_true (xs : List Tree) : commaTokens true xs = itemTokens xs := by
  induction xs with
  | nil => simp [commaTokens, itemTokens]
  | cons x xs ih =>
    cases xs with
    | nil => simp [commaTokens, itemTokens]
    | cons y xs =>
      rw [itemTokens, ← ih]
      simp [commaTokens]

/-- Items are read from their tokens and a closing bracket, if each is a value of its field. -/
theorem readItems_eq_ok_iff {start : Bool} {fs : List Field} :
    readItems start o fs ts = .ok (o', rest) ↔ ∃ xs, ItemsSound xs ∧
      ts = commaTokens start xs ++ .closeArray :: rest ∧ takeItems? o fs xs = some o' := by
  -- By induction on the fields, each of which takes one item; only the first item has no comma.
  induction fs generalizing start o ts with
  | nil =>
    constructor
    · intro h
      unfold readItems at h
      split at h
      case h_1 =>
        cases h
        exact ⟨[], trivial, rfl, rfl⟩
      case h_2 => cases h
      case h_3 | h_4 => simp_all
    · rintro ⟨xs, -, rfl, htaken⟩
      cases xs with
      | nil =>
        cases htaken
        rfl
      | cons x xs => cases htaken
  | cons f fs ih =>
    rw [readItems_cons_eq_ok_iff]
    constructor
    · rintro ⟨r, v, after, rfl, hread, hrest⟩
      obtain ⟨x, hx, rfl, hv⟩ := Field.read_eq_ok_iff.mp hread
      obtain ⟨xs, hxs, rfl, htaken⟩ := ih.mp hrest
      refine ⟨x :: xs, ⟨hx, hxs⟩, ?_, by rw [takeItems?, hv]; exact htaken⟩
      cases start <;> simp [commaTokens]
    · rintro ⟨xs, hxs, rfl, htaken⟩
      cases xs with
      | nil => cases htaken
      | cons x xs =>
        obtain ⟨v, hv, htaken⟩ := Option.bind_eq_some_iff.mp htaken
        refine ⟨x.tokens ++ (commaTokens false xs ++ .closeArray :: rest), v, _, ?_,
          Field.read_eq_ok_iff.mpr ⟨x, hxs.1, rfl, hv⟩, ih.mpr ⟨xs, hxs.2, rfl, htaken⟩⟩
        cases start <;> simp [commaTokens]

/-! ## The whole -/

/-- The flat object that a tree gives. -/
def ofTree? (l : Layout) : Tree → Option Flat
  | .leaf _ => none
  | .array xs => if l.positional then takeItems? ⟨[], []⟩ l.fields xs else none
  | .object ms => ms.foldlM l.takeMember? ⟨[], []⟩

/-- A flat object is read from the tokens of a tree that gives it. -/
theorem readObject_eq_ok_iff :
    l.readObject ts = .ok (o, rest) ↔
      ∃ x : Tree, x.IsSound ∧ ts = x.tokens ++ rest ∧ l.ofTree? x = some o := by
  constructor
  · intro h
    cases ts with
    | nil => cases h
    | cons t ts =>
      cases t with
      | openObject =>
        obtain ⟨ms, hms, hts, hfold⟩ := readObject_openObject_iff.mp h
        exact ⟨.object ms, hms, hts, hfold⟩
      | openArray =>
        rw [readObject] at h
        split at h
        · rename_i hpositional
          obtain ⟨xs, hxs, rfl, htaken⟩ := readItems_eq_ok_iff.mp h
          rw [commaTokens_true]
          exact ⟨.array xs, hxs, by simp [Tree.tokens], by rw [ofTree?, if_pos hpositional, htaken]⟩
        · cases h
      | _ => cases h
  · rintro ⟨x, hx, rfl, hgive⟩
    cases x with
    | leaf t => cases hgive
    | array xs =>
      rw [ofTree?] at hgive
      split at hgive
      · rename_i hpositional
        have hitems : readItems true ⟨[], []⟩ l.fields _ = .ok (o, rest) :=
          readItems_eq_ok_iff.mpr ⟨xs, hx, rfl, hgive⟩
        rw [commaTokens_true] at hitems
        simp [Tree.tokens, readObject, hpositional, hitems]
      · cases hgive
    | object ms => exact readObject_openObject_iff.mpr ⟨ms, hx, rfl, hgive⟩

end Layout

end Payroll.Json
