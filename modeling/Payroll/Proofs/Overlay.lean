import Payroll.Proofs.Merge
/-!
# Merged values along paths

A value that is merged over another one decides what is found at the end of a path wherever it has a leaf
there, and leaves alone what lies behind a key that it lacks or holds null under. Merged over itself, or
over what it has been merged over before, it changes nothing.

## Key results

- `isDistinct_of_value?`: in what is read from a text no object has a key twice
- `at?_merge_of_leaf`, `at?_merge_of_lacking`: what a merged value has at the end of a path
- `merge_self`, `merge_merge`: merging once more changes nothing
- `mergesByPath`: all of these together
-/

namespace Payroll.Json

/-! ## Keys that come once -/

/-- No object that a path leads to has a key twice. -/
def IsDistinct (j : Json) : Prop :=
  ∀ path (ms : Members), j.at? path = some (.object ms) → (ms.map Prod.fst).Nodup

/-- What is read from a text is distinct, also where the text has a key twice. -/
theorem isDistinct_of_value? {depth : Nat} {t : Tree} {j : Json} (h : t.value? depth = some j) :
    j.IsDistinct := by
  intro path ms hat
  rw [at?_of_value? path h (Nat.le_refl depth)] at hat
  obtain ⟨x, -, hx⟩ := Option.bind_eq_some_iff.mp hat
  obtain ⟨members, pairs, -, -, rfl⟩ := members_of_value? hx
  exact Members.nodup_ofList pairs

/-- An object's own keys all differ. -/
theorem IsDistinct.nodup {ms : Members} (h : (Json.object ms).IsDistinct) : (ms.map Prod.fst).Nodup :=
  h [] ms rfl

/-- So do those of what it has under a key. -/
theorem IsDistinct.of_get? {j v : Json} {key : String} (h : j.IsDistinct) (hv : j.get? key = some v) :
    v.IsDistinct := by
  intro path ms hat
  apply h (key :: path) ms
  rw [at?, hv]
  exact hat

namespace Members

/-- Putting what is there already changes nothing. -/
theorem put_of_get? {ms : Members} {key : String} {v : Json} (h : get? ms key = some v) :
    put key v ms = ms := by
  induction ms with
  | nil => cases h
  | cons m ms ih =>
    obtain ⟨k, w⟩ := m
    rw [get?_cons] at h
    rw [put]
    by_cases hk : key = k
    · rw [if_pos hk] at h
      rw [if_pos hk.symm, Option.some.inj h]
    · rw [if_neg hk] at h
      rw [if_neg (Ne.symm hk), ih h]

end Members

/-! ## Along a path -/

/-- The value is a scalar other than null, or an array. -/
def IsLeaf (v : Json) : Prop :=
  v.isNull = false ∧ ∀ ms, v ≠ .object ms

/-- A path that leads through a value to something that is not null does not start at null. -/
theorem isNull_of_at? {path : List String} {j v : Json} (h : j.at? path = some v)
    (hv : v.isNull = false) : j.isNull = false := by
  cases j with
  | null =>
    cases path with
    | nil => cases h; exact hv
    | cons key path => cases h
  | _ => rfl

/-- A value on top that is not null stands for itself where nothing is below it, and else is merged. -/
theorem layer_of_ne_null {below : Option Json} {v : Json} (hv : v.isNull = false) :
    layer below (some v) = some (below.elim v fun old => merge old v) := by
  cases v with
  | null => cases hv
  | _ => cases below <;> rfl

/-- Over a value that is no object, or one with nothing under its key, the path goes on in what is on top. -/
theorem get?_merge {below : Json} {ms : Members} (hms : (ms.map Prod.fst).Nodup) {key : String}
    {v : Json} (hv : Members.get? ms key = some v) (hnull : v.isNull = false) :
    (merge below (.object ms)).get? key = some ((below.get? key).elim v fun old => merge old v) := by
  cases below with
  | object bs =>
    show Members.get? (mergeMembers bs ms) key = _
    rw [get?_mergeMembers bs hms, hv]
    exact layer_of_ne_null hnull
  | _ => exact hv

/-- Where the value on top has a leaf, the merged one has it too. -/
theorem at?_merge_of_leaf : ∀ (path : List String) {below top v : Json}, top.IsDistinct →
    top.at? path = some v → v.IsLeaf → (merge below top).at? path = some v
  | [], below, top, v, _, hat, hv => by
    cases hat
    cases top with
    | object ms => exact absurd rfl (hv.2 ms)
    | _ => rfl
  | key :: path, below, top, v, htop, hat, hv => by
    obtain ⟨x, hx, hdeep⟩ := Option.bind_eq_some_iff.mp hat
    obtain ⟨ms, rfl, hget⟩ := exists_of_get? hx
    rw [at?, get?_merge htop.nodup hget (isNull_of_at? hdeep hv.1), Option.bind_some]
    cases below.get? key with
    | none => exact hdeep
    | some old => exact at?_merge_of_leaf path (htop.of_get? hx) hdeep hv

/-- Behind a key that the value on top lacks or holds null under, the merged value has what is below. -/
theorem at?_merge_of_lacking : ∀ (path : List String) {below top : Json} {bs ts : Members}
    {key : String} (rest : List String), top.IsDistinct → below.at? path = some (.object bs) →
    top.at? path = some (.object ts) → (∀ v, ts.get? key = some v → v.isNull = true) →
    (merge below top).at? (path ++ key :: rest) = below.at? (path ++ key :: rest)
  | [], below, top, bs, ts, key, rest, htop, hbelow, hat, hlacks => by
    cases hbelow
    cases hat
    have hlayer : layer (bs.get? key) (ts.get? key) = bs.get? key := by
      cases hget : ts.get? key with
      | none => rfl
      | some v =>
        have hnull := hlacks v hget
        cases v with
        | null => rfl
        | _ => cases hnull
    show (Members.get? (mergeMembers bs ts) key).bind _ = (Members.get? bs key).bind _
    rw [get?_mergeMembers bs htop.nodup, hlayer]
  | next :: path, below, top, bs, ts, key, rest, htop, hbelow, hat, hlacks => by
    obtain ⟨b, hb, hbelowDeep⟩ := Option.bind_eq_some_iff.mp hbelow
    obtain ⟨x, hx, hdeep⟩ := Option.bind_eq_some_iff.mp hat
    obtain ⟨ms, rfl, hget⟩ := exists_of_get? hx
    have hnull : x.isNull = false := isNull_of_at? hdeep rfl
    rw [List.cons_append, at?, at?, get?_merge htop.nodup hget hnull, hb]
    exact at?_merge_of_lacking path rest (htop.of_get? hx) hbelowDeep hdeep hlacks

/-! ## Once more -/

/-- What holds of every value but objects, and of an object if it holds of its members, holds of all. -/
theorem objectInduction {motive : Json → Prop} (leaf : ∀ j, (∀ ms, j ≠ .object ms) → motive j)
    (object : ∀ ms : Members, (∀ m ∈ ms, motive m.2) → motive (.object ms)) (j : Json) : motive j := by
  cases j with
  | object ms =>
    apply object
    intro m hm
    exact objectInduction leaf object m.2
  | _ => exact leaf _ fun _ h => Json.noConfusion h
termination_by sizeOf j
decreasing_by
  have := List.sizeOf_lt_of_mem hm
  obtain ⟨key, v⟩ := m
  simp at this ⊢
  omega

/-- Members that change nothing one by one change nothing together. -/
theorem mergeMembers_eq_self {below top : Members} (h : ∀ m ∈ top, m.2.isNull = false →
    ∃ old, below.get? m.1 = some old ∧ merge old m.2 = old) : mergeMembers below top = below := by
  induction top with
  | nil => rfl
  | cons m top ih =>
    obtain ⟨key, v⟩ := m
    obtain ⟨hfirst, hrest⟩ := List.forall_mem_cons.mp h
    rw [mergeMembers]
    cases hnull : v.isNull with
    | true => exact ih hrest
    | false =>
      obtain ⟨old, hold, hmerge⟩ := hfirst hnull
      dsimp only at hold hmerge
      simp only [hold, hmerge, Bool.false_eq_true, if_false]
      rw [Members.put_of_get? hold]
      exact ih hrest

/-- Merged over itself, a value stays as it is. -/
theorem merge_self {s : Json} (hs : s.IsDistinct) : merge s s = s := by
  induction s using objectInduction with
  | leaf s hleaf => exact merge_of_ne_object s hleaf
  | object ms ih =>
    rw [merge, mergeMembers_eq_self]
    intro m hm _
    have hget : (Json.object ms).get? m.1 = some m.2 := (lookup_eq_some_iff_mem hs.nodup).mpr hm
    exact ⟨m.2, hget, ih m hm (hs.of_get? hget)⟩

/-- Merged over the same value twice, a value gives what it gave the first time. -/
theorem merge_merge {s : Json} (hs : s.IsDistinct) (t : Json) : merge (merge t s) s = merge t s := by
  induction s using objectInduction generalizing t with
  | leaf s hleaf =>
    cases s with
    | object ms => exact absurd rfl (hleaf ms)
    | _ => rfl
  | object ms ih =>
    cases t with
    | object ts =>
      rw [merge, merge, mergeMembers_eq_self]
      intro m hm hnull
      have hget : Members.get? ms m.1 = some m.2 := (lookup_eq_some_iff_mem hs.nodup).mpr hm
      have hdistinct : m.2.IsDistinct := hs.of_get? (show (Json.object ms).get? m.1 = some m.2 from hget)
      -- Under its key the first merging left the member, or what the member was merged over.
      rw [get?_mergeMembers ts hs.nodup, hget, layer_of_ne_null hnull]
      cases Members.get? ts m.1 with
      | none => exact ⟨m.2, rfl, merge_self hdistinct⟩
      | some old => exact ⟨merge old m.2, rfl, ih m hm hdistinct old⟩
    | _ => exact merge_self hs

/-! ## The whole -/

/-- What merging `top` over `below` comes to, place by place and when it is done again. -/
structure MergesByPath (below top : Json) : Prop where
  /-- A leaf on top is found where it was. -/
  leaf : ∀ path v, top.at? path = some v → v.IsLeaf → (merge below top).at? path = some v
  /-- Where both are objects, what is behind a key that the one on top lacks, or has null under, is found as
  it was below. -/
  lacking : ∀ path (bs ts : Members) key rest, below.at? path = some (.object bs) →
    top.at? path = some (.object ts) → (ts.get? key = none ∨ ts.get? key = some .null) →
    (merge below top).at? (path ++ key :: rest) = below.at? (path ++ key :: rest)
  /-- Over itself, the value on top stays as it is. -/
  self : merge top top = top
  /-- An empty object changes no object. -/
  empty : ∀ ms, below = .object ms → merge below (.object []) = below
  /-- Merging once more changes nothing. -/
  again : merge (merge below top) top = merge below top

/-- **Values merge by path.** This is so for all values whose objects have no key twice, whatever they are
merged over. -/
theorem mergesByPath {top : Json} (h : top.IsDistinct) (below : Json) : MergesByPath below top where
  leaf path _ hat hv := at?_merge_of_leaf path h hat hv
  lacking path _ ts key rest hbelow hat hlacks := by
    apply at?_merge_of_lacking path rest h hbelow hat
    intro v hv
    rcases hlacks with hnone | hnull
    · rw [hnone] at hv
      cases hv
    · rw [hnull] at hv
      cases hv
      rfl
  self := merge_self h
  empty ms hms := by
    subst hms
    rfl
  again := merge_merge h below

/-- Nested objects with a null, an array, a key twice in the text, and one that is below only. -/
theorem mergesByPath_crowded :
    let below : Json := .object [("a", .object [("x", .int 1), ("y", .object [("z", .null)])]),
      ("list", .array [.int 1]), ("keep", .bool true)]
    let text : Tree := .object [(some "list", .leaf .null), (some "keep", .leaf .null),
      (some "a", .object [(some "y", .object [(some "new", .leaf .null)]), (some "x", .leaf .null)]),
      (some "list", .array [.leaf (.text (some "r")), .leaf .null])]
    let top : Json := .object [("list", .array [.string "r", .null]), ("keep", .null),
      ("a", .object [("y", .object [("new", .null)]), ("x", .null)])]
    text.value? maxDepth = some top ∧ top.IsDistinct ∧ MergesByPath below top ∧
      merge below top = .object [("a", .object [("x", .int 1), ("y", .object [("z", .null)])]),
        ("list", .array [.string "r", .null]), ("keep", .bool true)] := by
  intro below text top
  have hvalue : text.value? maxDepth = some top := rfl
  have hdistinct : top.IsDistinct := isDistinct_of_value? hvalue
  exact ⟨hvalue, hdistinct, mergesByPath hdistinct below, rfl⟩

end Payroll.Json
