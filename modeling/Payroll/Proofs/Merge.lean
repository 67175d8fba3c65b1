import Payroll.Json.Merge
import Payroll.Json.Tree
/-!
# Objects key by key

What an object holds under a key is decided by that key alone: where the object was read, by the last
of the members under it; where it was merged, by what the two objects hold under it.

## Key results

- `at?_of_value?`: of members under one key, the last one counts
- `value?_mono`: following more levels changes no value
- `get?_mergeMembers`: a merged object has under a key what the two have there, one over the other
- `at?_merge`: and so it is at the end of a path
-/

namespace Payroll.Json

/-- Where the keys all differ, the pair under a key is the one that is found. -/
theorem lookup_eq_some_iff_mem {β : Type} {ps : List (String × β)} (h : (ps.map Prod.fst).Nodup)
    {key : String} {b : β} : ps.lookup key = some b ↔ (key, b) ∈ ps := by
  induction ps with
  | nil => simp
  | cons p ps ih =>
    obtain ⟨k, c⟩ := p
    obtain ⟨hk, hps⟩ := List.nodup_cons.mp h
    rw [List.lookup_cons, List.mem_cons]
    by_cases hkey : key = k
    · subst hkey
      have hnot : (key, b) ∉ ps := fun hmem => hk (List.mem_map.mpr ⟨(key, b), hmem, rfl⟩)
      simp [hnot, eq_comm]
    · simp [hkey, beq_eq_false_iff_ne.mpr hkey, ih hps]

namespace Members

/-! ## Members put one after the other -/

/-- The last pair with a key gives its value. -/
theorem get?_ofList (pairs : List (String × Json)) (key : String) :
    get? (ofList pairs) key = pairs.reverse.lookup key := by
  have hall (ms : Members) :
      get? (pairs.foldl (fun ms m => put m.1 m.2 ms) ms) key =
        (pairs.reverse.lookup key).or (get? ms key) := by
    induction pairs generalizing ms with
    | nil => rfl
    | cons pair pairs ih =>
      obtain ⟨k, v⟩ := pair
      rw [List.foldl_cons, ih, List.reverse_cons, List.lookup_append, Option.or_assoc]
      congr 1
      by_cases hk : key = k
      · subst hk
        simp
      · simp [get?_put_of_ne v ms hk, List.lookup_cons, beq_eq_false_iff_ne.mpr hk]
  calc get? (ofList pairs) key
      = (pairs.reverse.lookup key).or (get? [] key) := hall []
    _ = pairs.reverse.lookup key := by rw [get?_nil, Option.or_none]

/-- Putting a value adds at most the key. -/
theorem mem_keys_put {key other : String} {v : Json} {ms : Members}
    (h : other ∈ (put key v ms).map Prod.fst) : other = key ∨ other ∈ ms.map Prod.fst := by
  induction ms with
  | nil => simpa [put] using h
  | cons m ms ih =>
    obtain ⟨k, old⟩ := m
    rw [put] at h
    split at h
    · exact .inr h
    · rw [List.map_cons, List.mem_cons] at h ⊢
      rcases h with h | h
      · exact .inr (.inl h)
      · exact (ih h).imp_right .inr

/-- Putting a value leaves every key only once. -/
theorem nodup_put {key : String} {v : Json} {ms : Members} (h : (ms.map Prod.fst).Nodup) :
    ((put key v ms).map Prod.fst).Nodup := by
  induction ms with
  | nil => simp [put]
  | cons m ms ih =>
    obtain ⟨k, old⟩ := m
    obtain ⟨hk, hms⟩ := List.nodup_cons.mp h
    rw [put]
    split
    · exact h
    · rename_i hne
      refine List.nodup_cons.mpr ⟨?_, ih hms⟩
      intro hmem
      rcases mem_keys_put hmem with heq | hold
      · exact hne heq
      · exact hk hold

/-- Among the members that pairs give every key comes once. -/
theorem nodup_ofList (pairs : List (String × Json)) : ((ofList pairs).map Prod.fst).Nodup := by
  have hall (ms : Members) (h : (ms.map Prod.fst).Nodup) :
      ((pairs.foldl (fun ms m => put m.1 m.2 ms) ms).map Prod.fst).Nodup := by
    induction pairs generalizing ms with
    | nil => exact h
    | cons pair pairs ih => exact ih _ (nodup_put h)
  exact hall [] List.nodup_nil

/-- A key that is not among them holds nothing. -/
theorem get?_eq_none {key : String} {ms : Members} (h : key ∉ ms.map Prod.fst) :
    get? ms key = none := by
  rw [get?, List.lookup_eq_none_iff]
  intro m hm
  have hne : key ≠ m.1 := fun heq => h (heq ▸ List.mem_map_of_mem hm)
  simpa using hne

end Members

/-! ## Objects as they are read -/

/-- What stands last under a key of the tree's object. -/
def Tree.last? (key : String) : Tree → Option Tree
  | .object ms => ms.reverse.lookup (some key)
  | _ => none

/-- The members of a tree that has a value have values, under the same keys in the same order. -/
theorem lookup_memberValues? {depth : Nat} {members : List (Option String × Tree)}
    {pairs : List (String × Json)} (h : memberValues? depth members = some pairs) (key : String) :
    (members.reverse.lookup (some key)).map (·.value? depth) =
      (pairs.reverse.lookup key).map some := by
  induction members generalizing pairs with
  | nil =>
    cases h
    rfl
  | cons m members ih =>
    obtain ⟨k, x⟩ := m
    rw [memberValues?] at h
    obtain ⟨k', hk', h⟩ := Option.bind_eq_some_iff.mp h
    obtain ⟨v, hv, h⟩ := Option.bind_eq_some_iff.mp h
    obtain ⟨vs, hvs, h⟩ := Option.bind_eq_some_iff.mp h
    have hpairs : (k', v) :: vs = pairs := Option.some.inj h
    subst hk' hpairs
    -- From the end, the first member is looked at last.
    rw [List.reverse_cons, List.reverse_cons, List.lookup_append, List.lookup_append, Option.map_or,
      Option.map_or, ih hvs]
    congr 1
    by_cases hk : key = k'
    · subst hk
      simp [hv]
    · simp [List.lookup_cons, beq_eq_false_iff_ne.mpr hk]

/-- A value is an object only where its tree is one, with the values of the tree's members. -/
theorem members_of_value? {depth : Nat} {t : Tree} {ms : Members}
    (h : t.value? depth = some (.object ms)) :
    ∃ members pairs, t = .object members ∧ memberValues? (depth - 1) members = some pairs ∧
      ms = Members.ofList pairs := by
  -- Every other tree has a value of a kind of its own.
  cases t with
  | leaf t =>
    cases t with
    | number n =>
      obtain ⟨_, _, heq⟩ := Option.map_eq_some_iff.mp h
      cases heq
    | text s =>
      obtain ⟨_, _, heq⟩ := Option.map_eq_some_iff.mp h
      cases heq
    | _ => cases h
  | array xs =>
    obtain ⟨-, _, -, heq⟩ := Tree.value?_array_eq_some_iff.mp h
    cases heq
  | object members =>
    obtain ⟨-, pairs, hpairs, heq⟩ := Tree.value?_object_eq_some_iff.mp h
    cases heq
    exact ⟨members, pairs, rfl, hpairs, rfl⟩

/-- The value of an object's tree is an object in which every key comes once. -/
theorem object_of_value? {depth : Nat} {members : List (Option String × Tree)} {j : Json}
    (h : (Tree.object members).value? depth = some j) :
    ∃ ms : Members, j = .object ms ∧ (ms.map Prod.fst).Nodup := by
  obtain ⟨-, pairs, -, rfl⟩ := Tree.value?_object_eq_some_iff.mp h
  exact ⟨_, rfl, Members.nodup_ofList pairs⟩

/-- Only objects have something under a key. -/
theorem exists_of_get? {j v : Json} {key : String} (h : j.get? key = some v) :
    ∃ ms : Members, j = .object ms ∧ ms.get? key = some v := by
  cases j with
  | object ms => exact ⟨ms, rfl, h⟩
  | _ => cases h

/-- A value has under a key the value of what its text has last under it. -/
theorem get?_of_value? {depth : Nat} {t : Tree} {j : Json} (h : t.value? depth = some j)
    (key : String) : (t.last? key).map (·.value? (depth - 1)) = (j.get? key).map some := by
  -- Where the tree is no object, the value is none either.
  have hnone (ht : ∀ members, t ≠ .object members) : j.get? key = none := by
    cases hv : j.get? key with
    | none => rfl
    | some v =>
      obtain ⟨ms, rfl, _⟩ := exists_of_get? hv
      obtain ⟨members, _, heq, _⟩ := members_of_value? h
      exact absurd heq (ht members)
  cases t with
  | leaf t => rw [hnone fun _ heq => Tree.noConfusion heq]; rfl
  | array xs => rw [hnone fun _ heq => Tree.noConfusion heq]; rfl
  | object members =>
    obtain ⟨-, pairs, hpairs, rfl⟩ := Tree.value?_object_eq_some_iff.mp h
    rw [get?, Members.get?_ofList, Tree.last?]
    exact lookup_memberValues? hpairs key

mutual

/-- A reader that follows more levels finds the same value. -/
theorem value?_mono {depth more : Nat} (hle : depth ≤ more) : ∀ (t : Tree) {j : Json},
    t.value? depth = some j → t.value? more = some j
  | .leaf t, j, h => h
  | .array xs, j, h => by
    obtain ⟨hdepth, vs, hvs, rfl⟩ := Tree.value?_array_eq_some_iff.mp h
    have hitems := itemValues?_mono (Nat.sub_le_sub_right hle 1) xs hvs
    exact Tree.value?_array_eq_some_iff.mpr ⟨by omega, vs, hitems, rfl⟩
  | .object ms, j, h => by
    obtain ⟨hdepth, vs, hvs, rfl⟩ := Tree.value?_object_eq_some_iff.mp h
    have hmembers := memberValues?_mono (Nat.sub_le_sub_right hle 1) ms hvs
    exact Tree.value?_object_eq_some_iff.mpr ⟨by omega, vs, hmembers, rfl⟩

theorem itemValues?_mono {depth more : Nat} (hle : depth ≤ more) : ∀ (xs : List Tree)
    {vs : List Json}, itemValues? depth xs = some vs → itemValues? more xs = some vs
  | [], vs, h => h
  | x :: xs, vs, h => by
    rw [itemValues?] at h ⊢
    obtain ⟨v, hv, h⟩ := Option.bind_eq_some_iff.mp h
    obtain ⟨others, hothers, h⟩ := Option.bind_eq_some_iff.mp h
    rw [value?_mono hle x hv, itemValues?_mono hle xs hothers]
    exact h

theorem memberValues?_mono {depth more : Nat} (hle : depth ≤ more) :
    ∀ (ms : List (Option String × Tree)) {vs : List (String × Json)},
    memberValues? depth ms = some vs → memberValues? more ms = some vs
  | [], vs, h => h
  | (key, x) :: ms, vs, h => by
    rw [memberValues?] at h ⊢
    obtain ⟨k, hkey, h⟩ := Option.bind_eq_some_iff.mp h
    obtain ⟨v, hv, h⟩ := Option.bind_eq_some_iff.mp h
    obtain ⟨others, hothers, h⟩ := Option.bind_eq_some_iff.mp h
    rw [hkey, value?_mono hle x hv, memberValues?_mono hle ms hothers]
    exact h

end

/-! ## Objects as they are merged -/

/-- What is on top under a key over what is below it. -/
def layer (below top : Option Json) : Option Json :=
  match top with
  | none | some .null => below
  | some v => some (match below with
    | some old => merge old v
    | none => v)

/-- A value that is no object is replaced as a whole. -/
theorem merge_of_ne_object {below : Json} (top : Json) (h : ∀ ms, below ≠ .object ms) :
    merge below top = top := by
  cases top with
  | object top =>
    cases below with
    | object ms => exact absurd rfl (h ms)
    | _ => rfl
  | _ => rfl

/-- A merged object has under each key what is on top there, over what is below. -/
theorem get?_mergeMembers (below : Members) {top : Members} (h : (top.map Prod.fst).Nodup)
    (key : String) :
    Members.get? (mergeMembers below top) key = layer (below.get? key) (top.get? key) := by
  induction top generalizing below with
  | nil => rfl
  | cons m top ih =>
    obtain ⟨k, v⟩ := m
    obtain ⟨hk, htop⟩ := List.nodup_cons.mp h
    rw [mergeMembers, ih _ htop, Members.get?_cons]
    by_cases hkey : key = k
    · -- The key does not come again, so what is put under it now stays.
      subst hkey
      have hnone : Members.get? top key = none := Members.get?_eq_none hk
      rw [if_pos rfl, hnone]
      cases v with
      | null => rfl
      | _ => exact Members.get?_put_self _ _ below
    · rw [if_neg hkey]
      congr 1
      split
      · rfl
      · exact Members.get?_put_of_ne _ below hkey

/-! ## Places at the end of a path -/

/-- What a value has at the end of a path of keys. -/
def at? : List String → Json → Option Json
  | [], j => some j
  | key :: path, j => (j.get? key).bind (at? path)

/-- What a tree has at the end of a path of keys. -/
def Tree.at? : List String → Tree → Option Tree
  | [], t => some t
  | key :: path, t => (t.last? key).bind (Tree.at? path)

/-- A value has at each place the value of what its text has there. -/
theorem at?_of_value? : ∀ (path : List String) {t : Tree} {j : Json} {depth more : Nat},
    t.value? depth = some j → depth ≤ more →
    j.at? path = (t.at? path).bind (·.value? more)
  | [], t, j, depth, more, h, hle => (value?_mono hle t h).symm
  | key :: path, t, j, depth, more, h, hle => by
    have hkey := get?_of_value? h key
    rw [at?, Tree.at?]
    cases hlast : t.last? key with
    | none =>
      rw [hlast] at hkey
      have hnone : j.get? key = none := by simpa using hkey.symm
      rw [hnone]
      rfl
    | some y =>
      rw [hlast] at hkey
      obtain ⟨v, hv, hy⟩ := Option.map_eq_some_iff.mp hkey.symm
      rw [hv]
      exact at?_of_value? path hy.symm (by omega)

/-- Along the path there are objects whose keys all differ, or null, or nothing. -/
def IsOpen : List String → Json → Prop
  | [], _ => True
  | key :: path, j => ∃ ms : Members, j = .object ms ∧ (ms.map Prod.fst).Nodup ∧
      ∀ v, ms.get? key = some v → v.isNull = false → IsOpen path v

/-- At the place of a value that is no object, a merged value has what is on top there, unless that is
null, and else what is below. -/
theorem at?_merge : ∀ (path : List String) {below top d : Json}, top.isNull = false →
    IsOpen path top → below.at? path = some d → (∀ ms, d ≠ .object ms) →
    (merge below top).at? path = some (((top.at? path).filter (!·.isNull)).getD d)
  | [], below, top, d, hnull, _, hd, hleaf => by
    have hbelow : below = d := Option.some.inj hd
    subst hbelow
    rw [merge_of_ne_object top hleaf]
    simp [at?, Option.filter, hnull]
  | key :: path, below, top, d, _, hopen, hd, hleaf => by
    obtain ⟨ts, rfl, hts, hnext⟩ := hopen
    obtain ⟨x, hx, hdeep⟩ := Option.bind_eq_some_iff.mp hd
    obtain ⟨bs, rfl, hbs⟩ := exists_of_get? hx
    have hmerged : (merge (.object bs) (.object ts)).get? key =
        layer (some x) (Members.get? ts key) := by
      rw [← hbs]
      exact get?_mergeMembers bs hts key
    rw [at?, hmerged, at?, get?]
    -- Nothing on top and null on top leave what is below; anything else is merged with it.
    cases htop : Members.get? ts key with
    | none => simpa [layer] using hdeep
    | some v =>
      cases hv : v.isNull with
      | true =>
        cases v with
        | null =>
          have hgone : (at? path .null).filter (!·.isNull) = none := by cases path <;> rfl
          simpa [layer, hgone] using hdeep
        | _ => cases hv
      | false =>
        have hnested := at?_merge path hv (hnext v htop hv) hdeep hleaf
        cases v with
        | null => cases hv
        | _ => exact hnested

end Payroll.Json
