import Payroll.Proofs.Fields
import Payroll.Proofs.Finite
import Payroll.Proofs.Printed
/-!
# Flat objects that are read

A printed object is read member by member: a key that the layout knows gives its field, and the value
under another key is kept or passed over. Whatever the text says, the integers that are read have 64 bits
and the floats are finite.

## Key results

- `Layout.read_render`: what is read from a printed object
- `Layout.exists_of_read`: what is read from a text is bounded
-/

namespace Payroll.Json

open Payroll.Text (Source)

/-! ## Values that are printed -/

/-- Integers of 64 bits with a sign are read back. -/
theorem readsBack_of_fitsInt64 {i : Int} (h : FitsInt64 i) : (Number.int i).ReadsBack := by
  have hsize : (UInt64.size : Int) = 18446744073709551616 := rfl
  obtain ⟨hlow, hhigh⟩ := h
  exact readsBack_int (by rw [maxInt64]; omega) (by omega)

/-- The values of members can be read back if each of them can. -/
theorem membersFit_iff {depth : Nat} {ms : Members} :
    MembersFit depth ms ↔ ∀ m ∈ ms, Fits depth m.2 := by
  induction ms with
  | nil => simp [MembersFit]
  | cons m ms ih =>
    obtain ⟨key, x⟩ := m
    rw [MembersFit, ih, List.forall_mem_cons]

/-! ## Values of fields -/

/-- An integer of 64 bits, a finite float, or no number. -/
def Scalar.IsBounded : Scalar → Prop
  | .int i => FitsInt64 i
  | .real x => x.isFinite = true
  | .text _ | .flag _ => True

/-- The value as JSON. -/
def Scalar.toJson : Scalar → Json
  | .text s => .string s
  | .int i => .int i
  | .real x => .real x
  | .flag b => .bool b

/-- The kind of field that holds the value. -/
def Scalar.kind : Scalar → Kind
  | .text _ => .text
  | .int _ => .int
  | .real _ => .real
  | .flag _ => .flag

/-- A field holds a bounded value of its kind as it is. -/
theorem Scalar.ofJson?_toJson {v : Scalar} (h : v.IsBounded) : v.kind.ofJson? v.toJson = some v := by
  cases v with
  | int i =>
    have hi : FitsInt64 i := h
    show (if FitsInt64 i then some i else none).map Scalar.int = _
    rw [if_pos hi]
    rfl
  | text s | real x | flag b => rfl

/-- A value is read back from its text, if it is bounded and a float is. -/
theorem Scalar.fits_toJson {v : Scalar} (h : v.IsBounded)
    (hreal : ∀ x, v = .real x → (Number.real x).ReadsBack) (depth : Nat) : Fits depth v.toJson := by
  cases v with
  | int i => exact readsBack_of_fitsInt64 h
  | real x => exact hreal x rfl
  | text s | flag b => trivial

/-- Values, each under the name of its field. -/
abbrev Entries := List (String × Scalar)

/-- The values as members of an object. -/
def Entries.toMembers (entries : Entries) : Members :=
  entries.map fun e => (e.1, e.2.toJson)

/-- The values as an object's fields. -/
def Entries.toFields (entries : Entries) : List (String × Option Scalar) :=
  entries.map fun e => (e.1, some e.2)

/-- The values are bounded. -/
def Entries.IsBounded (entries : Entries) : Prop :=
  ∀ e ∈ entries, e.2.IsBounded

/-- The fields of an object are looked through from the first one on. -/
@[simp] theorem Flat.get?_cons (key : String) (v : Option Scalar)
    (fields : List (String × Option Scalar)) (others : Members) (name : String) :
    Flat.get? ⟨(key, v) :: fields, others⟩ name =
      if name = key then v else Flat.get? ⟨fields, others⟩ name := by
  by_cases h : name = key
  · simp [get?, h]
  · simp [get?, h, List.lookup_cons, beq_eq_false_iff_ne.mpr h]

/-! ## One field -/

/-- The tree of a value of the field's kind gives the field that value. -/
theorem Field.ofTree?_treeOf (f : Field) {depth : Nat} {x : Json} {v : Scalar} (hx : Fits depth x)
    (hv : f.kind.ofJson? x = some v) : f.ofTree? (treeOf x) = some (some v) := by
  -- Values of the kinds of fields are single tokens, and null is none of them.
  obtain ⟨t, htree, hvalue, hnull⟩ :
      ∃ t, treeOf x = .leaf t ∧ t.value? = some x ∧ t ≠ .null := by
    cases x with
    | null | array | object => cases hkind : f.kind <;> rw [hkind] at hv <;> cases hv
    | bool b => exact ⟨_, rfl, rfl, nofun⟩
    | string s => exact ⟨_, rfl, rfl, nofun⟩
    | number n =>
      refine ⟨_, rfl, ?_, nofun⟩
      rw [Token.value?, (Number.ReadsBack.spec hx).2]
      rfl
  rw [htree, ofTree?, if_neg (fun h => hnull h.2), hvalue, Option.bind_some, hv, Option.map_some]

/-! ## All members -/

namespace Layout

variable {l : Layout}

/-- The layout has a field of the name. -/
def knows (l : Layout) (name : String) : Bool :=
  l.fields.any (·.name == name)

theorem isSome_find? (l : Layout) (name : String) :
    (l.fields.find? (·.name == name)).isSome = l.knows name :=
  List.isSome_find?

/-- What the fields of a layout hold among the members of an object. -/
def met (l : Layout) (ms : Members) : List (String × Option Scalar) :=
  ms.filterMap fun (key, x) =>
    (l.fields.find? (·.name == key)).map fun f => (key, f.kind.ofJson? x)

/-- The members that a layout keeps of those that give no field. -/
def unmet (l : Layout) (ms : Members) : Members :=
  ms.filter fun (key, _) => l.keepOthers && !l.knows key

/-- The members whose keys the layout knows hold values of the kinds of its fields. -/
def Admits (l : Layout) (ms : Members) : Prop :=
  ∀ p ∈ l.met ms, p.2.isSome = true

theorem met_cons (key : String) (x : Json) (ms : Members) :
    l.met ((key, x) :: ms) = l.met [(key, x)] ++ l.met ms := by
  rw [met, met, met, ← List.filterMap_append]
  rfl

theorem unmet_cons (key : String) (x : Json) (ms : Members) :
    l.unmet ((key, x) :: ms) = l.unmet [(key, x)] ++ l.unmet ms := by
  rw [unmet, unmet, unmet, ← List.filter_append]
  rfl

/-- A layout that keeps nothing else has only its fields. -/
theorem unmet_eq_nil (hl : l.keepOthers = false) (ms : Members) : l.unmet ms = [] := by
  simp [unmet, hl]

/-- A member gives its field, or is kept or passed over if no field has its key. -/
theorem takeMember?_treeOf (o : Flat) {key : String} {x : Json} (hx : Fits (maxDepth - 1) x)
    (hkey : key ∉ o.fields.map Prod.fst) (hadmits : l.Admits [(key, x)]) :
    l.takeMember? o (some key, treeOf x) =
      some ⟨o.fields ++ l.met [(key, x)], o.others ++ l.unmet [(key, x)]⟩ := by
  -- A field is met once, since no two members have its key; what no field asks for is only spelled.
  cases hfind : l.fields.find? (·.name == key) with
  | some f =>
    have hvalue := hadmits (key, f.kind.ofJson? x) (by simp [met, hfind])
    obtain ⟨v, hv⟩ := Option.isSome_iff_exists.mp hvalue
    dsimp only at hv
    have hmet : l.met [(key, x)] = [(key, some v)] := by simp [met, hfind, hv]
    have hknown : l.knows key = true := by rw [← l.isSome_find?, hfind]; rfl
    have hunmet : l.unmet [(key, x)] = [] := by simp [unmet, hknown]
    simp [takeMember?, hfind, hkey, f.ofTree?_treeOf hx hv, hmet, hunmet]
  | none =>
    have hmet : l.met [(key, x)] = [] := by simp [met, hfind]
    have hknown : l.knows key = false := by rw [← l.isSome_find?, hfind]; rfl
    cases hkeep : l.keepOthers with
    | true => simp [takeMember?, hfind, hkeep, value?_treeOf x hx, unmet, hknown, hmet]
    | false => simp [takeMember?, hfind, hkeep, unmet, hmet]

/-- The members of an object give the fields that have their keys, and others are kept or passed over. -/
theorem foldlM_memberTrees {ms : Members} {o : Flat} (hfits : MembersFit (maxDepth - 1) ms)
    (hkeys : (o.fields.map Prod.fst ++ ms.map Prod.fst).Nodup) (hadmits : l.Admits ms) :
    (memberTrees ms).foldlM l.takeMember? o =
      some ⟨o.fields ++ l.met ms, o.others ++ l.unmet ms⟩ := by
  -- By induction on the members, whatever is met before them.
  induction ms generalizing o with
  | nil => simp [memberTrees, met, unmet]
  | cons m ms ih =>
    obtain ⟨key, x⟩ := m
    have hkey : key ∉ o.fields.map Prod.fst := fun hmem =>
      (List.nodup_append.mp hkeys).2.2 key hmem key List.mem_cons_self rfl
    rw [Admits, met_cons] at hadmits
    have hfirst : l.Admits [(key, x)] := fun p hp => hadmits p (List.mem_append_left _ hp)
    have hothers : l.Admits ms := fun p hp => hadmits p (List.mem_append_right _ hp)
    -- The keys that are met so far are those of members that came before.
    have hkeys' : ((o.fields ++ l.met [(key, x)]).map Prod.fst ++ ms.map Prod.fst).Nodup := by
      refine hkeys.sublist ?_
      rw [List.map_append, List.append_assoc, List.map_cons]
      refine (List.Sublist.refl _).append ?_
      have hmet : ((l.met [(key, x)]).map Prod.fst).Sublist [key] := by
        cases hfind : l.fields.find? (·.name == key) with
        | some f => simp [met, hfind]
        | none => simp [met, hfind]
      exact hmet.append (List.Sublist.refl (ms.map Prod.fst))
    rw [memberTrees, List.foldlM_cons, takeMember?_treeOf o hfits.1 hkey hfirst]
    dsimp only [Option.bind_eq_bind, Option.bind_some]
    rw [ih hfits.2 hkeys' hothers, met_cons key x ms, unmet_cons key x ms]
    simp only [List.append_assoc]

/-- From a printed object, the layout's fields are read as they are among its members. -/
theorem read_render {α : Type} {ms : Members} (hfits : Fits maxDepth (.object ms))
    (hadmits : l.Admits ms) (give : Flat → Except Fault α) :
    l.read give (Source.ofString (render (.object ms))) = give ⟨l.met ms, l.unmet ms⟩ := by
  have hobject : l.readObject (spelled (.object ms)) = .ok (⟨l.met ms, l.unmet ms⟩, []) := by
    obtain ⟨htokens, hsound⟩ := tokens_treeOf (.object ms)
    refine readObject_eq_ok_iff.mpr ⟨_, hsound, by rw [htokens, List.append_nil], ?_⟩
    rw [treeOf, ofTree?, foldlM_memberTrees (o := ⟨[], []⟩) hfits.2.2 hfits.2.1 hadmits]
    rfl
  rw [read, tokens_render hfits, hobject]
  dsimp only
  cases give ⟨l.met ms, l.unmet ms⟩ <;> rfl

/-! ### Members that are values of fields -/

/-- The fields of the layout are of the kinds of the values under their names. -/
def Suits (l : Layout) (entries : Entries) : Prop :=
  ∀ e ∈ entries, ∀ f, l.fields.find? (·.name == e.1) = some f → f.kind = e.2.kind

/-- Of values that are written under their names, those are met that the layout has fields for. -/
theorem met_toMembers {entries : Entries} (hsuits : l.Suits entries) (hbounded : entries.IsBounded) :
    l.met entries.toMembers = Entries.toFields (entries.filter fun e => l.knows e.1) := by
  induction entries with
  | nil => rfl
  | cons e entries ih =>
    obtain ⟨hfirst, hrest⟩ := List.forall_mem_cons.mp hsuits
    obtain ⟨he, hbounded⟩ := List.forall_mem_cons.mp hbounded
    have hknown := l.isSome_find? e.1
    rw [Entries.toMembers, List.map_cons, met_cons, ← Entries.toMembers, ih hrest hbounded]
    cases hfind : l.fields.find? (·.name == e.1) with
    | some f =>
      have hvalue := Scalar.ofJson?_toJson he
      rw [← hfirst f hfind] at hvalue
      rw [hfind] at hknown
      simp [met, hfind, hvalue, ← hknown, Entries.toFields]
    | none =>
      rw [hfind] at hknown
      simp [met, hfind, ← hknown, Entries.toFields]

/-- Values that suit the fields are admitted. -/
theorem admits_toMembers {entries : Entries} (hsuits : l.Suits entries) (hbounded : entries.IsBounded) :
    l.Admits entries.toMembers := by
  rw [Admits, met_toMembers hsuits hbounded]
  intro p hp
  obtain ⟨e, -, rfl⟩ := List.mem_map.mp hp
  rfl

end Layout

/-! ## What is read is bounded -/

/-- The values of the fields are bounded. -/
def Flat.IsBounded (o : Flat) : Prop :=
  ∀ p ∈ o.fields, ∀ v ∈ p.2, v.IsBounded

theorem Flat.isBounded_empty (others : List (String × Json)) : Flat.IsBounded ⟨[], others⟩ :=
  nofun

/-- A field more that is bounded. -/
theorem Flat.IsBounded.append {o : Flat} (ho : o.IsBounded) (name : String) {v : Option Scalar}
    (hv : ∀ x ∈ v, x.IsBounded) (others : List (String × Json)) :
    Flat.IsBounded ⟨o.fields ++ [(name, v)], others⟩ := by
  intro p hp
  rcases List.mem_append.mp hp with hp | hp
  · exact ho p hp
  · rw [List.mem_singleton.mp hp]
    exact hv

/-- The value in a field is bounded. -/
theorem Flat.IsBounded.get? {o : Flat} (ho : o.IsBounded) {name : String} {v : Scalar}
    (h : o.get? name = some v) : v.IsBounded := by
  rw [Flat.get?, Option.join_eq_some_iff] at h
  obtain ⟨l₁, l₂, hfields, -⟩ := List.lookup_eq_some_iff.mp h
  refine ho (name, some v) ?_ v rfl
  rw [hfields]
  simp

theorem Flat.IsBounded.int? {o : Flat} (ho : o.IsBounded) {name : String} {i : Int}
    (h : o.int? name = some i) : FitsInt64 i := by
  unfold Flat.int? at h
  split at h
  · rename_i hget
    cases h
    exact ho.get? hget
  · cases h

/-- A JSON value gives a bounded value; for a field of integers, whatever the number is. -/
theorem Kind.isBounded_ofJson? {k : Kind} {j : Json} {v : Scalar}
    (hj : ∀ x, j = .number x → k = .real → x.IsBounded) (h : k.ofJson? j = some v) :
    v.IsBounded := by
  unfold ofJson? at h
  split at h
  · cases h
    trivial
  · rename_i x
    obtain ⟨i, hi, rfl⟩ := Option.map_eq_some_iff.mp h
    unfold Number.int64? at hi
    split at hi
    · split at hi
      · cases hi
        assumption
      · cases hi
    · cases hi
  · rename_i x
    cases h
    exact Number.isFinite_toFloat (hj x rfl rfl)
  · cases h
    trivial
  · cases h

/-- The number that a token stands for is bounded. -/
theorem Token.isBounded_value? {t : Token} {x : Number} (h : t.value? = some (.number x)) :
    x.IsBounded := by
  unfold value? at h
  split at h
  · cases h
  · cases h
  · obtain ⟨y, hy, heq⟩ := Option.map_eq_some_iff.mp h
    cases heq
    exact Numeral.isBounded_value hy
  · obtain ⟨_, _, heq⟩ := Option.map_eq_some_iff.mp h
    cases heq
  · cases h

theorem Kind.isBounded_read {k : Kind} {ts rest : List Token} {v : Scalar}
    (h : k.read ts = .ok (v, rest)) : v.IsBounded := by
  cases ts with
  | nil => cases h
  | cons t ts =>
    rw [Kind.read] at h
    split at h
    · rename_i hvalue
      cases h
      obtain ⟨j, hj, hv⟩ := Option.bind_eq_some_iff.mp hvalue
      exact isBounded_ofJson? (fun x heq _ => Token.isBounded_value? (heq ▸ hj)) hv
    · cases h

theorem Field.isBounded_read {f : Field} {ts rest : List Token} {v : Option Scalar}
    (h : f.read ts = .ok (v, rest)) : ∀ x ∈ v, x.IsBounded := by
  unfold Field.read at h
  split at h
  · cases h
    nofun
  · obtain ⟨⟨x, r⟩, hread, heq⟩ := map_eq_ok_iff.mp h
    cases heq
    rintro _ ⟨⟩
    exact Kind.isBounded_read hread

namespace Layout

variable {l : Layout}

theorem isBounded_readMember {o o' : Flat} {key : String} {ts rest : List Token} (ho : o.IsBounded)
    (h : l.readMember o key ts = .ok (o', rest)) : o'.IsBounded := by
  unfold readMember at h
  split at h
  · split at h
    · cases h
    · split at h
      · obtain ⟨⟨v, r⟩, hread, heq⟩ := map_eq_ok_iff.mp h
        cases heq
        exact ho.append key (Field.isBounded_read hread) _
      · cases h
  · split at h
    · cases h
    · split at h
      · split at h
        · cases h
          exact ho
        · cases h
      · cases h
        exact ho
  · cases h

theorem isBounded_readMembers {fuel : Nat} {o o' : Flat} {ts rest : List Token} (ho : o.IsBounded)
    (h : l.readMembers fuel o ts = .ok (o', rest)) : o'.IsBounded := by
  -- The object so far is bounded, and a member more keeps it so.
  fun_induction readMembers l fuel o ts with
  | case1 | case2 | case5 | case6 => cases h
  | case3 fuel o key ts o₁ r hmember =>
    cases h
    exact isBounded_readMember ho hmember
  | case4 fuel o key ts o₁ r hmember ih => exact ih (isBounded_readMember ho hmember) h

theorem isBounded_readItems {start : Bool} {o o' : Flat} {fs : List Field} {ts rest : List Token}
    (ho : o.IsBounded) (h : readItems start o fs ts = .ok (o', rest)) : o'.IsBounded := by
  fun_induction readItems start o fs ts with
  | case1 =>
    cases h
    exact ho
  | case2 | case3 | case4 | case5 => cases h
  | case6 start o f fs ts hclose value ts₁ hvalue v r hread ih =>
    exact ih (ho.append f.name (Field.isBounded_read hread) _) h

theorem isBounded_readObject {ts rest : List Token} {o : Flat} (h : l.readObject ts = .ok (o, rest)) :
    o.IsBounded := by
  unfold readObject at h
  split at h
  · cases h
  · cases h
    exact Flat.isBounded_empty _
  · exact isBounded_readMembers (Flat.isBounded_empty _) h
  · split at h
    · exact isBounded_readItems (Flat.isBounded_empty _) h
    · cases h
  · cases h

/-- What is read from a text is made of bounded values. -/
theorem exists_of_read {α : Type} {give : Flat → Except Fault α} {s : Source} {a : α}
    (h : l.read give s = .ok a) : ∃ o, o.IsBounded ∧ give o = .ok a := by
  unfold read at h
  split at h
  · cases h
  · rename_i o rest hobject
    refine ⟨o, isBounded_readObject hobject, ?_⟩
    split at h
    · cases h
    · rename_i hgive
      cases h
      exact hgive
    · cases h

end Layout

end Payroll.Json
