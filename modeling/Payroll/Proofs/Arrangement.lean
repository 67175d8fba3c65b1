import Mathlib.Data.List.Nodup
import Mathlib.Logic.Relation
import Payroll.Proofs.Fields
import Payroll.Proofs.Merge
/-!
# Members in any arrangement

What an object gives the fields of a layout does not depend on where its members stand, on members of other
keys, or on whether a field without a value is null or left out. An array of the values in the order of the
fields gives them as well.

## Key results

- `Layout.ofTree?_object_eq_some_iff`: the objects that are read, and what is read from them
- `Layout.Takes.rearranged`: changes of the members that make no difference to any field
- `Layout.Takes.ofTree?_row`: what the array of the values gives
-/

namespace Payroll.Json

/-! ## Fields and their names -/

/-- Where names are distinct, the field of a name is found by it. -/
theorem find?_name_eq_some_iff {fs : List Field} (h : (fs.map Field.name).Nodup) {key : String}
    {f : Field} : fs.find? (·.name == key) = some f ↔ f ∈ fs ∧ f.name = key := by
  induction fs with
  | nil => simp
  | cons g fs ih =>
    obtain ⟨hg, hfs⟩ := List.nodup_cons.mp h
    rw [List.find?_cons]
    by_cases hkey : g.name = key
    · subst hkey
      have hne (hf : f ∈ fs) (hname : f.name = g.name) : False :=
        hg (hname ▸ List.mem_map_of_mem hf)
      simp only [beq_self_eq_true, Option.some.injEq, List.mem_cons]
      constructor
      · rintro rfl
        exact ⟨.inl rfl, rfl⟩
      · rintro ⟨rfl | hf, hname⟩
        · rfl
        · exact (hne hf hname).elim
    · have hbeq : (g.name == key) = false := beq_eq_false_iff_ne.mpr hkey
      simp only [hbeq, ih hfs, List.mem_cons]
      constructor
      · rintro ⟨hf, hname⟩
        exact ⟨.inr hf, hname⟩
      · rintro ⟨rfl | hf, hname⟩
        · exact absurd hname hkey
        · exact ⟨hf, hname⟩

namespace Layout

variable {l : Layout} {o o' : Flat} {ms ms' : List (Option String × Tree)}

/-- The layout has one field for a name, and passes over what no field asks for. -/
structure IsPlain (l : Layout) : Prop where
  distinct : (l.fields.map Field.name).Nodup
  passesOver : l.keepOthers = false

/-! ## What members give -/

/-- The name and the value that a member gives a field, if it does. -/
def given? (l : Layout) : Option String × Tree → Option (String × Option Scalar)
  | (none, _) => none
  | (some key, x) =>
    (l.fields.find? (·.name == key)).bind fun f => (f.ofTree? x).map fun v => (key, v)

theorem given?_eq_some_iff (hl : l.IsPlain) {m : Option String × Tree} {name : String}
    {v : Option Scalar} : l.given? m = some (name, v) ↔
      m.1 = some name ∧ ∃ f ∈ l.fields, f.name = name ∧ f.ofTree? m.2 = some v := by
  obtain ⟨key, x⟩ := m
  cases key with
  | none => simp [given?]
  | some key =>
    simp only [given?, Option.bind_eq_some_iff, Option.map_eq_some_iff, find?_name_eq_some_iff hl.distinct]
    constructor
    · rintro ⟨f, ⟨hf, rfl⟩, w, hw, heq⟩
      cases heq
      exact ⟨rfl, f, hf, rfl, hw⟩
    · rintro ⟨heq, f, hf, rfl, hv⟩
      cases heq
      exact ⟨f, ⟨hf, rfl⟩, v, hv, rfl⟩

/-- A member is taken if it has a key, and if a field that has the key is new and can hold its value. -/
theorem takeMember?_eq_some_iff (hl : l.IsPlain) {m : Option String × Tree} :
    l.takeMember? o m = some o' ↔ m.1 ≠ none ∧
      (∀ f ∈ l.fields, m.1 = some f.name →
        f.name ∉ o.fields.map Prod.fst ∧ ∃ v, f.ofTree? m.2 = some v) ∧
      o' = { o with fields := o.fields ++ (l.given? m).toList } := by
  obtain ⟨key, x⟩ := m
  cases key with
  | none => simp [takeMember?]
  | some key =>
    cases hfind : l.fields.find? (·.name == key) with
    | none =>
      have hnone (f : Field) (hf : f ∈ l.fields) : some key ≠ some f.name := by
        intro heq
        have hfound := (find?_name_eq_some_iff hl.distinct).mpr ⟨hf, (Option.some.inj heq).symm⟩
        rw [hfind] at hfound
        cases hfound
      have hgiven : l.given? (some key, x) = none := by simp [given?, hfind]
      simp only [takeMember?, hfind, hl.passesOver, Bool.false_eq_true, if_false, hgiven,
        Option.toList_none, List.append_nil]
      constructor
      · rintro ⟨⟩
        exact ⟨by simp, fun f hf heq => absurd heq (hnone f hf), rfl⟩
      · rintro ⟨-, -, rfl⟩
        rfl
    | some f =>
      obtain ⟨hf, rfl⟩ := (find?_name_eq_some_iff hl.distinct).mp hfind
      have hgiven : l.given? (some f.name, x) = (f.ofTree? x).map fun v => (f.name, v) := by
        simp [given?, hfind]
      simp only [takeMember?, hfind, hgiven]
      constructor
      · intro h
        split at h
        · cases h
        · rename_i hnew
          obtain ⟨v, hv, rfl⟩ := Option.map_eq_some_iff.mp h
          refine ⟨by simp, fun g hg heq => ?_, by simp [hv]⟩
          -- The name has one field only.
          have hfound := (find?_name_eq_some_iff hl.distinct).mpr ⟨hg, (Option.some.inj heq).symm⟩
          obtain rfl := Option.some.inj (hfind.symm.trans hfound)
          exact ⟨hnew, v, hv⟩
      · rintro ⟨-, htakes, rfl⟩
        obtain ⟨hnew, v, hv⟩ := htakes f hf rfl
        simp [hnew, hv]

/-- What members give the fields, in the order of the members. -/
def given (l : Layout) (ms : List (Option String × Tree)) : List (String × Option Scalar) :=
  ms.filterMap l.given?

/-- The members can be taken one after the other, in whatever order. -/
structure Takes (l : Layout) (ms : List (Option String × Tree)) : Prop where
  /-- Every key is a text. -/
  keys : ∀ m ∈ ms, m.1 ≠ none
  /-- No field is there twice. -/
  once : ms.Pairwise fun m n => ∀ f ∈ l.fields, m.1 = some f.name → n.1 ≠ some f.name
  /-- The value of a field is one that the field can hold. -/
  values : ∀ f ∈ l.fields, ∀ m ∈ ms, m.1 = some f.name → ∃ v, f.ofTree? m.2 = some v

theorem takes_nil (l : Layout) : l.Takes [] :=
  ⟨nofun, .nil, nofun⟩

theorem takes_cons_iff {m : Option String × Tree} : l.Takes (m :: ms) ↔ m.1 ≠ none ∧
    (∀ f ∈ l.fields, m.1 = some f.name →
      (∀ n ∈ ms, n.1 ≠ some f.name) ∧ ∃ v, f.ofTree? m.2 = some v) ∧ l.Takes ms := by
  constructor
  · rintro ⟨hkeys, honce, hvalues⟩
    obtain ⟨hfirst, honce⟩ := List.pairwise_cons.mp honce
    obtain ⟨hkey, hkeys⟩ := List.forall_mem_cons.mp hkeys
    refine ⟨hkey, fun f hf heq => ⟨fun n hn => hfirst n hn f hf heq, ?_⟩, hkeys, honce, ?_⟩
    · exact hvalues f hf m List.mem_cons_self heq
    · exact fun f hf n hn => hvalues f hf n (List.mem_cons_of_mem m hn)
  · rintro ⟨hkey, hfirst, hkeys, honce, hvalues⟩
    refine ⟨List.forall_mem_cons.mpr ⟨hkey, hkeys⟩, List.pairwise_cons.mpr ⟨?_, honce⟩, ?_⟩
    · exact fun n hn f hf heq => (hfirst f hf heq).1 n hn
    · exact fun f hf => List.forall_mem_cons.mpr ⟨fun heq => (hfirst f hf heq).2, hvalues f hf⟩

theorem given_cons (m : Option String × Tree) (ms : List (Option String × Tree)) :
    l.given (m :: ms) = (l.given? m).toList ++ l.given ms := by
  rw [given, List.filterMap_cons]
  cases l.given? m <;> rfl

/-- Members are taken one after the other exactly if they can be taken and their fields are new. What has been
read then is what they give. -/
theorem foldlM_takeMember?_eq_some_iff (hl : l.IsPlain) :
    ms.foldlM l.takeMember? o = some o' ↔ l.Takes ms ∧
      (∀ m ∈ ms, ∀ f ∈ l.fields, m.1 = some f.name → f.name ∉ o.fields.map Prod.fst) ∧
      o' = { o with fields := o.fields ++ l.given ms } := by
  -- By induction on the members: a field that is new to what was read has to be new to the first member too.
  induction ms generalizing o with
  | nil => simp [takes_nil, given, eq_comm]
  | cons m ms ih =>
    rw [List.foldlM_cons, takes_cons_iff, Option.bind_eq_bind, Option.bind_eq_some_iff, given_cons]
    simp only [takeMember?_eq_some_iff hl]
    constructor
    · rintro ⟨_, ⟨hkey, hfirst, rfl⟩, hfold⟩
      obtain ⟨htakes, hnew, rfl⟩ := ih.mp hfold
      refine ⟨⟨hkey, fun f hf heq => ⟨fun n hn hname => ?_, (hfirst f hf heq).2⟩, htakes⟩, ?_, by simp⟩
      · -- The field has its value from the first member already.
        obtain ⟨v, hv⟩ := (hfirst f hf heq).2
        have hgiven := (given?_eq_some_iff hl).mpr ⟨heq, f, hf, rfl, hv⟩
        exact hnew n hn f hf hname (by simp [hgiven])
      · refine List.forall_mem_cons.mpr ⟨fun f hf heq => (hfirst f hf heq).1, ?_⟩
        intro n hn f hf heq hmem
        apply hnew n hn f hf heq
        rw [List.map_append]
        exact List.mem_append_left _ hmem
    · rintro ⟨⟨hkey, hfirst, htakes⟩, hnew, rfl⟩
      obtain ⟨hm, hms⟩ := List.forall_mem_cons.mp hnew
      refine ⟨_, ⟨hkey, fun f hf heq => ⟨hm f hf heq, (hfirst f hf heq).2⟩, rfl⟩, ?_⟩
      refine ih.mpr ⟨htakes, fun n hn f hf heq hmem => ?_, by simp⟩
      rw [List.map_append, List.mem_append] at hmem
      rcases hmem with hmem | hmem
      · exact hms n hn f hf heq hmem
      · obtain ⟨⟨name, v⟩, hp, hname⟩ := List.mem_map.mp hmem
        obtain ⟨hkey', -⟩ := (given?_eq_some_iff hl).mp (Option.mem_toList.mp hp)
        dsimp only at hname
        subst hname
        exact (hfirst f hf hkey').1 n hn heq

/-- An object is read if its members can be taken, and what they give is read. -/
theorem ofTree?_object_eq_some_iff (hl : l.IsPlain) :
    l.ofTree? (.object ms) = some o ↔ l.Takes ms ∧ o = ⟨l.given ms, []⟩ := by
  rw [ofTree?, foldlM_takeMember?_eq_some_iff hl]
  simp

/-- No two of the values that members give have one name. -/
theorem Takes.nodup_given (hl : l.IsPlain) (hms : l.Takes ms) : ((l.given ms).map Prod.fst).Nodup := by
  rw [List.Nodup, List.pairwise_map, given, List.pairwise_filterMap]
  refine hms.once.imp fun {m n} honce p hp q hq heq => ?_
  obtain ⟨hm, f, hf, hname, -⟩ := (given?_eq_some_iff hl).mp hp
  obtain ⟨hn, -⟩ := (given?_eq_some_iff hl).mp hq
  exact honce f hf (by rw [hm, hname]) (by rw [hn, ← heq, hname])

/-! ## What a field holds -/

/-- The value that members give a field, if they do. -/
def held (ms : List (Option String × Tree)) (f : Field) : Option Scalar :=
  ((ms.lookup (some f.name)).bind f.ofTree?).join

/-- A member of the field's name gives it the value. -/
def Gives (ms : List (Option String × Tree)) (f : Field) (v : Scalar) : Prop :=
  ∃ m ∈ ms, m.1 = some f.name ∧ f.ofTree? m.2 = some (some v)

/-- The one member of a field's name is found by it. -/
theorem Takes.lookup_eq_some_iff (hms : l.Takes ms) {f : Field} (hf : f ∈ l.fields) {x : Tree} :
    ms.lookup (some f.name) = some x ↔ (some f.name, x) ∈ ms := by
  induction ms with
  | nil => simp
  | cons m ms ih =>
    obtain ⟨key, y⟩ := m
    obtain ⟨-, hfirst, hrest⟩ := takes_cons_iff.mp hms
    rw [List.lookup_cons, List.mem_cons]
    by_cases hkey : some f.name = key
    · subst hkey
      have hnot : (some f.name, x) ∉ ms := fun hmem => (hfirst f hf rfl).1 _ hmem rfl
      simp [hnot, eq_comm]
    · simp [hkey, beq_eq_false_iff_ne.mpr hkey, ih hrest]

theorem Takes.held_eq_some_iff (hms : l.Takes ms) {f : Field} (hf : f ∈ l.fields) {v : Scalar} :
    held ms f = some v ↔ Gives ms f v := by
  simp only [held, Option.join_eq_some_iff, Option.bind_eq_some_iff, hms.lookup_eq_some_iff hf]
  constructor
  · rintro ⟨x, hx, hv⟩
    exact ⟨_, hx, rfl, hv⟩
  · rintro ⟨⟨_, x⟩, hx, rfl, hv⟩
    exact ⟨x, hx, hv⟩

/-- Of the object that is read from members, a field holds what they give it. -/
theorem Takes.get?_given (hl : l.IsPlain) (hms : l.Takes ms) {f : Field} (hf : f ∈ l.fields) :
    Flat.get? ⟨l.given ms, []⟩ f.name = held ms f := by
  refine Option.ext fun v => ?_
  rw [hms.held_eq_some_iff hf, Flat.get?, Option.join_eq_some_iff,
    lookup_eq_some_iff_mem (hms.nodup_given hl), given, List.mem_filterMap]
  refine exists_congr fun m => and_congr_right fun _ => ?_
  rw [given?_eq_some_iff hl]
  refine and_congr_right fun _ => ⟨?_, fun hv => ⟨f, hf, rfl, hv⟩⟩
  rintro ⟨g, hg, hname, hv⟩
  obtain rfl := List.inj_on_of_nodup_map hl.distinct hg hf hname
  exact hv

/-! ## Members that are arranged differently -/

/-- A change of an object's members that says nothing new about the fields. -/
inductive Rearranges (l : Layout) :
    List (Option String × Tree) → List (Option String × Tree) → Prop
  | permuted {ms ms' : List (Option String × Tree)} : ms.Perm ms' → Rearranges l ms ms'
  | unknownAdded {before after : List (Option String × Tree)} {key : String} {x : Tree} :
      (∀ f ∈ l.fields, f.name ≠ key) →
      Rearranges l (before ++ after) (before ++ (some key, x) :: after)
  | unknownDropped {before after : List (Option String × Tree)} {key : String} {x : Tree} :
      (∀ f ∈ l.fields, f.name ≠ key) →
      Rearranges l (before ++ (some key, x) :: after) (before ++ after)
  | nullAdded {before after : List (Option String × Tree)} {f : Field} : f ∈ l.fields →
      (∀ m ∈ before ++ after, m.1 ≠ some f.name) →
      Rearranges l (before ++ after) (before ++ (some f.name, .leaf .null) :: after)
  | nullDropped {before after : List (Option String × Tree)} {f : Field} : f ∈ l.fields →
      Rearranges l (before ++ (some f.name, .leaf .null) :: after) (before ++ after)

theorem Takes.perm (hms : l.Takes ms) (h : ms.Perm ms') : l.Takes ms' where
  keys m hm := hms.keys m (h.mem_iff.mpr hm)
  once := by
    refine (h.pairwise_iff fun hmn f hf hn hm => ?_).mp hms.once
    exact hmn f hf hm hn
  values f hf m hm := hms.values f hf m (h.mem_iff.mpr hm)

/-- The member says nothing about any field: its key is unknown, or it holds null. -/
def IsSilent (l : Layout) (m : Option String × Tree) : Prop :=
  ∀ f ∈ l.fields, m.1 = some f.name → f.ofTree? m.2 = some none

theorem isSilent_of_unknown {key : String} (hkey : ∀ f ∈ l.fields, f.name ≠ key) (x : Tree) :
    l.IsSilent (some key, x) :=
  fun f hf heq => absurd (Option.some.inj heq).symm (hkey f hf)

theorem isSilent_null (hoptional : ∀ f ∈ l.fields, f.optional = true) (key : Option String) :
    l.IsSilent (key, .leaf .null) :=
  fun f hf _ => by simp [Field.ofTree?, hoptional f hf]

/-- Wherever a member that says nothing stands, the fields get what the other members give them. -/
theorem IsSilent.gives_iff {m : Option String × Tree} (hm : l.IsSilent m)
    (before after : List (Option String × Tree)) {f : Field} (hf : f ∈ l.fields) {v : Scalar} :
    Gives (before ++ m :: after) f v ↔ Gives (before ++ after) f v := by
  have hnot : ¬ (m.1 = some f.name ∧ f.ofTree? m.2 = some (some v)) := by
    rintro ⟨hname, hv⟩
    rw [hm f hf hname] at hv
    cases hv
  simp only [Gives, List.perm_middle.mem_iff, List.exists_mem_cons_iff, hnot, false_or]

/-- A change of the members leaves them such that they can be taken. -/
theorem Rearranges.takes (hoptional : ∀ f ∈ l.fields, f.optional = true) (h : l.Rearranges ms ms')
    (hms : l.Takes ms) : l.Takes ms' := by
  cases h with
  | permuted hperm => exact hms.perm hperm
  | @unknownAdded before after key x hkey =>
    refine Takes.perm (takes_cons_iff.mpr ⟨by simp, fun f hf heq => ?_, hms⟩) List.perm_middle.symm
    exact absurd (Option.some.inj heq).symm (hkey f hf)
  | @nullAdded before after f hf hnew =>
    refine Takes.perm (takes_cons_iff.mpr ⟨by simp, fun g hg heq => ?_, hms⟩) List.perm_middle.symm
    exact ⟨fun n hn hname => hnew n hn (hname.trans heq.symm), _, isSilent_null hoptional _ g hg heq⟩
  | unknownDropped | nullDropped => exact (takes_cons_iff.mp (hms.perm List.perm_middle)).2.2

/-- It leaves each field what the members give it. -/
theorem Rearranges.gives_iff (hoptional : ∀ f ∈ l.fields, f.optional = true) (h : l.Rearranges ms ms')
    {f : Field} (hf : f ∈ l.fields) {v : Scalar} : Gives ms' f v ↔ Gives ms f v := by
  cases h with
  | permuted hperm => simp only [Gives, hperm.mem_iff]
  | @unknownAdded before after key x hkey =>
    exact (isSilent_of_unknown hkey x).gives_iff before after hf
  | @unknownDropped before after key x hkey =>
    exact ((isSilent_of_unknown hkey x).gives_iff before after hf).symm
  | @nullAdded before after => exact (isSilent_null hoptional _).gives_iff before after hf
  | @nullDropped before after => exact ((isSilent_null hoptional _).gives_iff before after hf).symm

/-- Any changes, one after the other, leave members that can be taken and that give each field the same. -/
theorem Takes.rearranged (hoptional : ∀ f ∈ l.fields, f.optional = true) (hms : l.Takes ms)
    (h : Relation.ReflTransGen l.Rearranges ms ms') :
    l.Takes ms' ∧ ∀ f ∈ l.fields, held ms' f = held ms f := by
  -- That the members can be taken is what carries each change to the next.
  induction h with
  | refl => exact ⟨hms, fun _ _ => rfl⟩
  | tail _ hstep ih =>
    obtain ⟨htakes, hheld⟩ := ih
    have htakes' := hstep.takes hoptional htakes
    refine ⟨htakes', fun f hf => ?_⟩
    rw [← hheld f hf]
    refine Option.ext fun v => ?_
    rw [htakes'.held_eq_some_iff hf, htakes.held_eq_some_iff hf, hstep.gives_iff hoptional hf]

/-! ## Values in the order of the fields -/

/-- The values that members hold for the fields, in the order of the fields, and null for a field without a
member. -/
def row (l : Layout) (ms : List (Option String × Tree)) : List Tree :=
  l.fields.map fun f => (ms.lookup (some f.name)).getD (.leaf .null)

/-- Values of fields are read one after the other. -/
theorem takeItems?_map {fs : List Field} {x : Field → Tree} {v : Field → Option Scalar}
    (h : ∀ f ∈ fs, f.ofTree? (x f) = some (v f)) (o : Flat) :
    takeItems? o fs (fs.map x) =
      some { o with fields := o.fields ++ fs.map fun f => (f.name, v f) } := by
  induction fs generalizing o with
  | nil => simp [takeItems?]
  | cons f fs ih =>
    obtain ⟨hfirst, hrest⟩ := List.forall_mem_cons.mp h
    rw [List.map_cons, takeItems?, hfirst, Option.bind_some, ih hrest]
    simp

/-- The array of the values is read, and each field gets what the members give it. -/
theorem Takes.ofTree?_row (hoptional : ∀ f ∈ l.fields, f.optional = true)
    (hpositional : l.positional = true) (hms : l.Takes ms) :
    l.ofTree? (.array (l.row ms)) = some ⟨l.fields.map fun f => (f.name, held ms f), []⟩ := by
  rw [ofTree?, if_pos hpositional, row, takeItems?_map]
  · rfl
  · intro f hf
    rw [held]
    cases hlookup : ms.lookup (some f.name) with
    | none => simp [Field.ofTree?, hoptional f hf]
    | some x =>
      obtain ⟨v, hv⟩ := hms.values f hf _ ((hms.lookup_eq_some_iff hf).mp hlookup) rfl
      change f.ofTree? x = some v at hv
      rw [Option.getD_some, Option.bind_some, hv, Option.join_some]

theorem get?_map_held (hl : l.IsPlain) {f : Field} (hf : f ∈ l.fields) :
    Flat.get? ⟨l.fields.map fun f => (f.name, held ms f), []⟩ f.name = held ms f := by
  have hnames : ((l.fields.map fun f => (f.name, held ms f)).map Prod.fst).Nodup := by
    rw [List.map_map]
    exact hl.distinct
  have hlookup := (lookup_eq_some_iff_mem hnames).mpr (List.mem_map_of_mem hf)
  rw [Flat.get?, hlookup, Option.join_some]

end Layout

end Payroll.Json
