import Payroll.Proofs.Entries
/-!
# Records come back from their text

What is printed of a record is one flat object, in which the meta data of a version stand beside its data.
From that text the same record is read, and what is read from any text at all can be printed and read again.

## Key results

- `RecordKind.read_print`: what is read from a printed record
- `RecordKind.isBounded_of_read`: the numbers of a record that is read
- `RecordKind.roundTrips`: a record comes back from its text
-/

namespace Payroll

open Json (Entries Flat Layout Members Scalar render)
open Text (Source)

namespace RecordKind

/-- The text of the record. -/
def print (k : RecordKind) (a : k.Value) : String :=
  render (k.toJson a)

/-- Reads a record. -/
def read : (k : RecordKind) → Source → Except Json.Fault k.Value
  | .metadata => Meta.read
  | .versioned _ => Version.read
  | .static s => StaticData.read (α := s.Data)

/-- Reads a record and prints it again. -/
def reprint (k : RecordKind) (s : Source) : Except Json.Fault String :=
  (k.read s).map k.print

/-- A record comes back from its text. -/
structure RoundTrips (k : RecordKind) (a : k.Value) : Prop where
  /-- What is printed is one flat object of what the record says. -/
  toJson_eq : (k.entries a).IsBounded → k.toJson a = .object (k.entries a).toMembers
  /-- From what is printed the same record is read. -/
  read_print : (k.entries a).IsBounded → k.read (.ofString (k.print a)) = .ok a
  /-- If a text holds the record, printing it once or twice makes no difference. -/
  reprint_reprint : ∀ s, k.read s = .ok a →
    k.reprint s = .ok (k.print a) ∧ k.reprint (.ofString (k.print a)) = .ok (k.print a)

variable {k : RecordKind} {a : k.Value}

/-! ## What is read from a printed record -/

/-- How a record is read. -/
def layout : RecordKind → Layout
  | .metadata => ⟨Meta.fields, true, false⟩
  | .versioned k => ⟨Version.dataFields k.Data, false, true⟩
  | .static s => ⟨StaticData.fields s.Data, true, false⟩

/-- The record in the fields of an object. -/
def ofFlat? : (k : RecordKind) → Flat → Option k.Value
  | .metadata => Meta.ofFlat?
  | .versioned _ => Version.ofFlat?
  | .static s => StaticData.ofFlat? (α := s.Data)

theorem read_eq (k : RecordKind) (s : Source) :
    k.read s = k.layout.read (fun o => Json.fitting (k.ofFlat? o)) s := by
  cases k <;> rfl

/-- The fields of a record are of the kinds of what it says. -/
theorem suits_entries (a : k.Value) : k.layout.Suits (k.entries a) := by
  rcases k with _ | ⟨_ | _ | _⟩ | ⟨_ | _⟩ <;>
    simp [Layout.Suits, layout, entries, Meta.entries, VersionKind.entries, StaticKind.entries,
      Meta.fields, Version.dataFields, VersionedData.columns, Column.kind, StaticData.fields,
      StaticData.columns, Scalar.kind]

/-- What a record says in the fields of its layout; the meta data of a version have none. -/
def ownEntries : (k : RecordKind) → k.Value → Entries
  | .metadata, (m : Meta) => m.entries
  | .versioned k, (v : Version k.Data) => k.entries v.data
  | .static s, a => s.entries a

theorem filter_knows_entries (a : k.Value) :
    (k.entries a).filter (fun e => k.layout.knows e.1) = k.ownEntries a := by
  rcases k with _ | ⟨_ | _ | _⟩ | ⟨_ | _⟩ <;>
    simp [Layout.knows, layout, entries, ownEntries, Meta.entries, VersionKind.entries,
      StaticKind.entries, Meta.fields, Version.dataFields, VersionedData.columns, StaticData.fields,
      StaticData.columns]

/-- The meta data of a version are kept for later. -/
theorem unmet_entries {k : VersionKind} (v : (versioned k).Value) :
    (versioned k).layout.unmet ((versioned k).entries v).toMembers = v.toMeta.entries.toMembers := by
  cases k <;>
    simp [Layout.unmet, Layout.knows, Entries.toMembers, layout, entries, Meta.entries,
      VersionKind.entries, Version.dataFields, VersionedData.columns]

/-- Meta data are found in the fields that hold what they say. -/
theorem ofFlat?_metaEntries (m : Meta) (others : Members) :
    Meta.ofFlat? ⟨m.entries.toFields, others⟩ = some m := by
  simp [Meta.ofFlat?, Meta.entries, Entries.toFields, Flat.text?, Flat.int?, Flat.flag?]

/-- Meta data are found among members, if their number has 64 bits. -/
theorem ofMembers?_metaEntries {m : Meta} (h : FitsInt64 m.version) :
    Meta.ofMembers? m.entries.toMembers = some m := by
  have htext (s : String) : Json.Kind.text.ofJson? (.string s) = some (.text s) := rfl
  have hflag (b : Bool) : Json.Kind.flag.ofJson? (.bool b) = some (.flag b) := rfl
  have hversion : Json.Kind.int.ofJson? (.int m.version) = some (.int m.version) :=
    Scalar.ofJson?_toJson (v := .int m.version) h
  have hfound := ofFlat?_metaEntries m []
  simp only [Meta.entries, Entries.toFields, List.map_cons, List.map_nil] at hfound
  simp [Meta.ofMembers?, Meta.entries, Meta.fields, Entries.toMembers, Scalar.toJson, htext, hflag,
    hversion, hfound]

/-- The data of a version are found in the fields that hold what they say. -/
theorem dataOfFlat?_entries {k : VersionKind} (a : k.Data) (others : Members) :
    Version.dataOfFlat? ⟨(k.entries a).toFields, others⟩ = some a := by
  cases k <;>
  · simp [Version.dataOfFlat?, VersionKind.entries, Entries.toFields, VersionedData.columns,
      Scalar.toValue]
    rfl

/-- A record that is changed in place is found in the fields that hold what it says. -/
theorem ofFlat?_staticEntries {s : StaticKind} (a : s.Data) (others : Members) :
    StaticData.ofFlat? ⟨(s.entries a).toFields, others⟩ = some a := by
  cases s <;>
  · simp [StaticData.ofFlat?, StaticKind.entries, Entries.toFields, StaticData.columns, Flat.text?]
    rfl

/-- A record is found in what its layout makes of its members. -/
theorem ofFlat?_entries (h : (k.entries a).IsBounded) :
    k.ofFlat? ⟨(k.ownEntries a).toFields, k.layout.unmet (k.entries a).toMembers⟩ = some a := by
  cases k with
  | metadata => exact ofFlat?_metaEntries a _
  | static s => exact ofFlat?_staticEntries a _
  | versioned k =>
    obtain ⟨hversion, -⟩ := isBounded_versioned_iff.mp h
    have hdata := dataOfFlat?_entries a.data a.toMeta.entries.toMembers
    rw [unmet_entries]
    show Version.ofFlat? ⟨(k.entries a.data).toFields, a.toMeta.entries.toMembers⟩ = some a
    rw [Version.ofFlat?, ofMembers?_metaEntries hversion, hdata]
    rfl

theorem read_print (h : (k.entries a).IsBounded) (hreals : k.RealsReadBack a) :
    k.read (.ofString (k.print a)) = .ok a := by
  have hsuits := suits_entries a
  rw [print, toJson_eq h, read_eq,
    Layout.read_render (fits_toMembers h hreals) (Layout.admits_toMembers hsuits h),
    Layout.met_toMembers hsuits h, filter_knows_entries, ofFlat?_entries h]
  rfl

/-! ## What is read from any text -/

/-- What is found for all of a list is found for each. -/
theorem exists_of_mem_mapM {β γ : Type} {f : β → Option γ} {bs : List β} {cs : List γ}
    (h : bs.mapM f = some cs) {c : γ} (hc : c ∈ cs) : ∃ b ∈ bs, f b = some c := by
  induction bs generalizing cs with
  | nil =>
    cases h
    cases hc
  | cons b bs ih =>
    rw [List.mapM_cons] at h
    obtain ⟨c', hb, h⟩ := Option.bind_eq_some_iff.mp h
    obtain ⟨cs', hbs, heq⟩ := Option.bind_eq_some_iff.mp h
    cases heq
    rcases List.mem_cons.mp hc with rfl | hc
    · exact ⟨b, List.mem_cons_self, hb⟩
    · obtain ⟨b', hmem, hb'⟩ := ih hbs hc
      exact ⟨b', List.mem_cons_of_mem _ hmem, hb'⟩

/-- Meta data in bounded fields are bounded. -/
theorem isBounded_metaEntries {o : Flat} {m : Meta} (ho : o.IsBounded) (h : Meta.ofFlat? o = some m) :
    m.entries.IsBounded := by
  simp only [Meta.ofFlat?, Option.bind_eq_bind, Option.bind_eq_some_iff] at h
  obtain ⟨id, -, version, hversion, uid, -, isLatest, -, heq⟩ := h
  cases heq
  exact Meta.isBounded_entries_iff.mpr (ho.int? hversion)

/-- Meta data that are found among members are bounded, since none of their fields is one of floats. -/
theorem isBounded_of_ofMembers? {ms : Members} {m : Meta} (h : Meta.ofMembers? ms = some m) :
    m.entries.IsBounded := by
  have hkinds : ∀ f ∈ Meta.fields, f.kind ≠ .real := by decide
  simp only [Meta.ofMembers?, Option.bind_eq_bind] at h
  split at h
  · obtain ⟨values, hvalues, hflat⟩ := Option.bind_eq_some_iff.mp h
    refine isBounded_metaEntries (fun p hp => ?_) hflat
    obtain ⟨⟨key, j⟩, -, hp⟩ := exists_of_mem_mapM hvalues hp
    obtain ⟨f, hf, hp⟩ := Option.bind_eq_some_iff.mp hp
    obtain ⟨v, hv, heq⟩ := Option.bind_eq_some_iff.mp hp
    cases heq
    rintro _ ⟨⟩
    have hkind := hkinds f (List.mem_of_find?_eq_some hf)
    exact Json.Kind.isBounded_ofJson? (fun x _ hreal => absurd hreal hkind) hv
  · cases h

/-- A truth value in a column is a small integer, and other values are themselves. -/
theorem isBounded_of_toValue_eq {v w : Scalar} (hv : v.IsBounded) (h : v.toValue = w.toValue) :
    w.IsBounded := by
  cases w with
  | text s | flag b => trivial
  | int i =>
    cases v with
    | int j => cases h; exact hv
    | flag b =>
      cases h
      show FitsInt64 (if b then 1 else 0)
      cases b <;> decide
    | text s | real x => cases h
  | real x =>
    cases v with
    | real y => cases h; exact hv
    | text s | int i | flag b => cases h

/-- The columns of data hold what the data say. -/
theorem map_toValue_entries {k : VersionKind} {cells : List Sql.Value} {a : k.Data}
    (h : VersionedData.ofCells? cells = some a) : (k.entries a).map (·.2.toValue) = cells := by
  -- Each kind knows its columns by a pattern of its own.
  cases k with
  | job =>
    replace h : VersionedData.ofCells? (α := Job) cells = some a := h
    simp only [VersionedData.ofCells?] at h
    split at h <;> cases h
    rfl
  | timelog =>
    replace h : VersionedData.ofCells? (α := Timelog) cells = some a := h
    simp only [VersionedData.ofCells?] at h
    split at h <;> cases h
    rfl
  | payment =>
    replace h : VersionedData.ofCells? (α := Payment) cells = some a := h
    simp only [VersionedData.ofCells?] at h
    split at h <;> cases h
    rfl

/-- Data in bounded fields are bounded. -/
theorem isBounded_of_dataOfFlat? {k : VersionKind} {o : Flat} {a : k.Data} (ho : o.IsBounded)
    (h : Version.dataOfFlat? o = some a) : (k.entries a).IsBounded := by
  obtain ⟨cells, hcells, hdata⟩ := Option.bind_eq_some_iff.mp h
  intro e he
  have hmem : e.2.toValue ∈ cells := by
    rw [← map_toValue_entries hdata]
    exact List.mem_map_of_mem he
  obtain ⟨c, -, hc⟩ := exists_of_mem_mapM hcells hmem
  obtain ⟨v, hv, heq⟩ := Option.map_eq_some_iff.mp hc
  exact isBounded_of_toValue_eq (ho.get? hv) heq

/-- The integers of a record that is read have 64 bits, and its floats are finite. -/
theorem isBounded_of_read {s : Source} (h : k.read s = .ok a) : (k.entries a).IsBounded := by
  rw [read_eq] at h
  obtain ⟨o, ho, hgive⟩ := Layout.exists_of_read h
  have hflat : k.ofFlat? o = some a := by
    cases hflat : k.ofFlat? o with
    | none => rw [hflat] at hgive; cases hgive
    | some b => rw [hflat] at hgive; cases hgive; rfl
  cases k with
  | metadata => exact isBounded_metaEntries ho hflat
  | versioned k =>
    obtain ⟨m, hm, hrest⟩ := Option.bind_eq_some_iff.mp hflat
    obtain ⟨data, hdata, heq⟩ := Option.bind_eq_some_iff.mp hrest
    cases heq
    have hversion := Meta.isBounded_entries_iff.mp (isBounded_of_ofMembers? hm)
    exact isBounded_versioned_iff.mpr ⟨hversion, isBounded_of_dataOfFlat? ho hdata⟩
  | static s =>
    -- All that it says are texts.
    cases s <;> simp [Entries.IsBounded, entries, StaticKind.entries, Scalar.IsBounded]

/-! ## There and back -/

/-- A record whose finite floats come back from their texts comes back from its own, whatever characters its
texts have and whatever its integers of 64 bits are. -/
theorem roundTrips (k : RecordKind) (a : k.Value) (hreals : k.RealsReadBack a) : k.RoundTrips a where
  toJson_eq := toJson_eq
  read_print h := read_print h hreals
  reprint_reprint s hs := by
    have hprint := read_print (isBounded_of_read hs) hreals
    rw [reprint, reprint, hs, hprint]
    exact ⟨rfl, rfl⟩

/-- A job with much that has to be escaped, a rate that is written with an exponent and the last number that
a version can have. -/
def escapedJob : (versioned .job).Value :=
  { id := "\"\\/", version := 9223372036854775807, uid := "", isLatest := false
    data :=
      { status := "\x00\x1f\x7f", rate := 1.5e-7, title := "a\n\tb 😀", companyId := "é",
        contractorId := "\\u0041" } }

theorem realsReadBack_escapedJob : (versioned .job).RealsReadBack escapedJob := by
  intro name x hx _
  obtain ⟨-, rfl⟩ : name = "rate" ∧ x = 1.5e-7 := by
    simpa [escapedJob, entries, Meta.entries, VersionKind.entries] using hx
  have htokens : Json.tokens ((Json.chars (.number (.real 1.5e-7))).map some) =
      [.number ⟨false, [1], [5], true, [7]⟩] := by decide +kernel
  have hreal : (⟨false, [1], [5], true, [7]⟩ : Json.Numeral).realValue = some 1.5e-7 := by
    decide +kernel
  have hvalue : (⟨false, [1], [5], true, [7]⟩ : Json.Numeral).value = some (.real 1.5e-7) := by
    simp [Json.Numeral.value, hreal]
  rw [Json.Number.ReadsBack, Json.ofString_render, Json.parse?, htokens]
  simp [Json.frontTree?, Json.tree?, Json.Tree.value?, Json.Token.value?, hvalue]

theorem isBounded_escapedJob : ((versioned .job).entries escapedJob).IsBounded := by
  have hversion : FitsInt64 9223372036854775807 := by decide
  have hrate : (1.5e-7 : Float).isFinite = true := by decide +kernel
  simpa [Entries.IsBounded, escapedJob, entries, Meta.entries, VersionKind.entries, Scalar.IsBounded]
    using And.intro hversion hrate

/-- The job is bounded, so it comes back from its text. -/
theorem roundTrips_escapedJob :
    (versioned .job).RealsReadBack escapedJob ∧ ((versioned .job).entries escapedJob).IsBounded ∧
      (versioned .job).RoundTrips escapedJob :=
  ⟨realsReadBack_escapedJob, isBounded_escapedJob, roundTrips _ _ realsReadBack_escapedJob⟩

end RecordKind

end Payroll
