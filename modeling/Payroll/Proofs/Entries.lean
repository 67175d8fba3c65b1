import Payroll.Proofs.Kind
import Payroll.Proofs.Layout
import Payroll.Proofs.Real
import Payroll.Record.Form
/-!
# What records say

A record says texts, numbers and truth values, each under the name of a field. What is printed of it is one
flat object of these, in which the meta data of a version stand beside its data.

## Key results

- `RecordKind.toJson_eq`: the object that is printed of a record
- `RecordKind.fits_toMembers`: a record can be printed and read back
-/

namespace Payroll

open Json (Entries Fits Scalar maxDepth)

/-! ## What a record says -/

/-- What meta data say. -/
def Meta.entries (m : Meta) : Entries :=
  [("id", .text m.id), ("version", .int m.version), ("uid", .text m.uid), ("is_latest", .flag m.isLatest)]

theorem Meta.isBounded_entries_iff {m : Meta} : m.entries.IsBounded ↔ FitsInt64 m.version := by
  simp [Entries.IsBounded, entries, Scalar.IsBounded]

/-- What a version of the kind says beside its meta data. -/
def VersionKind.entries : (k : VersionKind) → k.Data → Entries
  | .job, (j : Job) =>
    [("status", .text j.status), ("rate", .real j.rate), ("title", .text j.title),
      ("company_id", .text j.companyId), ("contractor_id", .text j.contractorId)]
  | .timelog, (t : Timelog) =>
    [("duration", .int t.duration), ("time_start", .int t.timeStart), ("time_end", .int t.timeEnd),
      ("type", .text t.type), ("job_uid", .text t.jobUid)]
  | .payment, (p : Payment) =>
    [("job_uid", .text p.jobUid), ("timelog_uid", .text p.timelogUid), ("amount", .real p.amount),
      ("status", .text p.status)]

/-- What a record that is changed in place says. -/
def StaticKind.entries : (s : StaticKind) → s.Data → Entries
  | .company, (c : Company) =>
    [("id", .text c.id), ("name", .text c.name), ("created_at", .text c.createdAt),
      ("updated_at", .text c.updatedAt)]
  | .contractor, (c : Contractor) =>
    [("id", .text c.id), ("name", .text c.name), ("email", .text c.email), ("phone", .text c.phone),
      ("created_at", .text c.createdAt), ("updated_at", .text c.updatedAt)]

/-- What is written as a flat object: meta data by themselves, a version, or a record that is changed in
place. -/
inductive RecordKind where
  | metadata
  | versioned (k : VersionKind)
  | static (s : StaticKind)
deriving DecidableEq

namespace RecordKind

/-- A record of the kind. -/
def Value : RecordKind → Type
  | .metadata => Meta
  | .versioned k => Version k.Data
  | .static s => s.Data

/-- The record as an object. -/
def toJson : (k : RecordKind) → k.Value → Json
  | .metadata => Meta.toJson
  | .versioned _ => Version.toJson
  | .static s => StaticData.toJson (α := s.Data)

/-- What the record says: texts, numbers and truth values, each under a name of its own. The meta data of a
version come first. -/
def entries : (k : RecordKind) → k.Value → Entries
  | .metadata, (m : Meta) => m.entries
  | .versioned k, (v : Version k.Data) => v.toMeta.entries ++ k.entries v.data
  | .static s, a => s.entries a

/-- The floats of the record, if they are finite, are read back from their own texts. A reader that scales
digits by a power of ten could miss one by its last place. -/
def RealsReadBack (k : RecordKind) (a : k.Value) : Prop :=
  ∀ name x, (name, .real x) ∈ k.entries a → x.isFinite = true → (Json.Number.real x).ReadsBack

variable {k : RecordKind} {a : k.Value}

/-! ## What is printed -/

/-- The columns of a version hold what its data say. A float that is no number would have no value there. -/
theorem cells_eq {k : VersionKind} {a : k.Data} (h : (k.entries a).IsBounded) :
    VersionedData.cells a = (k.entries a).map (·.2.toValue) := by
  cases k with
  | timelog => rfl
  | job =>
    have hrate : (Job.rate a).isFinite = true := h ("rate", .real _) (by simp [VersionKind.entries])
    show VersionedData.cells (α := Job) a = _
    simp only [VersionedData.cells, realCell_eq (isNaN_of_isFinite hrate)]
    rfl
  | payment =>
    have hamount : (Payment.amount a).isFinite = true :=
      h ("amount", .real _) (by simp [VersionKind.entries])
    show VersionedData.cells (α := Payment) a = _
    simp only [VersionedData.cells, realCell_eq (isNaN_of_isFinite hamount)]
    rfl

/-- The members of a version's data are what the data say. -/
theorem dataMembers_eq {k : VersionKind} {a : k.Data} (h : (k.entries a).IsBounded) :
    Version.dataMembers a = (k.entries a).toMembers := by
  rw [Version.dataMembers, cells_eq h]
  cases k <;> rfl

/-- The numbers of a version are bounded if its own number is and those of its data are. -/
theorem isBounded_versioned_iff {k : VersionKind} {v : (versioned k).Value} :
    ((versioned k).entries v).IsBounded ↔ FitsInt64 v.version ∧ (k.entries v.data).IsBounded := by
  rw [← Meta.isBounded_entries_iff]
  exact List.forall_mem_append

/-- What is printed of a record is the object of what it says. -/
theorem toJson_eq (h : (k.entries a).IsBounded) : k.toJson a = .object (k.entries a).toMembers := by
  cases k with
  | metadata => rfl
  | versioned k =>
    have hdata := dataMembers_eq (isBounded_versioned_iff.mp h).2
    show Json.object (a.toMeta.toMembers ++ Version.dataMembers a.data) =
      .object (Entries.toMembers (a.toMeta.entries ++ k.entries a.data))
    rw [hdata, Entries.toMembers, Entries.toMembers, List.map_append]
    rfl
  | static s => cases s <;> rfl

/-- The names under which a record says things. -/
def names : RecordKind → List String
  | .metadata => Meta.fields.map (·.name)
  | .versioned k => Meta.fields.map (·.name) ++ (VersionedData.columns k.Data).map (·.name)
  | .static s => "id" :: StaticData.columns s.Data

theorem nodup_names (k : RecordKind) : k.names.Nodup := by
  rcases k with _ | ⟨_ | _ | _⟩ | ⟨_ | _⟩ <;> decide

/-- What a record says can be read back. -/
theorem fits_toMembers (h : (k.entries a).IsBounded) (hreals : k.RealsReadBack a) :
    Fits maxDepth (.object (k.entries a).toMembers) := by
  refine ⟨by decide, ?_, Json.membersFit_iff.mpr fun m hm => ?_⟩
  · have hnames : (k.entries a).toMembers.map Prod.fst = k.names := by
      rcases k with _ | ⟨_ | _ | _⟩ | ⟨_ | _⟩ <;> rfl
    rw [hnames]
    exact nodup_names k
  · obtain ⟨⟨name, v⟩, hmem, rfl⟩ := List.mem_map.mp hm
    refine Scalar.fits_toJson (h _ hmem) (fun x hx => ?_) _
    subst hx
    exact hreals name x hmem (h _ hmem)

end RecordKind

end Payroll
