import Payroll.Proofs.Entries
import Payroll.Proofs.Recheck
/-!
# Printed records as request bodies

What is printed of a record is a flat object, so a request can be read from it: the keys that the request
knows give its fields, and what is under other keys is passed over. The data of a version that is printed
come out as they went in.

## Key results

- `Version.fits_toJson`: a version can be printed and read back
- `statedBy_job`, `statedBy_payment`: the request that a printed version is
-/

namespace Payroll

open Json (Fits Kind Layout Scalar maxDepth render)
open Text (Source)

/-! ## Printed versions -/

namespace Version

variable {k : VersionKind}

/-- The floats of the version are read back from their own texts. -/
def RealsReadBack (v : Version k.Data) : Prop :=
  ∀ x, .real x ∈ VersionedData.cells v.data → (Json.Number.real x).ReadsBack

/-- A version can be printed and read back if its numbers are bounded and its floats are read back. -/
theorem fits_toJson {v : Version k.Data} (hversion : FitsInt64 v.version)
    (hdata : (k.entries v.data).IsBounded) (hreals : v.RealsReadBack) : Fits maxDepth v.toJson := by
  have hbounded := RecordKind.isBounded_versioned_iff.mpr ⟨hversion, hdata⟩
  show Fits maxDepth ((RecordKind.versioned k).toJson v)
  rw [RecordKind.toJson_eq hbounded]
  refine RecordKind.fits_toMembers hbounded fun name x hx _ => ?_
  -- No meta data are floats, and the floats of the data are in their columns.
  rcases List.mem_append.mp hx with hx | hx
  · simp [Meta.entries] at hx
  · refine hreals x ?_
    rw [RecordKind.cells_eq hdata]
    exact List.mem_map_of_mem hx

end Version

/-! ## Requests that are printed versions -/

/-- What is printed of a version of the kind, if its data are valid, is a request of the type, whose check
gives the data of the version. -/
def VersionKind.StatedBy (k : VersionKind) (ρ : Type) [Request ρ] (check : ρ → Except Invalid k.Data) :
    Prop :=
  ∀ v : Version k.Data, k.IsValid v.data → Fits maxDepth v.toJson →
    ∃ r, Request.read ρ (Source.ofString (render v.toJson)) = .ok r ∧ check r = .ok v.data

/-- A request is read from what is printed of a version, whose keys it knows or passes over. -/
theorem Request.read_toJson {k : VersionKind} {ρ : Type} [Request ρ] {v : Version k.Data}
    (hfits : Fits maxDepth v.toJson) {met : List (String × Option Scalar)}
    (hmet : Layout.met ⟨Request.fields ρ, true, false⟩
      (v.toMeta.toMembers ++ Version.dataMembers v.data) = met)
    (hsome : ∀ p ∈ met, p.2.isSome = true) :
    Request.read ρ (Source.ofString (render v.toJson)) = .ok (Request.ofFlat ⟨met, []⟩) := by
  subst hmet
  have hread := Layout.read_render hfits hsome fun o => .ok (Request.ofFlat (ρ := ρ) o)
  rwa [Layout.unmet_eq_nil rfl] at hread

theorem statedBy_job : VersionKind.StatedBy .job JobRequest JobRequest.check := by
  intro (v : Version Job) hvalid hfits
  have hcell : realCell v.data.rate = .real v.data.rate :=
    realCell_eq (isNaN_of_isFinite hvalid.rate.1)
  have hmet : Layout.met ⟨Request.fields JobRequest, true, false⟩
      (v.toMeta.toMembers ++ Version.dataMembers v.data) =
      [("status", some (.text v.data.status)), ("rate", some (.real v.data.rate)),
        ("title", some (.text v.data.title)), ("company_id", some (.text v.data.companyId)),
        ("contractor_id", some (.text v.data.contractorId))] := by
    simp [Layout.met, Meta.toMembers, Version.dataMembers, VersionedData.columns,
      VersionedData.cells, hcell, Sql.Value.toJson, Request.fields, Kind.ofJson?, Json.real,
      Json.Number.toFloat]
  exact ⟨_, Request.read_toJson (k := .job) hfits hmet (by simp), JobRequest.check_of_isValid hvalid⟩

theorem statedBy_payment :
    VersionKind.StatedBy .payment PaymentRequest PaymentRequest.check := by
  intro (v : Version Payment) hvalid hfits
  have hcell : realCell v.data.amount = .real v.data.amount :=
    realCell_eq (isNaN_of_isFinite hvalid.amount.1)
  have hmet : Layout.met ⟨Request.fields PaymentRequest, true, false⟩
      (v.toMeta.toMembers ++ Version.dataMembers v.data) =
      [("job_uid", some (.text v.data.jobUid)), ("timelog_uid", some (.text v.data.timelogUid)),
        ("amount", some (.real v.data.amount)), ("status", some (.text v.data.status))] := by
    simp [Layout.met, Meta.toMembers, Version.dataMembers, VersionedData.columns,
      VersionedData.cells, hcell, Sql.Value.toJson, Request.fields, Kind.ofJson?, Json.real,
      Json.Number.toFloat]
  exact ⟨_, Request.read_toJson (k := .payment) hfits hmet (by simp),
    PaymentRequest.check_of_isValid hvalid⟩

end Payroll
