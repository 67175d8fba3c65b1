import Payroll.Proofs.Arrangement
import Payroll.Proofs.Grammar
import Payroll.Proofs.Recheck
/-!
# Requests in other words

A request is what its fields hold, however the body says it. Blanks, the order of the members, members of
unknown keys and nulls for fields that are left out make no difference, and an array of the values says as
much as the object.

## Key results

- `Request.read_eq_ok_iff`: the texts that a request is read from
- `RequestKind.dependsOnFields`: what makes no difference to it
-/

namespace Payroll

open Json (Fault Flat Layout Tree Writes tokens)
open Text (Source)

namespace Request

variable {ρ : Type} [Request ρ] {r : ρ} {s s' : Source} {ms ms' : List (Option String × Tree)}

/-- How a request of the type is read. -/
def layout (ρ : Type) [Request ρ] : Layout :=
  ⟨fields ρ, true, false⟩

/-- A request is read from a text exactly if the text writes a tree that gives it. -/
theorem read_eq_ok_iff : read ρ s = .ok r ↔
    ∃ x o, Writes s x ∧ (layout ρ).ofTree? x = some o ∧ ofFlat o = r := by
  constructor
  · intro h
    unfold read Layout.read at h
    split at h
    · cases h
    · rename_i o rest hobject
      cases rest with
      | nil =>
        cases h
        obtain ⟨x, hsound, htokens, ho⟩ := Layout.readObject_eq_ok_iff.mp hobject
        rw [List.append_nil] at htokens
        exact ⟨x, o, Json.writes_iff.mpr ⟨hsound, htokens⟩, ho, rfl⟩
      | cons t rest => cases h
  · rintro ⟨x, o, hx, ho, rfl⟩
    obtain ⟨hsound, htokens⟩ := Json.writes_iff.mp hx
    have hobject : (layout ρ).readObject (tokens s) = .ok (o, []) :=
      Layout.readObject_eq_ok_iff.mpr ⟨x, hsound, by rw [htokens, List.append_nil], ho⟩
    rw [layout] at hobject
    simp only [read, Layout.read, hobject]

/-! ## Requests as their fields -/

/-- A request is made of what its fields hold, each of which has a name of its own and may be left out. -/
structure IsFieldwise (ρ : Type) [Request ρ] : Prop where
  plain : (layout ρ).IsPlain
  optional : ∀ f ∈ (layout ρ).fields, f.optional = true
  ofFlat_congr : ∀ o o' : Flat, (∀ f ∈ (layout ρ).fields, o.get? f.name = o'.get? f.name) →
    (ofFlat o : ρ) = ofFlat o'

theorem isFieldwise_company : IsFieldwise CompanyRequest where
  plain := ⟨by simp [layout, fields], rfl⟩
  optional := by simp [layout, fields]
  ofFlat_congr o o' h := by
    simp only [layout, fields, List.forall_mem_cons] at h
    simp only [ofFlat, Flat.text?, h]

theorem isFieldwise_contractor : IsFieldwise ContractorRequest where
  plain := ⟨by simp [layout, fields], rfl⟩
  optional := by simp [layout, fields]
  ofFlat_congr o o' h := by
    simp only [layout, fields, List.forall_mem_cons] at h
    simp only [ofFlat, Flat.text?, h]

theorem isFieldwise_job : IsFieldwise JobRequest where
  plain := ⟨by simp [layout, fields], rfl⟩
  optional := by simp [layout, fields]
  ofFlat_congr o o' h := by
    simp only [layout, fields, List.forall_mem_cons] at h
    simp only [ofFlat, Flat.text?, Flat.real?, h]

theorem isFieldwise_timelog : IsFieldwise TimelogRequest where
  plain := ⟨by simp [layout, fields], rfl⟩
  optional := by simp [layout, fields]
  ofFlat_congr o o' h := by
    simp only [layout, fields, List.forall_mem_cons] at h
    simp only [ofFlat, Flat.text?, Flat.int?, h]

theorem isFieldwise_payment : IsFieldwise PaymentRequest where
  plain := ⟨by simp [layout, fields], rfl⟩
  optional := by simp [layout, fields]
  ofFlat_congr o o' h := by
    simp only [layout, fields, List.forall_mem_cons] at h
    simp only [ofFlat, Flat.text?, Flat.real?, h]

namespace IsFieldwise

/-- A request is read from an object whose members can be taken, and holds what they give. -/
theorem read_eq_ok_iff_of_object (hρ : IsFieldwise ρ) (hs : Writes s (.object ms)) :
    read ρ s = .ok r ↔ (layout ρ).Takes ms ∧ ofFlat ⟨(layout ρ).given ms, []⟩ = r := by
  rw [read_eq_ok_iff]
  constructor
  · rintro ⟨x, o, hx, ho, rfl⟩
    obtain rfl := hx.unique hs
    obtain ⟨htakes, rfl⟩ := (Layout.ofTree?_object_eq_some_iff hρ.plain).mp ho
    exact ⟨htakes, rfl⟩
  · rintro ⟨htakes, rfl⟩
    exact ⟨_, _, hs, (Layout.ofTree?_object_eq_some_iff hρ.plain).mpr ⟨htakes, rfl⟩, rfl⟩

/-- Changes of the members that say nothing new leave the request as it was. -/
theorem read_rearranged (hρ : IsFieldwise ρ) (hs : Writes s (.object ms)) (hread : read ρ s = .ok r)
    (h : Relation.ReflTransGen (layout ρ).Rearranges ms ms') (hs' : Writes s' (.object ms')) :
    read ρ s' = .ok r := by
  obtain ⟨htakes, rfl⟩ := (hρ.read_eq_ok_iff_of_object hs).mp hread
  obtain ⟨htakes', hheld⟩ := htakes.rearranged hρ.optional h
  refine (hρ.read_eq_ok_iff_of_object hs').mpr ⟨htakes', hρ.ofFlat_congr _ _ fun f hf => ?_⟩
  rw [htakes'.get?_given hρ.plain hf, htakes.get?_given hρ.plain hf, hheld f hf]

/-- The array of the values gives the request that the members give. -/
theorem read_row (hρ : IsFieldwise ρ) (hs : Writes s (.object ms)) (hread : read ρ s = .ok r)
    (hs' : Writes s' (.array ((layout ρ).row ms))) : read ρ s' = .ok r := by
  obtain ⟨htakes, rfl⟩ := (hρ.read_eq_ok_iff_of_object hs).mp hread
  refine read_eq_ok_iff.mpr ⟨_, _, hs', htakes.ofTree?_row hρ.optional rfl, ?_⟩
  refine hρ.ofFlat_congr _ _ fun f hf => ?_
  rw [Layout.get?_map_held hρ.plain hf, htakes.get?_given hρ.plain hf]

end IsFieldwise

end Request

/-! ## The texts that there are -/

namespace Json.Layout

variable {l : Layout} {ms : List (Option String × Tree)}

/-- Members that can be taken are written by some text if each of their values is. -/
theorem Takes.exists_writes (hms : l.Takes ms) (hvalues : ∀ m ∈ ms, ∃ s, Writes s m.2) :
    ∃ s, Writes s (.object ms) := by
  refine exists_writes_object_iff.mpr fun m hm => ⟨?_, hvalues m hm⟩
  obtain ⟨key, hkey⟩ := Option.ne_none_iff_exists'.mp (hms.keys m hm)
  rw [hkey]
  exact exists_tokens_eq_text key

/-- The array of the values is written by some text then. -/
theorem exists_writes_row (l : Layout) (hvalues : ∀ m ∈ ms, ∃ s, Writes s m.2) :
    ∃ s, Writes s (.array (l.row ms)) := by
  refine exists_writes_array_iff.mpr fun x hx => ?_
  obtain ⟨f, -, rfl⟩ := List.mem_map.mp hx
  cases hlookup : ms.lookup (some f.name) with
  | none => exact exists_writes_null
  | some x =>
    obtain ⟨before, after, rfl, -⟩ := List.lookup_eq_some_iff.mp hlookup
    exact hvalues (some f.name, x) (by simp)

end Json.Layout

/-! ## All kinds of requests -/

namespace RequestKind

instance : (k : RequestKind) → Request k.Body
  | .company => inferInstanceAs (Request CompanyRequest)
  | .contractor => inferInstanceAs (Request ContractorRequest)
  | .job => inferInstanceAs (Request JobRequest)
  | .timelog => inferInstanceAs (Request TimelogRequest)
  | .payment => inferInstanceAs (Request PaymentRequest)

theorem isFieldwise : (k : RequestKind) → Request.IsFieldwise k.Body
  | .company => Request.isFieldwise_company
  | .contractor => Request.isFieldwise_contractor
  | .job => Request.isFieldwise_job
  | .timelog => Request.isFieldwise_timelog
  | .payment => Request.isFieldwise_payment

/-- What comes of a body: no request, one with something wrong, or the data that it asks for. -/
def outcome (k : RequestKind) (s : Source) : Except Fault (Except Invalid k.Data) :=
  (Request.read k.Body s).map k.check

/-- What a request of the kind depends on in the text of its body. -/
structure DependsOnFields (k : RequestKind) : Prop where
  /-- The text is an object or an array. -/
  written : ∀ s r, Request.read k.Body s = .ok r →
    (∃ ms, Writes s (.object ms)) ∨ ∃ xs, Writes s (.array xs)
  /-- An object is read exactly if its members can be taken, and is what they give the fields. -/
  object : ∀ s r ms, Writes s (.object ms) → (Request.read k.Body s = .ok r ↔
    (Request.layout k.Body).Takes ms ∧ Request.ofFlat ⟨(Request.layout k.Body).given ms, []⟩ = r)
  /-- Any text says as much whose members say nothing new about the fields, whatever the blanks in it. -/
  rearranged : ∀ s r ms, Writes s (.object ms) → Request.read k.Body s = .ok r →
    ∀ s' ms', Relation.ReflTransGen (Request.layout k.Body).Rearranges ms ms' →
      Writes s' (.object ms') → Request.read k.Body s' = .ok r ∧ k.outcome s' = k.outcome s
  /-- So does any array of the values of the fields in their order. -/
  listed : ∀ s r ms, Writes s (.object ms) → Request.read k.Body s = .ok r →
    ∀ s', Writes s' (.array ((Request.layout k.Body).row ms)) →
      Request.read k.Body s' = .ok r ∧ k.outcome s' = k.outcome s
  /-- Members that can be taken are an object that some text writes if each of their values is, and then one
  writes the array, too. -/
  writable : ∀ ms, (Request.layout k.Body).Takes ms → (∀ m ∈ ms, ∃ s, Writes s m.2) →
    (∃ s, Writes s (.object ms)) ∧ ∃ s, Writes s (.array ((Request.layout k.Body).row ms))

theorem outcome_congr {k : RequestKind} {s s' : Source} {r : k.Body}
    (hs : Request.read k.Body s = .ok r) (hs' : Request.read k.Body s' = .ok r) :
    k.outcome s' = k.outcome s := by
  rw [outcome, outcome, hs, hs']

/-- **A request depends on its fields alone.** -/
theorem dependsOnFields (k : RequestKind) : k.DependsOnFields where
  written s r hread := by
    obtain ⟨x, o, hx, ho, -⟩ := Request.read_eq_ok_iff.mp hread
    cases x with
    | leaf t => cases ho
    | array xs => exact .inr ⟨xs, hx⟩
    | object ms => exact .inl ⟨ms, hx⟩
  object s r ms hs := k.isFieldwise.read_eq_ok_iff_of_object hs
  rearranged s r ms hs hread s' ms' h hs' := by
    have hread' := k.isFieldwise.read_rearranged hs hread h hs'
    exact ⟨hread', outcome_congr hread hread'⟩
  listed s r ms hs hread s' hs' := by
    have hread' := k.isFieldwise.read_row hs hread hs'
    exact ⟨hread', outcome_congr hread hread'⟩
  writable ms htakes hvalues := ⟨htakes.exists_writes hvalues, Layout.exists_writes_row _ hvalues⟩

end RequestKind

end Payroll
