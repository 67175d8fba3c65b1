import Payroll.Proofs.Read
/-!
# All reads describe one history

The five ways of reading versions see the same history of each record: the latest version is the last one
of the history, the versions found by their own ids are those of the histories, and the latest versions of
all records, with or without a filter, are the latest ones of the records that have been created. Only a
filter with more terms than may stand together reads nothing.

## Key results

- `Keeps.happens_creates_iff`: the ids of a table are those of the records that have been created
- `readsAgree_after`: the reads agree in every state that can be reached
-/

namespace Payroll

open History (numbers ofId row rows)
open Sql (Filter)

variable {k : VersionKind} {l : Ledger} {hs : Histories}

namespace Ledger

/-! ## The records that have been created -/

/-- An operation that writes the first version of an id creates a record. -/
theorem Keeps.creates_iff (hl : l.Keeps hs) (id : String) (o : Operation) :
    ofId id (hs k ++ o.written k l) ≠ [] ↔ ofId id (hs k) ≠ [] ∨ o.Creates k id l := by
  constructor
  · intro hne
    by_cases hold : ofId id (hs k) = []
    · right
      rw [History.ofId_append, hold, List.nil_append] at hne
      -- Whatever has the id now is what the operation has written.
      obtain ⟨v, vs, hvs⟩ := List.exists_cons_of_ne_nil hne
      have hv : v ∈ ofId id (o.written k l) := by
        rw [hvs]
        exact List.mem_cons_self
      obtain ⟨hmem, hvid⟩ := History.mem_ofId.mp hv
      rcases Operation.mem_written_iff.mp hmem with ⟨record, rfl, hok⟩ | ⟨id', record, rfl, hok⟩
      · exact ⟨record, v, rfl, hok, hvid⟩
      · -- Adding a version takes one that is there.
        obtain ⟨hid', -, hne'⟩ := append_eq_ok hl.isMigrated (hl.keeps k) hok
        rw [← hid', hvid] at hne'
        exact absurd hold hne'
    · exact Or.inl hold
  · rintro (hne | ⟨record, v, rfl, hok, hvid⟩)
    · rw [History.ofId_append]
      exact List.append_ne_nil_of_left_ne_nil hne _
    · have hmem : v ∈ (Operation.versioned k (.create record)).written k l :=
        Operation.mem_written_iff.mpr (Or.inl ⟨record, rfl, hok⟩)
      exact List.ne_nil_of_mem (History.mem_ofId.mpr ⟨List.mem_append_right _ hmem, hvid⟩)

/-- The ids in a table are those that were there and those of the records that operations create. -/
theorem Keeps.happens_creates_iff (hl : l.Keeps hs) (id : String) (ops : List Operation) :
    ofId id (hs k ++ l.written k ops) ≠ [] ↔
      ofId id (hs k) ≠ [] ∨ l.Happens (Operation.Creates k id) ops := by
  induction ops generalizing l hs with
  | nil => simp [Happens, written]
  | cons o ops ih =>
    rw [written, ← List.append_assoc, ih (hl.step o), hl.creates_iff, Happens, or_assoc]

/-! ## Agreement -/

/-- The strong reads of a kind agree with each other, given which ids have been created and in which
order versions have been written. -/
structure ReadsAgree (l : Ledger) (k : VersionKind) (created : String → Prop) (order : List String) :
    Prop where
  /-- The versions of an id are numbered from one on, and the last of them, which is the latest version
  that is read by the id, is the only one that claims to be the latest. -/
  history : ∀ id, ∃ vs, (l.history k.Data .strong id).1 = .ok vs ∧
    vs.map (·.version) = numbers vs.length ∧
    (∀ (i : Nat) r, vs[i]? = some r → r.id = id ∧ (r.isLatest = true ↔ i + 1 = vs.length)) ∧
    (l.latest? k.Data .strong id).1 = .ok vs.getLast?
  /-- A version is found by an id of its own if it is among the versions of its id. -/
  ofUid : ∀ uid, ∃ found, (l.ofUid? k.Data .strong uid).1 = .ok found ∧
    ∀ r, found = some r ↔
      r.uid = uid ∧ ∃ vs, (l.history k.Data .strong r.id).1 = .ok vs ∧ r ∈ vs
  /-- The latest versions of all records are those of the ids that have been created, each once, in the
  order in which they were written. -/
  allLatest : ∃ rs, (l.allLatest k.Data .strong).1 = .ok rs ∧
    (∀ r, r ∈ rs ↔ created r.id ∧ (l.latest? k.Data .strong r.id).1 = .ok (some r)) ∧
    (∀ id, created id → ∃ r ∈ rs, r.id = id) ∧
    (rs.map (·.id)).Nodup ∧ order.Nodup ∧ (rs.map (·.uid)).Sublist order
  /-- A filter of texts and integers keeps those of the latest versions whose columns have the values
  that it asks for, if it has fewer terms than may stand together. -/
  latestWhere : ∀ f : Filter, f.Typed k.Data → f.terms.length < Database.maxTerms →
    ∃ (rs : List (Version k.Data)) (keeps : _ → Bool),
      (l.allLatest k.Data .strong).1 = .ok rs ∧
      (l.latestWhere k.Data .strong f).1 = .ok (rs.filter keeps) ∧
      ∀ r, keeps r = true ↔ ∀ t ∈ f.terms, r.value? t.1 = some t.2
  /-- With one term more, for the latest versions, a longer one is refused. -/
  refused : ∀ f : Filter, f.Typed k.Data → Database.maxTerms ≤ f.terms.length →
    (l.latestWhere k.Data .strong f).1 = .error (.database .tooDeep)

/-- The reads of a kind whose table keeps a history agree. -/
theorem Keeps.readsAgree (hl : l.Keeps hs) {created : String → Prop}
    (hc : ∀ id, ofId id (hs k) ≠ [] ↔ created id) : l.ReadsAgree k created ((hs k).map (·.uid)) := by
  have ho := (hl.keeps k).orderly
  have hd : ((rows (hs k)).map (·.uid)).Nodup := by
    rw [History.map_uid_rows]
    exact ho.distinct
  constructor
  case history =>
    intro id
    refine ⟨_, hl.history_eq id, ?_, ?_, ?_⟩
    · rw [History.map_version_rows, ho.numbered, History.length_rows]
    · intro i r hr
      refine ⟨?_, History.isLatest_getElem? (fun v hv => (History.mem_ofId.mp hv).2) hr⟩
      -- The rows that are read are those of the table with the id.
      have hmem := List.mem_of_getElem? hr
      rw [← History.filter_rows] at hmem
      simpa using (List.mem_filter.mp hmem).2
    · rw [History.getLast?_rows]
      exact hl.latest?_eq id
  case ofUid =>
    intro uid
    refine ⟨_, hl.ofUid?_eq uid, fun r => ?_⟩
    rw [History.find?_uid_eq_some_iff hd, and_comm, hl.history_eq, ← History.filter_rows]
    simp
  case allLatest =>
    refine ⟨_, hl.allLatest_eq, fun r => ?_, fun id hid => ?_, History.nodup_id_latest (hs k),
      ho.distinct, ?_⟩
    · rw [History.mem_latest_iff, hl.latest?_eq, Except.ok.injEq, ← hc]
      constructor
      · intro hlast
        refine ⟨fun hnil => ?_, hlast⟩
        rw [hnil] at hlast
        exact nomatch hlast
      · exact And.right
    · obtain ⟨v, hv⟩ : ∃ v, (ofId id (hs k)).getLast? = some v :=
        ⟨_, List.getLast?_eq_some_getLast ((hc id).mpr hid)⟩
      have hvid := (History.mem_ofId.mp (List.mem_of_getLast? hv)).2
      refine ⟨row true v, History.mem_latest_iff.mpr ?_, hvid⟩
      rw [History.row_id, hvid, hv, Option.map_some]
    · -- Rows stand in the order of the history, and keep the ids of its versions.
      have hsub : (((rows (hs k)).filter (·.isLatest)).map (·.uid)).Sublist
          ((rows (hs k)).map (·.uid)) := List.filter_sublist.map _
      rwa [History.map_uid_rows] at hsub
  case latestWhere =>
    intro f hf hshort
    refine ⟨_, _, hl.allLatest_eq, ?_, fun r => holds_iff r hf⟩
    rw [hl.latestWhere_eq (validate_eq_ok hf), if_neg (Nat.not_le.mpr hshort)]
  case refused =>
    intro f hf hlong
    rw [hl.latestWhere_eq (validate_eq_ok hf), if_pos hlong]

/-- Whatever operations are done on an empty primary of the present schema, the strong reads of a kind
agree. -/
theorem readsAgree_after (engine : Engine) (replicas : List Replica) (turn : Nat) (supply : Supply)
    (ops : List Operation) (k : VersionKind) :
    ((opened engine replicas turn supply).after ops).ReadsAgree k
      (fun id => (opened engine replicas turn supply).Happens (Operation.Creates k id) ops)
      (((opened engine replicas turn supply).written k ops).map (·.uid)) := by
  refine (keeps_opened_after engine replicas turn supply ops).readsAgree fun id => ?_
  have hcreates := (keeps_opened engine replicas turn supply).happens_creates_iff (k := k) id ops
  simpa using hcreates

/-- A term that holds of the only timelog there is keeps it, but nothing is read where the term stands too
often. -/
theorem not_latestWhere_of_long :
    let supply : Supply := { ids := toString, times := toString, drawn := 0 }
    let t : Version Timelog :=
      { id := "0", version := 1, uid := "1", isLatest := true
        data := { duration := 0, timeStart := 0, timeEnd := 0, type := "a", jobUid := "b" } }
    let l := (opened .plain [] 0 supply).after [.versioned .timelog (.create t)]
    let f : Filter := ⟨List.replicate 998 ("type", .text "a")⟩
    f.Typed Timelog ∧ (l.allLatest Timelog .strong).1 = .ok [t] ∧
      (∀ term ∈ f.terms, t.value? term.1 = some term.2) ∧
      ∀ rs, (l.latestWhere Timelog .strong f).1 ≠ .ok rs := by
  intro supply t l f
  have hl := keeps_opened_after .plain [] 0 supply [.versioned .timelog (.create t)]
  have hterm : ∀ term ∈ f.terms, term = ("type", .text "a") := fun term => List.eq_of_mem_replicate
  have htyped : f.Typed Timelog := by
    intro term h
    rw [hterm term h]
    decide
  refine ⟨htyped, mem_toList_toOption_iff.mp (by decide +kernel), fun term h => ?_, fun rs => ?_⟩
  · rw [hterm term h]
    rfl
  · have hlong : Database.maxTerms ≤ f.terms.length := by
      rw [List.length_replicate]
      decide
    have hread := hl.latestWhere_eq (k := .timelog) (validate_eq_ok (k := .timelog) htyped)
    rw [if_pos hlong] at hread
    exact fun hok => nomatch hread.symm.trans hok

end Ledger

end Payroll
