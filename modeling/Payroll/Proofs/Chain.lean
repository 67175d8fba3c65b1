import Payroll.Proofs.Run
/-!
# Chains of versions

The versions of a record form a chain: they are numbered from one on without a gap, and the last of them
is the only one that claims to be the latest. Whatever is asked of the store, in whatever order, and
whether it succeeds or fails, no table of versions ever holds anything else.

## Key results

- `chained_rows`: the rows that keep an orderly history form chains
- `Ledger.chained_after`: every table of versions forms chains in every state that can be reached
-/

namespace Payroll

open History (Orderly numbers ofId row rows)

variable {k : VersionKind}

/-- The rows of a table form chains, one for each id. -/
structure Chained (rs : List (Version k.Data)) : Prop where
  /-- The versions of an id that occurs are numbered from one to some `n`, each number once, and exactly
  one of its rows claims to be the latest, the one with version `n`. -/
  chain : ∀ id ∈ rs.map (·.id), ∃ n : Nat, 1 ≤ n ∧
    (rs.filter (·.id == id)).map (·.version) = numbers n ∧
    ∃ r : Version k.Data, r.version = n ∧ rs.filter (fun r => r.id == id && r.isLatest) = [r]
  /-- No two rows have the same id of their own. -/
  distinct : (rs.map (·.uid)).Nodup

/-- The rows that keep an orderly history form chains. -/
theorem chained_rows {h : List (Version k.Data)} (ho : Orderly h) : Chained (rows h) where
  chain id hid := by
    rw [History.map_id_rows] at hid
    obtain ⟨w, hw, hwid⟩ := List.mem_map.mp hid
    have hmem : w ∈ ofId id h := History.mem_ofId.mpr ⟨hw, hwid⟩
    obtain ⟨v, hv⟩ : ∃ v, (ofId id h).getLast? = some v :=
      ⟨_, List.getLast?_eq_some_getLast (List.ne_nil_of_mem hmem)⟩
    -- The last number is the number of versions of the id, and its row keeps the last of them.
    refine ⟨(ofId id h).length, List.length_pos_of_mem hmem, ?_, row true v, ?_, ?_⟩
    · rw [History.filter_rows, History.map_version_rows, ho.numbered]
    · rw [History.row_version]
      exact ho.version_getLast? hv
    · rw [History.filter_latest_rows, hv]
      rfl
  distinct := by
    rw [History.map_uid_rows]
    exact ho.distinct

/-- Whatever operations are done on an empty primary of the present schema, its tables of versions form
chains. -/
theorem Ledger.chained_after (engine : Engine) (replicas : List Replica) (turn : Nat) (supply : Supply)
    (ops : List Operation) (k : VersionKind) :
    ∃ rs, ((opened engine replicas turn supply).after ops).cluster.primary.versionRows k = some rs ∧
      Chained rs := by
  have hk := (keeps_opened_after engine replicas turn supply ops).keeps k
  exact ⟨_, hk.versionRows_eq, chained_rows hk.orderly⟩

end Payroll
