import Payroll.Sql.Refinement
/-!
Records of a contractor within a period, as refined queries. The contractor is the one of the very
version of the job that a record names, so what was logged stays with whoever did the work.
-/

namespace Payroll.Period

open Sql (Condition Refinement)

/-- The conditions that both queries share: the contractor, and a timelog strictly within the
period. -/
def conditions (contractor : String) (start stop : Int) : List Condition :=
  [.compare ⟨"job", "contractor_id"⟩ .eq (.text contractor),
   .compare ⟨"timelog", "time_start"⟩ .gt (.int start),
   .compare ⟨"timelog", "time_end"⟩ .lt (.int stop)]

/-- The timelogs of a contractor within a period, by their start. -/
def timelogs (contractor : String) (start stop : Int) : Refinement :=
  { joins := [⟨"job", ⟨"job", "uid"⟩, ⟨"timelog", "job_uid"⟩⟩]
    conditions := conditions contractor start stop
    order := [⟨⟨"timelog", "time_start"⟩, false⟩]
    limit := none }

/-- The payment line items of a contractor for timelogs within a period, by the timelog's start. -/
def payments (contractor : String) (start stop : Int) : Refinement :=
  { joins :=
      [⟨"job", ⟨"job", "uid"⟩, ⟨"payment_line_items", "job_uid"⟩⟩,
       ⟨"timelog", ⟨"timelog", "uid"⟩, ⟨"payment_line_items", "timelog_uid"⟩⟩]
    conditions := conditions contractor start stop
    order := [⟨⟨"timelog", "time_start"⟩, false⟩]
    limit := none }

end Payroll.Period
