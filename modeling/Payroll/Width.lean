/-!
The range of the integers of 64 bits. Numbers without a sign have the ranges of the fixed-width types
of that size.
-/

namespace Payroll

/-- The integer fits 64 bits with a sign. -/
abbrev FitsInt64 (i : Int) : Prop :=
  -9223372036854775808 ≤ i ∧ i < 9223372036854775808

/-- The greatest integer of 64 bits. -/
def maxInt64 : Int := 9223372036854775807

end Payroll
