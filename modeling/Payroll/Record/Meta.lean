/-!
What every version of a record carries beside its data: the id it shares with the other versions,
its number, an id of its own, and whether it is the latest. Fresh ids and times are drawn from a
supply.
-/

namespace Payroll

/-- Where a version stands among the versions of its record. -/
structure Meta where
  id : String
  version : Int
  uid : String
  isLatest : Bool
deriving DecidableEq

/-- The number after a version number of 64 bits; the last one is followed by the least. -/
def nextVersion (version : Int) : Int :=
  Int.bmod (version + 1) UInt64.size

namespace Meta

/-- The first version of a new record. -/
def first (id uid : String) : Meta :=
  { id, version := 1, uid, isLatest := true }

/-- The version that follows. -/
def successor (m : Meta) (uid : String) : Meta :=
  { id := m.id, version := nextVersion m.version, uid, isLatest := true }

end Meta

/-- A version of a record. -/
structure Version (α : Type) extends Meta where
  data : α
deriving DecidableEq

/-- The version without its claim to be the latest. -/
def Version.retired {α : Type} (v : Version α) : Version α :=
  { v with isLatest := false }

/-- The ids and times of a run, and how many have been drawn. -/
structure Supply where
  ids : Nat → String
  times : Nat → String
  drawn : Nat

namespace Supply

/-- Draws a fresh id. -/
def id (s : Supply) : String × Supply :=
  (s.ids s.drawn, { s with drawn := s.drawn + 1 })

/-- Draws the present time. -/
def time (s : Supply) : String × Supply :=
  (s.times s.drawn, { s with drawn := s.drawn + 1 })

/-- Draws the meta data of a new record. -/
def firstMeta (s : Supply) : Meta × Supply :=
  let (id, s) := s.id
  let (uid, s) := s.id
  (Meta.first id uid, s)

end Supply

end Payroll
