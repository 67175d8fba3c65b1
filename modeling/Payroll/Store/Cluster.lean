import Payroll.Store.Step
/-!
A cluster of databases: the primary one, which takes all writes, and replicas, which serve reads by
turns. A replica is the primary's own file or a file of its own; nothing is ever written through it.
-/

namespace Payroll

/-- How fresh a read has to be. -/
inductive Consistency where
  | eventual
  | strong
deriving DecidableEq

/-- A replica: the primary's own file, or a file of its own. -/
inductive Replica where
  | shared
  | separate (database : Database)

/-- Where an operation runs. -/
inductive Site where
  | primary
  | replica (place : Nat)
deriving DecidableEq

/-- A primary database with replicas. The turn counts the reads that replicas have served. -/
structure Cluster where
  primary : Database
  replicas : List Replica
  turn : Nat

namespace Cluster

variable {β : Type}

/-- The site that serves a read. Only a read that a replica may serve takes a turn. -/
def site (c : Cluster) (k : Consistency) : Site × Cluster :=
  if k = .strong ∨ c.replicas.isEmpty then (.primary, c)
  else (.replica (c.turn % c.replicas.length), { c with turn := (c.turn + 1) % UInt64.size })

/-- The database at a site. -/
def database (c : Cluster) : Site → Database
  | .primary => c.primary
  | .replica place =>
    match c.replicas[place]? with
    | some (.separate d) => d
    | _ => c.primary

/-- Runs a step on the primary. -/
def onPrimary (c : Cluster) (f : Step β) : Except StoreFault β × Cluster :=
  let (outcome, d) := f c.primary
  (outcome, { c with primary := d })

/-- Reads at the site that the consistency asks for. -/
def onRead (c : Cluster) (k : Consistency) (f : Reading β) : Except StoreFault β × Cluster :=
  let (site, c) := c.site k
  (f (c.database site), c)

/-- Tries to write where a read would run. A replica takes no writes. -/
def writeWhereRead (c : Cluster) (k : Consistency) (f : Step β) : Except StoreFault β × Cluster :=
  let (site, c) := c.site k
  match site with
  | .primary => c.onPrimary f
  | .replica _ =>
    match (f (c.database site)).1 with
    | .error (.database (.noTable name)) => (.error (.database (.noTable name)), c)
    | _ => (.error (.database .readOnly), c)

end Cluster

end Payroll
