import Payroll.Store.Cluster
/-!
How connections to the databases of a cluster are set up, and what they then say of themselves.
-/

namespace Payroll

/-- What every connection is told when it is made. -/
structure Connection where
  busyTimeoutMs : Nat
  cacheSizeKib : Int
deriving DecidableEq

namespace Connection

/-- Connections as they are unless something else is asked for. -/
def default : Connection :=
  { busyTimeoutMs := 5000, cacheSizeKib := 8192 }

/-- No connection can be made with a cache of negative size. -/
def isUsable (c : Connection) : Bool :=
  0 ≤ c.cacheSizeKib

end Connection

/-- What a connection says of itself. -/
structure Pragmas where
  busyTimeout : Nat
  cacheSize : Int
  foreignKeys : Bool
  journalMode : String
  queryOnly : Bool
  synchronous : Nat
deriving DecidableEq

/-- The number if it is between the bounds of 32 bits with a sign, else zero. -/
def clipped (i : Int) : Int :=
  if -2147483648 ≤ i ∧ i < 2147483648 then i else 0

/-- What the connections to a site say of themselves. The primary keeps a write-ahead log, which its
file shows to every other connection. -/
def Cluster.pragmas (c : Cluster) (connection : Connection) (site : Site) : Pragmas :=
  let journalMode := match site with
    | .primary => "wal"
    | .replica place =>
      match c.replicas[place]? with
      | some (.separate _) => "delete"
      | _ => "wal"
  { busyTimeout := (clipped (Int.ofNat connection.busyTimeoutMs)).toNat
    cacheSize := clipped (-connection.cacheSizeKib)
    foreignKeys := true
    journalMode
    queryOnly := site != .primary
    synchronous := if site = .primary then 1 else 2 }

end Payroll
