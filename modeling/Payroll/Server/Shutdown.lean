/-!
Shutting down. Once shutdown begins it does not end, and every task that waits for it goes on. The
tasks then have some time to finish; those that have not by then are broken off. Main statement: the
tasks are drained exactly if there are none or all of them end before the time is up.
-/

namespace Payroll

/-- A task that is under way when shutdown begins: how long it still takes, in milliseconds, and
whether it fails at its end. -/
structure ServerTask where
  endsAfterMs : Nat
  fails : Bool
deriving DecidableEq

/-- How the tasks came to an end. -/
structure Drain where
  drained : Bool
  elapsedMs : Nat
  finished : List Bool
deriving DecidableEq

/-- Whether shutdown has begun. -/
structure Shutdown where
  begun : Bool
deriving DecidableEq

namespace Shutdown

/-- The time that tasks have unless another is given, in milliseconds. -/
def defaultTimeoutMs : Nat := 25000

/-- No shutdown has begun yet. -/
def idle : Shutdown := ⟨false⟩

/-- Begins the shutdown, if it has not begun already. -/
def begin (_ : Shutdown) : Shutdown := ⟨true⟩

/-- The task ends on its own before the time is up. -/
def inTime (timeoutMs : Nat) (t : ServerTask) : Bool :=
  t.endsAfterMs < timeoutMs

/-- The time until the last task ends. -/
def lastEnd (tasks : List ServerTask) : Nat :=
  tasks.foldl (fun ms t => max ms t.endsAfterMs) 0

/-- Waits for the tasks until the time is up. A task has finished if it ended in time and did not
fail. -/
def drain (tasks : List ServerTask) (timeoutMs : Nat) : Drain :=
  let drained := tasks.all (inTime timeoutMs)
  { drained
    elapsedMs := if drained then lastEnd tasks else timeoutMs
    finished := tasks.map fun t => inTime timeoutMs t && !t.fails }

/-- Begins the shutdown and waits for the tasks. -/
def complete (s : Shutdown) (tasks : List ServerTask) (timeoutMs : Option Nat) : Drain × Shutdown :=
  (drain tasks (timeoutMs.getD defaultTimeoutMs), s.begin)

end Shutdown

end Payroll
