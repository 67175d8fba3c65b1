import Payroll.Store.Fault
/-!
Calls on pooled connections. A worker runs a call's closure on a connection of the pool, and the
caller waits for it, possibly only until a deadline. A caller that stops waiting abandons the call:
if the worker has registered the connection, the statement that runs on it is interrupted, and if it
has not, the closure never runs. Each move below is one atomic step of a worker or a caller, and the
moves of different calls interleave in any order.
-/

namespace Payroll

/-- How a call ends, as its caller sees it: the closure gives an outcome, or breaks down, or is not
done in time. -/
inductive Ending (β : Type) where
  | returned (outcome : Except StoreFault β)
  | broken
  | late

/-- The outcome of a call that ended so. -/
def Ending.outcome {β : Type} : Ending β → Except StoreFault β
  | .returned outcome => outcome
  | .broken => .error (.internal "blocking task failed")
  | .late => .error .timedOut

/-- How the worker of a call ends: it got no connection, or gave up because the call had been abandoned,
or the closure returned, or it broke down. -/
inductive WorkerEnd where
  | refused
  | gaveUp
  | returned
  | broken
deriving DecidableEq

/-- How far the worker of a call has come. It waits for a connection, holds one, runs the closure on
it, has an outcome, and has cleared the registration; or it has given up before it ran the closure; or
the closure broke down, which leaves the registration as it was. -/
inductive WorkerStage where
  | queued
  | holding (connection : Nat)
  | gaveUp (connection : Nat)
  | running (connection : Nat)
  | returned (connection : Nat)
  | cleared (connection : Nat)
  | broken (connection : Nat)
  | finished (how : WorkerEnd)
deriving DecidableEq

namespace WorkerStage

/-- The connection that the worker holds. -/
def connection? : WorkerStage → Option Nat
  | .holding c | .gaveUp c | .running c | .returned c | .cleared c | .broken c => some c
  | .queued | .finished _ => none

/-- The closure has been run, or is running. -/
def hasRun : WorkerStage → Bool
  | .running _ | .returned _ | .cleared _ | .broken _ | .finished .returned | .finished .broken => true
  | .queued | .holding _ | .gaveUp _ | .finished .refused | .finished .gaveUp => false

end WorkerStage

/-- Whether the caller still waits. -/
inductive CallerStage where
  | waiting
  | answered
  | gone
deriving DecidableEq

/-- A call: its worker, its caller, and the slot that they share, which says whether the call has
been abandoned and which connection is registered. -/
structure Call where
  worker : WorkerStage
  caller : CallerStage
  abandoned : Bool
  registered : Option Nat
deriving DecidableEq

/-- A step of one call's worker or caller. -/
inductive Move where
  | take (connection : Nat)
  | refuse
  | register
  | complete
  | breakDown
  | clear
  | giveBack
  | answer
  | abandon
deriving DecidableEq

/-- What a move comes to: the call after it, the connections that are free then, and the connection that
is interrupted if one is. -/
structure Moved where
  call : Call
  free : List Nat
  interrupted : Option Nat
deriving DecidableEq

namespace Call

/-- A call that has just been made. -/
def made : Call :=
  { worker := .queued, caller := .waiting, abandoned := false, registered := none }

/-- What a move does to a call while these connections are free, if it can be made. A worker whose closure
returned clears the registration before it gives the connection back; one whose closure broke down gives
it back as it unwinds. -/
def move (c : Call) (free : List Nat) (m : Move) : Option Moved :=
  match m, c.worker with
  | .take k, .queued =>
    if k ∈ free then some ⟨{ c with worker := .holding k }, free.erase k, none⟩ else none
  | .refuse, .queued => some ⟨{ c with worker := .finished .refused }, free, none⟩
  | .register, .holding k =>
    if c.abandoned then some ⟨{ c with worker := .gaveUp k }, free, none⟩
    else some ⟨{ c with worker := .running k, registered := some k }, free, none⟩
  | .complete, .running k => some ⟨{ c with worker := .returned k }, free, none⟩
  | .breakDown, .running k => some ⟨{ c with worker := .broken k }, free, none⟩
  | .clear, .returned k => some ⟨{ c with worker := .cleared k, registered := none }, free, none⟩
  | .giveBack, .gaveUp k => some ⟨{ c with worker := .finished .gaveUp }, k :: free, none⟩
  | .giveBack, .cleared k => some ⟨{ c with worker := .finished .returned }, k :: free, none⟩
  | .giveBack, .broken k => some ⟨{ c with worker := .finished .broken }, k :: free, none⟩
  | .answer, .finished _ =>
    if c.caller = .waiting then some ⟨{ c with caller := .answered }, free, none⟩ else none
  | .abandon, _ =>
    if c.caller = .waiting then
      some ⟨{ c with caller := .gone, abandoned := true, registered := none }, free, c.registered⟩
    else none
  | _, _ => none

end Call

/-- A pool of connections with the calls that use it, and the connections that are free. -/
structure Pool where
  free : List Nat
  calls : List Call
deriving DecidableEq

namespace Pool

/-- A pool whose connections are all free, with calls that have just been made. -/
def opened (connections : List Nat) (calls : Nat) : Pool :=
  { free := connections, calls := List.replicate calls .made }

/-- What a move of the `i`-th call does, if it can be made: the pool after it, and the connection
that is interrupted if one is. -/
def step (p : Pool) (i : Nat) (m : Move) : Option (Pool × Option Nat) := do
  let c ← p.calls[i]?
  let r ← c.move p.free m
  return ({ free := r.free, calls := p.calls.set i r.call }, r.interrupted)

/-- The pool after moves of its calls, in their order, if all of them can be made. -/
def run (p : Pool) : List (Nat × Move) → Option Pool
  | [] => some p
  | (i, m) :: ms => (p.step i m).bind fun r => r.1.run ms

end Pool

end Payroll
