import Payroll.Proofs.Kind
import Payroll.Proofs.Outcome
import Payroll.Store.Ledger
/-!
# Operations of the store

Everything that a caller can ask of the store, as data: the operations on versions of a kind, those on
records that are changed in place, and those on the primary itself. Each operation is one atomic step on
the ledger, so what any number of callers do in any order is a list of operations, and the states that
can be reached are those after some list. A record comes with whatever meta data its caller gave it.
-/

namespace Payroll

open Sql (Filter Changes Refinement)

/-- An operation on the versions of a kind of data. -/
inductive Versioned.Operation (α : Type) where
  | create (record : Version α)
  | append (id : String) (record : Version α)
  | latest (k : Consistency) (id : String)
  | ofUid (k : Consistency) (uid : String)
  | latestWhere (k : Consistency) (f : Filter)
  | allLatest (k : Consistency)
  | history (k : Consistency) (id : String)
  | query (r : Refinement)

namespace Versioned.Operation

variable {α : Type}

/-- What the operation answers if it succeeds. -/
def Result : Operation α → Type
  | .create _ | .append _ _ => Version α
  | .latest _ _ | .ofUid _ _ => Option (Version α)
  | .latestWhere _ _ | .allLatest _ | .history _ _ | .query _ => List (Version α)

variable [VersionedTable α]

/-- Does what the operation asks for. -/
def run : (o : Operation α) → Ledger → Except StoreFault o.Result × Ledger
  | .create record, l => l.create record.data
  | .append id record, l => l.append id record.data
  | .latest k id, l => l.latest? α k id
  | .ofUid k uid, l => l.ofUid? α k uid
  | .latestWhere k f, l => l.latestWhere α k f
  | .allLatest k, l => l.allLatest α k
  | .history k id, l => l.history α k id
  | .query r, l => l.query α r

/-- The versions that the operation writes, each as it is returned: one for a record that is created or
given a new version, if that succeeds. -/
def written : Operation α → Ledger → List (Version α)
  | .create record, l => (l.create record.data).1.toOption.toList
  | .append id record, l => (l.append id record.data).1.toOption.toList
  -- All other operations only read.
  | _, _ => []

end Versioned.Operation

/-- An operation on records of a kind that is changed in place. -/
inductive Static.Operation (α : Type) where
  | add (record : α)
  | addBatch (size : Nat) (records : List α)
  | overwriteWhere (f : Filter) (record : α)
  | updateWhere (f : Filter) (c : Changes)
  | delete (id : String)
  | deleteWhere (f : Filter)
  | first (k : Consistency) (f : Filter)
  | allWhere (k : Consistency) (f : Filter)
  | get (k : Consistency) (id : String)

namespace Static.Operation

variable {α : Type}

/-- What the operation answers if it succeeds. -/
def Result : Operation α → Type
  | .add _ => α
  | .addBatch _ _ | .allWhere _ _ => List α
  | .overwriteWhere _ _ | .updateWhere _ _ | .deleteWhere _ => Nat
  | .delete _ => Bool
  | .first _ _ | .get _ _ => Option α

/-- Does what the operation asks for. -/
def run [StaticTable α] : (o : Operation α) → Ledger → Except StoreFault o.Result × Ledger
  | .add record, l => Ledger.add (α := α) l record
  | .addBatch size records, l => Ledger.addBatch (α := α) l size records
  | .overwriteWhere f record, l => Ledger.overwriteWhere (α := α) l f record
  | .updateWhere f c, l => l.updateWhere α f c
  | .delete id, l => l.delete α id
  | .deleteWhere f, l => l.deleteWhere α f
  | .first k f, l => l.first? α k f
  | .allWhere k f, l => l.allWhere α k f
  | .get k id, l => l.get? α k id

end Static.Operation

/-- An operation of the store. -/
inductive Operation where
  | versioned (k : VersionKind) (o : Versioned.Operation k.Data)
  | static (s : StaticKind) (o : Static.Operation s.Data)
  | ping
  | migrate

namespace Operation

/-- What the operation answers if it succeeds. -/
def Result : Operation → Type
  | .versioned _ o => o.Result
  | .static _ o => o.Result
  | .ping => Unit
  | .migrate => Nat

/-- Does what the operation asks for. -/
def run : (o : Operation) → Ledger → Except StoreFault o.Result × Ledger
  | .versioned _ o, l => o.run l
  | .static _ o, l => o.run l
  | .ping, l => l.ping
  | .migrate, l => l.migrate

/-- The ledger once the operation is done, whether it succeeds or fails. -/
def step (o : Operation) (l : Ledger) : Ledger :=
  (o.run l).2

/-- The versions of a kind that the operation writes, each as it is returned. -/
def written (k : VersionKind) : Operation → Ledger → List (Version k.Data)
  | .versioned k' o, l => if h : k' = k then (h ▸ o).written l else []
  | _, _ => []

@[simp] theorem written_versioned (k : VersionKind) (o : Versioned.Operation k.Data) (l : Ledger) :
    (Operation.versioned k o).written k l = o.written l := by
  simp [written]

theorem written_versioned_of_ne {k k' : VersionKind} (h : k' ≠ k) (o : Versioned.Operation k'.Data)
    (l : Ledger) : (Operation.versioned k' o).written k l = [] := by
  simp [written, h]

@[simp] theorem written_static (k : VersionKind) (s : StaticKind) (o : Static.Operation s.Data)
    (l : Ledger) : (Operation.static s o).written k l = [] := rfl

@[simp] theorem written_ping (k : VersionKind) (l : Ledger) : ping.written k l = [] := rfl

@[simp] theorem written_migrate (k : VersionKind) (l : Ledger) : migrate.written k l = [] := rfl

/-- What an operation writes is what creating a record or adding a version to one has returned. -/
theorem mem_written_iff {k : VersionKind} {l : Ledger} {o : Operation} {v : Version k.Data} :
    v ∈ o.written k l ↔
      (∃ record : Version k.Data, o = .versioned k (.create record) ∧
        (l.create record.data).1 = .ok v) ∨
      ∃ (id : String) (record : Version k.Data), o = .versioned k (.append id record) ∧
        (l.append id record.data).1 = .ok v := by
  constructor
  · intro hv
    cases o with
    | versioned k' o =>
      -- Only an operation on the kind itself writes a version of it.
      by_cases hkk : k' = k
      · subst hkk
        rw [written_versioned] at hv
        cases o with
        | create record => exact Or.inl ⟨record, rfl, mem_toList_toOption_iff.mp hv⟩
        | append id record => exact Or.inr ⟨id, record, rfl, mem_toList_toOption_iff.mp hv⟩
        | latest | ofUid | latestWhere | allLatest | history | query => exact nomatch hv
      · rw [written_versioned_of_ne hkk] at hv
        exact nomatch hv
    | static | ping | migrate => exact nomatch hv
  · rintro (⟨record, rfl, hok⟩ | ⟨id, record, rfl, hok⟩)
    · rw [written_versioned]
      exact mem_toList_toOption_iff.mpr hok
    · rw [written_versioned]
      exact mem_toList_toOption_iff.mpr hok

/-- An operation writes at most one version. -/
theorem written_eq_singleton {k : VersionKind} {l : Ledger} {o : Operation} {v : Version k.Data}
    (hv : v ∈ o.written k l) : o.written k l = [v] := by
  rcases mem_written_iff.mp hv with ⟨record, rfl, hok⟩ | ⟨id, record, rfl, hok⟩
  · rw [written_versioned, Versioned.Operation.written, hok]
    rfl
  · rw [written_versioned, Versioned.Operation.written, hok]
    rfl

/-- The operation creates a record with an id, and succeeds. -/
def Creates (k : VersionKind) (id : String) (l : Ledger) (o : Operation) : Prop :=
  ∃ (record v : Version k.Data), o = .versioned k (.create record) ∧
    (l.create record.data).1 = .ok v ∧ v.id = id

/-- The operation adds a version to the record of an id, and succeeds. -/
def Updates (k : VersionKind) (id : String) (l : Ledger) (o : Operation) : Prop :=
  ∃ (record v : Version k.Data), o = .versioned k (.append id record) ∧
    (l.append id record.data).1 = .ok v

end Operation

namespace Ledger

/-- A ledger over an empty primary of the present schema, with any replicas and any supply. -/
def opened (engine : Engine) (replicas : List Replica) (turn : Nat) (supply : Supply) : Ledger :=
  { cluster := { primary := .freshOn engine, replicas, turn }, supply }

/-- The ledger after some operations. -/
def after (l : Ledger) (ops : List Operation) : Ledger :=
  ops.foldl (fun l o => o.step l) l

/-- The versions of a kind that operations write, in their order, each as it is returned. -/
def written (k : VersionKind) : Ledger → List Operation → List (Version k.Data)
  | _, [] => []
  | l, o :: ops => o.written k l ++ written k (o.step l) ops

/-- One of the operations is as the property says, given the ledger on which it is done. -/
def Happens (p : Ledger → Operation → Prop) : Ledger → List Operation → Prop
  | _, [] => False
  | l, o :: ops => p l o ∨ Happens p (o.step l) ops

@[simp] theorem after_nil (l : Ledger) : l.after [] = l := rfl

@[simp] theorem after_cons (l : Ledger) (o : Operation) (ops : List Operation) :
    l.after (o :: ops) = (o.step l).after ops := rfl

theorem after_append (l : Ledger) (ops ops' : List Operation) :
    l.after (ops ++ ops') = (l.after ops).after ops' :=
  List.foldl_append

theorem written_append (k : VersionKind) (l : Ledger) (ops ops' : List Operation) :
    l.written k (ops ++ ops') = l.written k ops ++ (l.after ops).written k ops' := by
  induction ops generalizing l with
  | nil => rfl
  | cons o ops ih => simp [written, ih]

end Ledger

end Payroll
