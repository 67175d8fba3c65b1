import Mathlib.Data.Int.CardIntervalMod
import Payroll.Proofs.Replicas
/-!
# Replicas take turns

Reads that need not be fresh are served by the replicas, one after the other; everything else runs on the
primary, and takes no turn. Nothing but the number of such reads decides which replica is next, however
they are mixed with other operations and whether or not they succeed.

## Key results

- `Operation.runsAt_site`: an operation works on the database at one site, and on no other
- `Operation.site_step`: where one operation runs, and whether it takes a turn
- `Ledger.sites_eq`: where the reads that take a turn run, one after the other
- `Ledger.rotates_after`: what holds of every mixture of operations
-/

namespace Payroll

variable {β : Type} {l : Ledger}

/-! ## Sites -/

namespace Cluster

theorem site_strong (c : Cluster) : c.site .strong = (.primary, c) := by
  rw [site, if_pos (Or.inl rfl)]

theorem site_of_nil {c : Cluster} (h : c.replicas = []) (k : Consistency) :
    c.site k = (.primary, c) := by
  rw [site, if_pos (Or.inr (by rw [h]; rfl))]

theorem site_eventual {c : Cluster} (h : c.replicas ≠ []) :
    c.site .eventual = (.replica (c.turn % c.replicas.length),
      { c with turn := (c.turn + 1) % UInt64.size }) := by
  rw [site, if_neg]
  simp [h]

/-- Whose turn it is makes no difference to which database is at a site. -/
theorem database_site (c : Cluster) (k : Consistency) (s : Site) :
    (c.site k).2.database s = c.database s := by
  rw [site]
  split
  · rfl
  · rfl

end Cluster

theorem Ledger.outcome_onRead_site (l : Ledger) (k : Consistency) (f : Reading β) :
    (l.onRead k f).1 = f (l.cluster.database (l.cluster.site k).1) :=
  congrArg f (Cluster.database_site ..)

/-! ## Where one operation runs -/

/-- The consistency that an operation reads with, if a replica may serve it. -/
def Versioned.Operation.consistency? {α : Type} : Versioned.Operation α → Option Consistency
  | .latest k _ | .ofUid k _ | .latestWhere k _ | .allLatest k | .history k _ => some k
  | .create _ | .append _ _ | .query _ => none

/-- The consistency that an operation reads with, if a replica may serve it. -/
def Static.Operation.consistency? {α : Type} : Static.Operation α → Option Consistency
  | .first k _ | .allWhere k _ | .get k _ => some k
  | .add _ | .addBatch _ _ | .overwriteWhere _ _ | .updateWhere _ _ | .delete _ | .deleteWhere _ => none

/-- A ledger over one database, without replicas. -/
def Ledger.alone (d : Database) (supply : Supply) : Ledger :=
  { cluster := { primary := d, replicas := [], turn := 0 }, supply }

namespace Operation

/-- The consistency that an operation reads with, if a replica may serve it. -/
def consistency? : Operation → Option Consistency
  | .versioned _ o => o.consistency?
  | .static _ o => o.consistency?
  | .ping | .migrate => none

/-- The operation is a read that a replica serves if there is one. -/
def IsEventual (o : Operation) : Prop :=
  o.consistency? = some .eventual

instance : DecidablePred IsEventual :=
  fun o => inferInstanceAs (Decidable (o.consistency? = some .eventual))

/-- Where the operation runs. -/
def site (o : Operation) (l : Ledger) : Site :=
  match o.consistency? with
  | some k => (l.cluster.site k).1
  | none => .primary

/-- The operation works on the database at the site: it has the outcome that it has where there is no other
database, and changes the primary as it does there, if that is the site, and else not at all. -/
structure RunsAt (o : Operation) (l : Ledger) (site : Site) : Prop where
  outcome : (o.run l).1 = (o.run (.alone (l.cluster.database site) l.supply)).1
  primary : (o.step l).cluster.primary =
    if site = .primary then (o.step (.alone l.cluster.primary l.supply)).cluster.primary
    else l.cluster.primary
  replicas : (o.step l).cluster.replicas = l.cluster.replicas

/-- A read works on the database at the site that its consistency asks for. -/
private theorem runsAt_of_onRead {o : Operation} {k : Consistency} {f : Reading o.Result}
    (ho : ∀ l, o.run l = l.onRead k f) (l : Ledger) : o.RunsAt l (l.cluster.site k).1 where
  outcome := by
    rw [ho, ho, Ledger.outcome_onRead_site, Ledger.outcome_onRead_site,
      Cluster.site_of_nil (c := (Ledger.alone _ l.supply).cluster) rfl]
    rfl
  primary := by
    simp only [step, ho, Ledger.primary_onRead]
    exact (ite_self _).symm
  replicas := o.replicas_step l

/-- An operation works on the database at one site, and on no other. -/
theorem runsAt_site (o : Operation) (l : Ledger) : o.RunsAt l (o.site l) := by
  cases o with
  | versioned k o =>
    cases o with
    | create | append | query => exact ⟨rfl, rfl, rfl⟩
    | latest | ofUid | latestWhere | allLatest | history => exact runsAt_of_onRead (fun _ => rfl) l
  | static s o =>
    cases o with
    | add | addBatch | overwriteWhere | updateWhere | delete | deleteWhere => exact ⟨rfl, rfl, rfl⟩
    | first | allWhere | get => exact runsAt_of_onRead (fun _ => rfl) l
  | ping | migrate => exact ⟨rfl, rfl, rfl⟩

/-- Only a read that a replica may serve can take a turn. -/
theorem turn_step (o : Operation) (l : Ledger) :
    (o.step l).cluster.turn =
      match o.consistency? with
      | some k => (l.cluster.site k).2.turn
      | none => l.cluster.turn := by
  cases o with
  | versioned k o => cases o <;> rfl
  | static s o => cases o <;> rfl
  | ping | migrate => rfl

/-- A read that need not be fresh runs on the replica whose turn it is, if there is any, and takes the turn;
all else runs on the primary and takes none. -/
theorem site_step (o : Operation) (l : Ledger) :
    (o.IsEventual ∧ l.cluster.replicas ≠ [] ∧
        o.site l = .replica (l.cluster.turn % l.cluster.replicas.length) ∧
        (o.step l).cluster.turn = (l.cluster.turn + 1) % UInt64.size) ∨
      ((¬o.IsEventual ∨ l.cluster.replicas = []) ∧
        o.site l = .primary ∧ (o.step l).cluster.turn = l.cluster.turn) := by
  have hturn := o.turn_step l
  rw [IsEventual, site]
  cases hk : o.consistency? with
  | none =>
    rw [hk] at hturn
    exact Or.inr ⟨Or.inl nofun, rfl, hturn⟩
  | some k =>
    rw [hk] at hturn
    dsimp only at hturn ⊢
    rw [hturn]
    cases k with
    | strong =>
      rw [Cluster.site_strong]
      exact Or.inr ⟨Or.inl (by simp), rfl, rfl⟩
    | eventual =>
      by_cases hreplicas : l.cluster.replicas = []
      · rw [Cluster.site_of_nil hreplicas]
        exact Or.inr ⟨Or.inr hreplicas, rfl, rfl⟩
      · rw [Cluster.site_eventual hreplicas]
        exact Or.inl ⟨rfl, hreplicas, rfl, rfl⟩

end Operation

/-! ## Any number of operations -/

namespace Ledger

variable {ops : List Operation}

/-- How many of the operations are reads that a replica serves if there is one. -/
def turns (ops : List Operation) : Nat :=
  ops.countP (·.IsEventual)

/-- Where those of the operations run, one after the other. -/
def sites : Ledger → List Operation → List Site
  | _, [] => []
  | l, o :: ops => if o.IsEventual then o.site l :: sites (o.step l) ops else sites (o.step l) ops

theorem replicas_after (l : Ledger) (ops : List Operation) :
    (l.after ops).cluster.replicas = l.cluster.replicas := by
  induction ops generalizing l with
  | nil => rfl
  | cons o ops ih => rw [after_cons, ih, o.replicas_step]

/-- Each read that a replica serves takes one turn. -/
theorem turn_after (hreplicas : l.cluster.replicas ≠ [])
    (h : l.cluster.turn + turns ops < UInt64.size) :
    (l.after ops).cluster.turn = l.cluster.turn + turns ops := by
  induction ops generalizing l with
  | nil => rfl
  | cons o ops ih =>
    have hstep : (o.step l).cluster.replicas ≠ [] := by
      rw [o.replicas_step]
      exact hreplicas
    rw [turns, List.countP_cons] at h ⊢
    rcases o.site_step l with ⟨ho, -, -, hturn⟩ | ⟨ho, -, hturn⟩
    · rw [if_pos (decide_eq_true ho)] at h ⊢
      rw [Nat.mod_eq_of_lt (by omega)] at hturn
      rw [after_cons, ih hstep (by rw [hturn, turns]; omega), hturn, turns]
      omega
    · have ho := ho.resolve_right hreplicas
      rw [if_neg (by simpa using ho)] at h ⊢
      rw [after_cons, ih hstep (by rw [hturn, turns]; omega), hturn, turns]
      omega

/-- The reads that replicas serve are served by one replica after the other. -/
theorem sites_eq (hreplicas : l.cluster.replicas ≠ [])
    (h : l.cluster.turn + turns ops < UInt64.size) :
    l.sites ops = (List.range' l.cluster.turn (turns ops)).map
      fun i => .replica (i % l.cluster.replicas.length) := by
  induction ops generalizing l with
  | nil => rfl
  | cons o ops ih =>
    have hsame := o.replicas_step l
    have hstep : (o.step l).cluster.replicas ≠ [] := by
      rw [hsame]
      exact hreplicas
    rw [turns, List.countP_cons] at h ⊢
    rcases o.site_step l with ⟨ho, -, hsite, hturn⟩ | ⟨ho, -, hturn⟩
    · rw [if_pos (decide_eq_true ho)] at h ⊢
      rw [Nat.mod_eq_of_lt (by omega)] at hturn
      rw [sites, if_pos ho, hsite, ih hstep (by rw [hturn, turns]; omega), hsame, hturn,
        List.range'_succ, List.map_cons]
      rfl
    · have ho := ho.resolve_right hreplicas
      rw [if_neg (by simpa using ho)] at h ⊢
      rw [sites, if_neg ho, ih hstep (by rw [hturn, turns]; omega), hsame, hturn]
      rfl

/-- How many of the first turns are those of one replica. -/
theorem count_turns {k place : Nat} (hplace : place < k) (n : Nat) :
    ((List.range n).map fun i => Site.replica (i % k)).count (.replica place) =
      n / k + if place < n % k then 1 else 0 := by
  have hcount : ((List.range n).map fun i => Site.replica (i % k)).count (.replica place) =
      n.count (· ≡ place [MOD k]) := by
    rw [List.count, List.countP_map, Nat.count]
    refine List.countP_congr fun i _ => ?_
    simp [Nat.ModEq, Nat.mod_eq_of_lt hplace]
  rw [hcount, Nat.count_modEq_card n (Nat.zero_lt_of_lt hplace), Nat.mod_eq_of_lt hplace]

section

variable (hturn : l.cluster.turn = 0) (hops : turns ops < UInt64.size)
include hturn hops

/-- How many of the first reads that replicas serve are served by one replica. -/
theorem count_take_sites {place n : Nat} (hplace : place < l.cluster.replicas.length)
    (hn : n ≤ turns ops) :
    ((l.sites ops).take n).count (.replica place) =
      n / l.cluster.replicas.length + if place < n % l.cluster.replicas.length then 1 else 0 := by
  have hreplicas := List.ne_nil_of_length_pos (Nat.zero_lt_of_lt hplace)
  rw [sites_eq hreplicas (by omega), hturn, ← List.range_eq_range', ← List.map_take, List.take_range,
    Nat.min_eq_left hn]
  exact count_turns hplace n

end

/-- How operations are spread over the sites of a cluster of which no replica has been read. -/
structure Rotates (l : Ledger) (ops : List Operation) : Prop where
  /-- Each operation works on the database at its site, and on no other. -/
  runs : ∀ before o later, ops = before ++ o :: later → o.RunsAt (l.after before) (o.site (l.after before))
  /-- Reads that need not be fresh run on one replica after the other. -/
  turns : ∀ before o later, ops = before ++ o :: later → o.IsEventual → l.cluster.replicas ≠ [] →
    o.site (l.after before) = .replica (Ledger.turns before % l.cluster.replicas.length)
  /-- All other operations run on the primary, as all do without replicas, and leave it open whose turn it
  is. -/
  others : ∀ before o later, ops = before ++ o :: later → ¬o.IsEventual ∨ l.cluster.replicas = [] →
    o.site (l.after before) = .primary ∧
      (o.step (l.after before)).cluster.turn = (l.after before).cluster.turn
  /-- As many such reads in a row as there are replicas run once on each of them. -/
  visits : ∀ i place, i + l.cluster.replicas.length ≤ Ledger.turns ops →
    place < l.cluster.replicas.length →
    (((l.sites ops).drop i).take l.cluster.replicas.length).count (.replica place) = 1
  /-- No replica serves more than one of them more than another. -/
  shares : ∀ n place place', n ≤ Ledger.turns ops → place < l.cluster.replicas.length →
    place' < l.cluster.replicas.length →
    ((l.sites ops).take n).count (.replica place) ≤ ((l.sites ops).take n).count (.replica place') + 1

/-- **Replicas take turns.** -/
theorem rotates_after (hturn : l.cluster.turn = 0) (hops : turns ops < UInt64.size) :
    l.Rotates ops where
  runs before o later _ := o.runsAt_site (l.after before)
  turns := by
    rintro before o later rfl ho hreplicas
    rw [turns, List.countP_append] at hops
    have hbefore : (l.after before).cluster.turn = turns before := by
      rw [turn_after hreplicas (by rw [hturn, turns]; omega), hturn, Nat.zero_add]
    have hsame := l.replicas_after before
    rcases o.site_step (l.after before) with ⟨-, -, hsite, -⟩ | ⟨hother, -, -⟩
    · rw [hsite, hbefore, hsame]
    · rw [hsame] at hother
      exact absurd hother (by simp [ho, hreplicas])
  others := by
    rintro before o later rfl hother
    have hsame := l.replicas_after before
    rcases o.site_step (l.after before) with ⟨ho, hreplicas, -, -⟩ | ⟨-, hprimary⟩
    · rw [hsame] at hreplicas
      exact absurd hother (by simp [ho, hreplicas])
    · exact hprimary
  visits i place hi hplace := by
    -- What is served within the window is what is served by its end but not before it.
    have hall := count_take_sites hturn hops hplace hi
    rw [List.take_add, List.count_append, count_take_sites hturn hops hplace (by omega),
      Nat.add_div_right _ (Nat.zero_lt_of_lt hplace), Nat.add_mod_right] at hall
    omega
  shares n place place' hn hplace hplace' := by
    rw [count_take_sites hturn hops hplace hn, count_take_sites hturn hops hplace' hn]
    split <;> split <;> omega

/-- Two replicas serve reads, one of which is refused, between a write, a check of the primary, a strong
read and a refined query. -/
theorem rotates_after_mixing :
    let supply : Supply := { ids := toString, times := toString, drawn := 0 }
    let l : Ledger :=
      { cluster := { primary := .fresh, replicas := [.shared, .separate .empty], turn := 0 }, supply }
    let ops : List Operation :=
      [.versioned .job (.latest .eventual "a"), .ping,
        .static .company (.allWhere .eventual (.one "colour" .null)),
        .static .company (.add { id := "", name := "c", createdAt := "", updatedAt := "" }),
        .versioned .timelog (.query (Period.timelogs "a" 0 9)), .static .company (.get .strong "0"),
        .versioned .payment (.allLatest .eventual)]
    l.cluster.turn = 0 ∧ turns ops < UInt64.size ∧
      l.sites ops = [.replica 0, .replica 1, .replica 0] ∧
      ((l.sites ops).drop 1).take 2 = [.replica 1, .replica 0] ∧
      (((l.sites ops).drop 1).take 2).count (.replica 0) = 1 := by
  intro supply l ops
  have hops : turns ops < UInt64.size := by decide
  have hsites : l.sites ops = [.replica 0, .replica 1, .replica 0] := by decide +kernel
  have hrotates : l.Rotates ops := rotates_after rfl hops
  exact ⟨rfl, hops, hsites, by rw [hsites]; rfl, hrotates.visits 1 0 (by decide) (by decide)⟩

end Ledger

end Payroll
