import Payroll.Proofs.Alike
/-!
# Replicas make no difference to what callers write

All writes run on the primary, as do the look-ups before them and the queries for a period, whatever
consistency a caller asks for. So two runs of calls that ask for nothing else, or for strong reads, are
answered alike whatever the replicas are. Nothing is ever written to a replica.

## Key results

- `agrees_work`, `agrees_answer`: a call is answered alike by ledgers that are alike
- `replicas_demands`: nothing that is asked of the store or of the server changes a replica
- `replicas_apart`: runs that agree
-/

namespace Payroll

variable {ε β γ : Type} {k k' : Consistency}

/-! ## Calls -/

namespace Http

open Ledger (Agrees Alike)

variable {p : List Replica → List Replica → Prop} {limits : Limits} {c c' : Call}

namespace Work

variable {f f' : β → Work γ} {s s' : Service β} {write : β → Nat × Json}

theorem agrees_ofCall {r : Except BadCall β} (hf : ∀ b, Agrees p (f b).run (f' b).run) :
    Agrees p (ofCall r >>= f).run (ofCall r >>= f').run := by
  intro l l' h
  rw [run_ofCall, run_ofCall]
  cases r with
  | error bad => exact ⟨rfl, h⟩
  | ok b => exact hf b l l' h

theorem agrees_ofService (hs : Agrees p s.perform s'.perform) :
    Agrees p (ofService s >>= fun b => pure (write b)).run
      (ofService s' >>= fun b => pure (write b)).run := by
  intro l l' h
  obtain ⟨hout, hafter⟩ := hs l l' h
  rw [run_ofService, run_ofService]
  exact ⟨by rw [finished, finished, hout], hafter⟩

end Work

/-- The calls are the same, the consistency that they ask for aside. -/
structure Call.Alike (c c' : Call) : Prop where
  method : c.method = c'.method
  target : c.target = c'.target
  body : c.body = c'.body
  contentType : c.header? "content-type" = c'.header? "content-type"
  requestId : c.header? "x-request-id" = c'.header? "x-request-id"

namespace Call.Alike

theorem refl (c : Call) : c.Alike c := ⟨rfl, rfl, rfl, rfl, rfl⟩

variable (h : c.Alike c')
include h

theorem reaches_iff {r : Resource} : c.Reaches r ↔ c'.Reaches r := by
  constructor
  · exact fun hr => ⟨h.target ▸ hr.path, h.method ▸ hr.method⟩
  · exact fun hr => ⟨h.target ▸ hr.path, h.method ▸ hr.method⟩

theorem request_eq (ρ : Type) [Request ρ] (limits : Limits) : c.request ρ limits = c'.request ρ limits := by
  simp only [request, h.contentType, h.body]

theorem queryValue?_eq (key : String) : c.queryValue? key = c'.queryValue? key := by
  rw [queryValue?, queryValue?, h.target]

theorem queryInt_eq (key : String) : c.queryInt key = c'.queryInt key := by
  rw [queryInt, queryInt, h.queryValue?_eq]

end Call.Alike

section Shapes

variable (h : c.Alike c')
include h

theorem agrees_creating {ρ : Type} [Request ρ] {create : ρ → Service β} {write : β → Json}
    (hcreate : ∀ r, Agrees p (create r).perform (create r).perform) :
    Agrees p (creating limits c create write).run (creating limits c' create write).run := by
  rw [creating, creating, h.request_eq]
  exact Work.agrees_ofCall fun r => Work.agrees_ofService (hcreate r)

theorem agrees_updating {ρ : Type} [Request ρ] {segment : String} {update : String → ρ → Service β}
    {write : β → Json} (hupdate : ∀ id r, Agrees p (update id r).perform (update id r).perform) :
    Agrees p (updating limits c segment update write).run
      (updating limits c' segment update write).run := by
  rw [updating, updating, h.request_eq]
  exact Work.agrees_ofCall fun id => Work.agrees_ofCall fun r => Work.agrees_ofService (hupdate id r)

theorem agrees_readingPeriod {α : Type} [VersionedData α] {segment : String}
    {read : String → Int → Int → Service (List (Version α))}
    (hread : ∀ id start stop, Agrees p (read id start stop).perform (read id start stop).perform) :
    Agrees p (readingPeriod c segment read).run (readingPeriod c' segment read).run := by
  rw [readingPeriod, readingPeriod, h.queryInt_eq, h.queryInt_eq]
  exact Work.agrees_ofCall fun id => Work.agrees_ofCall fun start => Work.agrees_ofCall fun stop =>
    Work.agrees_ofService (hread id start stop)

theorem agrees_readingStatus
    (hp : ∀ rs rs', p rs rs' → c.consistency.SeesPrimary rs ∧ c'.consistency.SeesPrimary rs') :
    Agrees p (readingStatus c).run (readingStatus c').run := by
  rw [readingStatus, readingStatus, h.queryValue?_eq]
  exact Work.agrees_ofCall fun _ => Work.agrees_ofService ((Service.isRead_jobsWithStatus _).agrees hp)

end Shapes

theorem agrees_reading {segment : String} {read read' : String → Service β} {write : β → Json}
    (hread : ∀ id, Agrees p (read id).perform (read' id).perform) :
    Agrees p (reading segment read write).run (reading segment read' write).run :=
  Work.agrees_ofCall fun id => Work.agrees_ofService (hread id)

/-- What is asked of the resource with this method is done on the primary, whatever consistency the caller
asks for: a record is written, or what is within a period is read. -/
def Resource.IsSteady : Resource → Method → Prop
  | .companies, _ | .contractors, _ | .jobs, _ | .timelogs, _ | .payments, _ | .payment _, _
  | .timelogsOf _, _ | .paymentsOf _, _ => True
  | .job _, m => m = .put
  | _, _ => False

/-- All writing is done on the primary. -/
theorem Resource.isSteady_of_mem_writing {r : Resource} {m : Method} (hr : m ∈ r.writing) :
    r.IsSteady m := by
  cases r with
  | companies | contractors | jobs | timelogs | payments | payment | timelogsOf | paymentsOf =>
    exact trivial
  | job id => exact List.mem_singleton.mp hr
  | health | company | contractor | extendedJobs | activeJobs | jobVersions => exact nomatch hr

/-- What two calls ask of a resource, one of each ledger, does not depend on the replicas: it is done on the
primary, or the replicas are known to serve what is on the primary. -/
def Comparable (p : List Replica → List Replica → Prop) (c c' : Call) (r : Resource) : Prop :=
  r.IsSteady c.method ∨ ∀ rs rs', p rs rs' →
    (c.consistency.SeesPrimary rs ∧ c'.consistency.SeesPrimary rs') ∧
      (r = .health → rs.length = rs'.length)

/-- Ledgers that are alike do the same for a call. -/
theorem agrees_work (limits : Limits) (h : c.Alike c') {r : Resource} (hr : Comparable p c c' r) :
    Agrees p (work limits c r).run (work limits c' r).run := by
  -- Where something else than the primary may be read, the replicas are known to serve the same.
  have hreads : ¬r.IsSteady c.method →
      ∀ rs rs', p rs rs' → c.consistency.SeesPrimary rs ∧ c'.consistency.SeesPrimary rs' :=
    fun hsteady rs rs' hp => ((hr.resolve_left hsteady) rs rs' hp).1
  cases r with
  | companies => exact agrees_creating h Service.agrees_createCompany
  | contractors => exact agrees_creating h Service.agrees_createContractor
  | jobs => exact agrees_creating h Service.agrees_createJob
  | timelogs => exact agrees_creating h Service.agrees_createTimelog
  | payments => exact agrees_creating h Service.agrees_createPayment
  | payment id => exact agrees_updating h Service.agrees_updatePayment
  | timelogsOf id => exact agrees_readingPeriod h Service.agrees_timelogsIn
  | paymentsOf id => exact agrees_readingPeriod h Service.agrees_paymentsIn
  | company segment => exact agrees_reading fun id' => (Service.isRead_company id').agrees (hreads id)
  | contractor segment => exact agrees_reading fun id' => (Service.isRead_contractor id').agrees (hreads id)
  | extendedJobs => exact agrees_readingStatus h (hreads id)
  | activeJobs segment => exact agrees_reading fun id' => (Service.isRead_activeJobs id').agrees (hreads id)
  | jobVersions segment => exact agrees_reading fun id' => (Service.isRead_jobVersions id').agrees (hreads id)
  | job segment =>
    rw [work, work, ← h.method]
    split
    · exact agrees_updating h Service.agrees_updateJob
    · rename_i hput
      exact agrees_reading fun id => (Service.isRead_job id).agrees (hreads hput)
  | health =>
    intro l l' hl
    -- The number of replicas is told.
    have hlength := ((hr.resolve_left id) _ _ hl.replicas).2 rfl
    refine ⟨?_, hl.primary, hl.supply, hl.replicas⟩
    show Except.ok _ = Except.ok _
    simp only [hlength]

/-- An id that is drawn for a call is drawn alike. -/
theorem alike_requestId (h : c.Alike c') {l l' : Ledger} (hl : Alike p l l') :
    (requestId c l).1 = (requestId c' l').1 ∧ Alike p (requestId c l).2 (requestId c' l').2 := by
  rw [requestId, requestId, h.requestId, hl.supply]
  split
  · exact ⟨rfl, hl⟩
  · exact ⟨rfl, hl.primary, rfl, hl.replicas⟩

/-- Ledgers that are alike answer a call alike. -/
theorem agrees_answer (limits : Limits) (h : c.Alike c')
    (hc : ∀ r, c.Reaches r → Comparable p c c' r)
    {l l' : Ledger} (hl : Alike p l l') :
    (answer limits c l).1 = (answer limits c' l').1 ∧
      Alike p (answer limits c l).2 (answer limits c' l').2 := by
  obtain ⟨hid, hl⟩ := alike_requestId h hl
  by_cases hr : ∃ r, c.Reaches r
  · obtain ⟨r, hr⟩ := hr
    obtain ⟨hout, hafter⟩ := agrees_work limits h (hc r hr) _ _ hl
    -- Beside what is done, the answer depends on the method and the id of the call.
    rw [answer_of_reaches hr, answer_of_reaches (h.reaches_iff.mp hr), hid, hout]
    refine ⟨?_, hafter⟩
    simp only [Answer.ofOutcome, h.method]
  · have hr' : ¬∃ r, c'.Reaches r := fun ⟨r, hr'⟩ => hr ⟨r, h.reaches_iff.mpr hr'⟩
    rw [answer_of_not_reaches limits l hr, answer_of_not_reaches limits l' hr', hid]
    refine ⟨?_, hl⟩
    simp only [Answer.idle, h.method, h.target]

/-- Ledgers that are alike answer calls alike, one after the other. The calls to the second ledger may ask
for another consistency. -/
theorem agrees_answers (f : Call → Call) (calls : List (Limits × Call))
    (hf : ∀ call ∈ calls, call.2.Alike (f call.2) ∧
      ∀ r, call.2.Reaches r → Comparable p call.2 (f call.2) r) {l l' : Ledger} (hl : Alike p l l') :
    (answers l calls).1 = (answers l' (calls.map fun call => (call.1, f call.2))).1 ∧
      Alike p (answers l calls).2 (answers l' (calls.map fun call => (call.1, f call.2))).2 := by
  induction calls generalizing l l' with
  | nil => exact ⟨rfl, hl⟩
  | cons call calls ih =>
    obtain ⟨limits, c⟩ := call
    obtain ⟨halike, hc⟩ := hf _ List.mem_cons_self
    obtain ⟨hout, hafter⟩ := agrees_answer limits halike hc hl
    obtain ⟨houts, hlast⟩ := ih (fun call hcall => hf call (List.mem_cons_of_mem _ hcall)) hafter
    rw [List.map_cons, answers_cons, answers_cons]
    exact ⟨by rw [hout, houts], hlast⟩

/-! ## Runs of calls -/

namespace Call

/-- The call writes, or asks for what is within a period, or asks for a strong read. -/
def IsFirm (c : Call) : Prop :=
  c.method = .post ∨ c.method = .put ∨ c.method = .get ∧
    ((∃ id, Resource.ofPath? c.target.path = some (.timelogsOf id)) ∨
      (∃ id, Resource.ofPath? c.target.path = some (.paymentsOf id)) ∨
      (∃ segments, c.target.path = "" :: "api" :: "v1" :: segments) ∧ c.consistency = .strong)

/-- The call, asking for a strong read. -/
def strongly (c : Call) : Call :=
  { c with headers := ("x-consistency", "strong") :: c.headers }

theorem consistency_strongly (c : Call) : c.strongly.consistency = .strong := by
  have hheader : c.strongly.header? "x-consistency" = some "strong" := by
    rw [header?, strongly, List.find?_cons_of_pos (by decide)]
    rfl
  rw [consistency, hheader]
  decide

theorem alike_strongly (c : Call) : c.Alike c.strongly := by
  have hheader : ∀ name, (asciiLower "x-consistency" == name) = false →
      c.header? name = c.strongly.header? name := by
    intro name hname
    rw [header?, header?, strongly, List.find?_cons_of_neg (by simp [hname])]
  exact ⟨rfl, rfl, rfl, hheader _ (by decide), hheader _ (by decide)⟩

end Call

/-- The health of the server is not told among the records. -/
theorem ofSegments?_ne_health (segments : List String) :
    Resource.ofSegments? segments ≠ some .health := by
  rw [Resource.ofSegments?.eq_def]
  split <;> simp

theorem Call.IsFirm.comparable (h : c.IsFirm) {r : Resource} (hr : c.Reaches r) : Comparable p c c r := by
  have hpath := hr.path
  rcases h with hpost | hput | ⟨-, ⟨id, htimelogs⟩ | ⟨id, hpayments⟩ | ⟨⟨segments, hsegments⟩, hstrong⟩⟩
  · exact Or.inl (Resource.isSteady_of_mem_writing (Resource.mem_writing.mpr ⟨hr.method, Or.inl hpost⟩))
  · exact Or.inl (Resource.isSteady_of_mem_writing (Resource.mem_writing.mpr ⟨hr.method, Or.inr hput⟩))
  · obtain rfl := Option.some.inj (htimelogs.symm.trans hpath)
    exact Or.inl trivial
  · obtain rfl := Option.some.inj (hpayments.symm.trans hpath)
    exact Or.inl trivial
  · refine Or.inr fun rs rs' _ => ⟨⟨Or.inl hstrong, Or.inl hstrong⟩, fun hhealth => ?_⟩
    rw [hsegments, hhealth] at hpath
    exact absurd hpath (ofSegments?_ne_health segments)

end Http

/-! ## Replicas are never written -/

theorem Operation.replicas_step (o : Operation) (l : Ledger) :
    (o.step l).cluster.replicas = l.cluster.replicas := by
  have hread : ∀ {β : Type} (k : Consistency) (f : Reading β),
      (l.onRead k f).2.cluster.replicas = l.cluster.replicas :=
    fun k f => (Ledger.quiet_onRead k f l).2
  cases o with
  | versioned k o =>
    cases o with
    | create | append | query => rfl
    | latest | ofUid | latestWhere | allLatest | history => exact hread _ _
  | static s o =>
    cases o with
    | add | addBatch | overwriteWhere | updateWhere | delete | deleteWhere => rfl
    | first | allWhere | get => exact hread _ _
  | ping | migrate => rfl

/-- Trying to write where a read would run changes at most the primary. -/
theorem Cluster.replicas_writeWhereRead (c : Cluster) (k : Consistency) (f : Step β) :
    (c.writeWhereRead k f).2.replicas = c.replicas := by
  have hsite : (c.site k).2.replicas = c.replicas := by
    rw [site]
    split <;> rfl
  rw [writeWhereRead]
  dsimp only
  split
  · exact hsite
  · split
    · exact hsite
    · exact hsite

/-- Something that is asked of the server or of the store. -/
inductive Demand where
  | call (limits : Http.Limits) (c : Http.Call)
  | operation (o : Operation)

/-- The ledger once the demand is met. -/
def Demand.step : Demand → Ledger → Ledger
  | .call limits c, l => (Http.answer limits c l).2
  | .operation o, l => o.step l

theorem replicas_demands (l : Ledger) (demands : List Demand) :
    (demands.foldl (fun l demand => demand.step l) l).cluster.replicas = l.cluster.replicas := by
  induction demands generalizing l with
  | nil => rfl
  | cons demand demands ih =>
    rw [List.foldl_cons, ih]
    cases demand with
    | call limits c => exact (Http.answer_cases limits c l).1
    | operation o => exact o.replicas_step l

/-! ## Two runs -/

namespace Http

variable {l l' : Ledger}

/-- Calls that write, ask for what is within a period, or ask for strong reads are answered alike whatever
the replicas are, and leave the same primary. -/
theorem answers_eq_of_isFirm (hprimary : l.cluster.primary = l'.cluster.primary)
    (hsupply : l.supply = l'.supply) {calls : List (Limits × Call)}
    (hcalls : ∀ call ∈ calls, call.2.IsFirm) :
    (answers l calls).1 = (answers l' calls).1 ∧
      (answers l calls).2.cluster.primary = (answers l' calls).2.cluster.primary := by
  -- Nothing is said of the replicas.
  have hl : Ledger.Alike (fun _ _ => True) l l' := ⟨hprimary, hsupply, trivial⟩
  have hagree := agrees_answers (fun c => c) calls
    (fun call hcall => ⟨.refl _, fun r => (hcalls call hcall).comparable⟩) hl
  rw [List.map_id'] at hagree
  exact ⟨hagree.1, hagree.2.primary⟩

/-- Where every replica is the primary's own file, calls are answered as if all of them asked for strong
reads. -/
theorem answers_strongly (hshared : ∀ r ∈ l.cluster.replicas, r = .shared)
    (calls : List (Limits × Call)) :
    (answers l calls).1 = (answers l (calls.map fun call => (call.1, call.2.strongly))).1 := by
  have hl : Ledger.Alike (fun rs rs' => rs = rs' ∧ ∀ r ∈ rs, r = .shared) l l := ⟨rfl, rfl, rfl, hshared⟩
  refine (agrees_answers Call.strongly calls (fun call _ =>
    ⟨call.2.alike_strongly, fun r _ => Or.inr ?_⟩) hl).1
  rintro rs rs' ⟨rfl, hrs⟩
  exact ⟨⟨Or.inr hrs, Or.inl call.2.consistency_strongly⟩, fun _ => rfl⟩

/-- Replicas make no difference to what is written or to what is read strongly. Two runs on the same
primary with the same supply agree, nothing ever changes a replica, and replicas that are the primary's
own file serve what a strong read serves. -/
theorem replicas_apart :
    (∀ (l l' : Ledger) (calls : List (Limits × Call)), l.cluster.primary = l'.cluster.primary →
      l.supply = l'.supply → (∀ call ∈ calls, call.2.IsFirm) →
      (answers l calls).1 = (answers l' calls).1 ∧
        (answers l calls).2.cluster.primary = (answers l' calls).2.cluster.primary) ∧
    (∀ (l : Ledger) (demands : List Demand),
      (demands.foldl (fun l demand => demand.step l) l).cluster.replicas = l.cluster.replicas) ∧
    (∀ (β : Type) (c : Cluster) (k : Consistency) (f : Step β),
      (c.writeWhereRead k f).2.replicas = c.replicas) ∧
    ∀ l : Ledger, (∀ r ∈ l.cluster.replicas, r = .shared) →
      (∀ (β : Type) (k : Consistency) (f : Reading β), (l.onRead k f).1 = (l.onRead .strong f).1) ∧
        ∀ calls, (answers l calls).1 =
          (answers l (calls.map fun call => (call.1, call.2.strongly))).1 := by
  refine ⟨fun l l' calls hprimary hsupply hcalls => answers_eq_of_isFirm hprimary hsupply hcalls,
    replicas_demands, fun β => Cluster.replicas_writeWhereRead, fun l hshared => ⟨fun β k f => ?_, ?_⟩⟩
  · rw [Ledger.outcome_onRead (Or.inr hshared), Ledger.outcome_onRead_strong]
  · exact answers_strongly hshared

/-- A cluster without replicas, and one whose replicas are an empty database and a file without tables. -/
theorem replicas_apart_two :
    let supply : Supply := { ids := toString, times := toString, drawn := 0 }
    let limits : Limits := { maxBodyBytes := 100, uptimeSecs := 0 }
    let body := Text.Source.ofString "\x7b\"name\":\"a\"\x7d"
    let calls : List (Limits × Call) :=
      [(limits, ⟨.post, ⟨["", "api", "v1", "companies"], []⟩, [("content-type", "application/json")], body⟩),
        (limits, ⟨.get, ⟨["", "api", "v1", "companies", "0"], []⟩, [("x-consistency", "strong")], []⟩)]
    (answers (.opened .plain [] 0 supply) calls).1 =
      (answers (.opened .plain [.separate .fresh, .separate .empty] 1 supply) calls).1 := by
  intro supply limits body calls
  refine (replicas_apart.1 (.opened .plain [] 0 supply)
    (.opened .plain [.separate .fresh, .separate .empty] 1 supply) calls rfl rfl fun call hcall => ?_).1
  simp only [calls, List.mem_cons, List.not_mem_nil, or_false] at hcall
  rcases hcall with rfl | rfl
  · exact Or.inl rfl
  · exact Or.inr (Or.inr ⟨rfl, Or.inr (Or.inr ⟨⟨_, rfl⟩, by decide⟩)⟩)

end Http

end Payroll
