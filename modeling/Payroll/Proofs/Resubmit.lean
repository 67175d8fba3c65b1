import Payroll.Proofs.Body
import Payroll.Proofs.Served
import Payroll.Proofs.Successor
/-!
# A record that is sent back becomes its own next version

What is answered for the latest version of a job or a payment line item is a body with which the record
can be put again: the keys of its meta data are passed over, its data pass the checks as they are, what
they refer to is still there, and the version that is added has the same data.

## Key results

- `Session.Intact.exists_last`: the latest version, as it has been answered, is known from the history
- `Session.Intact.perform_appending`: valid data are added to a record as they are
- `exists_updating`: how a call adds a version
- `renewed_answers`: what comes of putting the latest version of a record
-/

namespace Payroll

open History (ofId row rows)
open Json (Fits maxDepth render)
open Session (Intact)
open Text (Source)

variable {k : VersionKind} {l : Ledger} {hs : Histories}

/-! ## Data as they are stored -/

theorem stored_stored (a : k.Data) :
    VersionedData.stored (VersionedData.stored a) = VersionedData.stored a := by
  cases k with
  | job =>
    show ({ a with rate := _ } : Job) = { a with rate := _ }
    exact congrArg (fun x => ({ a with rate := x } : Job)) (storedReal_storedReal (Job.rate a))
  | timelog => rfl
  | payment =>
    exact congrArg (fun x => ({ a with amount := x } : Payment)) (storedReal_storedReal (Payment.amount a))

/-- What is stored refers to the same. -/
theorem references_stored (a : k.Data) : k.references (VersionedData.stored a) = k.references a := by
  cases k <;> rfl

/-- Data that are stored as valid ones are valid. -/
theorem isValid_of_stored {a : k.Data} (h : k.IsValid (VersionedData.stored a)) : k.IsValid a := by
  cases k with
  | job => exact ⟨nonNegative_of_storedReal h.rate, h.status, h.title⟩
  | timelog => exact h
  | payment => exact ⟨nonNegative_of_storedReal h.amount, h.status⟩

/-- Valid data have all their values. -/
theorem nullColumn?_of_isValid {a : k.Data} (h : k.IsValid a) :
    Database.nullColumn? (VersionedData.columns k.Data) (VersionedData.cells a) = none := by
  rw [Database.nullColumn?_eq_none_iff]
  cases k with
  | job => exact isNaN_of_isFinite h.rate.1
  | timelog => trivial
  | payment => exact isNaN_of_isFinite h.amount.1

namespace Ledger

/-- The version is the latest of an id, as it is read or as it was answered to whoever wrote it. Storing it
takes the sign from a zero and leaves everything else as it is. -/
def IsLatest (l : Ledger) (k : VersionKind) (id : String) (v : Version k.Data) : Prop :=
  (l.latest? k.Data .strong id).1 = .ok (some v.stored)

/-- The latest version is read from the primary. -/
theorem isLatest_iff {id : String} {v : Version k.Data} :
    l.IsLatest k id v ↔ Versioned.latest? k.Data id l.cluster.primary = .ok (some v.stored) := by
  rw [IsLatest, latest?, outcome_onRead_strong]

/-- Which version is the latest depends on the databases only. -/
theorem IsLatest.congr {l' : Ledger} {id : String} {v : Version k.Data} (h : l.IsLatest k id v)
    (hcluster : l'.cluster = l.cluster) : l'.IsLatest k id v := by
  rwa [isLatest_iff, hcluster, ← isLatest_iff]

/-- The latest version is the latest one as it is read, too. -/
theorem IsLatest.stored {id : String} {v : Version k.Data} (h : l.IsLatest k id v) :
    l.IsLatest k id v.stored := by
  have hstored : v.stored.stored = v.stored := by
    simp only [Version.stored, stored_stored]
  rwa [isLatest_iff, hstored, ← isLatest_iff]

/-- The latest version is the last one of its id in the history, up to the sign of a zero. -/
theorem IsLatest.exists_last (hl : l.Keeps hs) {id : String} {v : Version k.Data}
    (h : l.IsLatest k id v) : ∃ w, (ofId id (hs k)).getLast? = some w ∧ row true w = v.stored := by
  rw [IsLatest, hl.latest?_eq] at h
  exact Option.map_eq_some_iff.mp (Except.ok.inj h)

end Ledger

/-- The latest version of an id has the number and refers to what the last version of the history does, and
its data are valid. -/
theorem Session.Intact.exists_last {id : String} {v : Version k.Data} (hi : Intact ⟨l, []⟩ hs)
    (hv : l.IsLatest k id v) :
    v.id = id ∧ 1 ≤ v.version ∧ k.IsValid v.data ∧ ∃ w, (ofId id (hs k)).getLast? = some w ∧
      w.version = v.version ∧ k.references v.data = k.references w.data := by
  -- The data are those of the last version, up to the sign of a zero.
  obtain ⟨w, hlast, hrow⟩ := hv.exists_last hi.keeps
  obtain ⟨hw, hwid⟩ := History.mem_ofId.mp (List.mem_of_getLast? hlast)
  have hvid : v.id = id := (congrArg (·.id) hrow).symm.trans hwid
  have hversion : w.version = v.version := congrArg (·.version) hrow
  have hdata : VersionedData.stored w.data = VersionedData.stored v.data := congrArg (·.data) hrow
  have hpos : 1 ≤ v.version := by
    have hcount := (hi.keeps.keeps k).orderly.version_getLast? hlast
    have hone : 0 < (ofId id (hs k)).length := List.length_pos_of_mem (List.mem_of_getLast? hlast)
    omega
  have hvalid : k.IsValid v.data := by
    apply isValid_of_stored
    rw [← hdata]
    exact isValid_stored (hi.versions k w hw).valid
  have href : k.references v.data = k.references w.data := by
    rw [← references_stored v.data, ← hdata, references_stored]
  exact ⟨hvid, hpos, hvalid, w, hlast, hversion, href⟩

/-! ## Adding a version -/

/-- Valid data whose references hold are added to a record as they are, as its next version, which is the
latest from then on. -/
theorem Session.Intact.perform_appending {id : String} {a : k.Data} {r : Except Invalid k.Data}
    (hi : Intact ⟨l, []⟩ hs) (hregistered : l.Registered) {w : Version k.Data}
    (hlast : (ofId id (hs k)).getLast? = some w) (hroom : w.version < maxInt64)
    (huid : l.supply.ids l.supply.drawn ∉ (hs k).map (·.uid)) (hr : r = .ok a) (hvalid : k.IsValid a)
    (href : k.references a = k.references w.data) :
    let next : Version k.Data :=
      { id, version := w.version + 1, uid := l.supply.ids l.supply.drawn, isLatest := true, data := a }
    ∃ l', (Service.ofCheck r >>= fun a =>
        Writing.perform ⟨k.references a, (·.append id a)⟩).perform l = (.ok next, l') ∧
      l'.IsLatest k id next := by
  intro next
  obtain ⟨hw, -⟩ := History.mem_ofId.mp (List.mem_of_getLast? hlast)
  have hrefs : ∀ q ∈ k.references a, q.Holds l.cluster.primary hs := by
    rw [href]
    exact (hi.versions k w hw).holds
  obtain ⟨ho, happend⟩ := Versioned.append_eq hi.keeps.isMigrated (hi.keeps.keeps k) hlast hroom huid
    (nullColumn?_of_isValid hvalid)
  let l' : Ledger := (l.append id a).2
  have houtcome : (l.append id a).1 = .ok next := congrArg Prod.fst happend
  have hwrite : l.append id a = (.ok next, l') := Prod.ext houtcome rfl
  refine ⟨l', ?_, ?_⟩
  · -- The check passes, the references are found, and then the version is added.
    have hcheck : (Service.ofCheck r).perform l = (.ok a, l) := by
      rw [hr]
      rfl
    rw [Service.perform_bind, hcheck]
    dsimp only
    rw [Writing.perform, Service.perform_bind, Reference.forM_check_eq_ok hi.keeps hregistered hrefs]
    dsimp only
    rw [Service.perform_ofLedger, hwrite]
    rfl
  · have hp : l'.cluster.primary =
        VersionedTable.setRows (some (rows (hs k ++ [next]))) l.cluster.primary :=
      congrArg Prod.snd happend
    have hlatest := (Database.keeps_setRows l.cluster.primary ho).latest?_eq id
    have hnext : ofId id (hs k ++ [next]) = ofId id (hs k) ++ [next] := by
      rw [History.ofId_append]
      exact congrArg (_ ++ ·) (History.ofId_cons_self next [])
    rw [Ledger.isLatest_iff, hp, hlatest, hnext, List.getLast?_concat]
    rfl

namespace Http

variable {limits : Limits} {c : Call}

/-- The call puts a text to the record of an id, as JSON of no more bytes than are read. -/
structure Call.Puts (c : Call) (limits : Limits) (k : VersionKind) (id text : String) : Prop where
  method : c.method = .put
  path : ∃ segment r, Resource.ofRecord? k segment = some r ∧
    Resource.ofPath? c.target.path = some r ∧ Call.id segment = .ok id
  json : ∃ type, c.header? "content-type" = some type ∧ isJson type = true
  body : c.body = .ofString text
  size : c.body.byteSize ≤ limits.maxBodyBytes

/-- A call of a resource that versions can be added to reads a request from the body, which states the data
of the version, and adds it. -/
theorem exists_updating {segment : String} {r : Resource} (hr : Resource.ofRecord? k segment = some r)
    (hput : c.method = .put) (limits : Limits) :
    c.method ∈ r.methods ∧ ∃ (ρ : Type) (_ : Request ρ) (check : ρ → Except Invalid k.Data),
      k.StatedBy ρ check ∧
      work limits c r = updating limits c segment
        (fun id request => Service.ofCheck (check request) >>= fun a =>
          Writing.perform ⟨k.references a, (Ledger.append · id a)⟩) Version.toJson := by
  cases k with
  | timelog => cases hr
  | job =>
    obtain rfl := Option.some.inj hr
    refine ⟨by simp [hput, Resource.methods], JobRequest, inferInstance, JobRequest.check,
      statedBy_job, ?_⟩
    rw [work, if_pos hput]
    rfl
  | payment =>
    obtain rfl := Option.some.inj hr
    exact ⟨by simp [hput, Resource.methods], PaymentRequest, inferInstance, PaymentRequest.check,
      statedBy_payment, rfl⟩

/-- A body that is read as a request is the request of the call. -/
theorem request_of_puts {ρ : Type} [Request ρ] {id text : String} {r : ρ}
    (hc : c.Puts limits k id text) (hr : Request.read ρ (Source.ofString text) = .ok r) :
    c.request ρ limits = .ok r := by
  obtain ⟨type, htype, hjson⟩ := hc.json
  have hsize := hc.size
  rw [hc.body] at hsize
  rw [Call.request, htype, hc.body]
  simp only [Option.map_some, hjson, Option.getD_some, Bool.not_true, Bool.false_eq_true, if_false,
    if_neg (Nat.not_lt.mpr hsize), hr]

/-- What comes of a call that puts a version back. -/
structure Renews (limits : Limits) (c : Call) (l : Ledger) (k : VersionKind) (id : String)
    (v : Version k.Data) : Prop where
  /-- A job is answered as it is read when it is asked for, and is the latest version as it was answered. -/
  fetched : ∀ (limits : Limits) (c : Call) (segment : String), k = .job → c.method = .get →
    c.consistency = .strong → Resource.ofPath? c.target.path = some (.job segment) →
    Call.id segment = .ok id →
    (answer limits c l).1.status = 200 ∧ (answer limits c l).1.body = some v.stored.toJson ∧
      (answer limits c l).2.IsLatest k id v.stored
  status : (answer limits c l).1.status = 200
  /-- The answer shows the next version, which has the same data and an id of its own that no version has
  had, and is the latest from then on. -/
  next : ∃ next : Version k.Data, (answer limits c l).1.body = some next.toJson ∧
    next.id = v.id ∧ next.version = v.version + 1 ∧ next.isLatest = true ∧ next.data = v.data ∧
    (∀ k' rows, l.cluster.primary.versionRows k' = some rows → ∀ r ∈ rows, r.uid ≠ next.uid) ∧
    (answer limits c l).2.IsLatest k id next

/-- A job that is asked for is answered as it is read. -/
theorem job_fetched {id segment : String} {v : Version Job} (hv : l.IsLatest .job id v)
    (hget : c.method = .get) (hstrong : c.consistency = .strong)
    (hpath : Resource.ofPath? c.target.path = some (.job segment)) (hid : Call.id segment = .ok id)
    (limits : Limits) :
    (answer limits c l).1.status = 200 ∧ (answer limits c l).1.body = some v.stored.toJson ∧
      (answer limits c l).2.IsLatest .job id v.stored := by
  have hreaches : c.Reaches (.job segment) := ⟨hpath, by simp [hget, Resource.methods]⟩
  have hput : c.method ≠ .put := by simp [hget]
  have hhead : c.method ≠ .head := by simp [hget]
  have hlatest : (requestId c l).2.IsLatest .job id v := hv.congr (cluster_requestId c l)
  have hrow : Versioned.latest? Job id (requestId c l).2.cluster.primary = .ok (some v.stored) :=
    Ledger.isLatest_iff.mp hlatest
  -- The strong read is answered by the primary.
  have hread : (Service.job .strong id).perform (requestId c l).2 = (.ok v.stored, (requestId c l).2) := by
    rw [Service.job, Service.perform_bind, Service.perform_ofLedger, Ledger.latest?, Ledger.onRead_strong,
      hrow]
    rfl
  rw [answer_of_reaches hreaches, work, if_neg hput, reading, Work.run_ofCall, hid]
  dsimp only
  rw [Work.run_ofService, hstrong, hread]
  exact ⟨rfl, if_neg hhead, hlatest.stored⟩

/-- Where data can be put, no integers are among them, and the floats of valid ones are finite. -/
theorem isBounded_of_isValid {segment : String} {r : Resource}
    (hr : Resource.ofRecord? k segment = some r) {a : k.Data} (h : k.IsValid a) :
    (k.entries a).IsBounded := by
  cases k with
  | timelog => cases hr
  | job =>
    simpa [Json.Entries.IsBounded, VersionKind.entries, Json.Scalar.IsBounded] using h.rate.1
  | payment =>
    simpa [Json.Entries.IsBounded, VersionKind.entries, Json.Scalar.IsBounded] using h.amount.1

/-- The id that is drawn once a call has got its own belongs to no version. -/
theorem uid_ne_of_requestId {ids : Nat → String} (hdrawn : l.UidsDrawn ids)
    (hids : Function.Injective ids) (c : Call) (k : VersionKind) (rows : List (Version k.Data))
    (hrows : l.cluster.primary.versionRows k = some rows) :
    ∀ r ∈ rows, r.uid ≠ (requestId c l).2.supply.ids (requestId c l).2.supply.drawn := by
  intro r hr
  have hdrawn' := invariant_requestId (Ledger.isInvariant_uidsDrawn ids) c hdrawn
  have hrows' : (requestId c l).2.cluster.primary.versionRows k = some rows := by
    rw [cluster_requestId]
    exact hrows
  rw [hdrawn'.ids_eq]
  exact hdrawn'.uid_ne hids hrows' hr (Nat.le_refl _)

/-- Where calls have led, a call that puts the latest version of a record adds a version with the same
data. -/
theorem puts_latest {ids : Nat → String} (hi : Intact ⟨l, []⟩ hs) (hregistered : l.Registered)
    (hdrawn : l.UidsDrawn ids) (hids : Function.Injective ids) {id : String} {v : Version k.Data}
    (hv : l.IsLatest k id v) (hroom : v.version < maxInt64) (hreals : v.RealsReadBack)
    (hc : c.Puts limits k id (render v.toJson)) :
    (answer limits c l).1.status = 200 ∧
      ∃ next : Version k.Data, (answer limits c l).1.body = some next.toJson ∧
        next.id = v.id ∧ next.version = v.version + 1 ∧ next.isLatest = true ∧ next.data = v.data ∧
        (∀ k' rows, l.cluster.primary.versionRows k' = some rows → ∀ r ∈ rows, r.uid ≠ next.uid) ∧
        (answer limits c l).2.IsLatest k id next := by
  obtain ⟨segment, r, hr, hpath, hid⟩ := hc.path
  obtain ⟨hmethod, ρ, _, check, hstated, hwork⟩ := exists_updating hr hc.method limits
  obtain ⟨hvid, hpos, hvalid, w, hlast, hversion, href⟩ := hi.exists_last hv
  -- Its text is a request for its own data.
  have hnumber : FitsInt64 v.version := by
    rw [maxInt64] at hroom
    omega
  have hfits : Fits maxDepth v.toJson :=
    Version.fits_toJson hnumber (isBounded_of_isValid hr hvalid) hreals
  obtain ⟨request, hread, hcheck⟩ := hstated v hvalid hfits
  -- The call itself may draw an id before anything else is done.
  have hi' : Intact ⟨(requestId c l).2, []⟩ hs := hi.congr (by rw [cluster_requestId])
  have hregistered' := invariant_requestId Ledger.isInvariant_registered c hregistered
  have hnew := uid_ne_of_requestId hdrawn hids c
  have huid : (requestId c l).2.supply.ids (requestId c l).2.supply.drawn ∉ (hs k).map (·.uid) := by
    rw [← History.map_uid_rows]
    intro hmem
    obtain ⟨r, hr, heq⟩ := List.mem_map.mp hmem
    exact hnew k _ (hi.keeps.keeps k).versionRows_eq r hr heq
  obtain ⟨l', hperform, hlatest⟩ := hi'.perform_appending hregistered' hlast (hversion ▸ hroom) huid
    hcheck hvalid href
  have hhead : c.method ≠ .head := by simp [hc.method]
  rw [answer_of_reaches ⟨hpath, hmethod⟩, hwork, updating, Work.run_ofCall, hid]
  dsimp only
  rw [Work.run_ofCall, request_of_puts hc hread]
  dsimp only
  rw [Work.run_ofService, hperform]
  refine ⟨rfl, _, if_neg hhead, hvid.symm, ?_, rfl, rfl, hnew, hlatest⟩
  rw [hversion]

/-- In every state that calls to an empty primary of the present schema can reach, putting the latest
version of a record as it has been answered adds a version with the same data. -/
theorem renewed_answers (k : VersionKind) (engine : Engine) (replicas : List Replica) (turn : Nat)
    (supply : Supply) (hids : Function.Injective supply.ids) (calls : List (Limits × Call)) (id : String)
    (v : Version k.Data) (hv : (answers (.opened engine replicas turn supply) calls).2.IsLatest k id v)
    (hroom : v.version < maxInt64) (hreals : v.RealsReadBack) (limits : Limits) (c : Call)
    (hc : c.Puts limits k id (render v.toJson)) :
    Renews limits c (answers (.opened engine replicas turn supply) calls).2 k id v := by
  obtain ⟨hs, hi⟩ := intact_answers (Session.intact_opened engine replicas turn supply) calls
  have hregistered := invariant_answers Ledger.isInvariant_registered calls
    (Ledger.registered_opened engine replicas turn supply)
  have hdrawn := invariant_answers (Ledger.isInvariant_uidsDrawn supply.ids) calls
    (Ledger.uidsDrawn_opened engine replicas turn supply)
  obtain ⟨hstatus, hnext⟩ := puts_latest hi hregistered hdrawn hids hv hroom hreals hc
  refine ⟨?_, hstatus, hnext⟩
  rintro limits c segment rfl hget hstrong hpath hid
  exact job_fetched hv hget hstrong hpath hid limits

deriving instance DecidableEq for Job, Json.Number

/-- A supply whose ids are strokes, one more for every draw. -/
def strokes : Supply :=
  { ids := fun n => String.ofList (List.replicate n '-')
    times := fun _ => "now"
    drawn := 0 }

private theorem injective_strokes : Function.Injective strokes.ids := by
  intro m n h
  have hlists := congrArg (fun s : String => s.toList.length) h
  simpa [strokes] using hlists

/-- A company, a contractor and a job for both are created. -/
def jobCreated : List (Limits × Call) :=
  [("companies", "\x7b\"name\":\"company\"\x7d"),
   ("contractors", "\x7b\"name\":\"name\",\"email\":\"name@example.org\",\"phone\":\"1\"\x7d"),
   ("jobs", "\x7b\"rate\":-0.0,\"title\":\" a \\\"title\\\" \",\"company_id\":\"--\"," ++
      "\"contractor_id\":\"-----\"\x7d")].map
    fun (resource, body) =>
      (⟨4096, 0⟩, ⟨.post, ⟨["", "api", "v1", resource], []⟩, [("content-type", "application/json")],
        .ofString body⟩)

/-- The job, as it is answered to whoever creates it. The zero loses its sign when it is stored. -/
def createdJob : Version Job :=
  { id := "-------", version := 1, uid := "--------", isLatest := true
    data :=
      { status := "pending", rate := -0.0, title := "a \"title\"", companyId := "--",
        contractorId := "-----" } }

/-- The job is put back as it was answered. -/
def puttingBack : Call :=
  { method := .put
    target := ⟨["", "api", "v1", "jobs", "-------"], []⟩
    headers := [("Content-Type", "application/json; charset=utf-8")]
    body := .ofString (render createdJob.toJson) }

private theorem isLatest_createdJob :
    (answers (.opened .plain [] 0 strokes) jobCreated).2.IsLatest .job "-------" createdJob := by
  have hread : ((answers (.opened .plain [] 0 strokes) jobCreated).2.latest? Job .strong "-------").1 =
      .ok (some createdJob.stored) := mem_toList_toOption_iff.mp (by decide +kernel)
  exact hread

private theorem realsReadBack_createdJob : Version.RealsReadBack (k := .job) createdJob := by
  intro x hx
  have hcell : realCell (-0.0) = .real (-0.0) := realCell_eq (by decide)
  have hx : Sql.Value.real x ∈ VersionedData.cells createdJob.data := hx
  simp only [VersionedData.cells, createdJob, hcell] at hx
  obtain rfl : x = -0.0 := by simpa using hx
  have htokens : Json.tokens ((Json.chars (.number (.real (-0.0)))).map some) =
      [.number ⟨true, [0], [0], false, []⟩] := by decide +kernel
  have hvalue : (⟨true, [0], [0], false, []⟩ : Json.Numeral).value = some (.real (-0.0)) := by
    decide +kernel
  rw [Json.Number.ReadsBack, Json.ofString_render, Json.parse?, htokens]
  simp [Json.frontTree?, Json.tree?, Json.Tree.value?, Json.Token.value?, hvalue]

private theorem puts_puttingBack :
    puttingBack.Puts ⟨4096, 0⟩ .job "-------" (render createdJob.toJson) where
  method := rfl
  path := ⟨"-------", .job "-------", rfl, rfl, by with_unfolding_all rfl⟩
  json := ⟨"application/json; charset=utf-8", by decide +kernel, by decide +kernel⟩
  body := by rw [puttingBack]
  size := by decide +kernel

/-- A job with a rate of minus zero and quotes in its title is put back as its creation was answered. -/
theorem renewed_answers_created :
    Function.Injective strokes.ids ∧
      (answers (.opened .plain [] 0 strokes) jobCreated).2.IsLatest .job "-------" createdJob ∧
      createdJob.version < maxInt64 ∧ Version.RealsReadBack (k := .job) createdJob ∧
      puttingBack.Puts ⟨4096, 0⟩ .job "-------" (render createdJob.toJson) ∧
      Renews ⟨4096, 0⟩ puttingBack (answers (.opened .plain [] 0 strokes) jobCreated).2 .job "-------"
        createdJob := by
  have hroom : createdJob.version < maxInt64 := by decide
  exact ⟨injective_strokes, isLatest_createdJob, hroom, realsReadBack_createdJob, puts_puttingBack,
    renewed_answers .job .plain [] 0 strokes injective_strokes jobCreated "-------" createdJob
      isLatest_createdJob hroom realsReadBack_createdJob ⟨4096, 0⟩ puttingBack puts_puttingBack⟩

end Http

end Payroll
