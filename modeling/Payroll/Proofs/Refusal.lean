import Payroll.Proofs.Answer
/-!
# How callers are told that a call fails

A call of a resource that knows its method is answered as it asks, or it is refused in one shape: a
status, a code that goes with the status, and a message. Of what goes wrong inside the store the caller
is told only that something has.

## Key results

- `tellsSuccess_work`: what is found for a call is told with a status of success
- `Answer.refuses_ofOutcome`: a fault is told in the one shape
- `Answer.ofOutcome_ofStore_congr`: faults of the store itself are all told alike
- `refuses_answer`: how a call is refused
-/

namespace Payroll.Http

variable {β γ : Type} {limits : Limits} {c : Call} {l : Ledger}

/-! ## Work that succeeds -/

/-- Whatever the work finds is told with a status of success. -/
def Work.TellsSuccess (w : Work (Nat × Json)) : Prop :=
  ∀ l found, (w.run l).1 = .ok found → IsSuccess found.1

namespace Work

theorem tellsSuccess_ofCall {r : Except BadCall β} {f : β → Work (Nat × Json)}
    (hf : ∀ b, (f b).TellsSuccess) : (ofCall r >>= f).TellsSuccess := by
  intro l found hfound
  rw [run_ofCall] at hfound
  cases r with
  | error bad => cases hfound
  | ok b => exact hf b l found hfound

theorem tellsSuccess_ofService (s : Service β) {write : β → Nat × Json}
    (hwrite : ∀ b, IsSuccess (write b).1) :
    (ofService s >>= fun b => pure (write b)).TellsSuccess := by
  intro l found hfound
  rw [run_ofService, finished] at hfound
  obtain ⟨b, -, rfl⟩ := map_eq_ok_iff.mp (mapError_eq_ok_iff.mp hfound)
  exact hwrite b

end Work

open Work (tellsSuccess_ofCall tellsSuccess_ofService)

theorem tellsSuccess_creating {ρ : Type} [Request ρ] (create : ρ → Service β) (write : β → Json) :
    (creating limits c create write).TellsSuccess :=
  tellsSuccess_ofCall fun request => tellsSuccess_ofService (create request) fun _ =>
    (by decide : IsSuccess 201)

theorem tellsSuccess_updating {ρ : Type} [Request ρ] (segment : String)
    (update : String → ρ → Service β) (write : β → Json) :
    (updating limits c segment update write).TellsSuccess :=
  tellsSuccess_ofCall fun id => tellsSuccess_ofCall fun request =>
    tellsSuccess_ofService (update id request) fun _ => (by decide : IsSuccess 200)

theorem tellsSuccess_reading (segment : String) (read : String → Service β) (write : β → Json) :
    (reading segment read write).TellsSuccess :=
  tellsSuccess_ofCall fun id => tellsSuccess_ofService (read id) fun _ => (by decide : IsSuccess 200)

theorem tellsSuccess_readingPeriod {α : Type} [VersionedData α] (segment : String)
    (read : String → Int → Int → Service (List (Version α))) :
    (readingPeriod c segment read).TellsSuccess :=
  tellsSuccess_ofCall fun id => tellsSuccess_ofCall fun start => tellsSuccess_ofCall fun stop =>
    tellsSuccess_ofService (read id start stop) fun _ => (by decide : IsSuccess 200)

theorem tellsSuccess_readingStatus : (readingStatus c).TellsSuccess :=
  tellsSuccess_ofCall fun _ => tellsSuccess_ofService _ fun _ => (by decide : IsSuccess 200)

theorem tellsSuccess_readingHealth : (readingHealth limits).TellsSuccess := by
  intro l found hfound
  obtain rfl := Except.ok.inj hfound
  exact (by decide : IsSuccess 200)

/-- What is found for a call is told with a status of success, whatever the resource. -/
theorem tellsSuccess_work (limits : Limits) (c : Call) (r : Resource) :
    (work limits c r).TellsSuccess := by
  -- A resource is created, updated or read, and some reads need more than an id.
  cases r with
  | health => exact tellsSuccess_readingHealth
  | companies => exact tellsSuccess_creating _ _
  | contractors => exact tellsSuccess_creating _ _
  | jobs => exact tellsSuccess_creating _ _
  | timelogs => exact tellsSuccess_creating _ _
  | payments => exact tellsSuccess_creating _ _
  | company id => exact tellsSuccess_reading id _ _
  | contractor id => exact tellsSuccess_reading id _ _
  | activeJobs id => exact tellsSuccess_reading id _ _
  | jobVersions id => exact tellsSuccess_reading id _ _
  | timelogsOf id => exact tellsSuccess_readingPeriod id _
  | paymentsOf id => exact tellsSuccess_readingPeriod id _
  | extendedJobs => exact tellsSuccess_readingStatus
  | payment id => exact tellsSuccess_updating id _ _
  | job id =>
    rw [work]
    split
    · exact tellsSuccess_updating id _ _
    · exact tellsSuccess_reading id _ _

/-! ## Faults -/

/-- The codes of refusals, each with the status it goes with. -/
def refusals : List (Nat × String) :=
  [(400, "BAD_REQUEST"), (400, "VALIDATION_ERROR"), (404, "NOT_FOUND"), (409, "CONFLICT"),
    (500, "INTERNAL_ERROR"), (504, "TIMEOUT")]

/-- The body that tells a code and a message. -/
def refusalBody (code message : String) : Json :=
  .object [("error", .object [("code", .string code), ("message", .string message)])]

namespace Answer

/-- The answer refuses the call in the one shape. If only the head is asked for, the body is left away. -/
structure Refuses (a : Answer) (c : Call) (code message : String) : Prop where
  coded : (a.status, code) ∈ refusals
  contentType : a.contentType = some "application/json"
  body : a.body = if c.method = .head then none else some (refusalBody code message)
  /-- Nothing is told of what went wrong inside the store. -/
  hidden : a.status = 500 → message = "internal error"

/-- A fault is told in the one shape. -/
theorem refuses_ofOutcome (c : Call) (requestId : String) (fault : Fault) :
    (ofOutcome c requestId (.error fault)).Refuses c fault.code fault.message where
  coded := by
    cases fault with
    | badCall cause => simp [ofOutcome, Fault.status, Fault.code, refusals]
    | service cause => cases cause <;> simp [ofOutcome, Fault.status, Fault.code, refusals]
  contentType := rfl
  body := rfl
  hidden hstatus := by
    -- Only a fault of the store has this status, and its message is a fixed one.
    have hstatus : fault.status = 500 := hstatus
    cases fault with
    | badCall cause => simp [Fault.status] at hstatus
    | service cause =>
      cases cause with
      | store cause => rfl
      | notFound | invalid | conflict | timeout => simp [Fault.status] at hstatus

/-- What went wrong inside the store makes no difference to the answer. -/
theorem ofOutcome_ofStore_congr (c : Call) (requestId : String) {fault fault' : StoreFault}
    (h : fault.isPersistence = true) (h' : fault'.isPersistence = true) :
    ofOutcome c requestId (.error (.service (.ofStore fault))) =
      ofOutcome c requestId (.error (.service (.ofStore fault'))) := by
  -- Every such fault is told as one of the store.
  have hstore : ∀ {fault : StoreFault}, fault.isPersistence = true →
      ServiceFault.ofStore fault = .store fault := by
    intro fault h
    cases fault with
    | database | pool | migration | internal => rfl
    | notFound | conflict | invalidFilter | timedOut => cases h
  rw [hstore h, hstore h']
  rfl

end Answer

/-! ## Answers -/

/-- A call of a resource that knows its method is refused in the one shape, if it is refused: by the
service and its store as they are, or by whatever else keeps them from their work, such as time that runs
out. All faults of the store itself are told alike. -/
theorem refuses_answer (limits : Limits) (l : Ledger) {r : Resource} (hr : c.Reaches r) :
    (400 ≤ (answer limits c l).1.status →
        ∃ code message, (answer limits c l).1.Refuses c code message) ∧
      (∀ (requestId : String) (fault : Fault),
        ∃ code message, (Answer.ofOutcome c requestId (.error fault)).Refuses c code message) ∧
      ∀ (requestId : String) (fault fault' : StoreFault), fault.isPersistence = true →
        fault'.isPersistence = true →
          Answer.ofOutcome c requestId (.error (.service (.ofStore fault))) =
            Answer.ofOutcome c requestId (.error (.service (.ofStore fault'))) := by
  refine ⟨fun hstatus => ?_, fun requestId fault => ?_, fun requestId fault fault' h h' => ?_⟩
  · rw [answer_of_reaches hr] at hstatus ⊢
    cases houtcome : ((work limits c r).run (requestId c l).2).1 with
    | error fault => exact ⟨_, _, Answer.refuses_ofOutcome c _ fault⟩
    | ok found =>
      -- What is found is no refusal.
      have hsuccess := (tellsSuccess_work limits c r _ found houtcome).2
      rw [houtcome] at hstatus
      have hfound : 400 ≤ found.1 := hstatus
      omega
  · exact ⟨_, _, Answer.refuses_ofOutcome c requestId fault⟩
  · exact Answer.ofOutcome_ofStore_congr c requestId h h'

/-- A company is asked for where there is no table of companies. -/
theorem refuses_answer_tableless :
    let supply : Supply := { ids := toString, times := toString, drawn := 0 }
    let l : Ledger := { cluster := { primary := .empty, replicas := [], turn := 0 }, supply }
    let c : Call :=
      { method := .get, target := ⟨["", "api", "v1", "companies", "a"], []⟩, headers := [], body := [] }
    let limits : Limits := { maxBodyBytes := 0, uptimeSecs := 0 }
    let pool : StoreFault := .pool "timed out waiting for connection"
    let internal : StoreFault := .internal "panicked"
    c.Reaches (.company "a") ∧ (answer limits c l).1.status = 500 ∧
      (∃ code message, (answer limits c l).1.Refuses c code message) ∧
      Answer.ofOutcome c "" (.error (.service (.ofStore pool))) =
        Answer.ofOutcome c "" (.error (.service (.ofStore internal))) := by
  intro supply l c limits pool internal
  have hr : c.Reaches (.company "a") := ⟨by decide +kernel, by decide⟩
  have hstatus : (answer limits c l).1.status = 500 := by decide +kernel
  obtain ⟨hrefuses, -, halike⟩ := refuses_answer limits l hr
  exact ⟨hr, hstatus, hrefuses (by rw [hstatus]; decide), halike "" pool internal rfl rfl⟩

/-- A path that names no resource and a method that a resource does not know are refused without a body,
though neither asks for a head alone. -/
theorem refused_without_body :
    let supply : Supply := { ids := toString, times := toString, drawn := 0 }
    let call (method : Method) (path : List String) : Call :=
      { method, target := ⟨path, []⟩, headers := [], body := [] }
    let a (c : Call) : Answer := (answer ⟨0, 0⟩ c (.opened .plain [] 0 supply)).1
    ((a (call .get ["", "api", "v1", "nothing"])).status = 404 ∧
        (a (call .get ["", "api", "v1", "nothing"])).body.isNone = true) ∧
      (a (call .post ["", "health"])).status = 405 ∧
        (a (call .post ["", "health"])).body.isNone = true := by
  decide +kernel

end Payroll.Http
