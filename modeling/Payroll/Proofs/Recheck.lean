import Payroll.Proofs.Accepted
/-!
# What has passed its checks passes them again

Checking a request takes the blanks from the ends of its texts and fills in what may be left out. What
comes of it is in normal form: a request that is made of it passes the same checks, and comes to the same.

## Key results

- `requiredText_of_isProper`, `nonNegative_of_le`: checks leave what is valid as it is
- `JobRequest.check_of_isValid`, `TimelogRequest.check_of_isValid`, `PaymentRequest.check_of_isValid`: so do
  those of whole requests
- `RequestKind.isNormal_of_check`: what comes of a check is in normal form
-/

namespace Payroll

open Text (isBlank isBlankText isEmail trim trimChars)

/-! ## Texts and numbers -/

/-- A proper text has no blank at either end. -/
theorem Text.IsProper.not_isBlank {s : String} (h : Text.IsProper s) :
    (∀ c ∈ s.toList.head?, isBlank c = false) ∧ ∀ c ∈ s.toList.getLast?, isBlank c = false := by
  have htrim : trimChars s.toList = s.toList := by
    simpa [trim] using congrArg String.toList h.2
  rw [← htrim]
  exact ⟨fun _ => Text.head_trimChars, fun _ => Text.getLast_trimChars⟩

/-- A text that is proper passes the check for one, as it is. -/
theorem requiredText_of_isProper (field : String) {s : String} (h : Text.IsProper s) :
    requiredText field (some s) = .ok s := by
  obtain ⟨hne, htrim⟩ := h
  have hblank : isBlankText s = false := trim_ne_empty_iff.mp (by rwa [htrim])
  exact requiredText_eq_ok_iff.mpr ⟨s, rfl, hblank, htrim⟩

/-- A number that is finite and not below zero passes the check for one. -/
theorem nonNegative_of_le (field : String) {x : Float} (h : x.isFinite = true ∧ 0 ≤ x) :
    nonNegative field x = .ok x := by
  rw [nonNegative, if_pos (by simpa using h)]

/-! ## Whole requests -/

theorem CompanyRequest.check_of_isProper {name : String} (h : Text.IsProper name) :
    CompanyRequest.check ⟨some name⟩ = .ok name :=
  requiredText_of_isProper "name" h

/-- A contractor's name, address and number are those that are asked for, with no blanks around them. -/
theorem ContractorRequest.check_eq_ok_iff {r : ContractorRequest} {name email phone : String} :
    r.check = .ok (name, email, phone) ↔
      requiredText "name" r.name = .ok name ∧ requiredText "email" r.email = .ok email ∧
        isEmail email = true ∧ requiredText "phone" r.phone = .ok phone := by
  constructor
  · intro h
    obtain ⟨_, hname, h⟩ := bind_eq_ok_iff.mp h
    obtain ⟨_, hemail, h⟩ := bind_eq_ok_iff.mp h
    obtain ⟨hvalid, h⟩ := unless_eq_ok_iff.mp h
    obtain ⟨_, hphone, h⟩ := bind_eq_ok_iff.mp h
    cases h
    exact ⟨hname, hemail, by simpa using hvalid, hphone⟩
  · rintro ⟨hname, hemail, hvalid, hphone⟩
    refine bind_eq_ok_iff.mpr ⟨name, hname, bind_eq_ok_iff.mpr ⟨email, hemail, ?_⟩⟩
    exact unless_eq_ok_iff.mpr ⟨by simp [hvalid], bind_eq_ok_iff.mpr ⟨phone, hphone, rfl⟩⟩

/-- A request for a valid job passes its checks, and asks for that job. -/
theorem JobRequest.check_of_isValid {j : Job} (h : j.IsValid) :
    JobRequest.check ⟨some j.status, some j.rate, some j.title, some j.companyId,
      some j.contractorId⟩ = .ok j := by
  refine bind_eq_ok_iff.mpr ⟨j.status, requiredText_of_isProper "status" h.status, ?_⟩
  refine bind_eq_ok_iff.mpr ⟨j.rate, rfl, ?_⟩
  refine bind_eq_ok_iff.mpr ⟨j.rate, nonNegative_of_le "rate" h.rate, ?_⟩
  refine bind_eq_ok_iff.mpr ⟨j.title, requiredText_of_isProper "title" h.title, ?_⟩
  exact bind_eq_ok_iff.mpr ⟨j.companyId, rfl, bind_eq_ok_iff.mpr ⟨j.contractorId, rfl, rfl⟩⟩

/-- A request for a valid timelog that gives its duration passes its checks, and asks for that timelog. -/
theorem TimelogRequest.check_of_isValid {t : Timelog} (h : t.IsValid) :
    TimelogRequest.check ⟨some t.timeStart, some t.timeEnd, some t.duration, some t.type,
      some t.jobUid⟩ = .ok t :=
  check_eq_ok_iff.mpr ⟨rfl, rfl, h.period, rfl, h.duration, requiredText_of_isProper "type" h.type, rfl⟩

/-- A request for a valid payment line item passes its checks, and asks for that payment line item. -/
theorem PaymentRequest.check_of_isValid {p : Payment} (h : p.IsValid) :
    PaymentRequest.check ⟨some p.jobUid, some p.timelogUid, some p.amount, some p.status⟩ =
      .ok p := by
  refine bind_eq_ok_iff.mpr ⟨p.jobUid, rfl, bind_eq_ok_iff.mpr ⟨p.timelogUid, rfl, ?_⟩⟩
  refine bind_eq_ok_iff.mpr ⟨p.amount, rfl, ?_⟩
  refine bind_eq_ok_iff.mpr ⟨p.amount, nonNegative_of_le "amount" h.amount, ?_⟩
  exact bind_eq_ok_iff.mpr ⟨p.status, requiredText_of_isProper "status" h.status, rfl⟩

/-! ## Kinds of requests -/

/-- The kinds of records that a request can ask for. -/
inductive RequestKind where
  | company
  | contractor
  | job
  | timelog
  | payment
deriving DecidableEq

namespace RequestKind

/-- The requests of the kind. -/
def Body : RequestKind → Type
  | .company => CompanyRequest
  | .contractor => ContractorRequest
  | .job => JobRequest
  | .timelog => TimelogRequest
  | .payment => PaymentRequest

/-- What comes of a request of the kind that passes its checks. -/
def Data : RequestKind → Type
  | .company => String
  | .contractor => String × String × String
  | .job => Job
  | .timelog => Timelog
  | .payment => Payment

/-- What comes of the request, or the first thing that is wrong with it. -/
def check : (k : RequestKind) → k.Body → Except Invalid k.Data
  | .company, r => CompanyRequest.check r
  | .contractor, r => ContractorRequest.check r
  | .job, r => JobRequest.check r
  | .timelog, r => TimelogRequest.check r
  | .payment, r => PaymentRequest.check r

/-- The request that gives the fields of the data, all of them. -/
def body : (k : RequestKind) → k.Data → k.Body
  | .company, name => (⟨some name⟩ : CompanyRequest)
  | .contractor, (name, email, phone) =>
    (⟨some name, some email, some phone⟩ : ContractorRequest)
  | .job, (j : Job) =>
    (⟨some j.status, some j.rate, some j.title, some j.companyId, some j.contractorId⟩ : JobRequest)
  | .timelog, (t : Timelog) =>
    (⟨some t.timeStart, some t.timeEnd, some t.duration, some t.type, some t.jobUid⟩ :
      TimelogRequest)
  | .payment, (p : Payment) =>
    (⟨some p.jobUid, some p.timelogUid, some p.amount, some p.status⟩ : PaymentRequest)

/-- The texts of the data that are required or have a default. Ids may be any text. -/
def texts : (k : RequestKind) → k.Data → List String
  | .company, name => [name]
  | .contractor, (name, email, phone) => [name, email, phone]
  | .job, (j : Job) => [j.status, j.title]
  | .timelog, (t : Timelog) => [t.type]
  | .payment, (p : Payment) => [p.status]

/-- The floats of the data. -/
def amounts : (k : RequestKind) → k.Data → List Float
  | .company, _ | .contractor, _ | .timelog, _ => []
  | .job, (j : Job) => [j.rate]
  | .payment, (p : Payment) => [p.amount]

/-- The data are in normal form. -/
structure IsNormal (k : RequestKind) (d : k.Data) : Prop where
  text : ∀ s ∈ k.texts d, s ≠ "" ∧ (∀ c ∈ s.toList.head?, isBlank c = false) ∧
    ∀ c ∈ s.toList.getLast?, isBlank c = false
  amount : ∀ x ∈ k.amounts d, x.isFinite = true ∧ 0 ≤ x
  /-- A request for the same data passes its checks, and comes to the same data. -/
  check_body : k.check (k.body d) = .ok d

variable {k : RequestKind}

/-- Data are in normal form if their texts are proper, their floats are neither infinite nor below zero and a
request for them comes to them. -/
theorem IsNormal.of_isProper {d : k.Data} (htext : ∀ s ∈ k.texts d, Text.IsProper s)
    (hamount : ∀ x ∈ k.amounts d, x.isFinite = true ∧ 0 ≤ x) (hcheck : k.check (k.body d) = .ok d) :
    k.IsNormal d :=
  ⟨fun s hs => ⟨(htext s hs).1, (htext s hs).not_isBlank⟩, hamount, hcheck⟩

/-- What comes of a request that passes its checks is in normal form. -/
theorem isNormal_of_check (k : RequestKind) {r : k.Body} {d : k.Data} (h : k.check r = .ok d) :
    k.IsNormal d := by
  cases k with
  | company =>
    have hname : Text.IsProper d := requiredText_eq_ok h
    exact .of_isProper (List.forall_mem_singleton.mpr hname) (by simp [amounts])
      (CompanyRequest.check_of_isProper hname)
  | contractor =>
    obtain ⟨name, email, phone⟩ := d
    obtain ⟨hname, hemail, hvalid, hphone⟩ := ContractorRequest.check_eq_ok_iff.mp h
    -- The address that was looked at had lost its blanks already.
    replace hname := requiredText_eq_ok hname
    replace hemail := requiredText_eq_ok hemail
    replace hphone := requiredText_eq_ok hphone
    refine .of_isProper (by simp [texts, hname, hemail, hphone]) (by simp [amounts]) ?_
    exact ContractorRequest.check_eq_ok_iff.mpr ⟨requiredText_of_isProper _ hname,
      requiredText_of_isProper _ hemail, hvalid, requiredText_of_isProper _ hphone⟩
  | job =>
    have hjob := JobRequest.check_eq_ok h
    exact .of_isProper (by simp [texts, hjob.status, hjob.title]) (by simpa [amounts] using hjob.rate)
      (JobRequest.check_of_isValid hjob)
  | timelog =>
    -- The duration is given this time, even if it was left out before.
    have htimelog := TimelogRequest.check_eq_ok h
    exact .of_isProper (by simp [texts, htimelog.type]) (by simp [amounts])
      (TimelogRequest.check_of_isValid htimelog)
  | payment =>
    have hpayment := PaymentRequest.check_eq_ok h
    exact .of_isProper (by simp [texts, hpayment.status]) (by simpa [amounts] using hpayment.amount)
      (PaymentRequest.check_of_isValid hpayment)

/-- A contractor with blanks of several kinds around every field. -/
def padded : ContractorRequest :=
  ⟨some "\u2003Ada\n", some "\u00a0ada@mail.example.org\u3000", some "\t555 "⟩

/-- The blanks are gone, and what is left is a contractor to ask for. -/
theorem isNormal_of_check_padded :
    check .contractor padded = .ok ("Ada", "ada@mail.example.org", "555") ∧
      IsNormal .contractor ("Ada", "ada@mail.example.org", "555") := by
  have hcheck : ContractorRequest.check padded = .ok ("Ada", "ada@mail.example.org", "555") :=
    mem_toList_toOption_iff.mp (by decide +kernel)
  exact ⟨hcheck, isNormal_of_check .contractor hcheck⟩

end RequestKind

end Payroll
