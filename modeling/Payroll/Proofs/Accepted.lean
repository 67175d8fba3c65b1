import Mathlib.Data.List.TakeWhile
import Payroll.Proofs.Outcome
import Payroll.Proofs.Real
import Payroll.Proofs.Session
/-!
# What requests that are accepted ask for

A request that passes its checks gives data with proper texts, with amounts that are finite and not below
zero, and with times in their order. Storing the data keeps it so.

## Key results

- `requiredText_eq_ok`: a required text is proper
- `TimelogRequest.check_eq_ok_iff` and the like: what passes a check, and what comes of it
- `Submission.isValid_of_check`: what is written for a request is valid
-/

namespace Payroll

open Text (isBlank isBlankText trim trimChars trimEnd)

/-! ## Texts -/

/-- The text has something in it, and no blank at either end. -/
def Text.IsProper (s : String) : Prop :=
  s ≠ "" ∧ trim s = s

/-- Nothing is left of a text without its trailing blanks if all of it is blank. -/
private theorem all_isBlank_of_trimEnd {cs : List Char} (h : trimEnd cs = []) :
    cs.all isBlank = true := by
  rw [trimEnd, List.reverse_eq_nil_iff, List.dropWhile_eq_nil_iff] at h
  rw [List.all_eq_true]
  intro c hc
  exact h c (List.mem_reverse.mpr hc)

/-- Nothing is left of a text without its blanks only if all of it is blank. -/
private theorem all_isBlank_of_trimChars {cs : List Char} (h : trimChars cs = []) :
    cs.all isBlank = true := by
  have hall := all_isBlank_of_trimEnd h
  -- What is left after the leading blanks would start with a character that is not blank.
  cases hrest : cs.dropWhile isBlank with
  | nil =>
    rw [List.dropWhile_eq_nil_iff] at hrest
    exact List.all_eq_true.mpr hrest
  | cons c rest =>
    have hc : isBlank c = false := Text.head_dropWhile_isBlank (by rw [hrest]; rfl)
    rw [hrest, List.all_cons, hc] at hall
    exact nomatch hall

/-- A text of blanks has nothing left once it is trimmed. -/
theorem trim_of_isBlankText {s : String} (h : isBlankText s = true) : trim s = "" := by
  have hnone : s.toList.dropWhile isBlank = [] := by
    rw [List.dropWhile_eq_nil_iff]
    exact List.all_eq_true.mp h
  rw [trim, trimChars, hnone]
  rfl

/-- Something is left of a text once it is trimmed, unless all of it is blank. -/
theorem trim_ne_empty_iff {s : String} : trim s ≠ "" ↔ isBlankText s = false := by
  constructor
  · intro hne
    rw [Bool.eq_false_iff]
    exact fun hblank => hne (trim_of_isBlankText hblank)
  · intro hs hempty
    have hnil : trimChars s.toList = [] := by
      simpa [trim] using congrArg String.toList hempty
    rw [isBlankText, all_isBlank_of_trimChars hnil] at hs
    exact nomatch hs

/-- A text that is not blank is proper once it is trimmed. -/
theorem isProper_trim {s : String} (hs : isBlankText s = false) : Text.IsProper (trim s) := by
  refine ⟨trim_ne_empty_iff.mpr hs, ?_⟩
  -- There is nothing left to take from a text that has been trimmed.
  rw [trim, trim, String.toList_ofList, Text.trimChars_trimChars]

/-- A required value is the one that is there. -/
theorem required_eq_ok_iff {α : Type} {field : String} {value : Option α} {a : α} :
    required field value = .ok a ↔ value = some a := by
  cases value <;> simp [required]

/-- A required text is the one that is there, trimmed, if it is not blank. -/
theorem requiredText_eq_ok_iff {field s : String} {value : Option String} :
    requiredText field value = .ok s ↔
      ∃ text, value = some text ∧ isBlankText text = false ∧ trim text = s := by
  rw [requiredText, bind_eq_ok_iff]
  refine exists_congr fun text => and_congr required_eq_ok_iff ?_
  rw [unless_eq_ok_iff, Bool.not_eq_true]
  exact and_congr_right fun _ => ⟨Except.ok.inj, congrArg _⟩

/-- A required text is proper. -/
theorem requiredText_eq_ok {field s : String} {value : Option String}
    (h : requiredText field value = .ok s) : Text.IsProper s := by
  obtain ⟨text, -, hblank, rfl⟩ := requiredText_eq_ok_iff.mp h
  exact isProper_trim hblank

/-! ## Numbers -/

/-- A number that has been checked is finite and not below zero. -/
theorem nonNegative_eq_ok {field : String} {value x : Float} (h : nonNegative field value = .ok x) :
    x.isFinite = true ∧ 0 ≤ x := by
  rw [nonNegative] at h
  split at h
  · rename_i hx
    rw [← Except.ok.inj h]
    simpa using hx
  · exact nomatch h

/-- The length of a window is the difference of its ends, if that fits 64 bits. -/
theorem windowLength_eq_ok_iff {start stop d : Int} :
    windowLength start stop = .ok d ↔ stop - start ≤ maxInt64 ∧ stop - start = d := by
  rw [windowLength]
  split
  · rename_i hfits
    simp [hfits]
  · rename_i hfits
    simp [hfits]

/-! ## Data -/

/-- The rate is finite and not below zero, and the status and the title are proper. -/
structure Job.IsValid (j : Job) : Prop where
  rate : j.rate.isFinite = true ∧ 0 ≤ j.rate
  status : Text.IsProper j.status
  title : Text.IsProper j.title

/-- The period does not end before it starts, the duration is not below zero, and the type is proper. -/
structure Timelog.IsValid (t : Timelog) : Prop where
  period : t.timeStart ≤ t.timeEnd
  duration : 0 ≤ t.duration
  type : Text.IsProper t.type

/-- The amount is finite and not below zero, and the status is proper. -/
structure Payment.IsValid (p : Payment) : Prop where
  amount : p.amount.isFinite = true ∧ 0 ≤ p.amount
  status : Text.IsProper p.status

/-- Data of a kind are valid. -/
def VersionKind.IsValid : (k : VersionKind) → k.Data → Prop
  | .job, j => Job.IsValid j
  | .timelog, t => Timelog.IsValid t
  | .payment, p => Payment.IsValid p

theorem JobRequest.check_eq_ok {r : JobRequest} {j : Job} (h : r.check = .ok j) : j.IsValid := by
  obtain ⟨status, hstatus, h⟩ := bind_eq_ok_iff.mp h
  obtain ⟨given, -, h⟩ := bind_eq_ok_iff.mp h
  obtain ⟨rate, hrate, h⟩ := bind_eq_ok_iff.mp h
  obtain ⟨title, htitle, h⟩ := bind_eq_ok_iff.mp h
  obtain ⟨companyId, -, h⟩ := bind_eq_ok_iff.mp h
  obtain ⟨contractorId, -, h⟩ := bind_eq_ok_iff.mp h
  rw [← Except.ok.inj h]
  exact ⟨nonNegative_eq_ok hrate, requiredText_eq_ok hstatus, requiredText_eq_ok htitle⟩

/-- The duration that a request for a timelog asks for: the one that is given, or else the length of the
window. -/
def TimelogRequest.lasted (r : TimelogRequest) (start stop : Int) : Except Invalid Int :=
  match r.duration with
  | some d => .ok d
  | none => windowLength start stop

theorem TimelogRequest.lasted_eq_ok_iff {r : TimelogRequest} {start stop d : Int} :
    r.lasted start stop = .ok d ↔
      r.duration = some d ∨ r.duration = none ∧ stop - start ≤ maxInt64 ∧ stop - start = d := by
  rw [lasted]
  cases r.duration with
  | some given => simp
  | none => simp [windowLength_eq_ok_iff]

/-- A request for a timelog passes its checks if each of its fields passes its own and the times are in
their order; the timelog is made of what the fields give. -/
theorem TimelogRequest.check_eq_ok_iff {r : TimelogRequest} {t : Timelog} :
    r.check = .ok t ↔
      r.timeStart = some t.timeStart ∧ r.timeEnd = some t.timeEnd ∧ t.timeStart ≤ t.timeEnd ∧
        r.lasted t.timeStart t.timeEnd = .ok t.duration ∧ 0 ≤ t.duration ∧
        requiredText "type" r.type = .ok t.type ∧ r.jobUid = some t.jobUid := by
  -- Where the duration comes from is one step of the check like the others.
  have hcheck : r.check = do
      let timeStart ← required "time_start" r.timeStart
      let timeEnd ← required "time_end" r.timeEnd
      if timeEnd < timeStart then throw .endBeforeStart
      let duration ← r.lasted timeStart timeEnd
      if duration < 0 then throw .negativeDuration
      let type ← requiredText "type" r.type
      let jobUid ← required "job_uid" r.jobUid
      return { duration, timeStart, timeEnd, type, jobUid } := by
    rw [check]
    simp only [lasted]
    cases r.duration <;> rfl
  rw [hcheck]
  constructor
  · intro h
    obtain ⟨start, hstart, h⟩ := bind_eq_ok_iff.mp h
    obtain ⟨stop, hstop, h⟩ := bind_eq_ok_iff.mp h
    obtain ⟨hperiod, h⟩ := unless_eq_ok_iff.mp h
    obtain ⟨d, hlasted, h⟩ := bind_eq_ok_iff.mp h
    obtain ⟨hnegative, h⟩ := unless_eq_ok_iff.mp h
    obtain ⟨type, htype, h⟩ := bind_eq_ok_iff.mp h
    obtain ⟨jobUid, hjob, h⟩ := bind_eq_ok_iff.mp h
    cases h
    exact ⟨required_eq_ok_iff.mp hstart, required_eq_ok_iff.mp hstop, Int.not_lt.mp hperiod, hlasted,
      Int.not_lt.mp hnegative, htype, required_eq_ok_iff.mp hjob⟩
  · rintro ⟨hstart, hstop, hperiod, hlasted, hnegative, htype, hjob⟩
    refine bind_eq_ok_iff.mpr ⟨_, required_eq_ok_iff.mpr hstart, ?_⟩
    refine bind_eq_ok_iff.mpr ⟨_, required_eq_ok_iff.mpr hstop, ?_⟩
    refine unless_eq_ok_iff.mpr ⟨Int.not_lt.mpr hperiod, ?_⟩
    refine bind_eq_ok_iff.mpr ⟨_, hlasted, unless_eq_ok_iff.mpr ⟨Int.not_lt.mpr hnegative, ?_⟩⟩
    exact bind_eq_ok_iff.mpr ⟨_, htype, bind_eq_ok_iff.mpr ⟨_, required_eq_ok_iff.mpr hjob, rfl⟩⟩

theorem TimelogRequest.check_eq_ok {r : TimelogRequest} {t : Timelog} (h : r.check = .ok t) :
    t.IsValid := by
  obtain ⟨-, -, hperiod, -, hduration, htype, -⟩ := check_eq_ok_iff.mp h
  exact ⟨hperiod, hduration, requiredText_eq_ok htype⟩

theorem PaymentRequest.check_eq_ok {r : PaymentRequest} {p : Payment} (h : r.check = .ok p) :
    p.IsValid := by
  obtain ⟨jobUid, -, h⟩ := bind_eq_ok_iff.mp h
  obtain ⟨timelogUid, -, h⟩ := bind_eq_ok_iff.mp h
  obtain ⟨given, -, h⟩ := bind_eq_ok_iff.mp h
  obtain ⟨amount, hamount, h⟩ := bind_eq_ok_iff.mp h
  obtain ⟨status, hstatus, h⟩ := bind_eq_ok_iff.mp h
  rw [← Except.ok.inj h]
  exact ⟨nonNegative_eq_ok hamount, requiredText_eq_ok hstatus⟩

/-- Data that are stored are as valid as they were given. -/
theorem isValid_stored {k : VersionKind} {a : k.Data} (h : k.IsValid a) :
    k.IsValid (VersionedData.stored a) := by
  cases k with
  | job =>
    obtain ⟨hrate, hstatus, htitle⟩ := h
    exact ⟨storedReal_nonNegative hrate, hstatus, htitle⟩
  | timelog => exact h
  | payment =>
    obtain ⟨hamount, hstatus⟩ := h
    exact ⟨storedReal_nonNegative hamount, hstatus⟩

/-- What is written for a request that has passed its checks is valid. -/
theorem Submission.isValid_of_check {s : Submission} {d : Draft} (h : s.check = .ok d)
    {k : VersionKind} {a : k.Data} (ha : d.data? = some ⟨k, a⟩) : k.IsValid a := by
  cases s with
  | company r | contractor r =>
    obtain ⟨fields, -, rfl⟩ := map_eq_ok_iff.mp h
    exact nomatch ha
  | job r | jobVersion id r =>
    obtain ⟨j, hj, rfl⟩ := map_eq_ok_iff.mp h
    cases ha
    exact JobRequest.check_eq_ok hj
  | timelog r =>
    obtain ⟨t, ht, rfl⟩ := map_eq_ok_iff.mp h
    cases ha
    exact TimelogRequest.check_eq_ok ht
  | payment r | paymentVersion id r =>
    obtain ⟨p, hp, rfl⟩ := map_eq_ok_iff.mp h
    cases ha
    exact PaymentRequest.check_eq_ok hp

end Payroll
