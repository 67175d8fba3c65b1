import Payroll.Proofs.Answer
import Payroll.Proofs.Integrity
/-!
# What calls keep

A call that changes the primary is one request, served without others between its operations. So whatever
calls are answered, what the rows of the tables refer to is there. A row is never taken away, nor are its
data changed, and a timelog, to which no version can be added, stays the latest.

## Key results

- `answer_submits`: a call changes nothing, or it is a request that is served
- `intact_answers`: what holds of the records after any calls
- `later_answers`: what there is of the tables later on
-/

namespace Payroll

open Database (Begun Continued Recorded)

/-! ## Later databases -/

namespace Database

variable {d d' d'' : Database}

/-- What a database has turned into. Versions are still there with their data, and all timelogs that have
been added are the latest. -/
structure Later (d d' : Database) : Prop where
  versions : ∀ k rows, d.versionRows k = some rows → ∃ rows', d'.versionRows k = some rows' ∧
    ∀ v ∈ rows, ∃ v' ∈ rows', v'.uid = v.uid ∧ v'.data = v.data
  timelogs : ∀ rows, d.versionRows .timelog = some rows → ∃ more,
    d'.versionRows .timelog = some (rows ++ more) ∧ ∀ v ∈ more, v.isLatest = true

namespace Later

theorem refl (d : Database) : Later d d where
  versions _ rows hrows := ⟨rows, hrows, fun v hv => ⟨v, hv, rfl, rfl⟩⟩
  timelogs rows hrows := ⟨[], by rw [hrows, List.append_nil], nofun⟩

theorem trans (h : Later d d') (h' : Later d' d'') : Later d d'' where
  versions k rows hrows := by
    obtain ⟨rows', hrows', hold⟩ := h.versions k rows hrows
    obtain ⟨rows'', hrows'', hold'⟩ := h'.versions k rows' hrows'
    refine ⟨rows'', hrows'', fun v hv => ?_⟩
    obtain ⟨v', hv', huid, hdata⟩ := hold v hv
    obtain ⟨v'', hv'', huid', hdata'⟩ := hold' v' hv'
    exact ⟨v'', hv'', huid'.trans huid, hdata'.trans hdata⟩
  timelogs rows hrows := by
    obtain ⟨more, hmore, hlatest⟩ := h.timelogs rows hrows
    obtain ⟨more', hmore', hlatest'⟩ := h'.timelogs _ hmore
    refine ⟨more ++ more', by rw [hmore', List.append_assoc], fun v hv => ?_⟩
    exact (List.mem_append.mp hv).elim (hlatest v) (hlatest' v)

/-- A table of versions is as it was if another one has got other rows. -/
theorem of_setRows {k : VersionKind} {before after : List (Version k.Data)}
    (hbefore : d.versionRows k = some before)
    (hold : ∀ v ∈ before, ∃ v' ∈ after, v'.uid = v.uid ∧ v'.data = v.data)
    (htimelogs : k = .timelog → ∃ more, after = before ++ more ∧ ∀ v ∈ more, v.isLatest = true) :
    Later d (VersionedTable.setRows (some after) d) := by
  constructor
  · -- Only the table that has got other rows is not as it was.
    intro k' rows hrows
    by_cases hk : k = k'
    · subst hk
      obtain rfl := Option.some.inj (hbefore.symm.trans hrows)
      exact ⟨after, versionRows_setRows d k _, hold⟩
    · exact ⟨rows, by rw [versionRows_setRows_of_ne d hk, hrows], fun v hv => ⟨v, hv, rfl, rfl⟩⟩
  · intro rows hrows
    by_cases hk : k = .timelog
    · subst hk
      obtain rfl := Option.some.inj (hbefore.symm.trans hrows)
      obtain ⟨more, rfl, hlatest⟩ := htimelogs rfl
      exact ⟨more, versionRows_setRows d .timelog _, hlatest⟩
    · exact ⟨[], by rw [versionRows_setRows_of_ne d hk, hrows, List.append_nil], nofun⟩

end Later

theorem Recorded.later {s : StaticKind} {a : s.Data} (h : Recorded s a d d') : Later d d' := by
  obtain ⟨rows, r, -, -, rfl⟩ := h
  have hsame : ∀ k, versionRows k (StaticTable.setRows s.Data (some (rows ++ [r])) d) = d.versionRows k :=
    fun k => versionRows_setRows_static d k s _
  exact ⟨fun k rows hrows => ⟨rows, by rw [hsame, hrows], fun v hv => ⟨v, hv, rfl, rfl⟩⟩,
    fun rows hrows => ⟨[], by rw [hsame, hrows, List.append_nil], nofun⟩⟩

theorem Begun.later {k : VersionKind} {v : Version k.Data} (h : Begun k v d d') : Later d d' := by
  obtain ⟨-, hlatest, -, rows, hrows, rfl⟩ := h
  refine .of_setRows hrows (fun w hw => ⟨w, List.mem_append_left _ hw, rfl, rfl⟩)
    fun _ => ⟨[v.stored], rfl, fun w hw => ?_⟩
  rw [List.mem_singleton.mp hw]
  exact hlatest

theorem Continued.later {k : VersionKind} {id : String} {v : Version k.Data} (h : Continued k id v d d')
    (hk : k ≠ .timelog) : Later d d' := by
  obtain ⟨-, -, -, before, current, after, hrows, -, -, -, rfl⟩ := h
  refine .of_setRows hrows (fun w hw => ?_) fun htimelog => absurd htimelog hk
  rcases List.mem_append.mp hw with hw | hw
  · exact ⟨w, by simp [hw], rfl, rfl⟩
  · -- The row that is retired keeps its data.
    rcases List.mem_cons.mp hw with rfl | hw
    · exact ⟨w.retired, by simp, rfl, rfl⟩
    · exact ⟨w, by simp [hw], rfl, rfl⟩

end Database

namespace Http

open Database (Later)

variable {limits : Limits} {c : Call} {l : Ledger}

theorem Shown.later {r : Resource} {m : Method} {json : Json} {d d' : Database}
    (h : Shown r m json d d') : Later d d' := by
  cases h with
  | recorded h => exact h.later
  | begun h => exact h.later
  | @continued k _ _ _ _ _ _ hr hid h =>
    refine h.later ?_
    -- No version can be added to a timelog.
    rintro rfl
    exact nomatch hr

theorem later_answer (limits : Limits) (c : Call) (l : Ledger) :
    Later l.cluster.primary (answer limits c l).2.cluster.primary := by
  obtain ⟨-, ⟨-, hsame⟩ | ⟨-, -, r, json, -, -, hshown⟩⟩ := answer_cases limits c l
  · rw [hsame]
    exact .refl _
  · exact hshown.later

/-- What there is of the tables after any calls. -/
theorem later_answers (l : Ledger) (calls : List (Limits × Call)) :
    Later l.cluster.primary (answers l calls).2.cluster.primary := by
  induction calls generalizing l with
  | nil => exact .refl _
  | cons call calls ih => exact (later_answer call.1 call.2 l).trans (ih _)

/-! ## Calls as requests that are served -/

/-- Nothing is done to the ledger, or a request is served. -/
def Submits {ε β : Type} (f : Ledger → Except ε β × Ledger) : Prop :=
  ∀ l, (f l).2 = l ∨ ∃ s : Submission, (f l).2 = (s.serve.perform l).2

theorem Work.submits_ofCall {β γ : Type} {r : Except BadCall β} {f : β → Work γ}
    (hf : ∀ b, Submits (f b).run) : Submits (ofCall r >>= f).run := by
  intro l
  rw [run_ofCall]
  cases r with
  | error bad => exact Or.inl rfl
  | ok b => exact hf b l

theorem Work.submits_ofService {β : Type} {s : Service β} {write : β → Nat × Json} (request : Submission)
    (hrequest : request.serve = discard s) :
    Submits (ofService s >>= fun b => pure (write b)).run := by
  refine fun l => Or.inr ⟨request, ?_⟩
  rw [run_ofService, hrequest, Service.perform_discard]
  rfl

/-- A call whose method writes changes nothing, or it is a request that is served. -/
theorem submits_work (limits : Limits) {r : Resource} (hr : c.method ∈ r.writing) :
    Submits (work limits c r).run := by
  cases r with
  | health | company | contractor | timelogsOf | paymentsOf | extendedJobs | activeJobs
  | jobVersions => exact nomatch hr
  | companies =>
    exact Work.submits_ofCall fun r => Work.submits_ofService (.company r) rfl
  | contractors =>
    exact Work.submits_ofCall fun r => Work.submits_ofService (.contractor r) rfl
  | jobs => exact Work.submits_ofCall fun r => Work.submits_ofService (.job r) rfl
  | timelogs => exact Work.submits_ofCall fun r => Work.submits_ofService (.timelog r) rfl
  | payments => exact Work.submits_ofCall fun r => Work.submits_ofService (.payment r) rfl
  | job segment =>
    rw [work, if_pos (List.mem_singleton.mp hr)]
    exact Work.submits_ofCall fun id => Work.submits_ofCall fun r =>
      Work.submits_ofService (.jobVersion id r) rfl
  | payment segment =>
    exact Work.submits_ofCall fun id => Work.submits_ofCall fun r =>
      Work.submits_ofService (.paymentVersion id r) rfl

/-- A call leaves the primary as it is, or it is a request that is served on the same databases. -/
theorem answer_submits (limits : Limits) (c : Call) (l : Ledger) :
    (answer limits c l).2.cluster.primary = l.cluster.primary ∨
      ∃ (l' : Ledger) (s : Submission), l'.cluster = l.cluster ∧
        (answer limits c l).2 = (s.serve.perform l').2 := by
  have hid := cluster_requestId c l
  by_cases hr : ∃ r, c.Reaches r
  · obtain ⟨r, hr⟩ := hr
    rw [answer_of_reaches hr]
    by_cases hwrites : c.method = .post ∨ c.method = .put
    · have hwriting := Resource.mem_writing.mpr ⟨hr.method, hwrites⟩
      rcases submits_work limits hwriting (requestId c l).2 with hsame | ⟨s, hserved⟩
      · refine Or.inl ?_
        rw [hsame, hid]
      · exact Or.inr ⟨_, s, hid, hserved⟩
    · obtain ⟨hpost, hput⟩ := not_or.mp hwrites
      refine Or.inl ?_
      rw [(quiet_work limits hr.method hpost hput _).1, hid]
  · rw [answer_of_not_reaches limits l hr, hid]
    exact Or.inl rfl

end Http

/-! ## What holds after any calls -/

namespace Session

variable {l l' : Ledger} {hs : Histories}

/-- Where no request is being served, nothing depends on the rest of the ledger. -/
theorem Intact.congr (hi : Intact ⟨l, []⟩ hs) (hp : l'.cluster.primary = l.cluster.primary) :
    Intact ⟨l', []⟩ hs where
  keeps := hi.keeps.congr hp
  versions := by
    rw [hp]
    exact hi.versions
  pending := nofun

/-- A request that is served alone keeps all that is sound. -/
theorem Intact.serve (hi : Intact ⟨l, []⟩ hs) (s : Submission) :
    ∃ hs', Intact ⟨(s.serve.perform l).2, []⟩ hs' := by
  obtain ⟨n, hrun⟩ := run_alone l s
  rw [← hrun]
  exact hi.run _

end Session

namespace Http

open Session (Intact)

theorem intact_answer {l : Ledger} {hs : Histories} (hi : Intact ⟨l, []⟩ hs) (limits : Limits) (c : Call) :
    ∃ hs', Intact ⟨(answer limits c l).2, []⟩ hs' := by
  rcases answer_submits limits c l with hsame | ⟨l', s, hcluster, hserved⟩
  · exact ⟨hs, hi.congr hsame⟩
  · rw [hserved]
    exact (hi.congr (by rw [hcluster])).serve s

/-- Whatever calls are answered, what the records refer to is there. -/
theorem intact_answers {l : Ledger} {hs : Histories} (hi : Intact ⟨l, []⟩ hs)
    (calls : List (Limits × Call)) : ∃ hs', Intact ⟨(answers l calls).2, []⟩ hs' := by
  induction calls generalizing l hs with
  | nil => exact ⟨hs, hi⟩
  | cons call calls ih =>
    obtain ⟨hs', hi'⟩ := intact_answer hi call.1 call.2
    exact ih hi'

end Http

end Payroll
