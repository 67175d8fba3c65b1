import Mathlib.Data.List.Chain
import Payroll.Proofs.Outcome
import Payroll.Settings.Watcher
/-!
# Watching a settings file

A watcher looks at its file from time to time, and between two polls anything may come to be at the place
of the file: other settings, a text that is broken, or nothing at all. Whatever happens, the settings in use
are those it began with or all of those that some poll has loaded. As long as no two polls in a row are
deceived by the time of writing, they are those that the file gives, whenever it gives any.

## Key results

- `poll_cases`: what one poll does
- `IsCurrent.poll`, `isCurrent_after`: settings that are up to date stay so
- `origin_after`, `reports_after`: where the settings in use come from, and which of them are reported
- `Watch.follows_after`: what holds of every run of polls
-/

namespace Payroll

variable {vars : Variables} {file : SettingsFile}

/-- Settings that have been loaded are such that the service can run with them. -/
theorem Settings.validate_of_load {s : Settings} (h : Settings.load vars file = .ok s) :
    s.validate = .ok () := by
  obtain ⟨value, -, h⟩ := bind_eq_ok_iff.mp h
  cases hlayered : Settings.ofFileValue? value with
  | none =>
    rw [hlayered] at h
    cases h
  | some layered =>
    rw [hlayered] at h
    dsimp only at h
    split at h
    · rename_i hvalid
      rw [← Except.ok.inj h]
      exact hvalid
    · cases h

namespace SettingsWatcher

variable {w : SettingsWatcher}

/-! ## One poll -/

/-- A poll leaves the settings in use alone and reports nothing, or puts others that it has loaded into
their place and reports those. Either way it remembers the time of writing that it has seen. -/
theorem poll_cases (vars : Variables) (file : SettingsFile) (w : SettingsWatcher) :
    (w.poll vars file = (none, { w with seen := file.modified? }) ∧
        (file.modified? ≠ w.seen → ∀ s, Settings.load vars file = .ok s → s = w.current)) ∨
      ∃ s, Settings.load vars file = .ok s ∧ s ≠ w.current ∧
        w.poll vars file = (some s, { w with current := s, seen := file.modified? }) := by
  rw [poll]
  by_cases hseen : file.modified? = w.seen
  · rw [if_pos hseen, hseen]
    exact Or.inl ⟨rfl, fun hne => absurd rfl hne⟩
  · rw [if_neg hseen]
    dsimp only
    cases hload : Settings.load vars file with
    | error fault => exact Or.inl ⟨rfl, fun _ _ => nofun⟩
    | ok s =>
      dsimp only
      by_cases hs : s = w.current
      · rw [if_pos hs]
        refine Or.inl ⟨rfl, fun _ s' hs' => ?_⟩
        rw [← Except.ok.inj hs']
        exact hs
      · rw [if_neg hs]
        exact Or.inr ⟨s, rfl, hs, rfl⟩

/-- A poll reports settings if they are the ones in use from now on and were not before. -/
theorem poll_eq_some_iff {s : Settings} :
    (w.poll vars file).1 = some s ↔ (w.poll vars file).2.current = s ∧ s ≠ w.current := by
  rcases poll_cases vars file w with ⟨heq, -⟩ | ⟨s', -, hne, heq⟩
  · rw [heq]
    exact ⟨nofun, fun ⟨hs, hne⟩ => absurd hs.symm hne⟩
  · rw [heq]
    constructor
    · intro hs
      rw [← Option.some.inj hs]
      exact ⟨rfl, hne⟩
    · rintro ⟨rfl, -⟩
      rfl

/-- The watcher has seen the file and has in use what it gives, if it gives anything. -/
structure IsCurrent (vars : Variables) (file : SettingsFile) (w : SettingsWatcher) : Prop where
  seen : w.seen = file.modified?
  current : ∀ s, Settings.load vars file = .ok s → w.current = s

theorem isCurrent_start {initial : Settings} (h : Settings.load vars file = .ok initial) :
    IsCurrent vars file (start initial file) where
  seen := rfl
  current s hs := by
    rw [hs] at h
    exact (Except.ok.inj h).symm

/-- Two files do not deceive a watcher: if they have one time of writing, they are the same. -/
def Telling (file file' : SettingsFile) : Prop :=
  file.modified? = file'.modified? → file = file'

/-- A watcher that is not deceived has in use what it finds, even after it has found what could not be
loaded. -/
theorem IsCurrent.poll {file' : SettingsFile} (h : IsCurrent vars file w) (ht : Telling file file') :
    IsCurrent vars file' (w.poll vars file').2 := by
  rcases poll_cases vars file' w with ⟨heq, hsame⟩ | ⟨s, hload, -, heq⟩
  · rw [heq]
    refine ⟨rfl, fun s hs => ?_⟩
    by_cases hseen : file'.modified? = w.seen
    · -- The file has not been written since it was seen last, so it is the one that was seen.
      obtain rfl := ht (h.seen.symm.trans hseen.symm)
      exact h.current s hs
    · exact (hsame hseen s hs).symm
  · rw [heq]
    refine ⟨rfl, fun s' hs' => ?_⟩
    rw [hload] at hs'
    exact Except.ok.inj hs'

end SettingsWatcher

/-! ## Any number of polls -/

/-- What happens around a watcher: something comes to be at the place of its file, or it looks there. -/
inductive WatchEvent where
  | place (file : SettingsFile)
  | poll

/-- A watcher together with what is at the place of its file. -/
structure Watch where
  file : SettingsFile
  watcher : SettingsWatcher

namespace Watch

open SettingsWatcher (IsCurrent Telling)

/-- A watcher is made. -/
def start (initial : Settings) (file : SettingsFile) : Watch :=
  { file, watcher := .start initial file }

/-- What an event reports, and the watch after it. -/
def step (vars : Variables) (w : Watch) : WatchEvent → Option Settings × Watch
  | .place file => (none, { w with file })
  | .poll => ((w.watcher.poll vars w.file).1, { w with watcher := (w.watcher.poll vars w.file).2 })

/-- The watch after some events. -/
def after (vars : Variables) (w : Watch) (events : List WatchEvent) : Watch :=
  events.foldl (fun w e => (w.step vars e).2) w

/-- The settings that are reported, one after the other. -/
def reports (vars : Variables) : Watch → List WatchEvent → List Settings
  | _, [] => []
  | w, e :: events => (w.step vars e).1.toList ++ reports vars (w.step vars e).2 events

/-- What the polls find, one after the other. -/
def found : SettingsFile → List WatchEvent → List SettingsFile
  | _, [] => []
  | _, .place file :: events => found file events
  | file, .poll :: events => file :: found file events

variable {w : Watch} {events : List WatchEvent}

@[simp] theorem after_nil (vars : Variables) (w : Watch) : w.after vars [] = w := rfl

@[simp] theorem after_cons (vars : Variables) (w : Watch) (e : WatchEvent) (events : List WatchEvent) :
    w.after vars (e :: events) = (w.step vars e).2.after vars events := rfl

/-- The poll that comes after some events loads settings and reports them. -/
def Loads (vars : Variables) (w : Watch) (before : List WatchEvent) (s : Settings) : Prop :=
  Settings.load vars (w.after vars before).file = .ok s ∧
    ((w.after vars before).step vars .poll).1 = some s

/-- The settings in use are those at the beginning or all of those that one of the polls has loaded. -/
theorem origin_after (vars : Variables) (w : Watch) (events : List WatchEvent) :
    (w.after vars events).watcher.current = w.watcher.current ∨
      ∃ before later, events = before ++ .poll :: later ∧
        w.Loads vars before (w.after vars events).watcher.current := by
  induction events generalizing w with
  | nil => exact Or.inl rfl
  | cons e events ih =>
    rw [after_cons]
    rcases ih (w.step vars e).2 with hsame | ⟨before, later, rfl, hload⟩
    · rw [hsame]
      cases e with
      | place file => exact Or.inl rfl
      | poll =>
        rw [step]
        rcases SettingsWatcher.poll_cases vars w.file w.watcher with ⟨heq, -⟩ | ⟨s, hload, -, heq⟩
        · rw [heq]
          exact Or.inl rfl
        · rw [heq]
          refine Or.inr ⟨[], events, rfl, hload, ?_⟩
          rw [after_nil, step, heq]
    · exact Or.inr ⟨e :: before, later, rfl, hload⟩

theorem after_append (vars : Variables) (w : Watch) (events events' : List WatchEvent) :
    w.after vars (events ++ events') = (w.after vars events).after vars events' :=
  List.foldl_append

/-- The last of the polls finds what is there by then. -/
theorem found_concat_poll (vars : Variables) (w : Watch) (events : List WatchEvent) :
    found w.file (events ++ [.poll]) = found w.file events ++ [(w.after vars events).file] := by
  induction events generalizing w with
  | nil => rfl
  | cons e events ih =>
    rw [List.cons_append, after_cons]
    cases e with
    | place file => exact ih { w with file }
    | poll => exact congrArg (w.file :: ·) (ih (w.step vars .poll).2)

/-- The settings reported last are those in use, and none are reported that were in use already. -/
theorem reports_after (vars : Variables) (w : Watch) (events : List WatchEvent) :
    (w.after vars events).watcher.current = (w.reports vars events).getLastD w.watcher.current ∧
      (w.watcher.current :: w.reports vars events).IsChain (· ≠ ·) := by
  induction events generalizing w with
  | nil => exact ⟨rfl, .singleton _⟩
  | cons e events ih =>
    obtain ⟨hlast, hchain⟩ := ih (w.step vars e).2
    rw [after_cons, reports]
    cases e with
    | place file => exact ⟨hlast, hchain⟩
    | poll =>
      rw [step] at hlast hchain ⊢
      rcases SettingsWatcher.poll_cases vars w.file w.watcher with ⟨heq, -⟩ | ⟨s, -, hne, heq⟩
      · rw [heq] at hlast hchain ⊢
        exact ⟨hlast, hchain⟩
      · rw [heq] at hlast hchain ⊢
        refine ⟨?_, List.isChain_cons_cons.mpr ⟨hne.symm, hchain⟩⟩
        rw [hlast, Option.toList_some, List.singleton_append, List.getLastD_cons]

/-- Settings that are up to date stay so through polls that are not deceived. -/
theorem isCurrent_after {last : SettingsFile} (h : IsCurrent vars last w.watcher)
    (ht : (last :: found w.file events).IsChain Telling) :
    IsCurrent vars ((found w.file events).getLastD last) (w.after vars events).watcher := by
  induction events generalizing w last with
  | nil => exact h
  | cons e events ih =>
    cases e with
    | place file => exact ih (w := { w with file }) h ht
    | poll =>
      obtain ⟨hfirst, hrest⟩ := List.isChain_cons_cons.mp ht
      rw [found, List.getLastD_cons]
      exact ih (w := (w.step vars .poll).2) (h.poll hfirst) hrest

/-- What a watcher keeps to over some events and the poll that follows them, if it began with the given
settings and file. -/
structure Follows (vars : Variables) (initial : Settings) (file : SettingsFile)
    (events : List WatchEvent) : Prop where
  /-- The settings in use are those at the beginning, or a poll has loaded all of them, and the service can
  run with them. -/
  origin : ((start initial file).after vars events).watcher.current = initial ∨
    ∃ before later, events = before ++ .poll :: later ∧
      (start initial file).Loads vars before
        ((start initial file).after vars events).watcher.current ∧
      ((start initial file).after vars events).watcher.current.validate = .ok ()
  /-- The poll reports settings if they are the ones in use from now on and were not before. -/
  reported : ∀ s, (((start initial file).after vars events).step vars .poll).1 = some s ↔
    ((start initial file).after vars (events ++ [.poll])).watcher.current = s ∧
      s ≠ ((start initial file).after vars events).watcher.current
  /-- What is reported last is in use, and no two reports in a row are of the same settings. -/
  apart : ((start initial file).after vars events).watcher.current =
      ((start initial file).reports vars events).getLastD initial ∧
    (initial :: (start initial file).reports vars events).IsChain (· ≠ ·)
  /-- If the settings at the beginning are what the file gave and no poll is deceived, what the file gives
  is in use after the poll. -/
  converges : Settings.load vars file = .ok initial →
    (file :: found file (events ++ [.poll])).IsChain Telling →
    ∀ s, Settings.load vars ((start initial file).after vars events).file = .ok s →
      ((start initial file).after vars (events ++ [.poll])).watcher.current = s

/-- **A watcher is safe and converges.** -/
theorem follows_after (vars : Variables) (initial : Settings) (file : SettingsFile)
    (events : List WatchEvent) : Follows vars initial file events where
  origin := by
    rcases origin_after vars (start initial file) events with hsame | ⟨before, later, heq, hloads⟩
    · exact Or.inl hsame
    · exact Or.inr ⟨before, later, heq, hloads, Settings.validate_of_load hloads.1⟩
  reported s := by
    rw [after_append, after_cons, after_nil]
    exact SettingsWatcher.poll_eq_some_iff
  apart := reports_after vars (start initial file) events
  converges hinitial ht s hs := by
    have hcurrent := isCurrent_after (w := start initial file)
      (SettingsWatcher.isCurrent_start hinitial) ht
    have hlast := found_concat_poll vars (start initial file) events
    rw [hlast, List.getLastD_concat] at hcurrent
    exact hcurrent.current s hs

/-- A file whose only setting is the level of the log. -/
def levelFile (modified : Nat) (level : String) : SettingsFile :=
  .text modified (.ofString ("\x7b\"logging\":\x7b\"level\":\"" ++ level ++ "\"\x7d\x7d"))

/-- The settings that such a file gives. -/
def levelSettings (level : String) : Settings :=
  { Settings.default with logging := { Settings.Logging.default with level } }

/-- A file is broken, taken away, put back as it was when it was broken, and touched. -/
theorem follows_after_restoring :
    let events : List WatchEvent :=
      [.place (.text 2 (.ofString "broken")), .poll, .place .absent, .poll, .poll,
        .place (levelFile 2 "debug"), .poll, .place (levelFile 3 "debug")]
    Settings.load (fun _ => none) (levelFile 1 "warn") = .ok (levelSettings "warn") ∧
      (levelFile 1 "warn" :: found (levelFile 1 "warn") (events ++ [.poll])).IsChain Telling ∧
      Settings.load (fun _ => none) (levelFile 3 "debug") = .ok (levelSettings "debug") ∧
      (start (levelSettings "warn") (levelFile 1 "warn")).reports (fun _ => none) events =
        [.default, levelSettings "debug"] ∧
      ((start (levelSettings "warn") (levelFile 1 "warn")).after (fun _ => none)
        (events ++ [.poll])).watcher.current = levelSettings "debug" := by
  intro events
  have hinitial : Settings.load (fun _ => none) (levelFile 1 "warn") = .ok (levelSettings "warn") :=
    mem_toList_toOption_iff.mp (by decide +kernel)
  have hload : Settings.load (fun _ => none) (levelFile 3 "debug") = .ok (levelSettings "debug") :=
    mem_toList_toOption_iff.mp (by decide +kernel)
  have htelling :
      (levelFile 1 "warn" :: found (levelFile 1 "warn") (events ++ [.poll])).IsChain Telling := by
    -- Only the polls that find no file see one time of writing twice in a row.
    simp [events, found, levelFile, Telling, SettingsFile.modified?]
  refine ⟨hinitial, htelling, hload, by decide +kernel, ?_⟩
  exact (follows_after (fun _ => none) (levelSettings "warn") (levelFile 1 "warn") events).converges
    hinitial htelling _ hload

end Watch

end Payroll
