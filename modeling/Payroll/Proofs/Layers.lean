import Payroll.Proofs.Merge
import Payroll.Proofs.Outcome
import Payroll.Proofs.Printed
import Payroll.Settings.Load
/-!
# Settings one over the other

Each of the eighteen settings is taken from one variable, else from one place of the file, else from the
defaults; nothing else has a part in it.

## Key results

- `Setting.get_override`: what the variables do to one setting
- `Settings.ofFileValue?_eq_some_iff`: what a file does to the settings, one by one
- `Settings.layered`: which value each setting has when it is loaded
-/

namespace Payroll

open JsonForm (toJson ofJson?)
open Json (Tree)

/-- One of the settings: the keys that lead to it in a file, and the variable that wins over the file,
with how its text is read. -/
structure Setting where
  {α : Type}
  [form : JsonForm α]
  path : List String
  get : Settings → α
  byVariable : Option (String × (String → Option α))

attribute [instance] Setting.form

namespace Setting

open Settings.Variable (flag? natWithin? items)

/-- The eighteen settings. -/
def all : List Setting := [
  { path := ["environment"], get := fun s => s.environment,
    byVariable := some ("PAYTRACK_ENV", fun text => (Environment.ofText text).toOption) },
  { path := ["server", "host"], get := fun s => s.server.host,
    byVariable := some ("PAYTRACK_HOST", some) },
  { path := ["server", "port"], get := fun s => s.server.port,
    byVariable := some ("PAYTRACK_PORT", fun text => (natWithin? 0 65535 text).map .ofNat) },
  { path := ["server", "requestTimeoutMs"], get := fun s => s.server.requestTimeoutMs,
    byVariable := some ("PAYTRACK_REQUEST_TIMEOUT_MS",
      fun text => (natWithin? 1 600000 text).map .ofNat) },
  { path := ["server", "shutdownTimeoutMs"], get := fun s => s.server.shutdownTimeoutMs,
    byVariable := none },
  { path := ["server", "maxBodyBytes"], get := fun s => s.server.maxBodyBytes,
    byVariable := none },
  { path := ["database", "path"], get := fun s => s.database.path,
    byVariable := some ("PAYTRACK_DB_PATH", some) },
  { path := ["database", "replicaPaths"], get := fun s => s.database.replicaPaths,
    byVariable := some ("PAYTRACK_DB_REPLICAS", fun text => some (items text)) },
  { path := ["database", "poolSize"], get := fun s => s.database.poolSize,
    byVariable := some ("PAYTRACK_DB_POOL_SIZE", fun text => (natWithin? 1 256 text).map .ofNat) },
  { path := ["database", "busyTimeoutMs"], get := fun s => s.database.busyTimeoutMs,
    byVariable := none },
  { path := ["database", "cacheSizeKib"], get := fun s => s.database.cacheSizeKib,
    byVariable := none },
  { path := ["database", "acquireTimeoutMs"], get := fun s => s.database.acquireTimeoutMs,
    byVariable := none },
  { path := ["database", "migrateOnStart"], get := fun s => s.database.migrateOnStart,
    byVariable := some ("PAYTRACK_DB_MIGRATE_ON_START", flag?) },
  { path := ["logging", "level"], get := fun s => s.logging.level,
    byVariable := some ("PAYTRACK_LOG_LEVEL", some) },
  { path := ["logging", "format"], get := fun s => s.logging.format,
    byVariable := some ("PAYTRACK_LOG_FORMAT", LogFormat.ofText?) },
  { path := ["logging", "logRequests"], get := fun s => s.logging.logRequests,
    byVariable := none },
  { path := ["reload", "enabled"], get := fun s => s.reload.enabled,
    byVariable := none },
  { path := ["reload", "pollIntervalSecs"], get := fun s => s.reload.pollIntervalSecs,
    byVariable := none }]

/-! ## Variables -/

/-- What the setting's variable says, if it has one: its text, unless that is blank or is no value of
the setting. -/
def given? (f : Setting) (vars : Variables) : Option f.α :=
  match f.byVariable with
  | none => none
  | some (name, read) =>
    match vars name with
    | none => none
    | some text => if Text.isBlankText text then none else read text

theorem given?_eq {f : Setting} {name : String} {read : String → Option f.α}
    (h : f.byVariable = some (name, read)) (vars : Variables) :
    f.given? vars = Settings.override? vars name read := by
  rw [given?, h, Settings.override?]
  cases hname : vars name <;> simp [hname]

/-- What is made of a variable's value may be made of it while it is read. -/
theorem override?_map {α β : Type} (vars : Variables) (name : String) (read : String → Option α)
    (g : α → β) :
    Settings.override? vars name (fun text => (read text).map g) =
      (Settings.override? vars name read).map g := by
  cases h : vars name with
  | none => simp [Settings.override?, h]
  | some text =>
    simp only [Settings.override?, h, Option.bind_eq_bind, Option.bind_some]
    split <;> rfl

/-- Under the variables a setting is what its own variable says, else what it was. -/
theorem get_override {f : Setting} (hf : f ∈ all) (vars : Variables) (s : Settings) :
    f.get (s.override vars) = (f.given? vars).getD (f.get s) := by
  have hitems := override?_map vars "PAYTRACK_DB_REPLICAS" some items
  simp only [all, List.mem_cons, List.not_mem_nil, or_false] at hf
  rcases hf with rfl | rfl | rfl | rfl | rfl | rfl | rfl | rfl | rfl | rfl | rfl | rfl | rfl | rfl |
    rfl | rfl | rfl | rfl
  -- Without a variable, with one that is read as it is, and with one whose value is made into another.
  all_goals first
    | rfl
    | rw [given?_eq rfl]; rfl
    | rw [given?_eq rfl, override?_map]; rfl
    | rw [given?_eq rfl]; exact congrArg (Option.getD · s.database.replicaPaths) hitems.symm

/-! ## Settings and their parts -/

/-- Settings are written with each of them at its place. -/
theorem at?_toJson {f : Setting} (hf : f ∈ all) (s : Settings) :
    (toJson s).at? f.path = some (toJson (f.get s)) := by
  simp only [all, List.mem_cons, List.not_mem_nil, or_false] at hf
  rcases hf with rfl | rfl | rfl | rfl | rfl | rfl | rfl | rfl | rfl | rfl | rfl | rfl | rfl | rfl |
    rfl | rfl | rfl | rfl
  all_goals rfl

/-- No setting is written as an object or as null. -/
theorem isLeaf_toJson {f : Setting} (hf : f ∈ all) (s : Settings) :
    (∀ ms, toJson (f.get s) ≠ .object ms) ∧ (toJson (f.get s)).isNull = false := by
  simp only [all, List.mem_cons, List.not_mem_nil, or_false] at hf
  rcases hf with rfl | rfl | rfl | rfl | rfl | rfl | rfl | rfl | rfl | rfl | rfl | rfl | rfl | rfl |
    rfl | rfl | rfl | rfl
  all_goals exact ⟨fun _ heq => Json.noConfusion heq, rfl⟩

end Setting

namespace Settings

/-- Where there is a part, the default has none in what is read. -/
theorem Parts.read_of_isSome {α : Type} [JsonForm α] {parts : Parts} {key : String} (default : α)
    (h : (parts key).isSome) : parts.read key default = (parts key).bind ofJson? := by
  obtain ⟨j, hj⟩ := Option.isSome_iff_exists.mp h
  simp [Parts.read, hj]

/-- The section is what its parts are, where all of them are there. -/
theorem Server.ofParts?_eq_some_iff {parts : Parts} (h : ∀ key ∈ Server.keys, (parts key).isSome)
    (s : Server) : Server.ofParts? parts = some s ↔
      (parts "host").bind ofJson? = some s.host ∧
      (parts "port").bind ofJson? = some s.port ∧
      (parts "requestTimeoutMs").bind ofJson? = some s.requestTimeoutMs ∧
      (parts "shutdownTimeoutMs").bind ofJson? = some s.shutdownTimeoutMs ∧
      (parts "maxBodyBytes").bind ofJson? = some s.maxBodyBytes := by
  simp only [keys, List.forall_mem_cons] at h
  obtain ⟨h₁, h₂, h₃, h₄, h₅, -⟩ := h
  simp only [ofParts?, Parts.read_of_isSome, h₁, h₂, h₃, h₄, h₅]
  constructor
  · intro heq
    obtain ⟨host, hHost, heq⟩ := Option.bind_eq_some_iff.mp heq
    obtain ⟨port, hPort, heq⟩ := Option.bind_eq_some_iff.mp heq
    obtain ⟨requestTimeoutMs, hRequestTimeoutMs, heq⟩ := Option.bind_eq_some_iff.mp heq
    obtain ⟨shutdownTimeoutMs, hShutdownTimeoutMs, heq⟩ := Option.bind_eq_some_iff.mp heq
    obtain ⟨maxBodyBytes, hMaxBodyBytes, heq⟩ := Option.bind_eq_some_iff.mp heq
    cases heq
    exact ⟨hHost, hPort, hRequestTimeoutMs, hShutdownTimeoutMs, hMaxBodyBytes⟩
  · rintro ⟨hHost, hPort, hRequestTimeoutMs, hShutdownTimeoutMs, hMaxBodyBytes⟩
    rw [hHost, hPort, hRequestTimeoutMs, hShutdownTimeoutMs, hMaxBodyBytes]
    rfl

/-- The section is what its parts are, where all of them are there. -/
theorem Database.ofParts?_eq_some_iff {parts : Parts} (h : ∀ key ∈ Database.keys, (parts key).isSome)
    (d : Database) : Database.ofParts? parts = some d ↔
      (parts "path").bind ofJson? = some d.path ∧
      (parts "replicaPaths").bind ofJson? = some d.replicaPaths ∧
      (parts "poolSize").bind ofJson? = some d.poolSize ∧
      (parts "busyTimeoutMs").bind ofJson? = some d.busyTimeoutMs ∧
      (parts "cacheSizeKib").bind ofJson? = some d.cacheSizeKib ∧
      (parts "acquireTimeoutMs").bind ofJson? = some d.acquireTimeoutMs ∧
      (parts "migrateOnStart").bind ofJson? = some d.migrateOnStart := by
  simp only [keys, List.forall_mem_cons] at h
  obtain ⟨h₁, h₂, h₃, h₄, h₅, h₆, h₇, -⟩ := h
  simp only [ofParts?, Parts.read_of_isSome, h₁, h₂, h₃, h₄, h₅, h₆, h₇]
  constructor
  · intro heq
    obtain ⟨path, hPath, heq⟩ := Option.bind_eq_some_iff.mp heq
    obtain ⟨replicaPaths, hReplicaPaths, heq⟩ := Option.bind_eq_some_iff.mp heq
    obtain ⟨poolSize, hPoolSize, heq⟩ := Option.bind_eq_some_iff.mp heq
    obtain ⟨busyTimeoutMs, hBusyTimeoutMs, heq⟩ := Option.bind_eq_some_iff.mp heq
    obtain ⟨cacheSizeKib, hCacheSizeKib, heq⟩ := Option.bind_eq_some_iff.mp heq
    obtain ⟨acquireTimeoutMs, hAcquireTimeoutMs, heq⟩ := Option.bind_eq_some_iff.mp heq
    obtain ⟨migrateOnStart, hMigrateOnStart, heq⟩ := Option.bind_eq_some_iff.mp heq
    cases heq
    exact ⟨hPath, hReplicaPaths, hPoolSize, hBusyTimeoutMs, hCacheSizeKib, hAcquireTimeoutMs, hMigrateOnStart⟩
  · rintro ⟨hPath, hReplicaPaths, hPoolSize, hBusyTimeoutMs, hCacheSizeKib, hAcquireTimeoutMs, hMigrateOnStart⟩
    rw [hPath, hReplicaPaths, hPoolSize, hBusyTimeoutMs, hCacheSizeKib, hAcquireTimeoutMs, hMigrateOnStart]
    rfl

/-- The section is what its parts are, where all of them are there. -/
theorem Logging.ofParts?_eq_some_iff {parts : Parts} (h : ∀ key ∈ Logging.keys, (parts key).isSome)
    (l : Logging) : Logging.ofParts? parts = some l ↔
      (parts "level").bind ofJson? = some l.level ∧
      (parts "format").bind ofJson? = some l.format ∧
      (parts "logRequests").bind ofJson? = some l.logRequests := by
  simp only [keys, List.forall_mem_cons] at h
  obtain ⟨h₁, h₂, h₃, -⟩ := h
  simp only [ofParts?, Parts.read_of_isSome, h₁, h₂, h₃]
  constructor
  · intro heq
    obtain ⟨level, hLevel, heq⟩ := Option.bind_eq_some_iff.mp heq
    obtain ⟨format, hFormat, heq⟩ := Option.bind_eq_some_iff.mp heq
    obtain ⟨logRequests, hLogRequests, heq⟩ := Option.bind_eq_some_iff.mp heq
    cases heq
    exact ⟨hLevel, hFormat, hLogRequests⟩
  · rintro ⟨hLevel, hFormat, hLogRequests⟩
    rw [hLevel, hFormat, hLogRequests]
    rfl

/-- The section is what its parts are, where all of them are there. -/
theorem Reload.ofParts?_eq_some_iff {parts : Parts} (h : ∀ key ∈ Reload.keys, (parts key).isSome)
    (r : Reload) : Reload.ofParts? parts = some r ↔
      (parts "enabled").bind ofJson? = some r.enabled ∧
      (parts "pollIntervalSecs").bind ofJson? = some r.pollIntervalSecs := by
  simp only [keys, List.forall_mem_cons] at h
  obtain ⟨h₁, h₂, -⟩ := h
  simp only [ofParts?, Parts.read_of_isSome, h₁, h₂]
  constructor
  · intro heq
    obtain ⟨enabled, hEnabled, heq⟩ := Option.bind_eq_some_iff.mp heq
    obtain ⟨pollIntervalSecs, hPollIntervalSecs, heq⟩ := Option.bind_eq_some_iff.mp heq
    cases heq
    exact ⟨hEnabled, hPollIntervalSecs⟩
  · rintro ⟨hEnabled, hPollIntervalSecs⟩
    rw [hEnabled, hPollIntervalSecs]
    rfl

/-- Settings are what their parts are, where all of them are there. -/
theorem ofParts?_eq_some_iff {parts : Parts} (h : ∀ key ∈ Settings.keys, (parts key).isSome)
    (s : Settings) : Settings.ofParts? parts = some s ↔
      (parts "environment").bind ofJson? = some s.environment ∧
      (parts "server").bind ofJson? = some s.server ∧
      (parts "database").bind ofJson? = some s.database ∧
      (parts "logging").bind ofJson? = some s.logging ∧
      (parts "reload").bind ofJson? = some s.reload := by
  simp only [keys, List.forall_mem_cons] at h
  obtain ⟨h₁, h₂, h₃, h₄, h₅, -⟩ := h
  simp only [ofParts?, Parts.read_of_isSome, h₁, h₂, h₃, h₄, h₅]
  constructor
  · intro heq
    obtain ⟨environment, hEnvironment, heq⟩ := Option.bind_eq_some_iff.mp heq
    obtain ⟨server, hServer, heq⟩ := Option.bind_eq_some_iff.mp heq
    obtain ⟨database, hDatabase, heq⟩ := Option.bind_eq_some_iff.mp heq
    obtain ⟨logging, hLogging, heq⟩ := Option.bind_eq_some_iff.mp heq
    obtain ⟨reload, hReload, heq⟩ := Option.bind_eq_some_iff.mp heq
    cases heq
    exact ⟨hEnvironment, hServer, hDatabase, hLogging, hReload⟩
  · rintro ⟨hEnvironment, hServer, hDatabase, hLogging, hReload⟩
    rw [hEnvironment, hServer, hDatabase, hLogging, hReload]
    rfl

/-- A section that has something under its keys is an object. -/
theorem exists_section {j : Json} {home first : String} {keys : List String}
    (h : ∀ key ∈ first :: keys, (j.at? [home, key]).isSome) :
    ∃ ms : Json.Members, j.get? home = some (.object ms) ∧
      (∀ key, j.at? [home, key] = ms.get? key) ∧ ∀ key ∈ first :: keys, (ms.get? key).isSome := by
  obtain ⟨x, hx⟩ := Option.isSome_iff_exists.mp (h first (by simp))
  obtain ⟨y, hy, hx⟩ := Option.bind_eq_some_iff.mp hx
  obtain ⟨v, hv, -⟩ := Option.bind_eq_some_iff.mp hx
  obtain ⟨ms, rfl, -⟩ := Json.exists_of_get? hv
  have hat (key : String) : j.at? [home, key] = ms.get? key := by
    rw [Json.at?, hy, Option.bind_some, Json.at?, Json.get?]
    exact Option.bind_fun_some _
  exact ⟨ms, hy, hat, fun key hkey => hat key ▸ h key hkey⟩

/-- Settings are what their eighteen parts are, where all of these are there. -/
theorem ofJson?_eq_some_iff {j : Json} (h : ∀ f ∈ Setting.all, (j.at? f.path).isSome)
    (s : Settings) :
    ofJson? j = some s ↔ ∀ f ∈ Setting.all, (j.at? f.path).bind ofJson? = some (f.get s) := by
  have hof {paths : List (List String)} (hpaths : ∀ path ∈ paths, path ∈ Setting.all.map (·.path)) :
      ∀ path ∈ paths, (j.at? path).isSome := by
    intro path hpath
    obtain ⟨f, hf, rfl⟩ := List.mem_map.mp (hpaths path hpath)
    exact h f hf
  have hhome (home : String) (keys : List String)
      (hpaths : ∀ path ∈ keys.map fun key => [home, key], path ∈ Setting.all.map (·.path)) :
      ∀ key ∈ keys, (j.at? [home, key]).isSome :=
    fun key hkey => hof hpaths [home, key] (List.mem_map.mpr ⟨key, hkey, rfl⟩)
  obtain ⟨server, hserver, hserverAt, hserverKeys⟩ :=
    exists_section (hhome "server" Server.keys (by decide))
  obtain ⟨database, hdatabase, hdatabaseAt, hdatabaseKeys⟩ :=
    exists_section (hhome "database" Database.keys (by decide))
  obtain ⟨logging, hlogging, hloggingAt, hloggingKeys⟩ :=
    exists_section (hhome "logging" Logging.keys (by decide))
  obtain ⟨reload, hreload, hreloadAt, hreloadKeys⟩ :=
    exists_section (hhome "reload" Reload.keys (by decide))
  have henvironment : j.at? ["environment"] = j.get? "environment" := Option.bind_fun_some _
  have hkeys : ∀ key ∈ Settings.keys, (j.get? key).isSome := by
    have hfound : (j.at? ["environment"]).isSome := h _ (List.mem_cons_self ..)
    rw [henvironment] at hfound
    simp [keys, hfound, hserver, hdatabase, hlogging, hreload]
  -- The whole is its five parts, and each section is its own parts.
  have hwhole := ofParts?_eq_some_iff hkeys s
  rw [hserver, hdatabase, hlogging, hreload] at hwhole
  have hserverIff := Server.ofParts?_eq_some_iff hserverKeys s.server
  have hdatabaseIff := Database.ofParts?_eq_some_iff hdatabaseKeys s.database
  have hloggingIff := Logging.ofParts?_eq_some_iff hloggingKeys s.logging
  have hreloadIff := Reload.ofParts?_eq_some_iff hreloadKeys s.reload
  obtain ⟨ms, rfl, -⟩ := Json.exists_of_get? hserver
  simp only [Setting.all, List.forall_mem_cons, hserverAt, hdatabaseAt, hloggingAt, hreloadAt,
    henvironment]
  change Settings.ofParts? (Json.get? (.object ms)) = some s ↔ _
  rw [hwhole]
  change _ ∧ Server.ofParts? server.get? = _ ∧ Database.ofParts? database.get? = _ ∧
    Logging.ofParts? logging.get? = _ ∧ Reload.ofParts? reload.get? = _ ↔ _
  rw [hserverIff, hdatabaseIff, hloggingIff, hreloadIff]
  simp only [and_assoc, List.not_mem_nil, false_implies, implies_true, and_true]

/-- Settings whose eighteen values are the same are the same. -/
theorem eq_of_get_eq {s s' : Settings} (h : ∀ f ∈ Setting.all, f.get s = f.get s') : s = s' := by
  simp only [Setting.all, List.forall_mem_cons] at h
  obtain ⟨environment, server, database, logging, reload⟩ := s
  obtain ⟨environment', server', database', logging', reload'⟩ := s'
  cases server; cases server'
  cases database; cases database'
  cases logging; cases logging'
  cases reload; cases reload'
  simp_all

/-! ## What a file makes of the defaults -/

/-- The settings of a file's value are, one by one, what the value has at their places, and the
defaults where it has nothing or null. -/
theorem ofFileValue?_eq_some_iff {value : Json} (h : ∀ f ∈ Setting.all, Json.IsOpen f.path value)
    (s : Settings) : ofFileValue? value = some s ↔ ∀ f ∈ Setting.all,
      ofJson? (((value.at? f.path).filter (!·.isNull)).getD (toJson (f.get default))) =
        some (f.get s) := by
  have hnull : value.isNull = false := by
    obtain ⟨ms, rfl, -⟩ := h _ (List.mem_cons_self ..)
    rfl
  -- The default of a setting is no object, so what the file has at its place is not merged into it.
  have hplace (f : Setting) (hf : f ∈ Setting.all) :
      (Json.merge (toJson default) value).at? f.path =
        some (((value.at? f.path).filter (!·.isNull)).getD (toJson (f.get default))) :=
    Json.at?_merge f.path hnull (h f hf) (Setting.at?_toJson hf default)
      (Setting.isLeaf_toJson hf default).1
  rw [ofFileValue?, ofJson?_eq_some_iff fun f hf => by rw [hplace f hf]; rfl]
  constructor
  · intro hall f hf
    have := hall f hf
    rwa [hplace f hf] at this
  · intro hall f hf
    rw [hplace f hf]
    exact hall f hf

/-- The sections that a file may have. -/
def sections : List String :=
  ["server", "database", "logging", "reload"]

end Settings

namespace SettingsFile

/-- The file holds a text with this tree; a missing file counts as an empty object. -/
def Holds : SettingsFile → Tree → Prop
  | .absent, t => t = .object []
  | .directory _, _ => False
  | .text _ content, t => Json.frontTree? (Json.tokens content) = some (t, [])

/-- What can be read of a file is the value of its tree. -/
theorem Holds.value?_eq {file : SettingsFile} {t : Tree} {value : Json} (h : file.Holds t)
    (hvalue : Settings.fileValue file = .ok value) : t.value? Json.maxDepth = some value := by
  cases file with
  | absent =>
    cases hvalue
    rw [show t = .object [] from h]
    rfl
  | directory modified => exact h.elim
  | text modified content =>
    rw [Settings.fileValue] at hvalue
    split at hvalue
    · cases hvalue
    · split at hvalue
      · rename_i j hj
        cases hvalue
        rwa [Json.parse?, show Json.frontTree? (Json.tokens content) = some (t, []) from h] at hj
      · cases hvalue

end SettingsFile

/-- The tree is an object, and each of its sections is an object too, or null. -/
def Json.Tree.HasSections (t : Tree) : Prop :=
  (∃ ms, t = .object ms) ∧ ∀ home ∈ Settings.sections, ∀ x, t.last? home = some x →
    x = .leaf .null ∨ ∃ ms, x = .object ms

namespace Setting

/-- What a file says of the setting: the value at its place, of several under one key the last, unless
that is null. -/
def said? (f : Setting) (t : Tree) : Option Json :=
  ((t.at? f.path).bind (·.value? Json.maxDepth)).filter (!·.isNull)

/-- The setting has the value its variable gives it, else the one the file says, else its default. -/
def IsLayered (f : Setting) (vars : Variables) (t : Tree) (s : Settings) : Prop :=
  match f.given? vars with
  | some a => f.get s = a
  | none =>
    match f.said? t with
    | some j => ofJson? j = some (f.get s)
    | none => f.get s = f.get Settings.default

/-- A setting stands in the file itself or in one of its sections. -/
theorem path_cases {f : Setting} (hf : f ∈ all) :
    (∃ key, f.path = [key]) ∨ ∃ home ∈ Settings.sections, ∃ key, f.path = [home, key] := by
  simp only [all, List.mem_cons, List.not_mem_nil, or_false] at hf
  rcases hf with rfl | rfl | rfl | rfl | rfl | rfl | rfl | rfl | rfl | rfl | rfl | rfl | rfl | rfl |
    rfl | rfl | rfl | rfl
  case inl => exact .inl ⟨_, rfl⟩
  all_goals exact .inr ⟨_, by decide, _, rfl⟩

/-- The value of a tree with sections can be merged at the place of each setting. -/
theorem isOpen_of_hasSections {f : Setting} (hf : f ∈ all) {t : Tree} {value : Json}
    (ht : t.HasSections) (hvalue : t.value? Json.maxDepth = some value) :
    Json.IsOpen f.path value := by
  obtain ⟨⟨members, rfl⟩, hsections⟩ := ht
  obtain ⟨ms, rfl, hms⟩ := Json.object_of_value? hvalue
  rcases path_cases hf with ⟨key, hpath⟩ | ⟨home, hhome, key, hpath⟩
  · rw [hpath]
    exact ⟨ms, rfl, hms, fun _ _ _ => trivial⟩
  · rw [hpath]
    refine ⟨ms, rfl, hms, fun v hv hnull => ?_⟩
    have hlast := Json.get?_of_value? hvalue home
    rw [show (Json.object ms).get? home = some v from hv] at hlast
    obtain ⟨x, hx, hxv⟩ := Option.map_eq_some_iff.mp hlast
    rcases hsections home hhome x hx with rfl | ⟨inner, rfl⟩
    · cases hxv
      cases hnull
    · obtain ⟨found, rfl, hfound⟩ := Json.object_of_value? hxv
      exact ⟨found, rfl, hfound, fun _ _ _ => trivial⟩

/-- The settings that a file makes of the defaults are, one by one, what the file says, and the defaults
where it says nothing. -/
theorem layered_of_file {t : Tree} {value : Json} (ht : t.HasSections)
    (hvalue : t.value? Json.maxDepth = some value) (s : Settings) :
    Settings.ofFileValue? value = some s ↔ ∀ f ∈ all,
      ofJson? ((f.said? t).getD (toJson (f.get Settings.default))) = some (f.get s) := by
  rw [Settings.ofFileValue?_eq_some_iff fun f hf => isOpen_of_hasSections hf ht hvalue]
  simp only [said?, ← Json.at?_of_value? _ hvalue (Nat.le_refl _)]

end Setting

namespace Settings

/-- A file that can be read is laid over the defaults and put under the variables, and the outcome is
looked at. -/
theorem load_eq {vars : Variables} {file : SettingsFile} {value : Json}
    (h : fileValue file = .ok value) :
    load vars file = match (ofFileValue? value).map (·.override vars) with
      | none => .error .malformed
      | some s => match s.validate with
        | .ok () => .ok s
        | .error cause => .error (.invalid cause) := by
  simp only [load, h, bind, Except.bind]
  cases ofFileValue? value with
  | none => rfl
  | some layered => rfl

/-- What was loaded came from a file that could be read. -/
theorem exists_fileValue {vars : Variables} {file : SettingsFile} {s : Settings}
    (h : load vars file = .ok s) : ∃ value, fileValue file = .ok value := by
  cases hvalue : fileValue file with
  | ok value => exact ⟨value, rfl⟩
  | error fault =>
    rw [load, hvalue] at h
    cases h

/-- What was loaded is what the variables make of what the file makes of the defaults. -/
theorem override_of_load {vars : Variables} {file : SettingsFile} {s : Settings} {value : Json}
    (h : load vars file = .ok s) (hvalue : fileValue file = .ok value) :
    ∃ layered, ofFileValue? value = some layered ∧ s = layered.override vars := by
  rw [load_eq hvalue] at h
  cases hlayered : ofFileValue? value with
  | none => rw [hlayered] at h; cases h
  | some layered =>
    rw [hlayered, Option.map_some] at h
    dsimp only at h
    split at h
    · cases h
      exact ⟨layered, rfl, rfl⟩
    · cases h

/-! ## Settings written out -/

/-- The texts of a list can be read back. -/
theorem itemsFit_texts (depth : Nat) (texts : List String) :
    Json.ItemsFit depth (texts.map toJson) := by
  induction texts with
  | nil => trivial
  | cons text texts ih => exact ⟨trivial, ih⟩

/-- A number without a sign can be read back. -/
theorem fits_nat (depth : Nat) {n : Nat} (h : n < UInt64.size) : Json.Fits depth (.int n) :=
  Json.readsBack_int (by simp only [maxInt64]; omega) (by omega)

/-- Settings can be read back from their text. -/
theorem fits_toJson (s : Settings) : Json.Fits Json.maxDepth (toJson s) := by
  -- Two levels are used up before the values of a section are reached.
  have hport (n : UInt16) : Json.Fits 125 (toJson n) :=
    fits_nat _ (Nat.lt_trans n.toNat_lt (by decide))
  have hcount (n : UInt32) : Json.Fits 125 (toJson n) :=
    fits_nat _ (Nat.lt_trans n.toNat_lt (by decide))
  have hlong (n : UInt64) : Json.Fits 125 (toJson n) :=
    fits_nat _ n.toNat_lt
  have hsigned (i : Int64) : Json.Fits 125 (toJson i) :=
    Json.readsBack_int (by have := i.le_toInt; simp only [maxInt64]; omega)
      (by have := i.toInt_lt; simp only [UInt64.size]; omega)
  have hserver : Json.Fits 126 (toJson s.server) :=
    ⟨by decide, show Server.keys.Nodup by decide, trivial, hport _, hlong _, hlong _, hlong _, trivial⟩
  have hdatabase : Json.Fits 126 (toJson s.database) :=
    ⟨by decide, show Database.keys.Nodup by decide, trivial, ⟨by decide, itemsFit_texts _ _⟩, hcount _,
      hcount _, hsigned _, hlong _, trivial, trivial⟩
  have hlogging : Json.Fits 126 (toJson s.logging) :=
    ⟨by decide, show Logging.keys.Nodup by decide, trivial, trivial, trivial, trivial⟩
  have hreload : Json.Fits 126 (toJson s.reload) :=
    ⟨by decide, show Reload.keys.Nodup by decide, trivial, hlong _, trivial⟩
  exact ⟨by decide, show keys.Nodup by decide, trivial, hserver, hdatabase, hlogging, hreload, trivial⟩

/-- Settings that are written out can be merged at the place of each of them. -/
theorem isOpen_toJson {f : Setting} (hf : f ∈ Setting.all) (s : Settings) :
    Json.IsOpen f.path (toJson s) := by
  have hsection (home : String) (hhome : home ∈ sections) {v : Json}
      (hv : (toJson s).get? home = some v) :
      ∃ ms : Json.Members, v = .object ms ∧ (ms.map Prod.fst).Nodup := by
    simp only [sections, List.mem_cons, List.not_mem_nil, or_false] at hhome
    rcases hhome with rfl | rfl | rfl | rfl
    all_goals
      have hv := Option.some.inj hv
      exact ⟨_, hv.symm, by simp⟩
  rcases Setting.path_cases hf with ⟨key, hpath⟩ | ⟨home, hhome, key, hpath⟩
  · rw [hpath]
    exact ⟨_, rfl, show keys.Nodup by decide, fun _ _ _ => trivial⟩
  · rw [hpath]
    refine ⟨_, rfl, show keys.Nodup by decide, fun v hv _ => ?_⟩
    obtain ⟨ms, rfl, hms⟩ := hsection home hhome hv
    exact ⟨ms, rfl, hms, fun _ _ _ => trivial⟩

/-- The text of settings is read back as their value. -/
theorem fileValue_render (s : Settings) (modified : Nat) :
    fileValue (.text modified (.ofString (Json.render (toJson s)))) = .ok (toJson s) := by
  simp [fileValue, Text.Source.toString?_ofString, Json.parse?_render (fits_toJson s)]

/-- Settings laid over the defaults are these settings. -/
theorem ofFileValue?_toJson (s : Settings) : ofFileValue? (toJson s) = some s := by
  rw [ofFileValue?_eq_some_iff fun f hf => isOpen_toJson hf s]
  intro f hf
  rw [Setting.at?_toJson hf, Option.filter_some, (Setting.isLeaf_toJson hf s).2]
  simp

/-- Without variables everything stays as it is. -/
theorem override_none (s : Settings) : s.override (fun _ => none) = s := by
  apply eq_of_get_eq
  intro f hf
  have hgiven : f.given? (fun _ => none) = none := by
    rw [Setting.given?]
    split <;> rfl
  rw [Setting.get_override hf, hgiven, Option.getD_none]

/-! ## The layers -/

/-- **Settings are layered one by one.** Where a file whose sections are objects or null can be loaded,
each setting is what its variable says, else what the file says, else its default. Two files that say the
same of every setting load alike under variables that say the same: neither other keys nor other variables,
nor members that are null, make a difference. Settings that are written out and loaded without variables
are the same as before. -/
theorem layered :
    (∀ (vars : Variables) (file : SettingsFile) (t : Tree) (s : Settings), file.Holds t →
      t.HasSections → load vars file = .ok s → ∀ f ∈ Setting.all, f.IsLayered vars t s) ∧
    (∀ (vars vars' : Variables) (file file' : SettingsFile) (t t' : Tree) (value value' : Json),
      file.Holds t → t.HasSections → fileValue file = .ok value →
      file'.Holds t' → t'.HasSections → fileValue file' = .ok value' →
      (∀ f ∈ Setting.all, f.given? vars = f.given? vars' ∧ f.said? t = f.said? t') →
      load vars file = load vars' file') ∧
    (∀ (s : Settings) (modified : Nat), s.validate = .ok () →
      load (fun _ => none) (.text modified (.ofString (Json.render (toJson s)))) = .ok s) := by
  refine ⟨?_, ?_, ?_⟩
  · intro vars file t s hfile ht hload f hf
    obtain ⟨value, hvalue⟩ := exists_fileValue hload
    obtain ⟨layered, hlayered, rfl⟩ := override_of_load hload hvalue
    have hsaid := (Setting.layered_of_file ht (hfile.value?_eq hvalue) layered).mp hlayered f hf
    rw [Setting.IsLayered, Setting.get_override hf]
    cases f.given? vars with
    | some a => rfl
    | none =>
      cases hj : f.said? t with
      | some j => rwa [hj] at hsaid
      | none =>
        rw [hj, Option.getD_none, JsonForm.ofJson?_toJson] at hsaid
        exact (Option.some.inj hsaid).symm
  · intro vars vars' file file' t t' value value' hfile ht hvalue hfile' ht' hvalue' hsame
    -- Settings are determined by the eighteen values, and those by what is said and given of each.
    have hlayered : ofFileValue? value = ofFileValue? value' := by
      apply Option.ext
      intro s
      rw [Setting.layered_of_file ht (hfile.value?_eq hvalue),
        Setting.layered_of_file ht' (hfile'.value?_eq hvalue')]
      constructor
      · intro hall f hf
        rw [← (hsame f hf).2]
        exact hall f hf
      · intro hall f hf
        rw [(hsame f hf).2]
        exact hall f hf
    have hover (s : Settings) : s.override vars = s.override vars' := by
      apply eq_of_get_eq
      intro f hf
      rw [Setting.get_override hf, Setting.get_override hf, (hsame f hf).1]
    rw [load_eq hvalue, load_eq hvalue', hlayered]
    simp only [hover]
  · intro s modified hvalid
    rw [load_eq (fileValue_render s modified), ofFileValue?_toJson, Option.map_some, override_none]
    simp only [hvalid]

/-- A file that names a port twice, with members that are null and one that is no setting. -/
def crowdedText : Text.Source :=
  .ofString ("\x7b\"server\":\x7b\"port\":1,\"host\":null,\"port\":9000,\"colour\":[]\x7d," ++
    "\"logging\":null\x7d")

/-- The tree of the text. -/
def crowdedTree : Tree :=
  .object [
    (some "server", .object [
      (some "port", .leaf (.number ⟨false, [1], [], false, []⟩)),
      (some "host", .leaf .null),
      (some "port", .leaf (.number ⟨false, [9, 0, 0, 0], [], false, []⟩)),
      (some "colour", .array [])]),
    (some "logging", .leaf .null)]

/-- A file that names one port and nothing else. -/
def plainText : Text.Source :=
  .ofString "\x7b\"server\": \x7b\"port\": 9000\x7d\x7d"

/-- The tree of the text. -/
def plainTree : Tree :=
  .object [(some "server", .object [
    (some "port", .leaf (.number ⟨false, [9, 0, 0, 0], [], false, []⟩))])]

/-- A level of the log, a blank port, and a variable of some other program. -/
def crowdedVariables : Variables
  | "PAYTRACK_LOG_LEVEL" => some "debug"
  | "PAYTRACK_PORT" => some " "
  | "PATH" => some "/bin"
  | _ => none

/-- A level of the log. -/
def plainVariables : Variables
  | "PAYTRACK_LOG_LEVEL" => some "debug"
  | _ => none

/-- The settings that either of them gives. -/
def crowdedSettings : Settings :=
  { default with
    server := { Server.default with port := 9000 }
    logging := { Logging.default with level := "debug" } }

theorem holds_crowdedTree (modified : Nat) :
    (SettingsFile.text modified crowdedText).Holds crowdedTree := by
  have htokens : Json.tokens crowdedText =
      [.openObject, .text (some "server"), .colon, .openObject, .text (some "port"), .colon,
        .number ⟨false, [1], [], false, []⟩, .comma, .text (some "host"), .colon, .null, .comma,
        .text (some "port"), .colon, .number ⟨false, [9, 0, 0, 0], [], false, []⟩, .comma,
        .text (some "colour"), .colon, .openArray, .closeArray, .closeObject, .comma,
        .text (some "logging"), .colon, .null, .closeObject] := by decide +kernel
  rw [SettingsFile.Holds, htokens]
  rfl

theorem holds_plainTree (modified : Nat) :
    (SettingsFile.text modified plainText).Holds plainTree := by
  have htokens : Json.tokens plainText =
      [.openObject, .text (some "server"), .colon, .openObject, .text (some "port"), .colon,
        .number ⟨false, [9, 0, 0, 0], [], false, []⟩, .closeObject, .closeObject] := by
    decide +kernel
  rw [SettingsFile.Holds, htokens]
  rfl

/-- The two files are loaded alike, one under many variables and one under few. -/
theorem layered_crowded :
    ((SettingsFile.text 3 crowdedText).Holds crowdedTree ∧ crowdedTree.HasSections ∧
      load crowdedVariables (.text 3 crowdedText) = .ok crowdedSettings ∧
      ∀ f ∈ Setting.all, f.IsLayered crowdedVariables crowdedTree crowdedSettings) ∧
    ((SettingsFile.text 4 plainText).Holds plainTree ∧ plainTree.HasSections ∧
      (∀ f ∈ Setting.all, f.given? crowdedVariables = f.given? plainVariables ∧
        f.said? crowdedTree = f.said? plainTree) ∧
      load crowdedVariables (.text 3 crowdedText) = load plainVariables (.text 4 plainText)) ∧
    (crowdedSettings.validate = .ok () ∧
      load (fun _ => none) (.text 5 (.ofString (Json.render (toJson crowdedSettings)))) =
        .ok crowdedSettings) := by
  have hload : load crowdedVariables (.text 3 crowdedText) = .ok crowdedSettings :=
    mem_toList_toOption_iff.mp (by decide +kernel)
  have hload' : load plainVariables (.text 4 plainText) = .ok crowdedSettings :=
    mem_toList_toOption_iff.mp (by decide +kernel)
  have hsections : crowdedTree.HasSections := by
    refine ⟨⟨_, rfl⟩, ?_⟩
    intro home hhome x hx
    simp only [sections, List.mem_cons, List.not_mem_nil, or_false] at hhome
    rcases hhome with rfl | rfl | rfl | rfl <;> cases hx
    · exact .inr ⟨_, rfl⟩
    · exact .inl rfl
  have hsections' : plainTree.HasSections := by
    refine ⟨⟨_, rfl⟩, ?_⟩
    intro home hhome x hx
    simp only [sections, List.mem_cons, List.not_mem_nil, or_false] at hhome
    rcases hhome with rfl | rfl | rfl | rfl <;> cases hx
    exact .inr ⟨_, rfl⟩
  have hsame : ∀ f ∈ Setting.all, f.given? crowdedVariables = f.given? plainVariables ∧
      f.said? crowdedTree = f.said? plainTree := by
    simp only [Setting.all, List.forall_mem_cons, List.not_mem_nil, false_implies, implies_true,
      and_true]
    exact ⟨⟨rfl, rfl⟩, ⟨rfl, rfl⟩, ⟨rfl, rfl⟩, ⟨rfl, rfl⟩, ⟨rfl, rfl⟩, ⟨rfl, rfl⟩, ⟨rfl, rfl⟩, ⟨rfl, rfl⟩,
      ⟨rfl, rfl⟩, ⟨rfl, rfl⟩, ⟨rfl, rfl⟩, ⟨rfl, rfl⟩, ⟨rfl, rfl⟩, ⟨rfl, rfl⟩, ⟨rfl, rfl⟩, ⟨rfl, rfl⟩,
      ⟨rfl, rfl⟩, ⟨rfl, rfl⟩⟩
  obtain ⟨value, hvalue⟩ := exists_fileValue hload
  obtain ⟨value', hvalue'⟩ := exists_fileValue hload'
  have hvalid : crowdedSettings.validate = .ok () := rfl
  exact ⟨⟨holds_crowdedTree 3, hsections, hload,
      layered.1 _ _ _ _ (holds_crowdedTree 3) hsections hload⟩,
    ⟨holds_plainTree 4, hsections', hsame, layered.2.1 _ _ _ _ _ _ _ _ (holds_crowdedTree 3) hsections
      hvalue (holds_plainTree 4) hsections' hvalue' hsame⟩,
    hvalid, layered.2.2 _ _ hvalid⟩

end Settings

end Payroll
