import Payroll.Json.Form
import Payroll.Settings.Basic
/-!
Settings as JSON. A section is an object whose members may be left out, or an array of its values in
their order whose end may be left out; what is left out has its default, and unknown members are
passed over. Main statement: settings are read back from their own form.
-/

namespace Payroll

open JsonForm (toJson ofJson?)

/-- A name as JSON: a string, or an object that holds null under the name and nothing else. -/
def Json.name? : Json → Option String
  | .string name => some name
  | .object [(name, .null)] => some name
  | _ => none

instance : JsonForm Environment where
  toJson e := .string e.name
  ofJson? j := j.name?.bind Environment.ofName?
  ofJson?_toJson e := by simp [Json.name?]

instance : JsonForm LogFormat where
  toJson f := .string f.name
  ofJson? j := j.name?.bind LogFormat.ofName?
  ofJson?_toJson f := by simp [Json.name?]

namespace Settings

/-- The parts of a section, found by their keys. -/
abbrev Parts := String → Option Json

/-- The parts that a value gives to a section with these keys. An array may not have more items
than there are keys. -/
def parts? (keys : List String) : Json → Option Parts
  | .object ms => some (Json.Members.get? ms)
  | .array xs => if xs.length ≤ keys.length then some fun key => (keys.zip xs).lookup key else none
  | _ => none

variable {α : Type} [JsonForm α]

/-- The part under a key, or the default if there is none. -/
def Parts.read (parts : Parts) (key : String) (default : α) : Option α :=
  match parts key with
  | some j => ofJson? j
  | none => some default

namespace Server

/-- The keys of the section. -/
def keys : List String :=
  ["host", "port", "requestTimeoutMs", "shutdownTimeoutMs", "maxBodyBytes"]

/-- The section in the parts. -/
def ofParts? (parts : Parts) : Option Server := do
  let host ← parts.read "host" default.host
  let port ← parts.read "port" default.port
  let requestTimeoutMs ← parts.read "requestTimeoutMs" default.requestTimeoutMs
  let shutdownTimeoutMs ← parts.read "shutdownTimeoutMs" default.shutdownTimeoutMs
  let maxBodyBytes ← parts.read "maxBodyBytes" default.maxBodyBytes
  return { host, port, requestTimeoutMs, shutdownTimeoutMs, maxBodyBytes }

instance : JsonForm Server where
  toJson s := .object
    [("host", toJson s.host), ("port", toJson s.port),
     ("requestTimeoutMs", toJson s.requestTimeoutMs),
     ("shutdownTimeoutMs", toJson s.shutdownTimeoutMs), ("maxBodyBytes", toJson s.maxBodyBytes)]
  ofJson? j := (parts? keys j).bind ofParts?
  ofJson?_toJson s := by
    simp [parts?, ofParts?, Parts.read, Json.Members.get?_cons]

end Server

namespace Database

/-- The keys of the section. -/
def keys : List String :=
  ["path", "replicaPaths", "poolSize", "busyTimeoutMs", "cacheSizeKib", "acquireTimeoutMs",
   "migrateOnStart"]

/-- The section in the parts. -/
def ofParts? (parts : Parts) : Option Database := do
  let path ← parts.read "path" default.path
  let replicaPaths ← parts.read "replicaPaths" default.replicaPaths
  let poolSize ← parts.read "poolSize" default.poolSize
  let busyTimeoutMs ← parts.read "busyTimeoutMs" default.busyTimeoutMs
  let cacheSizeKib ← parts.read "cacheSizeKib" default.cacheSizeKib
  let acquireTimeoutMs ← parts.read "acquireTimeoutMs" default.acquireTimeoutMs
  let migrateOnStart ← parts.read "migrateOnStart" default.migrateOnStart
  return { path, replicaPaths, poolSize, busyTimeoutMs, cacheSizeKib, acquireTimeoutMs,
           migrateOnStart }

instance : JsonForm Database where
  toJson d := .object
    [("path", toJson d.path), ("replicaPaths", toJson d.replicaPaths),
     ("poolSize", toJson d.poolSize), ("busyTimeoutMs", toJson d.busyTimeoutMs),
     ("cacheSizeKib", toJson d.cacheSizeKib), ("acquireTimeoutMs", toJson d.acquireTimeoutMs),
     ("migrateOnStart", toJson d.migrateOnStart)]
  ofJson? j := (parts? keys j).bind ofParts?
  ofJson?_toJson d := by
    simp [parts?, ofParts?, Parts.read, Json.Members.get?_cons]

end Database

namespace Logging

/-- The keys of the section. -/
def keys : List String :=
  ["level", "format", "logRequests"]

/-- The section in the parts. -/
def ofParts? (parts : Parts) : Option Logging := do
  let level ← parts.read "level" default.level
  let format ← parts.read "format" default.format
  let logRequests ← parts.read "logRequests" default.logRequests
  return { level, format, logRequests }

instance : JsonForm Logging where
  toJson l := .object
    [("level", toJson l.level), ("format", toJson l.format), ("logRequests", toJson l.logRequests)]
  ofJson? j := (parts? keys j).bind ofParts?
  ofJson?_toJson l := by
    simp [parts?, ofParts?, Parts.read, Json.Members.get?_cons]

end Logging

namespace Reload

/-- The keys of the section. -/
def keys : List String :=
  ["enabled", "pollIntervalSecs"]

/-- The section in the parts. -/
def ofParts? (parts : Parts) : Option Reload := do
  let enabled ← parts.read "enabled" default.enabled
  let pollIntervalSecs ← parts.read "pollIntervalSecs" default.pollIntervalSecs
  return { enabled, pollIntervalSecs }

instance : JsonForm Reload where
  toJson r := .object
    [("enabled", toJson r.enabled), ("pollIntervalSecs", toJson r.pollIntervalSecs)]
  ofJson? j := (parts? keys j).bind ofParts?
  ofJson?_toJson r := by
    simp [parts?, ofParts?, Parts.read, Json.Members.get?_cons]

end Reload

/-- The keys of the sections. -/
def keys : List String :=
  ["environment", "server", "database", "logging", "reload"]

/-- The settings in the parts. -/
def ofParts? (parts : Parts) : Option Settings := do
  let environment ← parts.read "environment" default.environment
  let server ← parts.read "server" default.server
  let database ← parts.read "database" default.database
  let logging ← parts.read "logging" default.logging
  let reload ← parts.read "reload" default.reload
  return { environment, server, database, logging, reload }

instance : JsonForm Settings where
  toJson s := .object
    [("environment", toJson s.environment), ("server", toJson s.server),
     ("database", toJson s.database), ("logging", toJson s.logging), ("reload", toJson s.reload)]
  ofJson? j := (parts? keys j).bind ofParts?
  ofJson?_toJson s := by
    simp [parts?, ofParts?, Parts.read, Json.Members.get?_cons]

end Settings

end Payroll
