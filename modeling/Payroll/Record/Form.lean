import Payroll.Record.Data
/-!
Records as JSON. A version is one flat object: its meta data first, then its data under the names
of the columns. The meta data of a version may stand anywhere in the object, and is looked at only
once the whole object has been read.
-/

namespace Payroll

open Json (Fault Field Flat Scalar)
open Sql (Value)
open Text (Source)

/-- A value of a column as JSON. Bytes have no form. -/
def Sql.Value.toJson : Value → Json
  | .int i => .int i
  | .real x => .real x
  | .text s => .string s
  | .null | .blob _ => .null

/-- A field's value as a value of a column. -/
def Json.Scalar.toValue : Scalar → Value
  | .text s => .text s
  | .int i => .int i
  | .real x => .real x
  | .flag b => .int (if b then 1 else 0)

namespace Meta

/-- The fields of the meta data, in their order. -/
def fields : List Field :=
  [⟨"id", .text, false⟩, ⟨"version", .int, false⟩, ⟨"uid", .text, false⟩,
   ⟨"is_latest", .flag, false⟩]

/-- The meta data as members of an object. -/
def toMembers (m : Meta) : Json.Members :=
  [("id", .string m.id), ("version", .int m.version), ("uid", .string m.uid),
   ("is_latest", .bool m.isLatest)]

/-- The meta data as an object. -/
def toJson (m : Meta) : Json :=
  .object m.toMembers

/-- The meta data in the fields of an object. -/
def ofFlat? (o : Flat) : Option Meta := do
  let id ← o.text? "id"
  let version ← o.int? "version"
  let uid ← o.text? "uid"
  let isLatest ← o.flag? "is_latest"
  return { id, version, uid, isLatest }

/-- Reads the meta data by itself. -/
def read (s : Source) : Except Fault Meta :=
  Json.Layout.read ⟨fields, true, false⟩ (fun o => Json.fitting (ofFlat? o)) s

/-- The meta data among the members of an object, each field exactly once. -/
def ofMembers? (ms : List (String × Json)) : Option Meta := do
  let known := ms.filter fun (key, _) => fields.any (·.name == key)
  if (known.map (·.1)).Nodup then
    let values ← known.mapM fun (key, j) => do
      let f ← fields.find? (·.name == key)
      let v ← f.kind.ofJson? j
      return (key, some v)
    ofFlat? ⟨values, []⟩
  else none

end Meta

namespace Version

variable {α : Type} [VersionedData α]

/-- The data's fields, each of which must be there. -/
def dataFields (α : Type) [VersionedData α] : List Field :=
  (VersionedData.columns α).map fun c => ⟨c.name, c.kind, false⟩

/-- The data as members of an object. -/
def dataMembers (a : α) : Json.Members :=
  ((VersionedData.columns α).map (·.name)).zip ((VersionedData.cells a).map Value.toJson)

/-- The version as an object. -/
def toJson (v : Version α) : Json :=
  .object (v.toMeta.toMembers ++ dataMembers v.data)

/-- The data in the fields of an object. -/
def dataOfFlat? (o : Flat) : Option α := do
  let cells ← (VersionedData.columns α).mapM fun c => (o.get? c.name).map Scalar.toValue
  VersionedData.ofCells? cells

/-- The version in the fields of an object, its meta data among the other members. -/
def ofFlat? (o : Flat) : Option (Version α) := do
  let m ← Meta.ofMembers? o.others
  let data ← dataOfFlat? o
  return { m with data }

/-- Reads a version. -/
def read (s : Source) : Except Fault (Version α) :=
  Json.Layout.read ⟨dataFields α, false, true⟩ (fun o => Json.fitting (ofFlat? o)) s

end Version

namespace StaticData

variable {α : Type} [StaticData α]

/-- The record's fields, each of which must be there. -/
def fields (α : Type) [StaticData α] : List Field :=
  ("id" :: StaticData.columns α).map fun c => ⟨c, .text, false⟩

/-- The record as an object. -/
def toJson (a : α) : Json :=
  .object (("id" :: StaticData.columns α).zip
    ((StaticData.id a :: StaticData.texts a).map .string))

/-- The record in the fields of an object. -/
def ofFlat? (o : Flat) : Option α := do
  let id ← o.text? "id"
  let texts ← (StaticData.columns α).mapM o.text?
  StaticData.ofTexts? id texts

/-- Reads a record. -/
def read (s : Source) : Except Fault α :=
  Json.Layout.read ⟨fields α, true, false⟩ (fun o => Json.fitting (ofFlat? o)) s

end StaticData

end Payroll
