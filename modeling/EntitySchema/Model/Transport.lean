import EntitySchema.Model.Adhoc
import EntitySchema.Value.Json
import EntitySchema.Json.Decoding

/-!
The JSON documents in which fields and schemas travel. Empty options and an absent default are left
out. Reading ignores members it does not know and does not run the checks of a draft.
-/

namespace EntitySchema

open Json

def DataType.encode (t : DataType) : Json := .text t.name

def DataType.decode? (j : Json) : Option DataType := j.plainChoice?.bind DataType.ofName?

/-- The greatest number of 32 bits. -/
def maxUInt32 : Nat := 4294967295

def encodeUInt32 (n : UInt32) : Json := .natural n.toNat

def decodeUInt32? (j : Json) : Option UInt32 := (j.natural? maxUInt32).map UInt32.ofNat

namespace FieldRule

def encode : FieldRule → Json
  | .max v => alternative "max" v.encode
  | .min v => alternative "min" v.encode
  | .length least most =>
    alternative "length" (.object [("min", encodeUInt32 least), ("max", encodeUInt32 most)])
  | .oneOf vs => alternative "oneOf" (.array (vs.map Value.encode))
  | .primary => .text "primary"
  | .tenant => .text "tenant"
  | .unique => .text "unique"

/-- The bounds of a length rule, by name only. -/
def decodeLength? : Json → Option FieldRule
  | .object fields => do
    let least ← (fields.lookup "min").bind decodeUInt32?
    let most ← (fields.lookup "max").bind decodeUInt32?
    some (.length least most)
  | _ => none

def decode? (j : Json) : Option FieldRule :=
  match j.plainChoice? with
  | some "primary" => some .primary
  | some "tenant" => some .tenant
  | some "unique" => some .unique
  | _ => match j.choice? with
    | some ("max", some v) => (Value.decode? v).map .max
    | some ("min", some v) => (Value.decode? v).map .min
    | some ("length", some v) => decodeLength? v
    | some ("oneOf", some v) => (listOf Value.decode? v).map .oneOf
    | _ => none

end FieldRule

namespace Field

/-- The members of a field, in order. -/
def memberNames : List String :=
  ["name", "label", "description", "dataType", "dataTypeOptions", "isRequired", "defaultValue",
   "rules"]

def encode (f : Field) : Json :=
  let options :=
    if f.options.isEmpty then []
    else [("dataTypeOptions", Json.object (f.options.entries.map fun e => (e.1, .text e.2)))]
  let default := match f.default with
    | some v => [("defaultValue", v.encode)]
    | none => []
  .object ([("name", .text f.name), ("label", .text f.label), ("description", .text f.description),
    ("dataType", f.dataType.encode)] ++ options ++ [("isRequired", .bool f.required)] ++ default
    ++ [("rules", .array (f.rules.map FieldRule.encode))])

def decode? (j : Json) : Option Field := do
  let m ← j.members? memberNames
  let name ← m.required "name" text?
  let label ← m.optional "label" "" text?
  let description ← m.optional "description" "" text?
  let dataType ← m.required "dataType" DataType.decode?
  let options ← m.optional "dataTypeOptions" .empty (mapOf text?)
  let required ← m.optional "isRequired" false bool?
  let default ← m.optional "defaultValue" none (nullable Value.decode?)
  let rules ← m.optional "rules" [] (listOf FieldRule.decode?)
  some { name, label, description, dataType, options, required, default, rules }

end Field

namespace EntityRule

def encode : EntityRule → Json
  | .unique columns => alternative "unique" (.array (columns.map .text))

def decode? (j : Json) : Option EntityRule :=
  match j.choice? with
  | some ("unique", some v) => (listOf text? v).map .unique
  | _ => none

end EntityRule

namespace Schema

def memberNames : List String := ["name", "label", "description", "fields", "rules"]

def encode (s : Schema) : Json :=
  .object [("name", .text s.name), ("label", .text s.label), ("description", .text s.description),
    ("fields", .array (s.fields.map Field.encode)), ("rules", .array (s.rules.map EntityRule.encode))]

def decode? (j : Json) : Option Schema := do
  let m ← j.members? memberNames
  let name ← m.required "name" text?
  let label ← m.optional "label" "" text?
  let description ← m.optional "description" "" text?
  let fields ← m.required "fields" (listOf Field.decode?)
  let rules ← m.optional "rules" [] (listOf EntityRule.decode?)
  some { name, label, description, fields, rules }

end Schema

namespace AdhocEntry

mutual

def encode : AdhocEntry → Json
  | .field f => alternative "field" f.encode
  | .holder name required title ⟨entries⟩ =>
    alternative "holder" (.object [("name", .text name), ("required", .bool required),
      ("schema", .object [("name", .text title), ("entries", .object (encodeEntries entries))])])

def encodeEntries : List (String × AdhocEntry) → List (String × Json)
  | [] => []
  | (key, e) :: rest => (key, encode e) :: encodeEntries rest

end

end AdhocEntry

namespace AdhocEntry

mutual

/-- A field or a holder, under the name of the alternative. -/
def decode? : Json → Option AdhocEntry
  | .object [(choice, content)] =>
    if choice = "field" then (Field.decode? content).map .field
    else if choice = "holder" then decodeHolder? content
    else none
  | _ => none

/-- Name, necessity and schema of a holder; none may be missing. -/
def decodeHolder? : Json → Option AdhocEntry
  | .object fields => do
    let name ← (fields.lookup "name").bind text?
    let required ← (fields.lookup "required").bind bool?
    let (title, entries) ← decodeSchemaField? fields
    some (.holder name required title entries)
  | .array [name, required, schema] => do
    let name ← name.text?
    let required ← required.bool?
    let (title, entries) ← decodeGroup? schema
    some (.holder name required title entries)
  | _ => none

/-- The field `schema` among the members of a holder. -/
def decodeSchemaField? : List (String × Json) → Option (String × KeyMap AdhocEntry)
  | [] => none
  | (member, j) :: rest => if member = "schema" then decodeGroup? j else decodeSchemaField? rest

/-- Name and entries of a schema. -/
def decodeGroup? : Json → Option (String × KeyMap AdhocEntry)
  | .object fields => do
    let name ← (fields.lookup "name").bind text?
    let entries ← decodeEntriesField? fields
    some (name, entries)
  | .array [name, entries] => do
    let name ← name.text?
    let entries ← decodeEntries? entries
    some (name, entries)
  | _ => none

/-- The field `entries` among the members of a schema. -/
def decodeEntriesField? : List (String × Json) → Option (KeyMap AdhocEntry)
  | [] => none
  | (member, j) :: rest => if member = "entries" then decodeEntries? j else decodeEntriesField? rest

def decodeEntries? : Json → Option (KeyMap AdhocEntry)
  | .object fields => (decodeAll? fields).map KeyMap.ofList
  | _ => none

/-- Every entry under its key; the key and the entry's own name may differ. -/
def decodeAll? : List (String × Json) → Option (List (String × AdhocEntry))
  | [] => some []
  | (key, j) :: rest => do some ((key, ← decode? j) :: (← decodeAll? rest))

end

end AdhocEntry

namespace AdhocSchema

def encode (s : AdhocSchema) : Json :=
  .object [("name", .text s.name),
    ("entries", .object (AdhocEntry.encodeEntries s.entries.entries))]

def decode? (j : Json) : Option AdhocSchema :=
  (AdhocEntry.decodeGroup? j).map fun (name, entries) => ⟨name, entries⟩

end AdhocSchema

end EntitySchema
