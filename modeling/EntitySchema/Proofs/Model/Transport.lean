import EntitySchema.Model.Transport
import EntitySchema.Proofs.Json.Members
import EntitySchema.Proofs.Value.Canonical

/-!
Fields and schemas read from the documents that they were written as. All comes back as it was,
except that values come back in their canonical form, and that a default that is null in the document
comes back as none.
-/

namespace EntitySchema

open Json

theorem DataType.decode?_encode (o : MemberOrder) (t : DataType) :
    DataType.decode? (t.encode.arranged o) = some t := by
  cases t <;> rfl

theorem decodeUInt32?_encode (o : MemberOrder) (n : UInt32) :
    decodeUInt32? ((encodeUInt32 n).arranged o) = some n := by
  have most : n.toNat ≤ maxUInt32 := by
    have bound := n.toNat_lt
    unfold maxUInt32
    omega
  rw [decodeUInt32?, encodeUInt32, natural?_natural o most (most.trans (by decide)),
    Option.map_some, UInt32.ofNat_toNat]

namespace Value

/-- A value that came through a document. -/
abbrev carried (v : Value) : Value := v.canonical .letter

theorem decode?_encode (o : MemberOrder) {v : Value} (ordered : v.Ordered) :
    decode? (v.encode.arranged o) = some v.carried := by
  have document : v.encode.Ordered := ordered_toJson .letter ordered
  rw [arranged_of_ordered o document, decode?_eq]
  exact congrArg some (ofJson_toJson .letter ordered)

theorem encode_carried {v : Value} (ordered : v.Ordered) : v.carried.encode = v.encode :=
  toJson_canonical .letter ordered .letter

theorem listOf_decode?_encode (o : MemberOrder) {vs : List Value} (ordered : ∀ v ∈ vs, v.Ordered) :
    listOf decode? ((Json.array (vs.map encode)).arranged o) = some (vs.map carried) :=
  listOf_array o fun v member => decode?_encode o (ordered v member)

theorem map_encode_carried {vs : List Value} (ordered : ∀ v ∈ vs, v.Ordered) :
    (vs.map carried).map encode = vs.map encode := by
  rw [List.map_map]
  exact List.map_congr_left fun v member => encode_carried (ordered v member)

/-- A default, unless it is null in a document. -/
def keptDefault (d : Option Value) : Option Value := d.filter fun v => !v.carried.isNull

/-- A default that came through a document. -/
def carriedDefault (d : Option Value) : Option Value := (keptDefault d).map carried

theorem eq_null_of_isNull_ofJson {j : Json} (isNull : (ofJson j).isNull = true) : j = .null := by
  cases j with
  | null => rfl
  | number n =>
    cases n with
    | integer i fits =>
      rw [ofJson, ofNumber, ofInteger] at isNull
      split at isNull <;> cases isNull
    | float x => cases isNull
  | bool b => cases isNull
  | text s => cases isNull
  | array items => cases isNull
  | object fields => cases isNull

theorem nullable_decode? (j : Json) :
    nullable decode? j = some (if (ofJson j).isNull then none else some (ofJson j)) := by
  by_cases isNull : (ofJson j).isNull = true
  · rw [if_pos isNull, eq_null_of_isNull_ofJson isNull]
    rfl
  · have other : j ≠ .null := by
      rintro rfl
      exact isNull rfl
    rw [if_neg isNull, nullable_of_ne other, decode?_eq, Option.map_some]

theorem nullable_decode?_encode (o : MemberOrder) {d : Option Value} (ordered : ∀ v ∈ d, v.Ordered) :
    (d.map encode).elim (some none) (fun j => nullable decode? (j.arranged o)) =
      some (carriedDefault d) := by
  cases d with
  | none => rfl
  | some v =>
    have read := decode?_encode o (ordered v rfl)
    rw [decode?_eq, Option.some.injEq] at read
    rw [Option.map_some, Option.elim_some, nullable_decode?, read, carriedDefault, keptDefault,
      Option.filter_some]
    cases v.carried.isNull <;> rfl

theorem map_encode_carriedDefault {d : Option Value} (ordered : ∀ v ∈ d, v.Ordered) :
    (carriedDefault d).map encode = (keptDefault d).map encode := by
  rw [carriedDefault, Option.map_map]
  refine Option.map_congr fun v kept => encode_carried (ordered v ?_)
  exact (Option.mem_filter_iff.mp kept).1

end Value

namespace FieldRule

/-- The values that a rule holds. -/
def values : FieldRule → List Value
  | .max v => [v]
  | .min v => [v]
  | .oneOf vs => vs
  | _ => []

def Ordered (r : FieldRule) : Prop := ∀ v ∈ r.values, v.Ordered

/-- A rule that came through a document. -/
def carried : FieldRule → FieldRule
  | .max v => .max v.carried
  | .min v => .min v.carried
  | .oneOf vs => .oneOf (vs.map Value.carried)
  | r => r

theorem decode?_encode (o : MemberOrder) {r : FieldRule} (ordered : r.Ordered) :
    decode? (r.encode.arranged o) = some r.carried := by
  -- the decoder looks for a name without content first, and a value may be null, so the name of the
  -- rule is settled for either kind of content
  cases r with
  | max v =>
    have named (j : Json) : decode? (alternative "max" j) = (Value.decode? j).map .max := by
      cases j <;> rfl
    rw [encode, arranged_alternative, named, Value.decode?_encode o (ordered v (.head _))]
    rfl
  | min v =>
    have named (j : Json) : decode? (alternative "min" j) = (Value.decode? j).map .min := by
      cases j <;> rfl
    rw [encode, arranged_alternative, named, Value.decode?_encode o (ordered v (.head _))]
    rfl
  | length least most =>
    have named (j : Json) : decode? (alternative "length" j) = decodeLength? j := by
      cases j <;> rfl
    let members := [("min", some (encodeUInt32 least)), ("max", some (encodeUInt32 most))]
    have distinct : (members.map Prod.fst).Nodup := (by decide : ["min", "max"].Nodup)
    have low : (met o members).required "min" decodeUInt32? = some least :=
      required_met o distinct rfl (decodeUInt32?_encode o least)
    have high : (met o members).required "max" decodeUInt32? = some most :=
      required_met o distinct rfl (decodeUInt32?_encode o most)
    rw [encode, arranged_alternative, named]
    change ((met o members).required "min" decodeUInt32?).bind (fun low =>
      ((met o members).required "max" decodeUInt32?).bind fun high =>
        some (FieldRule.length low high)) = _
    rw [low, high]
    rfl
  | oneOf vs =>
    have values : ∀ v ∈ vs, v.Ordered := ordered
    have named (j : Json) :
        decode? (alternative "oneOf" j) = (listOf Value.decode? j).map .oneOf := by
      cases j <;> rfl
    rw [encode, arranged_alternative, named, Value.listOf_decode?_encode o values]
    rfl
  | primary => rfl
  | tenant => rfl
  | unique => rfl

theorem encode_carried {r : FieldRule} (ordered : r.Ordered) : r.carried.encode = r.encode := by
  cases r with
  | max v => rw [carried, encode, encode, Value.encode_carried (ordered v (.head _))]
  | min v => rw [carried, encode, encode, Value.encode_carried (ordered v (.head _))]
  | oneOf vs =>
    have values : ∀ v ∈ vs, v.Ordered := ordered
    rw [carried, encode, encode, Value.map_encode_carried values]
  | length least most => rfl
  | primary => rfl
  | tenant => rfl
  | unique => rfl

end FieldRule

namespace Field

structure Ordered (f : Field) : Prop where
  options : f.options.Sorted
  default : ∀ v ∈ f.default, v.Ordered
  rules : ∀ r ∈ f.rules, r.Ordered

/-- A field that came through a document. -/
def carried (f : Field) : Field :=
  { f with default := Value.carriedDefault f.default, rules := f.rules.map FieldRule.carried }

def withoutNullDefault (f : Field) : Field := { f with default := Value.keptDefault f.default }

/-- The members of the document; some may be absent. -/
def members (f : Field) : List (String × Option Json) :=
  [("name", some (.text f.name)), ("label", some (.text f.label)),
    ("description", some (.text f.description)), ("dataType", some f.dataType.encode),
    ("dataTypeOptions", if f.options.isEmpty then none
      else some (.object (f.options.entries.map fun e => (e.1, .text e.2)))),
    ("isRequired", some (.bool f.required)), ("defaultValue", f.default.map Value.encode),
    ("rules", some (.array (f.rules.map FieldRule.encode)))]

theorem encode_eq (f : Field) : f.encode = .object (present f.members) := by
  unfold encode members
  cases f.options.isEmpty <;> cases f.default <;> rfl

theorem decode?_encode (o : MemberOrder) {f : Field} (ordered : f.Ordered) :
    decode? (f.encode.arranged o) = some f.carried := by
  have distinct : (f.members.map Prod.fst).Nodup := (by decide : memberNames.Nodup)
  let m := met o f.members
  have name : m.required "name" text? = some f.name := required_met o distinct rfl rfl
  have label : m.optional "label" "" text? = some f.label := optional_met o distinct rfl rfl
  have description : m.optional "description" "" text? = some f.description :=
    optional_met o distinct rfl rfl
  have dataType : m.required "dataType" DataType.decode? = some f.dataType :=
    required_met o distinct rfl (DataType.decode?_encode o f.dataType)
  have options : m.optional "dataTypeOptions" .empty (mapOf text?) = some f.options := by
    refine optional_met o distinct rfl ?_
    split
    · next none => exact congrArg some (KeyMap.eq_empty_of_isEmpty none).symm
    · exact mapOf_texts o ordered.options
  have required : m.optional "isRequired" false bool? = some f.required :=
    optional_met o distinct rfl rfl
  have default : m.optional "defaultValue" none (nullable Value.decode?) =
      some (Value.carriedDefault f.default) :=
    optional_met o distinct rfl (Value.nullable_decode?_encode o ordered.default)
  have rules : m.optional "rules" [] (listOf FieldRule.decode?) =
      some (f.rules.map FieldRule.carried) := by
    refine optional_met o distinct rfl ?_
    exact listOf_array o fun r member => FieldRule.decode?_encode o (ordered.rules r member)
  rw [encode_eq, decode?, members?_present]
  simp only [Option.bind_eq_bind, Option.bind_some]
  rw [name, label, description, dataType, options, required, default, rules]
  rfl

theorem encode_carried {f : Field} (ordered : f.Ordered) :
    f.carried.encode = f.withoutNullDefault.encode := by
  have rules : (f.rules.map FieldRule.carried).map FieldRule.encode =
      f.rules.map FieldRule.encode := by
    rw [List.map_map]
    exact List.map_congr_left fun r member => FieldRule.encode_carried (ordered.rules r member)
  have default := Value.map_encode_carriedDefault ordered.default
  rw [encode_eq, encode_eq, members, members, carried, withoutNullDefault]
  dsimp only
  rw [rules, default]

end Field

namespace EntityRule

theorem decode?_encode (o : MemberOrder) (r : EntityRule) :
    decode? (r.encode.arranged o) = some r := by
  cases r with
  | unique columns =>
    have named (j : Json) : decode? (alternative "unique" j) = (listOf text? j).map .unique := rfl
    rw [encode, arranged_alternative, named, listOf_texts]
    rfl

end EntityRule

namespace Schema

def Ordered (s : Schema) : Prop := ∀ f ∈ s.fields, f.Ordered

/-- A schema that came through a document. -/
def carried (s : Schema) : Schema := { s with fields := s.fields.map Field.carried }

def withoutNullDefaults (s : Schema) : Schema :=
  { s with fields := s.fields.map Field.withoutNullDefault }

def members (s : Schema) : List (String × Option Json) :=
  [("name", some (.text s.name)), ("label", some (.text s.label)),
    ("description", some (.text s.description)),
    ("fields", some (.array (s.fields.map Field.encode))),
    ("rules", some (.array (s.rules.map EntityRule.encode)))]

theorem decode?_encode (o : MemberOrder) {s : Schema} (ordered : s.Ordered) :
    decode? (s.encode.arranged o) = some s.carried := by
  have distinct : (s.members.map Prod.fst).Nodup := (by decide : memberNames.Nodup)
  have whole : s.encode = .object (present s.members) := rfl
  let m := met o s.members
  have name : m.required "name" text? = some s.name := required_met o distinct rfl rfl
  have label : m.optional "label" "" text? = some s.label := optional_met o distinct rfl rfl
  have description : m.optional "description" "" text? = some s.description :=
    optional_met o distinct rfl rfl
  have fields : m.required "fields" (listOf Field.decode?) = some (s.fields.map Field.carried) :=
    required_met o distinct rfl
      (listOf_array o fun f member => Field.decode?_encode o (ordered f member))
  have rules : m.optional "rules" [] (listOf EntityRule.decode?) = some (s.rules.map id) := by
    refine optional_met o distinct rfl ?_
    exact listOf_array o fun r _ => EntityRule.decode?_encode o r
  rw [List.map_id] at rules
  rw [whole, decode?, members?_present]
  simp only [Option.bind_eq_bind, Option.bind_some]
  rw [name, label, description, fields, rules]
  rfl

theorem encode_carried {s : Schema} (ordered : s.Ordered) :
    s.carried.encode = s.withoutNullDefaults.encode := by
  have fields : (s.fields.map Field.carried).map Field.encode =
      (s.fields.map Field.withoutNullDefault).map Field.encode := by
    rw [List.map_map, List.map_map]
    exact List.map_congr_left fun f member => Field.encode_carried (ordered f member)
  rw [encode, encode, carried, withoutNullDefaults, fields]

end Schema

namespace AdhocEntry

/-- The entries of every holder are in key order, and the fields are in order. -/
inductive Ordered : AdhocEntry → Prop where
  | field {f : Field} (inner : f.Ordered) : Ordered (.field f)
  | holder {name : String} {required : Bool} {title : String} {m : KeyMap AdhocEntry}
    (sorted : m.Sorted) (inner : ∀ e ∈ m.entries, Ordered e.2) :
    Ordered (.holder name required title m)

mutual

/-- The entry with each of its fields replaced. -/
def mapFields (g : Field → Field) : AdhocEntry → AdhocEntry
  | .field f => .field (g f)
  | .holder name required title ⟨entries⟩ => .holder name required title ⟨mapEntries g entries⟩

def mapEntries (g : Field → Field) : List (String × AdhocEntry) → List (String × AdhocEntry)
  | [] => []
  | (key, e) :: rest => (key, mapFields g e) :: mapEntries g rest

end

theorem mapEntries_eq (g : Field → Field) (entries : List (String × AdhocEntry)) :
    mapEntries g entries = entries.map fun e => (e.1, e.2.mapFields g) :=
  eq_map_of_cons rfl (fun _ _ => rfl) entries

theorem encodeEntries_eq (entries : List (String × AdhocEntry)) :
    encodeEntries entries = entries.map fun e => (e.1, e.2.encode) :=
  eq_map_of_cons rfl (fun _ _ => rfl) entries

theorem decodeSchemaField?_eq (fields : List (String × Json)) :
    decodeSchemaField? fields = (fields.lookup "schema").bind decodeGroup? := by
  induction fields with
  | nil => rfl
  | cons e rest ih =>
    obtain ⟨member, j⟩ := e
    rw [decodeSchemaField?, List.lookup_cons, ih]
    by_cases same : member = "schema"
    · rw [if_pos same, same, beq_self_eq_true]
      rfl
    · rw [if_neg same, beq_false_of_ne (Ne.symm same)]

theorem decodeEntriesField?_eq (fields : List (String × Json)) :
    decodeEntriesField? fields = (fields.lookup "entries").bind decodeEntries? := by
  induction fields with
  | nil => rfl
  | cons e rest ih =>
    obtain ⟨member, j⟩ := e
    rw [decodeEntriesField?, List.lookup_cons, ih]
    by_cases same : member = "entries"
    · rw [if_pos same, same, beq_self_eq_true]
      rfl
    · rw [if_neg same, beq_false_of_ne (Ne.symm same)]

/-- The entry comes back from its document. -/
def Returns (e : AdhocEntry) : Prop :=
  ∀ o : MemberOrder, decode? (e.encode.arranged o) = some (e.mapFields Field.carried)

section Group

variable (o : MemberOrder) {m : KeyMap AdhocEntry}

/-- Entries that each come back, come back together under their keys. -/
theorem decodeEntries?_encode (sorted : m.Sorted) (each : ∀ e ∈ m.entries, e.2.Returns) :
    decodeEntries? ((Json.object (encodeEntries m.entries)).arranged o) =
      some ⟨mapEntries Field.carried m.entries⟩ := by
  have members : arrangedFields o (encodeEntries m.entries) =
      m.entries.map fun e => (e.1, e.2.encode.arranged o) := by
    rw [arrangedFields_eq, encodeEntries_eq, List.map_map]
    rfl
  have inPlace : o.arrange (arrangedFields o (encodeEntries m.entries)) =
      m.entries.map fun e => (e.1, e.2.encode.arranged o) := by
    rw [members]
    exact o.sorted _ (List.pairwise_map.mpr sorted)
  have all (entries : List (String × AdhocEntry)) (each : ∀ e ∈ entries, e.2.Returns) :
      decodeAll? (entries.map fun e => (e.1, e.2.encode.arranged o)) =
        some (mapEntries Field.carried entries) := by
    induction entries with
    | nil => rfl
    | cons e rest ih =>
      rw [List.map_cons, decodeAll?, each e (.head _) o, ih fun e member => each e (.tail _ member)]
      rfl
  have sorted' : (KeyMap.mk (mapEntries Field.carried m.entries)).Sorted := by
    rw [mapEntries_eq]
    exact List.pairwise_map.mpr sorted
  rw [arranged, inPlace, decodeEntries?, all m.entries each, Option.map_some,
    KeyMap.ofList_entries sorted']

/-- The document of a name and entries, as holders and schemas have it. -/
def group (title : String) (m : KeyMap AdhocEntry) : Json :=
  .object [("name", .text title), ("entries", .object (encodeEntries m.entries))]

theorem decodeGroup?_group (title : String) (sorted : m.Sorted)
    (each : ∀ e ∈ m.entries, e.2.Returns) :
    decodeGroup? ((group title m).arranged o) =
      some (title, ⟨mapEntries Field.carried m.entries⟩) := by
  let members := [("name", some (.text title)),
    ("entries", some (Json.object (encodeEntries m.entries)))]
  have distinct : (members.map Prod.fst).Nodup := (by decide : ["name", "entries"].Nodup)
  have name : (met o members).required "name" text? = some title := required_met o distinct rfl rfl
  have entries : (met o members).required "entries" decodeEntries? =
      some ⟨mapEntries Field.carried m.entries⟩ :=
    required_met o distinct rfl (decodeEntries?_encode o sorted each)
  have whole : (group title m).arranged o = .object (met o members).fields := rfl
  rw [Members.required] at name entries
  rw [whole, decodeGroup?, name, decodeEntriesField?_eq, entries]
  rfl

end Group

theorem returns {e : AdhocEntry} (ordered : e.Ordered) : e.Returns := by
  induction ordered with
  | field inner =>
    intro o
    rw [encode, arranged_alternative, alternative, decode?, if_pos rfl, Field.decode?_encode o inner]
    rfl
  | @holder name required title m sorted _ ih =>
    intro o
    obtain ⟨entries⟩ := m
    let members := [("name", some (.text name)), ("required", some (.bool required)),
      ("schema", some (group title ⟨entries⟩))]
    have distinct : (members.map Prod.fst).Nodup :=
      (by decide : ["name", "required", "schema"].Nodup)
    have named : (met o members).required "name" text? = some name :=
      required_met o distinct rfl rfl
    have needed : (met o members).required "required" bool? = some required :=
      required_met o distinct rfl rfl
    have schema : (met o members).required "schema" decodeGroup? =
        some (title, ⟨mapEntries Field.carried entries⟩) :=
      required_met o distinct rfl (decodeGroup?_group o title sorted ih)
    have whole : (encode (.holder name required title ⟨entries⟩)).arranged o =
        alternative "holder" (.object (met o members).fields) := by
      rw [encode, arranged_alternative]
      rfl
    rw [Members.required] at named needed schema
    rw [whole, alternative, decode?, if_neg (by decide), if_pos rfl, decodeHolder?, named, needed,
      decodeSchemaField?_eq, schema]
    rfl

end AdhocEntry

namespace AdhocSchema

structure Ordered (s : AdhocSchema) : Prop where
  sorted : s.entries.Sorted
  inner : ∀ e ∈ s.entries.entries, e.2.Ordered

/-- The schema with each of its fields replaced, at any depth. -/
def mapFields (g : Field → Field) (s : AdhocSchema) : AdhocSchema :=
  { s with entries := ⟨AdhocEntry.mapEntries g s.entries.entries⟩ }

theorem decode?_encode (o : MemberOrder) {s : AdhocSchema} (ordered : s.Ordered) :
    decode? (s.encode.arranged o) = some (s.mapFields Field.carried) := by
  have whole : s.encode = AdhocEntry.group s.name s.entries := rfl
  rw [decode?, whole, AdhocEntry.decodeGroup?_group o s.name ordered.sorted
    fun e member => AdhocEntry.returns (ordered.inner e member)]
  rfl

end AdhocSchema

end EntitySchema
