import EntitySchema.Proofs.Calendar.Timestamp
import EntitySchema.Proofs.Sql.Category
import EntitySchema.Proofs.Sql.Command
import EntitySchema.Proofs.Sql.Composition
import EntitySchema.Proofs.Sql.Derivation
import EntitySchema.Proofs.Validation.Validator

/-!
A row that a validator has accepted can be written. The validator looks at the data type of a field
and the compiler at the name of the column's type, so the two are compared through the category that
both settle.
-/

namespace EntitySchema.Sql

open Calendar Validation

/-! Texts that are dates, times or instants to the validator are so to the compiler. -/

theorem date_parse?_trim (s : String) : Date.parse? (Text.trim s) = Date.parse? s := by
  rw [Date.parse?, Date.parse?, Text.toList_trim, Text.trimChars_trimChars]

theorem clock_parse?_trim (s : String) : Clock.parse? (Text.trim s) = Clock.parse? s := by
  rw [Clock.parse?, Clock.parse?, Text.toList_trim, Text.trimChars_trimChars]

variable {column : Column} {v w : Value}

/-- A text that is an instant, a date or a time of day goes into a time column. -/
theorem converted_civil (category : column.category = .time) {s : String}
    (read : (Timestamp.parse? s).isSome ∨ (Date.parse? s).isSome ∨ (Clock.parse? s).isSome) :
    ∃ u, Converted column (.text s) u := by
  -- the compiler trims first, so what the validator read as it stood must be read trimmed
  cases instant : Timestamp.parse? (Text.trim s) with
  | some t => exact ⟨.timestamp t, .instant category instant⟩
  | none =>
    refine ⟨.text (Text.trim s), .civil category instant ?_⟩
    rw [date_parse?_trim, clock_parse?_trim, Bool.or_eq_true]
    rcases read with wrong | other
    · obtain ⟨t, read⟩ := Option.isSome_iff_exists.mp wrong
      rw [Timestamp.parse?_trim read] at instant
      cases instant
    · exact other

/-- A value of the field's type goes into the field's column. -/
theorem converted_of_typed {t : DataType} (category : column.category = t.category)
    (fits : typed t v = some w) : ∃ u, Converted column v u := by
  cases t with
  | email | phone | string | secret | url | ulid | uuid | enumString | countryCode | currencyCode =>
    cases v with
    | text s => exact ⟨.text s, .text category⟩
    | _ => cases fits
  | integer | enumNumber =>
    cases v with
    | int i => exact ⟨.int i, .int category⟩
    | uint u => exact ⟨.uint u, .uint category⟩
    | _ => cases fits
  | float =>
    have number : v.isNumber = true := by
      by_contra other
      cases v <;> first | exact other rfl | cases fits
    exact ⟨v, .number category number⟩
  | boolean =>
    cases v with
    | bool b => exact ⟨.bool b, .bool category⟩
    | _ => cases fits
  | localizedText =>
    cases v with
    | map entries => exact ⟨.map entries, .map category⟩
    | _ => cases fits
  | dateTime =>
    cases v with
    | timestamp instant => exact ⟨.timestamp instant, .timestamp category⟩
    | text s =>
      obtain ⟨instant, read, _⟩ := Option.map_eq_some_iff.mp fits
      exact converted_civil category (.inl (Option.isSome_iff_exists.mpr ⟨instant, read⟩))
    | _ => cases fits
  | date =>
    cases v with
    | timestamp instant => exact ⟨.timestamp instant, .timestamp category⟩
    | text s =>
      obtain ⟨day, read, _⟩ := Option.map_eq_some_iff.mp fits
      exact converted_civil category (.inr (.inl (Option.isSome_iff_exists.mpr ⟨day, read⟩)))
    | _ => cases fits
  | time =>
    cases v with
    | text s =>
      obtain ⟨clock, read, _⟩ := Option.map_eq_some_iff.mp fits
      exact converted_civil category (.inr (.inr (Option.isSome_iff_exists.mpr ⟨clock, read⟩)))
    | _ => cases fits

/-- A float stays what it is, and no other value becomes one. -/
theorem Converted.float_iff (given : Converted column v w) (x : Number.Binary64) :
    w = .float x ↔ v = .float x := by
  cases given <;> simp

/-- A row that the validator of a schema accepts, for a compiler whose table is derived from the
schema. The row has no other entries than those of fields, and a value for every key. -/
structure Validated (types : Dialect) (edit : Bool) (schema : Schema) (c : Compiler) (row : Record) :
    Prop where
  derived : ∃ tableName, Entity.derive types.columnType schema tableName = .ok c.entity
  plain : ∀ f ∈ schema.fields, '.' ∉ f.name.toList ∧ Text.trim f.name = f.name
  accepted : ∃ config v, Validator.ofSchema schema edit config = .ok v ∧ v.validateRecord row = .ok ()
  sorted : row.Sorted
  declared : ∀ key ∈ row.keys, key ∈ schema.fieldNames
  keyed : ∀ f ∈ schema.fields, (f.isPrimary || f.isTenant) = true →
    ∃ x, row.get? f.name = some x ∧ x ≠ .null

namespace Validated

variable {types : Dialect} {edit : Bool} {schema : Schema} {c : Compiler} {row : Record}

/-- Every entry belongs to a field, under whose name the compiler knows its column. -/
theorem exists_field (valid : Validated types edit schema c row) {e : String × Value}
    (member : e ∈ row.entries) : ∃ f ∈ schema.fields, f.name = e.1 ∧ row.get? f.name = some e.2 ∧
      ∃ sqlType, types.columnType f = .ok sqlType ∧
        c.resolve e.1 = .ok (Entity.Draft.columnOf f sqlType) := by
  obtain ⟨tableName, derived⟩ := valid.derived
  obtain ⟨f, declared, named⟩ := List.mem_map.mp (valid.declared e.1 (List.mem_map_of_mem member))
  obtain ⟨plain, trimmed⟩ := valid.plain f declared
  obtain ⟨sqlType, typed, found⟩ := Entity.column?_field derived declared
  refine ⟨f, declared, named, ?_, sqlType, typed, ?_⟩
  · rw [named]
    exact KeyMap.get?_eq_some_of_mem valid.sorted.nodup member
  · rw [trimmed] at found
    rw [← named, Compiler.resolve, found, if_neg (by simpa using plain)]

/-- A row that is accepted as a whole has no null for a required field. -/
theorem settled (valid : Validated types false schema c row) :
    ∀ f ∈ schema.fields, f.required = true → row.get? f.name ≠ some .null := by
  intro f declared required found
  obtain ⟨config, v, built, accepted⟩ := valid.accepted
  rcases Validator.fits_of_accepted built accepted declared found with ⟨_, optional⟩ | ⟨w, fits⟩
  · rw [required] at optional
    cases optional
  · rw [typed_null] at fits
    cases fits

/-- A value goes into its column, unless it is null where the field is required. -/
theorem converts (valid : Validated types edit schema c row)
    (settled : ∀ f ∈ schema.fields, f.required = true → row.get? f.name ≠ some .null)
    {e : String × Value} (member : e ∈ row.entries) :
    ∃ column w, c.resolve e.1 = .ok column ∧ Converted column e.2 w := by
  obtain ⟨f, declared, named, found, sqlType, typed, resolved⟩ := valid.exists_field member
  obtain ⟨config, v, built, accepted⟩ := valid.accepted
  rcases Validator.fits_of_accepted built accepted declared found with ⟨null, _⟩ | ⟨w, fits⟩
  · rw [null] at found ⊢
    -- a null is refused by the columns of keys and of required fields alone
    have optional : f.required = false := by
      by_contra required
      exact settled f declared (Bool.eq_true_of_not_eq_false required) found
    have other : (f.isPrimary || f.isTenant) = false := by
      by_contra key
      obtain ⟨x, held, given⟩ := valid.keyed f declared (Bool.eq_true_of_not_eq_false key)
      rw [found] at held
      exact given (Option.some.inj held).symm
    refine ⟨_, .null, resolved, .null ?_⟩
    rw [Entity.Draft.columnOf, Bool.or_assoc, optional, other]
    rfl
  · have category : (Entity.Draft.columnOf f sqlType).category = f.dataType.category :=
      Dialect.columnType_category typed
    obtain ⟨u, converted⟩ := converted_of_typed category fits
    exact ⟨_, u, resolved, converted⟩

theorem exists_bound (valid : Validated types edit schema c row)
    (settled : ∀ f ∈ schema.fields, f.required = true → row.get? f.name ≠ some .null) :
    ∃ bound, c.bindRow row = .ok bound := by
  have each : ∀ e ∈ row.entries, ∃ b : Column × Value,
      c.resolve e.1 = .ok b.1 ∧ b.1.convert e.2 = .ok b.2 := by
    intro e member
    obtain ⟨column, w, resolved, converted⟩ := valid.converts settled member
    exact ⟨(column, w), resolved, converted.convert⟩
  obtain ⟨bound, all⟩ := Outcome.exists_results each
  exact ⟨bound, Compiler.bindRow_eq_ok.mpr all⟩

/-- Key columns are in the row. -/
theorem contains_of_isKey (valid : Validated types edit schema c row) {n : String}
    (key : c.entity.isKey n = true) : row.contains n = true := by
  obtain ⟨tableName, derived⟩ := valid.derived
  obtain ⟨f, declared, own, named⟩ := Entity.exists_field_of_isKey derived key
  obtain ⟨x, found, _⟩ := valid.keyed f declared own
  rw [(valid.plain f declared).2] at named
  rw [KeyMap.contains, ← named, found, Option.isSome_some]

theorem requireTenant (valid : Validated types edit schema c row) : c.requireTenant row = .ok () := by
  unfold Compiler.requireTenant
  cases keyed : c.entity.tenantKey with
  | none => rfl
  | some tenant =>
    have key : c.entity.isKey tenant = true := by
      rw [Entity.isKey, keyed, beq_self_eq_true, Bool.or_true]
    exact if_pos (valid.contains_of_isKey key)

theorem requirePrimaryKeys (valid : Validated types edit schema c row) :
    c.requirePrimaryKeys row = .ok () := by
  rw [Compiler.requirePrimaryKeys_eq_ok]
  intro key member
  have own : c.entity.isKey key = true := by
    rw [Entity.isKey, List.contains_iff_mem.mpr member, Bool.true_or]
  exact Option.isSome_iff_exists.mp (valid.contains_of_isKey own)

end Validated

namespace Compiler

variable {c : Compiler} {row : Record} {bound : List (Column × Value)} {x : Number.Binary64}

/-- The floats among the values that are bound are those of the row. -/
theorem float_mem_bound (bind : c.bindRow row = .ok bound) :
    .float x ∈ bound.map Prod.snd ↔ .float x ∈ row.values := by
  have each := bindRow_eq_ok.mp bind
  rw [KeyMap.values, List.mem_map, List.mem_map]
  constructor
  · rintro ⟨b, member, float⟩
    obtain ⟨e, inside, _, converted⟩ := Outcome.exists_of_mem_results each member
    exact ⟨e, inside, ((Column.converted converted).float_iff x).mp float⟩
  · rintro ⟨e, member, float⟩
    obtain ⟨b, inside, _, converted⟩ := Outcome.exists_of_mem_sources each member
    exact ⟨b, inside, ((Column.converted converted).float_iff x).mpr float⟩

theorem insert_eq_finish (tenant : c.requireTenant row = .ok ()) (some : row.isEmpty = false)
    (bind : c.bindRow row = .ok bound) :
    c.insert row = (c.insertBuffer row.keys [bound]).finish c.dialect := by
  have tuples : c.insertRows row.keys 0 [row] = .ok [bound] :=
    insertRows_eq_ok.mpr (.cons ⟨tenant, rfl, bind⟩ .nil)
  rw [insert, bulkInsert]
  dsimp only
  rw [if_neg (by simp [some]), tuples]
  rfl

/-- A row that the validator accepts can be inserted, as long as it has no float that is not finite:
each of its values goes into its column, and only such a float keeps the statement from being
written. -/
theorem insert_of_validated {types : Dialect} {schema : Schema}
    (valid : Validated types false schema c row) (some : row.isEmpty = false) :
    (∀ e ∈ row.entries, ∃ column w, c.resolve e.1 = .ok column ∧ column.convert e.2 = .ok w) ∧
    ((∀ x, .float x ∈ row.values → x.isFinite = true) → ∃ s, c.insert row = .ok s) ∧
    ∀ x, .float x ∈ row.values → x.isFinite = false →
      ∃ y, .float y ∈ row.values ∧ y.isFinite = false ∧
        c.insert row = .error (.unrenderableValue y.text) := by
  obtain ⟨bound, bind⟩ := valid.exists_bound valid.settled
  have finished := insert_eq_finish valid.requireTenant some bind
  have params : (c.insertBuffer row.keys [bound]).params.toList = bound.map Prod.snd := by
    rw [(c.insertBuffer_reads row.keys [bound]).params, params_insertItems, List.flatMap_singleton]
  refine ⟨?_, ?_, ?_⟩
  · intro e member
    obtain ⟨column, w, resolved, converted⟩ := valid.converts valid.settled member
    exact ⟨column, w, resolved, converted.convert⟩
  · intro finite
    rw [finished]
    apply Buffer.exists_finish
    intro x member
    rw [params, float_mem_bound bind] at member
    exact finite x member
  · intro x member infinite
    rw [← float_mem_bound bind, ← params] at member
    obtain ⟨y, inside, other, failed⟩ := Buffer.finish_unrenderable (d := c.dialect) member infinite
    rw [params, float_mem_bound bind] at inside
    exact ⟨y, inside, other, finished.trans failed⟩

/-! Measured values in PostgreSQL, each with a value and perhaps the time when it was taken. -/

def measuresSchema : Schema where
  name := "measure"
  label := "measure"
  description := ""
  fields := [⟨"id", "id", "", .string, .empty, false, none, [.primary]⟩,
    ⟨"value", "value", "", .float, .empty, true, none, []⟩,
    ⟨"taken", "taken", "", .dateTime, .empty, false, none, []⟩]
  rules := []

def measures : Compiler where
  entity := {
    name := "measure"
    tableName := "measures"
    columns := [⟨"id", "character varying", false, none⟩,
      ⟨"value", "double precision", false, none⟩,
      ⟨"taken", "timestamp with time zone", true, none⟩]
    primaryKeys := ["id"]
    tenantKey := none
    uniqueKeys := [] }
  dialect := .postgres

/-- A measurement with a value, taken on the last day of the year. -/
def measure (value : Value) : Record :=
  .ofList [("id", .text "a"), ("value", value), ("taken", .text "2025-12-31T23:59:60+01:00")]

theorem measures_derive :
    Entity.derive Dialect.postgres.columnType measuresSchema "measures" = .ok measures.entity := rfl

theorem validated_measures {edit : Bool} {row : Record}
    (accepted : ∃ v, Validator.ofSchema measuresSchema edit .standard = .ok v ∧
      v.validateRecord row = .ok ())
    (sorted : row.Sorted) (declared : ∀ key ∈ row.keys, key ∈ measuresSchema.fieldNames)
    (id : row.get? "id" = some (.text "a")) :
    Validated .postgres edit measuresSchema measures row where
  derived := ⟨"measures", measures_derive⟩
  plain := by decide
  accepted := ⟨.standard, accepted⟩
  sorted := sorted
  declared := declared
  keyed := by
    intro f member key
    simp only [measuresSchema, List.mem_cons, List.not_mem_nil, or_false] at member
    rcases member with rfl | rfl | rfl
    · exact ⟨.text "a", id, nofun⟩
    · cases key
    · cases key

theorem insert_of_validated_measures :
    (∃ s, measures.insert (measure (.int 3)) = .ok s) ∧
    ∃ y, .float y ∈ (measure (.float .nan)).values ∧ y.isFinite = false ∧
      measures.insert (measure (.float .nan)) = .error (.unrenderableValue y.text) := by
  constructor
  · have valid : Validated .postgres false measuresSchema measures (measure (.int 3)) :=
      validated_measures ⟨_, rfl, rfl⟩ (KeyMap.sorted_ofList _) (by decide) rfl
    refine (insert_of_validated valid rfl).2.1 ?_
    intro x member
    change Value.float x ∈ [Value.text "a", .text "2025-12-31T23:59:60+01:00", .int 3] at member
    simp at member
  · have valid : Validated .postgres false measuresSchema measures (measure (.float .nan)) :=
      validated_measures ⟨_, rfl, rfl⟩ (KeyMap.sorted_ofList _) (by decide) rfl
    exact (insert_of_validated valid rfl).2.2 .nan (.tail _ (.tail _ (.head _))) rfl

theorem updateByKey_of_bound (tenant : c.requireTenant row = .ok ())
    (keys : c.requirePrimaryKeys row = .ok ()) (bind : c.bindRow row = .ok bound)
    (finite : ∀ x, .float x ∈ row.values → x.isFinite = true)
    (changes : ∃ b ∈ bound, c.entity.isKey b.1.name = false) : ∃ s, c.updateByKey row = .ok s := by
  have known : ∀ b ∈ c.assigned bound ++ c.lookup bound, b ∈ bound := by
    intro b member
    rcases List.mem_append.mp member with change | key
    · exact (mem_assigned.mp change).1
    · exact (mem_lookup key).1
  have params : (c.updateBuffer (c.assigned bound) (c.lookup bound)).params.toList =
      (c.assigned bound ++ c.lookup bound).map Prod.snd := by
    rw [(c.updateBuffer_reads _ _).params, params_updateItems, params_pairTests, List.map_append]
  have finished : ∃ s, (c.updateBuffer (c.assigned bound) (c.lookup bound)).finish c.dialect =
      .ok s := by
    apply Buffer.exists_finish
    intro x member
    rw [params] at member
    obtain ⟨b, inside, float⟩ := List.mem_map.mp member
    exact finite x ((float_mem_bound bind).mp (List.mem_map.mpr ⟨b, known b inside, float⟩))
  obtain ⟨s, done⟩ := finished
  obtain ⟨b, member, other⟩ := changes
  have some : c.assigned bound ≠ [] := List.ne_nil_of_mem (mem_assigned.mpr ⟨member, other⟩)
  exact ⟨s, updateByKey_eq_ok.mpr ⟨bound, tenant, keys, bind, some, done⟩⟩

/-- A partial update that the edit validator accepts, and that changes something beside keys, can be
compiled unless it sets a required field to null. -/
theorem updateByKey_of_validated {types : Dialect} {schema : Schema}
    (valid : Validated types true schema c row)
    (finite : ∀ x, .float x ∈ row.values → x.isFinite = true)
    (changes : ∃ f ∈ schema.fields, (f.isPrimary || f.isTenant) = false ∧ row.contains f.name = true) :
    (∃ s, c.updateByKey row = .ok s) ↔
      ∀ f ∈ schema.fields, f.required = true → row.get? f.name ≠ some .null := by
  obtain ⟨tableName, derived⟩ := valid.derived
  constructor
  · rintro ⟨s, done⟩ f declared required found
    obtain ⟨bound, _, _, bind, _, _⟩ := updateByKey_eq_ok.mp done
    obtain ⟨b, _, resolved, converted⟩ := find_bound bind found
    obtain ⟨sqlType, _, column⟩ := Entity.column?_field derived declared
    rw [(valid.plain f declared).2, resolve_column? resolved, Option.some.injEq] at column
    have set : b.1.nullable = false := by
      rw [column, Entity.Draft.columnOf, required]
      rfl
    exact Bool.noConfusion (Column.convert_set set converted).1
  · intro settled
    obtain ⟨bound, bind⟩ := valid.exists_bound settled
    refine updateByKey_of_bound valid.requireTenant valid.requirePrimaryKeys bind finite ?_
    obtain ⟨f, declared, other, present⟩ := changes
    obtain ⟨x, found⟩ := Option.isSome_iff_exists.mp present
    obtain ⟨b, inside, resolved, _⟩ := find_bound bind found
    refine ⟨b, List.mem_of_find?_eq_some inside, ?_⟩
    rw [(resolve_eq_ok resolved).2]
    by_contra key
    obtain ⟨g, also, own, named⟩ :=
      Entity.exists_field_of_isKey derived (Bool.eq_true_of_not_eq_false key)
    rw [← (valid.plain f declared).2] at named
    rw [Entity.field_unique derived also declared named, other] at own
    cases own

/-- A measurement that is no longer dated. -/
def undated : Record := .ofList [("id", .text "a"), ("taken", .null)]

/-- A measurement that no longer has a value. -/
def unmeasured : Record := .ofList [("id", .text "a"), ("value", .null)]

theorem updateByKey_of_validated_undated : ∃ s, measures.updateByKey undated = .ok s := by
  have valid : Validated .postgres true measuresSchema measures undated :=
    validated_measures ⟨_, rfl, rfl⟩ (KeyMap.sorted_ofList _) (by decide) rfl
  refine (updateByKey_of_validated valid ?_ ?_).mpr ?_
  · intro x member
    change Value.float x ∈ [Value.text "a", Value.null] at member
    simp at member
  · exact ⟨_, .tail _ (.tail _ (.head _)), rfl, rfl⟩
  · intro f member required
    simp only [measuresSchema, List.mem_cons, List.not_mem_nil, or_false] at member
    rcases member with rfl | rfl | rfl
    · cases required
    · exact nofun
    · cases required

/-- The edit validator takes null for a field that is required, and the compiler does not. -/
theorem updateByKey_unmeasured :
    Validated .postgres true measuresSchema measures unmeasured ∧
    (∀ x, .float x ∈ unmeasured.values → x.isFinite = true) ∧
    (∃ f ∈ measuresSchema.fields, (f.isPrimary || f.isTenant) = false ∧
      unmeasured.contains f.name = true) ∧
    measures.updateByKey unmeasured = .error (.nullNotAllowed "value") := by
  refine ⟨?_, ?_, ?_, rfl⟩
  · exact validated_measures ⟨_, rfl, rfl⟩ (KeyMap.sorted_ofList _) (by decide) rfl
  · intro x member
    change Value.float x ∈ [Value.text "a", Value.null] at member
    simp at member
  · exact ⟨_, .tail _ (.head _), rfl, rfl⟩

end Compiler

end EntitySchema.Sql
