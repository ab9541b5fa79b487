import EntitySchema.Proofs.Validation.Validator
import EntitySchema.Proofs.Validation.Violations
import EntitySchema.Validation.Adhoc

/-!
A schema that is lifted into one assembled at run time validates as before. Lifting puts the fields
into the order of their names, and neither whether the rules can be built nor what they find depends
on the order.
-/

namespace EntitySchema

namespace AdhocSchema

/-- A field as an entry under its own name. -/
def entryOf (f : Field) : String × AdhocEntry := (f.name, .field f)

theorem ofSchema_eq (s : Schema) : ofSchema s = ⟨s.name, .ofList (s.fields.map entryOf)⟩ := by
  have added (fields : List Field) (a : AdhocSchema) :
      fields.foldl addField a = ⟨a.name, a.entries.insertAll (fields.map entryOf)⟩ := by
    induction fields generalizing a with
    | nil => rfl
    | cons f rest ih =>
      rw [List.foldl_cons, ih]
      rfl
  exact added s.fields (define s.name)

/-- The entries are those of the fields, in the order of the names. -/
theorem entries_ofSchema_perm {s : Schema} (distinct : s.fieldNames.Nodup) :
    (ofSchema s).entries.entries.Perm (s.fields.map entryOf) := by
  rw [ofSchema_eq]
  apply KeyMap.ofList_perm
  rw [List.map_map]
  exact distinct

theorem fields_ofSchema_perm {s : Schema} (distinct : s.fieldNames.Nodup) :
    (ofSchema s).fields.Perm s.fields := by
  have all := ((entries_ofSchema_perm distinct).map Prod.snd).filterMap AdhocEntry.field?
  rw [List.map_map, List.filterMap_map (f := Prod.snd ∘ entryOf)] at all
  have own : AdhocEntry.field? ∘ Prod.snd ∘ entryOf = some := rfl
  rwa [own, List.filterMap_some] at all

end AdhocSchema

namespace Validation

variable {edit : Bool} {config : Config}

/-- Whether rules can be built for all fields does not depend on the order of the fields. -/
theorem Validator.exists_ofFields_perm {entity : String} {fields others : List Field}
    (permuted : fields.Perm others) {v : Validator} (built : ofFields entity fields edit config = .ok v) :
    ∃ w, ofFields entity others edit config = .ok w ∧ w.entity = v.entity ∧ v.fields.Perm w.fields := by
  obtain ⟨rules, each, rfl⟩ := Outcome.map_eq_ok.mp built
  obtain ⟨orders, moved, again⟩ :=
    List.perm_comp_forall₂ permuted.symm (Outcome.mapM_eq_ok.mp each)
  exact ⟨_, Outcome.map_eq_ok.mpr ⟨orders, Outcome.mapM_eq_ok.mpr moved, rfl⟩, rfl, again.symm⟩

/-- What is found does not depend on the order of the fields, since each field has a path of its own. -/
theorem Validator.collect_perm {v w : Validator} (permuted : v.fields.Perm w.fields)
    (distinct : v.fieldNames.Nodup) (row : Record) {found : Violations} (sorted : found.Sorted) :
    v.collect row found = w.collect row found := by
  unfold Validator.fieldNames at distinct
  unfold Validator.collect
  generalize v.fields = rules at permuted distinct
  generalize w.fields = others at permuted
  induction permuted generalizing found with
  | nil => rfl
  | cons r _ ih =>
    rw [List.map_cons, List.nodup_cons] at distinct
    exact ih (sorted.addAll _ _) distinct.2
  | swap r q rest =>
    have apart : q.name ≠ r.name := by
      intro same
      simp [same] at distinct
    simp only [List.foldl_cons]
    rw [sorted.addAll_comm apart]
  | trans first _ ih₁ ih₂ =>
    have later := (first.map FieldRules.name).nodup_iff.mp distinct
    exact (ih₁ sorted distinct).trans (ih₂ sorted later)

namespace AdhocValidator

theorem holdersOf_fields {entries : List (String × AdhocEntry)}
    (fields : ∀ e ∈ entries, ∃ f, e.2 = .field f) : holdersOf edit config entries = .ok [] := by
  induction entries with
  | nil => rw [holdersOf]
  | cons e rest ih =>
    obtain ⟨key, entry⟩ := e
    obtain ⟨f, same⟩ := fields _ (.head _)
    cases same
    rw [holdersOf]
    exact ih fun e member => fields e (.tail _ member)

/-- The validator of a lifted schema has no holders, and the rules of the fields. -/
theorem ofSchema_lifted {s : Schema} (distinct : s.fieldNames.Nodup) :
    ofSchema (.ofSchema s) edit config =
      (Validator.ofFields s.name (AdhocSchema.ofSchema s).fields edit config).map fun v => .node v [] := by
  have none : holdersOf edit config (AdhocSchema.ofSchema s).entries.entries = .ok [] := by
    apply holdersOf_fields
    intro e member
    obtain ⟨f, _, rfl⟩ := List.mem_map.mp ((AdhocSchema.entries_ofSchema_perm distinct).mem_iff.mp member)
    exact ⟨f, rfl⟩
  have name : (AdhocSchema.ofSchema s).name = s.name := by rw [AdhocSchema.ofSchema_eq]
  unfold ofSchema
  rw [none, name]
  cases Validator.ofFields s.name (AdhocSchema.ofSchema s).fields edit config <;> rfl

/-- A schema and its lifted form have validators in the same cases, and these give the same verdict on
every row, with the same violations in the same order at the same paths. -/
theorem lifted_agrees (s : Schema) (distinct : s.fieldNames.Nodup) (edit : Bool) (config : Config) :
    ((∃ m, Validator.ofSchema s edit config = .error m) ↔
      ∃ m, AdhocValidator.ofSchema (.ofSchema s) edit config = .error m) ∧
    ∀ v w, Validator.ofSchema s edit config = .ok v →
      AdhocValidator.ofSchema (.ofSchema s) edit config = .ok w →
      w.name = v.entity ∧ ∀ row, w.validateRecord row = v.validateRecord row := by
  have permuted := AdhocSchema.fields_ofSchema_perm distinct
  rw [ofSchema_lifted distinct]
  constructor
  · rw [Outcome.exists_error_iff, Outcome.exists_error_iff, Outcome.exists_map_iff]
    apply not_congr
    constructor
    · rintro ⟨v, built⟩
      obtain ⟨w, ordered, _⟩ := Validator.exists_ofFields_perm permuted.symm built
      exact ⟨w, ordered⟩
    · rintro ⟨w, ordered⟩
      obtain ⟨v, built, _⟩ := Validator.exists_ofFields_perm permuted ordered
      exact ⟨v, built⟩
  · intro v w built lifted
    obtain ⟨inner, ordered, rfl⟩ := Outcome.map_eq_ok.mp lifted
    obtain ⟨other, same, name, moved⟩ := Validator.exists_ofFields_perm permuted.symm built
    rw [ordered] at same
    cases same
    refine ⟨name, fun row => ?_⟩
    have named : v.fieldNames.Nodup := Validator.fieldNames_eq built ▸ distinct
    unfold validateRecord Validator.validateRecord
    rw [Validator.collect_perm moved named row Violations.sorted_empty]
    rfl

/-- A person, whose fields are not in the order of their names. -/
def personSchema : Schema where
  name := "person"
  label := "person"
  description := ""
  fields := [⟨"name", "name", "", .string, .empty, true, none, [.length 2 9]⟩,
    ⟨"age", "age", "", .integer, .empty, true, none, []⟩]
  rules := []

theorem lifted_agrees_person : personSchema.fieldNames.Nodup ∧
    ∃ v w, Validator.ofSchema personSchema false .standard = .ok v ∧
      AdhocValidator.ofSchema (.ofSchema personSchema) false .standard = .ok w ∧
      ∀ row, w.validateRecord row = v.validateRecord row := by
  have distinct : personSchema.fieldNames.Nodup := by decide
  obtain ⟨fails, agrees⟩ := lifted_agrees personSchema distinct false .standard
  have built : Validator.ofSchema personSchema false .standard = .ok _ := rfl
  cases lifted : AdhocValidator.ofSchema (.ofSchema personSchema) false .standard with
  | error m =>
    obtain ⟨_, wrong⟩ := fails.mpr ⟨m, lifted⟩
    cases built.symm.trans wrong
  | ok w => exact ⟨distinct, _, w, built, rfl, (agrees _ w built lifted).2⟩

end AdhocValidator

end Validation

end EntitySchema
