import EntitySchema.Proofs.Engine.Store

/-!
Whether an accepted schema can be served. A store finds a schema under its trimmed name, and an engine
has it under its name as it is written; an engine can be prepared for the schema exactly if the two
are one.
-/

namespace EntitySchema.Deployment

variable {d : Deployment} {schemas : List Schema} {s : Schema} {config : EngineConfig}
  {dialect : Sql.Dialect} {e : Engine} {t : Toolbox} {n : String}

theorem ofSchemas_eq_ok : ofSchemas schemas = .ok d ↔
    ∃ registry, (Registry.empty : Registry Schema).registerAll schemas = .ok registry ∧
      d = ⟨⟨registry, .empty⟩, [], []⟩ := by
  rw [ofSchemas, SchemaStore.ofSchemas, Outcome.map_eq_ok]
  simp only [Outcome.map_eq_ok]
  constructor
  · rintro ⟨_, ⟨registry, ok, rfl⟩, rfl⟩
    exact ⟨registry, ok, rfl⟩
  · rintro ⟨registry, ok, rfl⟩
    exact ⟨_, ⟨registry, ok, rfl⟩, rfl⟩

/-- A new engine can be prepared for a name, and has the schema under it then. -/
def Serves (d : Deployment) (config : EngineConfig) (n : String) (s : Schema) : Prop :=
  let fresh := d.after (.start config)
  let asked := Call.prepare d.engines.length SchemaStore.schemas [n]
  fresh.answer asked = .ok () ∧
    ∃ e t, (fresh.after asked).engine? d.engines.length = some e ∧ e.toolbox? n = some t ∧ t.schema = s

theorem engine?_fresh (created : Engine.create config = .ok e) :
    (d.after (.start config)).engine? d.engines.length = some e := by
  rw [after_start created]
  exact engineAt_concat.trans (if_pos rfl)

/-- A schema is served under its own name, if that is where the store has it. -/
theorem serves_iff (filed : d.store.Filed) (created : Engine.create config = .ok e)
    (ok : e.build s = .ok t) :
    d.Serves config n s ↔ d.store.current? n = some s ∧ s.name = n := by
  have there : (d.after (.start config)).engine? d.engines.length = some e := engine?_fresh created
  have unprepared := Engine.isPrepared_create created
  have store : (d.after (.start config)).store = d.store := store_after ⟨nofun, nofun⟩
  rw [← store] at filed ⊢
  constructor
  · rintro ⟨answered, e', t', here, found, rfl⟩
    obtain ⟨f, built, before, fills⟩ := prepares_iff.mp ⟨⟨e, there, unprepared⟩, answered⟩
    rw [there] at before
    cases before
    rw [after, perform_of_fills there fills, engine?_installed there, if_pos rfl] at here
    cases here
    obtain ⟨_, current, _⟩ := filed.current?_of_fills fills found
    exact ⟨current, (fills.sound.built n t' found).1⟩
  · rintro ⟨found, rfl⟩
    have fills : e.Fills ((d.after (.start config)).store.schemas [s.name]) [s.name]
        (KeyMap.empty.insert s.name t) := by
      refine ⟨unprepared, ⟨[s], ?_, Engine.buildAll_singleton ok⟩, fun name asked => ?_⟩
      · exact SchemaStore.schemas_eq_ok.mpr (.cons found .nil)
      · rw [List.mem_singleton.mp asked, KeyMap.contains, KeyMap.get?_insert, if_pos rfl]
        rfl
    have own : (e.installed (KeyMap.empty.insert s.name t)).toolbox? s.name = some t :=
      (KeyMap.get?_insert _ _ _ _).trans (if_pos rfl)
    refine ⟨?_, e.installed _, t, ?_, own, Toolbox.schema_of_build ok⟩
    · rw [answer, perform_of_fills there fills]
    · rw [after, perform_of_fills there fills, engine?_installed there, if_pos rfl]

/-- A schema that the store has under another name than its own is reported missing. -/
theorem answer_of_other_name (created : Engine.create config = .ok e) (ok : e.build s = .ok t)
    (found : d.store.current? n = some s) (other : s.name ≠ n) :
    (d.after (.start config)).answer (.prepare d.engines.length SchemaStore.schemas [n]) =
      .error (.missingSchema n) := by
  have store : (d.after (.start config)).store = d.store := store_after ⟨nofun, nofun⟩
  have answered : d.store.schemas [n] = .ok [s] := SchemaStore.schemas_eq_ok.mpr (.cons found .nil)
  have absent : (KeyMap.empty.insert s.name t).contains n = false := by
    rw [KeyMap.contains, KeyMap.get?_insert, if_neg (Ne.symm other)]
    rfl
  have missing : [n].find? (fun name => !(KeyMap.empty.insert s.name t).contains name) = some n :=
    List.find?_cons_of_pos (by rw [absent]; rfl)
  rw [answer_prepare (engine?_fresh created), store, Engine.prepare_of_missing
    (Engine.isPrepared_create created) answered (Engine.buildAll_singleton ok) missing]
  rfl

/-- Every accepted schema is listed and found under its trimmed name, and under no other one. If that is
its name, a new engine can be prepared for it and has it then. If not, no engine can be prepared for
it: its own name is not found, and under the listed name the schema is reported missing. -/
theorem served_iff_trimmed (accepted : ofSchemas schemas = .ok d) (member : s ∈ schemas)
    (resolved : config.resolve = .ok dialect) (derives : s.Derives config dialect)
    (validates : s.Validates config.validation) :
    (∀ n, n ∈ d.store.registry.names ∧ d.store.registry.get? n = some s ↔ n = Text.trim s.name) ∧
    (d.store.registry.get? s.name = some s ↔ Text.trim s.name = s.name) ∧
    (d.Serves config (Text.trim s.name) s ↔ Text.trim s.name = s.name) ∧
    (Text.trim s.name ≠ s.name →
      (∀ n, ¬ d.Serves config n s) ∧
      d.store.registry.get? s.name = none ∧
      (d.after (.start config)).answer
          (.prepare d.engines.length SchemaStore.schemas [Text.trim s.name]) =
        .error (.missingSchema (Text.trim s.name))) := by
  obtain ⟨registry, all, rfl⟩ := ofSchemas_eq_ok.mp accepted
  have created := Engine.create_of_resolve resolved
  obtain ⟨t, built⟩ := Toolbox.exists_build.mpr ⟨derives, validates⟩
  have filed : registry.Filed := Registry.filed_empty.registerAll all
  have found : registry.get? (Text.trim s.name) = some s := Registry.get?_of_mem_registerAll all member
  have served (n : String) : Serves ⟨⟨registry, .empty⟩, [], []⟩ config n s ↔
      registry.get? n = some s ∧ s.name = n := serves_iff ⟨filed, nofun⟩ created built
  refine ⟨fun n => ⟨fun here => (filed n s here.2).symm, ?_⟩, ?_, ?_, fun blanks => ⟨?_, ?_, ?_⟩⟩
  · rintro rfl
    exact ⟨Registry.mem_names.mpr ⟨s, found⟩, found⟩
  · exact ⟨fun here => filed.trim_eq here, fun trimmed => trimmed ▸ found⟩
  · rw [served, and_iff_right found]
    exact eq_comm
  · intro n wrong
    obtain ⟨here, rfl⟩ := (served n).mp wrong
    exact blanks (filed.trim_eq here)
  · exact filed.get?_eq_none blanks
  · exact answer_of_other_name created built found (Ne.symm blanks)

theorem served_iff_trimmed_note : ∃ d, ofSchemas [noteSchema] = .ok d ∧
    "Note" ∈ d.store.registry.names ∧ d.Serves .standard "Note" noteSchema := by
  have accepted : ofSchemas [noteSchema] = .ok _ := rfl
  have resolved : EngineConfig.standard.resolve = .ok .postgres := rfl
  have kept : Text.trim noteSchema.name = noteSchema.name := by decide
  obtain ⟨listed, _, served, _⟩ := served_iff_trimmed accepted (.head _) resolved ⟨_, rfl⟩
    (Bool.rec ⟨_, rfl⟩ ⟨_, rfl⟩)
  exact ⟨_, accepted, ((listed "Note").mpr kept.symm).1, kept ▸ served.mpr kept⟩

/-- Notes whose name is written with blanks around it. -/
def paddedNote : Schema := { noteSchema with name := " Note " }

/-- A padded schema is accepted and listed, and has a table and validators; it is not found under its own
name, and an engine that is prepared for the listed name reports that it is missing. -/
theorem padded_not_served : ∃ d, ofSchemas [paddedNote] = .ok d ∧
    paddedNote.Derives .standard .postgres ∧ paddedNote.Validates EngineConfig.standard.validation ∧
    d.store.registry.names = ["Note"] ∧ d.store.registry.get? paddedNote.name = none ∧
    (d.after (.start .standard)).answer (.prepare 0 SchemaStore.schemas ["Note"]) =
      .error (.missingSchema "Note") ∧
    ¬ d.Serves .standard "Note" paddedNote :=
  ⟨_, rfl, ⟨_, rfl⟩, Bool.rec ⟨_, rfl⟩ ⟨_, rfl⟩, rfl, rfl, rfl, fun served => nomatch served.1⟩

end EntitySchema.Deployment
