import EntitySchema.Engine.Basic
import EntitySchema.Proofs.Engine.Toolbox
import EntitySchema.Proofs.KeyMap

/-!
What an engine has in its cache. The cache is filled at once, from one answer of a source; from then on
a revision replaces the toolbox of its entity, or changes nothing.
-/

namespace EntitySchema.Engine

variable {e next : Engine} {schemas : List Schema} {built : KeyMap Toolbox}
  {answer : Except ProviderError (List Schema)} {names : List String} {n : String} {s : Schema}
  {t : Toolbox}

theorem isPrepared_iff : e.isPrepared = true ↔ e.entityNames ≠ [] := by
  rw [isPrepared, KeyMap.isEmpty, entityNames, KeyMap.keys, Bool.not_eq_true',
    List.isEmpty_eq_false_iff, Ne, Ne, List.map_eq_nil_iff]

theorem mem_entityNames : n ∈ e.entityNames ↔ ∃ t, e.toolbox? n = some t := by
  rw [entityNames, ← KeyMap.contains_iff_mem_keys, KeyMap.contains, Option.isSome_iff_exists]
  rfl

theorem isPrepared_of_mem (cached : n ∈ e.entityNames) : e.isPrepared = true :=
  isPrepared_iff.mpr (List.ne_nil_of_mem cached)

/-! Filling the cache. -/

theorem foldlM_build {before : KeyMap Toolbox} :
    schemas.foldlM (fun built s => (e.build s).map fun t => built.insert s.name t) before =
        .ok built ↔
      ∃ boxes, List.Forall₂ (fun s t => e.build s = .ok t) schemas boxes ∧
        built = before.insertAll (boxes.map fun t => (t.schema.name, t)) := by
  induction schemas generalizing before with
  | nil =>
    simp only [List.foldlM_nil, List.forall₂_nil_left_iff, exists_eq_left]
    exact ⟨fun done => by cases done; rfl, fun same => by rw [same]; rfl⟩
  | cons s rest ih =>
    simp only [List.foldlM_cons, Outcome.bind_eq_ok, Outcome.map_eq_ok, ih,
      List.forall₂_cons_left_iff]
    constructor
    · rintro ⟨_, ⟨t, first, rfl⟩, boxes, others, rfl⟩
      refine ⟨t :: boxes, ⟨t, boxes, first, others, rfl⟩, ?_⟩
      rw [← Toolbox.schema_of_build first]
      rfl
    · rintro ⟨_, ⟨t, boxes, first, others, rfl⟩, rfl⟩
      refine ⟨_, ⟨t, first, rfl⟩, boxes, others, ?_⟩
      rw [← Toolbox.schema_of_build first]
      rfl

theorem buildAll_eq_ok : e.buildAll schemas = .ok built ↔
    ∃ boxes, List.Forall₂ (fun s t => e.build s = .ok t) schemas boxes ∧
      built = .ofList (boxes.map fun t => (t.schema.name, t)) :=
  foldlM_build

/-- What is found under a name is the toolbox of a schema of that name. -/
theorem exists_of_buildAll (ok : e.buildAll schemas = .ok built) (found : built.get? n = some t) :
    ∃ s ∈ schemas, s.name = n ∧ e.build s = .ok t := by
  obtain ⟨boxes, all, rfl⟩ := buildAll_eq_ok.mp ok
  rw [KeyMap.get?_ofList] at found
  obtain ⟨box, inside, same⟩ := List.mem_map.mp (List.mem_reverse.mp (Outcome.mem_of_lookup found))
  cases same
  obtain ⟨s, member, done⟩ := Outcome.exists_of_mem_results all inside
  exact ⟨s, member, congrArg Schema.name (Toolbox.schema_of_build done).symm, done⟩

theorem buildAll_singleton (ok : e.build s = .ok t) :
    e.buildAll [s] = .ok (KeyMap.empty.insert s.name t) := by
  rw [buildAll, List.foldlM_cons, ok]
  rfl

/-- The engine with its cache filled. -/
def installed (e : Engine) (built : KeyMap Toolbox) : Engine :=
  { e with cache := built, subscribed := true }

/-- The answer of a source gives an empty cache its contents, and every name is among them. -/
structure Fills (e : Engine) (answer : Except ProviderError (List Schema)) (names : List String)
    (built : KeyMap Toolbox) : Prop where
  unprepared : e.isPrepared = false
  answered : ∃ schemas, answer = .ok schemas ∧ e.buildAll schemas = .ok built
  complete : ∀ name ∈ names, built.contains name = true

theorem prepare_eq_ok {source : List String → Except ProviderError (List Schema)} :
    e.prepare source names = .ok next ↔
      (e.isPrepared = true ∧ next = e) ∨
        ∃ built, e.Fills (source names) names built ∧ next = e.installed built := by
  unfold prepare
  cases prepared : e.isPrepared with
  | true =>
    rw [if_pos rfl, Except.ok.injEq]
    constructor
    · rintro rfl
      exact .inl ⟨rfl, rfl⟩
    · rintro (⟨_, rfl⟩ | ⟨_, fills, _⟩)
      · rfl
      · rw [fills.unprepared] at prepared
        cases prepared
  | false =>
    rw [if_neg Bool.false_ne_true]
    simp only [Outcome.bind_eq_ok, Outcome.mapError_eq_ok]
    constructor
    · rintro ⟨schemas, answered, built, ok, done⟩
      split at done
      · cases done
      · next none =>
        cases done
        refine .inr ⟨built, ⟨prepared, ⟨schemas, answered, ok⟩, fun name asked => ?_⟩, rfl⟩
        simpa using List.find?_eq_none.mp none name asked
    · rintro (⟨wrong, _⟩ | ⟨built, ⟨_, ⟨schemas, answered, ok⟩, complete⟩, rfl⟩)
      · cases wrong
      · refine ⟨schemas, answered, built, ok, ?_⟩
        have none : names.find? (fun name => !built.contains name) = none := by
          rw [List.find?_eq_none]
          intro name asked
          simp [complete name asked]
        rw [none]
        rfl

theorem prepare_of_missing {source : List String → Except ProviderError (List Schema)}
    (unprepared : e.isPrepared = false) (answered : source names = .ok schemas)
    (ok : e.buildAll schemas = .ok built)
    (missing : names.find? (fun name => !built.contains name) = some n) :
    e.prepare source names = .error (.missingSchema n) := by
  unfold prepare
  rw [unprepared, if_neg Bool.false_ne_true, answered]
  simp only [Except.mapError, bind, Except.bind, ok, missing]

/-! Revisions. -/

/-- The engine that a revision leaves behind, whether the revision is reported or not. -/
def refreshed (e : Engine) (s : Schema) : Engine :=
  match e.refresh s with
  | .ok next => next
  | .error _ => e

theorem refreshed_of_refresh (ok : e.refresh s = .ok next) : e.refreshed s = next := by
  rw [refreshed, ok]

theorem refreshed_of_absent (absent : s.name ∉ e.entityNames) : e.refreshed s = e :=
  refreshed_of_refresh (if_neg (mt KeyMap.contains_iff_mem_keys.mp absent))

/-- A rebuild that fails leaves everything as it is, whatever it fails of. -/
theorem refreshed_of_error {cause : EngineError} (failed : e.build s = .error cause) :
    e.refreshed s = e := by
  rw [refreshed, refresh, failed]
  split_ifs
  · cases cause <;> rfl
  · rfl

theorem refreshed_of_ok (cached : s.name ∈ e.entityNames) (ok : e.build s = .ok t) :
    e.refreshed s = { e with cache := e.cache.insert s.name t } := by
  apply refreshed_of_refresh
  refine (if_pos (KeyMap.contains_iff_mem_keys.mpr cached)).trans ?_
  rw [ok]

theorem refreshed_cases (e : Engine) (s : Schema) : e.refreshed s = e ∨
    ∃ t, s.name ∈ e.entityNames ∧ e.build s = .ok t ∧
      e.refreshed s = { e with cache := e.cache.insert s.name t } := by
  by_cases cached : s.name ∈ e.entityNames
  · cases outcome : e.build s with
    | error cause => exact .inl (refreshed_of_error outcome)
    | ok t => exact .inr ⟨t, cached, rfl, refreshed_of_ok cached outcome⟩
  · exact .inl (refreshed_of_absent cached)

/-- An engine reports a revision if it has the entity, and the revision a table but a rule that does
not apply. -/
theorem exists_refresh_error : (∃ reason, e.refresh s = .error reason) ↔
    s.name ∈ e.entityNames ∧ s.Derives e.config e.dialect ∧ ¬ s.Validates e.config.validation := by
  rw [← Toolbox.exists_build_misconfigured, refresh]
  by_cases cached : s.name ∈ e.entityNames
  · rw [if_pos (KeyMap.contains_iff_mem_keys.mpr cached), and_iff_right cached]
    unfold build
    cases Toolbox.build e.config e.dialect s with
    | ok t => exact iff_of_false nofun nofun
    | error cause => cases cause <;> simp
  · rw [if_neg (mt KeyMap.contains_iff_mem_keys.mp cached)]
    exact iff_of_false nofun fun both => cached both.1

theorem toolbox?_refreshed_of_ne (other : n ≠ s.name) :
    (e.refreshed s).toolbox? n = e.toolbox? n := by
  rcases refreshed_cases e s with same | ⟨t, _, _, same⟩
  · rw [same]
  · rw [same, toolbox?, KeyMap.get?_insert, if_neg other]
    rfl

theorem toolbox?_refreshed_of_ok (cached : s.name ∈ e.entityNames) (ok : e.build s = .ok t) :
    (e.refreshed s).toolbox? s.name = some t := by
  rw [refreshed_of_ok cached ok, toolbox?, KeyMap.get?_insert, if_pos rfl]

/-! What holds of every engine. -/

structure Sound (e : Engine) : Prop where
  sorted : e.cache.Sorted
  told : e.isPrepared = true → e.subscribed = true
  built : ∀ n t, e.toolbox? n = some t → t.schema.name = n ∧ t.BuiltBy e.config e.dialect

theorem create_of_resolve {config : EngineConfig} {dialect : Sql.Dialect}
    (resolved : config.resolve = .ok dialect) : create config = .ok ⟨config, dialect, .empty, false⟩ :=
  Outcome.map_eq_ok.mpr ⟨dialect, resolved, rfl⟩

theorem isPrepared_create {config : EngineConfig} (created : create config = .ok e) :
    e.isPrepared = false := by
  obtain ⟨dialect, _, rfl⟩ := Outcome.map_eq_ok.mp created
  rfl

theorem sound_create {config : EngineConfig} (created : create config = .ok e) : e.Sound := by
  obtain ⟨dialect, _, rfl⟩ := Outcome.map_eq_ok.mp created
  exact ⟨KeyMap.sorted_empty, nofun, nofun⟩

theorem Fills.sound (fills : e.Fills answer names built) : (e.installed built).Sound := by
  obtain ⟨schemas, _, ok⟩ := fills.answered
  refine ⟨?_, fun _ => rfl, ?_⟩
  · obtain ⟨boxes, _, rfl⟩ := buildAll_eq_ok.mp ok
    exact KeyMap.sorted_ofList _
  · intro n t found
    obtain ⟨s, _, named, done⟩ := exists_of_buildAll ok found
    obtain ⟨rfl, parts⟩ := Toolbox.build_eq_ok.mp done
    exact ⟨named, parts⟩

theorem Sound.entityNames_refreshed (sound : e.Sound) (s : Schema) :
    (e.refreshed s).entityNames = e.entityNames := by
  rcases refreshed_cases e s with same | ⟨t, cached, _, same⟩
  · rw [same]
  · rw [same]
    exact sound.sorted.keys_insert cached t

theorem Sound.refreshed (sound : e.Sound) (s : Schema) : (e.refreshed s).Sound := by
  rcases refreshed_cases e s with same | ⟨t, cached, ok, same⟩
  · rwa [same]
  · have told := sound.told (isPrepared_of_mem cached)
    rw [same]
    refine ⟨sound.sorted.insert _ _, fun _ => told, fun n found here => ?_⟩
    rw [toolbox?, KeyMap.get?_insert] at here
    split_ifs at here with own
    · cases here
      obtain ⟨rfl, parts⟩ := Toolbox.build_eq_ok.mp ok
      exact ⟨own.symm, parts⟩
    · exact sound.built n found here

/-- The toolbox of the revised entity, if the rules of the revision apply: the new one if there is a
table, and the one before if not. -/
theorem Sound.toolbox?_refreshed_own (sound : e.Sound) (valid : s.Validates e.config.validation)
    (found : (e.refreshed s).toolbox? s.name = some t) :
    ∃ before, e.toolbox? s.name = some before ∧
      ((s.Derives e.config e.dialect ∧ t.schema = s) ∨
        (¬ s.Derives e.config e.dialect ∧ t = before)) := by
  have cached : s.name ∈ e.entityNames := by
    rw [← sound.entityNames_refreshed s]
    exact mem_entityNames.mpr ⟨t, found⟩
  obtain ⟨before, held⟩ := mem_entityNames.mp cached
  refine ⟨before, held, ?_⟩
  by_cases derives : s.Derives e.config e.dialect
  · obtain ⟨box, ok⟩ : ∃ box, e.build s = .ok box := Toolbox.exists_build.mpr ⟨derives, valid⟩
    rw [toolbox?_refreshed_of_ok cached ok] at found
    cases found
    exact .inl ⟨derives, Toolbox.schema_of_build ok⟩
  · obtain ⟨cause, failed⟩ : ∃ cause, e.build s = .error cause :=
      Toolbox.exists_build_error.mpr fun wrong => absurd wrong derives
    rw [refreshed_of_error failed, held] at found
    cases found
    exact .inr ⟨derives, rfl⟩

theorem config_refreshed (e : Engine) (s : Schema) :
    (e.refreshed s).config = e.config ∧ (e.refreshed s).dialect = e.dialect ∧
      (e.refreshed s).subscribed = e.subscribed := by
  rcases refreshed_cases e s with same | ⟨t, _, _, same⟩ <;> rw [same] <;> exact ⟨rfl, rfl, rfl⟩

end EntitySchema.Engine
