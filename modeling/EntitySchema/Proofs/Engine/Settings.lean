import EntitySchema.Proofs.Engine.Publication
import EntitySchema.Proofs.Validation.Defaults
import Mathlib

/-!
What settings that were accepted do to schemas that are sound by themselves. A settings document may have
length bounds between which there is no length; an engine with such settings reports a misconfigured
rule of every schema that takes them, however sound it is.
-/

namespace EntitySchema

open Validation

namespace Engine

variable {e : Engine} {schemas : List Schema} {s : Schema} {cause : EngineError}

/-- Building ends with the first schema that cannot be built. -/
theorem foldlM_build_eq_error {held : KeyMap Toolbox} :
    schemas.foldlM (fun built s => (e.build s).map fun t => built.insert s.name t) held = .error cause ↔
      ∃ before s after, schemas = before ++ s :: after ∧ (∀ b ∈ before, ∃ t, e.build b = .ok t) ∧
        e.build s = .error cause := by
  induction schemas generalizing held with
  | nil => exact iff_of_false nofun (by simp)
  | cons first rest ih =>
    rw [List.foldlM_cons, Outcome.bind_eq_error, Outcome.map_eq_error]
    simp only [Outcome.map_eq_ok, ih]
    constructor
    · rintro (here | ⟨_, ⟨t, built, rfl⟩, before, s, after, rfl, fine, failed⟩)
      · exact ⟨[], first, rest, rfl, nofun, here⟩
      · exact ⟨first :: before, s, after, rfl, List.forall_mem_cons.mpr ⟨⟨t, built⟩, fine⟩, failed⟩
    · rintro ⟨before, s, after, split, fine, failed⟩
      cases before with
      | nil =>
        cases split
        exact .inl failed
      | cons b before =>
        cases split
        obtain ⟨⟨t, built⟩, fine⟩ := List.forall_mem_cons.mp fine
        exact .inr ⟨_, ⟨t, built, rfl⟩, before, s, after, rfl, fine, failed⟩

theorem prepare_eq_misconfigured {source : List String → Except ProviderError (List Schema)}
    {names : List String} (answered : source names = .ok schemas) {cause : Misconfigured} :
    e.prepare source names = .error (.misconfigured cause) ↔
      e.isPrepared = false ∧ e.buildAll schemas = .error (.misconfigured cause) := by
  unfold prepare
  cases e.isPrepared with
  | true => exact iff_of_false (by rw [if_pos rfl]; nofun) nofun
  | false =>
    rw [if_neg Bool.false_ne_true, answered, and_iff_right rfl]
    refine Iff.trans (Outcome.bind_eq_error (x := e.buildAll schemas)) (or_iff_left ?_)
    rintro ⟨built, _, wrong⟩
    split at wrong <;> cases wrong

/-- The engine finds a table for the schema, and its bounds leave no length for one of the fields. -/
def Starves (e : Engine) (s : Schema) : Prop :=
  s.Derives e.config e.dialect ∧ s.Starved e.config.validation

theorem exists_build_misconfigured_iff {other : Config} (sound : s.Validates other) :
    (∃ cause, e.build s = .error (.misconfigured cause)) ↔ e.Starves s := by
  rw [build, Toolbox.exists_build_misconfigured, Starves, sound.iff_not_starved, not_not]

/-- What an engine reports of a sound schema is the first field that it starves. -/
theorem exists_starved_of_build {other : Config} (sound : s.Validates other) {cause : Misconfigured}
    (failed : e.build s = .error (.misconfigured cause)) :
    ∃ f ∈ s.fields, f.TakesDefaultBounds ∧ cause = f.starved e.config.validation := by
  unfold build Toolbox.build at failed
  simp only [Outcome.bind_eq_error, Outcome.mapError_eq_error] at failed
  rcases failed with ⟨_, _, wrong⟩ | ⟨_, _, ⟨_, whole, same⟩ | ⟨_, _, ⟨_, edits, same⟩ | ⟨_, _, wrong⟩⟩⟩
  · cases wrong
  · cases same
    exact sound.exists_starved whole
  · cases same
    exact sound.exists_starved edits
  · cases wrong

theorem build_of_refresh_eq_error {cause : Misconfigured} (failed : e.refresh s = .error cause) :
    e.build s = .error (.misconfigured cause) := by
  unfold refresh at failed
  split at failed
  · split at failed
    · cases failed
    · next same =>
      cases failed
      exact same
    · cases failed
  · cases failed

end Engine

/-- Settings that can be read name a dialect, so that an engine can be created. -/
theorem EngineConfig.exists_create {contents : String} {config : EngineConfig}
    (accepted : parse contents = .ok config) : ∃ e, Engine.create config = .ok e := by
  unfold parse at accepted
  split at accepted
  · cases accepted
  · obtain ⟨dialect, resolved, rfl⟩ := Outcome.map_eq_ok.mp accepted
    exact ⟨_, Engine.create_of_resolve resolved⟩

/-- Settings that were accepted give an engine. Under them, a schema that is sound under the standard bounds
stays sound unless the bounds starve it; an engine with these settings reports such a schema as
misconfigured exactly if it starves it, when it is told of it and when it is prepared with it and
no schema before it has failed, and what it reports is a length rule that the field does not have. -/
theorem accepted_bounds_starve {contents : String} {config : EngineConfig} {schemas : List Schema}
    (accepted : EngineConfig.parse contents = .ok config)
    (sound : ∀ s ∈ schemas, s.Validates .standard) :
    (∃ e, Engine.create config = .ok e) ∧
    (∀ s ∈ schemas, s.Validates config.validation ↔ ¬ s.Starved config.validation) ∧
    ∀ e : Engine, e.config = config →
      (∀ s ∈ schemas, (∃ cause, e.refresh s = .error cause) ↔ s.name ∈ e.entityNames ∧ e.Starves s) ∧
      (∀ s ∈ schemas, ∀ cause, e.refresh s = .error cause →
        ∃ f ∈ s.fields, f.TakesDefaultBounds ∧ cause = f.starved config.validation) ∧
      ∀ source names, source names = .ok schemas →
        ((∃ cause, e.prepare source names = .error (.misconfigured cause)) ↔
          e.isPrepared = false ∧ ∃ before s after, schemas = before ++ s :: after ∧
            (∀ b ∈ before, ∃ t, e.build b = .ok t) ∧ e.Starves s) := by
  refine ⟨EngineConfig.exists_create accepted, fun s member => (sound s member).iff_not_starved, ?_⟩
  rintro e rfl
  refine ⟨fun s member => ?_, fun s member cause failed => ?_, fun source names answered => ?_⟩
  · rw [Engine.exists_refresh_error, (sound s member).iff_not_starved, not_not, Engine.Starves]
  · exact Engine.exists_starved_of_build (sound s member) (Engine.build_of_refresh_eq_error failed)
  · simp only [Engine.prepare_eq_misconfigured answered, Engine.buildAll, Engine.foldlM_build_eq_error]
    constructor
    · rintro ⟨cause, unprepared, before, s, after, rfl, fine, failed⟩
      exact ⟨unprepared, before, s, after, rfl, fine,
        (Engine.exists_build_misconfigured_iff (sound s (by simp))).mp ⟨cause, failed⟩⟩
    · rintro ⟨unprepared, before, s, after, rfl, fine, starves⟩
      obtain ⟨cause, failed⟩ := (Engine.exists_build_misconfigured_iff (sound s (by simp))).mpr starves
      exact ⟨cause, unprepared, before, s, after, rfl, fine, failed⟩

/-- Settings with a least length above the greatest. -/
def crossedSettings : String := "[validation]\ndefault_min_length = 5\ndefault_max_length = 3\n"

def crossedConfig : EngineConfig := ⟨"postgres", "", ⟨5, 3⟩⟩

open Deployment (mailedNote)

theorem validates_mailedNote : mailedNote.Validates .standard := by
  intro edit
  cases edit <;> exact ⟨_, rfl⟩

theorem parse_crossedSettings : EngineConfig.parse crossedSettings = .ok crossedConfig := by cbv

theorem accepted_bounds_starve_mailed :
    EngineConfig.parse crossedSettings = .ok crossedConfig ∧ mailedNote.Validates .standard ∧
    ¬ mailedNote.Validates crossedConfig.validation ∧
    ∃ e, Engine.create crossedConfig = .ok e ∧
      ∃ cause, e.prepare (fun _ => .ok [mailedNote]) ["Note"] = .error (.misconfigured cause) := by
  have valid : ∀ s ∈ [mailedNote], s.Validates .standard := fun s member =>
    List.mem_singleton.mp member ▸ validates_mailedNote
  obtain ⟨⟨e, created⟩, sound, reports⟩ := accepted_bounds_starve parse_crossedSettings valid
  have starved : mailedNote.Starved crossedConfig.validation :=
    ⟨by decide, _, .tail _ (.head _), rfl, ⟨nofun, nofun⟩, rfl⟩
  refine ⟨parse_crossedSettings, validates_mailedNote,
    fun valid => (sound mailedNote (.head _)).mp valid starved, e, created, ?_⟩
  cases created
  exact ((reports _ rfl).2.2 _ _ rfl).mpr ⟨rfl, [], mailedNote, [], rfl, nofun, ⟨_, rfl⟩, starved⟩

/-- Accepted settings make a sound schema fail, with a length rule that none of its fields has. -/
theorem accepted_settings_break_mailed :
    EngineConfig.parse crossedSettings = .ok crossedConfig ∧ mailedNote.Validates .standard ∧
    (∀ f ∈ mailedNote.fields, f.length? = none) ∧
    (∀ edit, Validator.ofSchema mailedNote edit crossedConfig.validation =
      .error ⟨"length", "mail", .emptyRange 5 3⟩) ∧
    ∃ e, Engine.create crossedConfig = .ok e ∧
      e.prepare (fun _ => .ok [mailedNote]) ["Note"] =
        .error (.misconfigured ⟨"length", "mail", .emptyRange 5 3⟩) := by
  refine ⟨parse_crossedSettings, validates_mailedNote, by decide, fun edit => ?_, _, rfl, rfl⟩
  cases edit <;> rfl

end EntitySchema
