import EntitySchema.Proofs.Engine.Run
import EntitySchema.Proofs.Model.Registry

/-!
What a store answers. A revision goes before the authored schema of its name, and an authored schema is
never replaced by another one; revisions are found under their names as they are written, authored
schemas under their trimmed names.
-/

namespace EntitySchema

namespace SchemaStore

variable {store next : SchemaStore} {s other : Schema} {n : String} {names : List String}
  {answers : List Schema}

theorem schemas_eq_ok : store.schemas names = .ok answers ↔
    List.Forall₂ (fun n s => store.current? n = some s) names answers := by
  rw [schemas, Outcome.mapM_eq_ok]
  refine iff_of_eq (congrArg (List.Forall₂ · names answers) ?_)
  funext n s
  cases store.current? n <;> simp

theorem register_eq_ok : store.register s = .ok next ↔
    ∃ registry, store.registry.register s = .ok registry ∧ next = { store with registry } := by
  rw [register, Outcome.map_eq_ok]
  simp only [eq_comm]

/-- Registering changes no answer that there was. -/
theorem current?_of_register (ok : store.register s = .ok next)
    (found : store.current? n = some other) : next.current? n = some other := by
  obtain ⟨registry, registered, rfl⟩ := register_eq_ok.mp ok
  unfold current? at *
  cases revised : store.revisions.get? n with
  | some revision =>
    rw [revised] at found
    exact found
  | none =>
    rw [revised] at found
    exact Registry.get?_register_of_some registered found

theorem current?_record (store : SchemaStore) (s : Schema) (n : String) :
    (store.record s).current? n = if n = s.name then some s else store.current? n := by
  unfold current? record
  dsimp only
  rw [KeyMap.get?_insert]
  split_ifs <;> rfl

/-- Revisions are kept under their names, authored schemas under their trimmed names. -/
structure Filed (store : SchemaStore) : Prop where
  authored : store.registry.Filed
  revised : ∀ n s, store.revisions.get? n = some s → s.name = n

theorem Filed.register (filed : store.Filed) (ok : store.register s = .ok next) : next.Filed := by
  obtain ⟨registry, registered, rfl⟩ := register_eq_ok.mp ok
  exact ⟨filed.authored.register registered, filed.revised⟩

theorem Filed.record (filed : store.Filed) (s : Schema) : (store.record s).Filed := by
  refine ⟨filed.authored, fun n found here => ?_⟩
  rw [SchemaStore.record, KeyMap.get?_insert] at here
  split_ifs at here with own
  · cases here
    exact own.symm
  · exact filed.revised n found here

theorem Filed.cases (filed : store.Filed) (found : store.current? n = some s) :
    s.name = n ∨ (store.revisions.get? n = none ∧ store.registry.get? n = some s ∧
      Text.trim s.name = n) := by
  unfold current? at found
  cases revised : store.revisions.get? n with
  | some revision =>
    rw [revised] at found
    cases found
    exact .inl (filed.revised n s revised)
  | none =>
    rw [revised] at found
    exact .inr ⟨rfl, found, filed.authored n s found⟩

/-- If every name of a question is also the name of an answer, then each name is answered with a schema
of just that name. -/
theorem Filed.name_eq (filed : store.Filed) (answered : store.schemas names = .ok answers)
    (complete : ∀ name ∈ names, ∃ s ∈ answers, s.name = name) (asked : n ∈ names)
    (found : store.current? n = some s) : s.name = n := by
  rcases filed.cases found with same | ⟨unrevised, authored, _⟩
  · exact same
  · -- the answer of this name belongs to a question that has the same answer
    have trimmed : Text.trim n = n := filed.authored.trim_eq authored
    obtain ⟨twin, inside, named⟩ := complete n asked
    obtain ⟨k, _, here⟩ := Outcome.exists_of_mem_results (schemas_eq_ok.mp answered) inside
    have same : k = n := by
      rcases filed.cases here with same | ⟨_, _, same⟩
      · rw [← same, named]
      · rw [← same, named, trimmed]
    rw [same, found] at here
    cases here
    exact named

/-- An engine that is prepared has just what it was prepared for, and what the store has. -/
theorem Filed.current?_of_fills (filed : store.Filed) {e : Engine} {built : KeyMap Toolbox}
    {t : Toolbox} (fills : e.Fills (store.schemas names) names built)
    (found : built.get? n = some t) :
    n ∈ names ∧ store.current? n = some t.schema ∧ t.schema.Derives e.config e.dialect := by
  obtain ⟨schemas, answered, ok⟩ := fills.answered
  have complete : ∀ name ∈ names, ∃ s ∈ schemas, s.name = name := by
    intro name asked
    obtain ⟨box, here⟩ := Option.isSome_iff_exists.mp (fills.complete name asked)
    obtain ⟨s, member, named, _⟩ := Engine.exists_of_buildAll ok here
    exact ⟨s, member, named⟩
  obtain ⟨s, member, rfl, done⟩ := Engine.exists_of_buildAll ok found
  obtain ⟨k, asked, here⟩ :=
    Outcome.exists_of_mem_results (schemas_eq_ok.mp answered) member
  obtain rfl : s.name = k := filed.name_eq answered complete asked here
  rw [Toolbox.schema_of_build done]
  exact ⟨asked, here, (Toolbox.exists_build.mp ⟨t, done⟩).1⟩

end SchemaStore

namespace Deployment

variable {d : Deployment}

theorem store_after {c : Call} (idle : (∀ s, c ≠ .register s) ∧ ∀ s, c ≠ .publish s) :
    (d.after c).store = d.store := by
  cases c with
  | start config => rcases after_start_cases d config with same | ⟨e, _, same⟩ <;> rw [same]
  | stop i => rfl
  | register s => exact absurd rfl (idle.1 s)
  | publish s => exact absurd rfl (idle.2 s)
  | prepare i source names =>
    rcases after_prepare_cases d i source names with ⟨_, same⟩ | ⟨e, built, _, _, same⟩ <;>
      rw [same]
    rfl

theorem filed_run (calls : List Call) : (empty.run calls).store.Filed := by
  induction calls using List.reverseRecOn with
  | nil => exact ⟨Registry.filed_empty, nofun⟩
  | append_singleton calls c ih =>
    rw [run_concat]
    cases c with
    | register s =>
      rcases after_register_cases (empty.run calls) s with same | ⟨store, ok, same⟩
      · rwa [same]
      · rw [same]
        exact ih.register ok
    | publish s =>
      rw [after_publish]
      exact ih.record s
    | _ => rwa [store_after (by simp)]

end Deployment

end EntitySchema
