import EntitySchema.Proofs.Engine.Publication
import EntitySchema.Proofs.Engine.Store

/-!
One engine on a store: what is registered, published and prepared in a run, and what the run leaves in
the store and among the engines.
-/

namespace EntitySchema

/-- What is done with a store and an engine. -/
inductive Move where
  | register (s : Schema)
  | publish (s : Schema)
  | prepare (names : List String)

namespace Move

/-- The call on the deployment of the store and the engine. -/
def call : Move → Call
  | .register s => .register s
  | .publish s => .publish s
  | .prepare names => .prepare 0 SchemaStore.schemas names

/-- The schemas that are published under a name, in order. -/
def published (n : String) (moves : List Move) : List Schema :=
  moves.filterMap fun
    | .publish s => if s.name = n then some s else none
    | _ => none

theorem call_ne_start (m : Move) (config : EngineConfig) : m.call ≠ .start config := by
  cases m <;> exact nofun

theorem call_ne_stop (m : Move) (i : Nat) : m.call ≠ .stop i := by
  cases m <;> exact nofun

theorem published_concat (n : String) (moves : List Move) (m : Move) :
    published n (moves ++ [m]) = published n moves ++ published n [m] :=
  List.filterMap_append

theorem published_own (s : Schema) : published s.name [.publish s] = [s] := by
  simp [published]

theorem published_of_ne {n : String} {s : Schema} (other : n ≠ s.name) :
    published n [.publish s] = [] := by
  simp [published, Ne.symm other]

end Move

namespace Deployment

open Move (published)

variable {d : Deployment} {config : EngineConfig} {i : Nat} {e : Engine} {earlier : List Move}
  {n : String} {s : Schema}

/-! The engines of a deployment after a call. -/

theorem Wired.length_engines_after (wired : d.Wired) {c : Call} (other : ∀ config, c ≠ .start config) :
    (d.after c).engines.length = d.engines.length := by
  cases c with
  | start config => exact absurd rfl (other config)
  | stop j => exact List.length_set
  | register s => rcases after_register_cases d s with same | ⟨store, _, same⟩ <;> rw [same]
  | publish s =>
    obtain ⟨_, _, _, round⟩ := wired.exists_round s
    rw [after_publish]
    exact round.length
  | prepare j source names =>
    rcases after_prepare_cases d j source names with ⟨_, same⟩ | ⟨e, built, _, _, same⟩
    · rw [same]
    · rw [same]
      exact List.length_set

/-- A cache that is filled keeps its names as long as the engine is there. -/
theorem Wired.entityNames_after (wired : d.Wired) (there : d.engine? i = some e)
    (prepared : e.isPrepared = true) {c : Call} (kept : c ≠ .stop i) :
    ∃ e', (d.after c).engine? i = some e' ∧ e'.entityNames = e.entityNames := by
  cases c with
  | start config =>
    rcases after_start_cases d config with same | ⟨f, _, same⟩
    · exact ⟨e, by rw [same, there], rfl⟩
    · refine ⟨e, ?_, rfl⟩
      rw [same]
      exact engineAt_concat.trans ((if_neg (lt_length_of_engineAt there).ne).trans there)
  | stop j =>
    have other : i ≠ j := fun same => kept (congrArg Call.stop same.symm)
    exact ⟨e, by rw [after_stop, engine?_stop, if_neg other, there], rfl⟩
  | register s =>
    refine ⟨e, ?_, rfl⟩
    rcases after_register_cases d s with same | ⟨store, _, same⟩
    · rw [same, there]
    · rw [same]
      exact there
  | publish s =>
    rcases wired.engine?_publish s there with same | ⟨same, _⟩
    · exact ⟨_, same, (wired.sound i e there).entityNames_refreshed s⟩
    · exact ⟨e, same, rfl⟩
  | prepare j source names =>
    rcases after_prepare_cases d j source names with ⟨_, same⟩ | ⟨f, built, here, fills, same⟩
    · exact ⟨e, by rw [same, there], rfl⟩
    · have other : i ≠ j := by
        rintro rfl
        rw [there] at here
        cases here
        rw [fills.unprepared] at prepared
        cases prepared
      exact ⟨e, by rw [same, engine?_installed here, if_neg other, there], rfl⟩

theorem Wired.entityNames_run (wired : d.Wired) (there : d.engine? i = some e)
    (prepared : e.isPrepared = true) (moves : List Move) :
    ∃ e', (d.run (moves.map Move.call)).engine? i = some e' ∧ e'.entityNames = e.entityNames := by
  induction moves generalizing d e with
  | nil => exact ⟨e, there, rfl⟩
  | cons m rest ih =>
    obtain ⟨f, here, same⟩ := wired.entityNames_after there prepared (m.call_ne_stop i)
    have full : f.isPrepared = true := by
      rw [Engine.isPrepared_iff, same]
      exact Engine.isPrepared_iff.mp prepared
    obtain ⟨e', left, names⟩ := ih (wired.after m.call) here full
    exact ⟨e', left, names.trans same⟩

/-! One engine on a store. -/

/-- An engine that is started on a store after some moves, and has gone through others since. -/
def launched (earlier : List Move) (config : EngineConfig) (moves : List Move) : Deployment :=
  empty.run (earlier.map Move.call ++ .start config :: moves.map Move.call)

theorem launched_append (earlier : List Move) (config : EngineConfig) (moves more : List Move) :
    launched earlier config (moves ++ more) =
      (launched earlier config moves).run (more.map Move.call) := by
  simp [launched, run]

theorem launched_concat (earlier : List Move) (config : EngineConfig) (moves : List Move) (m : Move) :
    launched earlier config (moves ++ [m]) = (launched earlier config moves).after m.call :=
  launched_append earlier config moves [m]

theorem wired_launched (earlier : List Move) (config : EngineConfig) (moves : List Move) :
    (launched earlier config moves).Wired :=
  wired_run _

theorem filed_launched (earlier : List Move) (config : EngineConfig) (moves : List Move) :
    (launched earlier config moves).store.Filed :=
  filed_run _

theorem length_engines_moves (moves : List Move) :
    (empty.run (moves.map Move.call)).engines.length = 0 := by
  induction moves using List.reverseRecOn with
  | nil => rfl
  | append_singleton moves m ih =>
    rw [List.map_append, List.map_singleton, run_concat,
      (wired_run _).length_engines_after m.call_ne_start, ih]

theorem launched_nil (created : Engine.create config = .ok e) :
    (launched earlier config []).engines = [some e] := by
  have none := List.eq_nil_of_length_eq_zero (length_engines_moves earlier)
  rw [launched, List.map_nil, run_concat, after_start created, none]
  rfl

theorem length_engines_launched (created : Engine.create config = .ok e)
    (earlier moves : List Move) :
    (launched earlier config moves).engines.length = 1 := by
  induction moves using List.reverseRecOn with
  | nil => rw [launched_nil created, List.length_singleton]
  | append_singleton moves m ih =>
    rw [launched_concat, (wired_launched _ _ _).length_engines_after m.call_ne_start, ih]

/-- What is current under a name after a move. -/
theorem current?_after_move (d : Deployment) (m : Move) (found : d.store.current? n = some s) :
    (d.after m.call).store.current? n = (published n [m]).getLast?.or (some s) := by
  cases m with
  | register r =>
    rw [Move.call]
    rcases after_register_cases d r with same | ⟨store, ok, same⟩
    · rw [same]
      exact found
    · rw [same]
      exact SchemaStore.current?_of_register ok found
  | publish r =>
    rw [Move.call, after_publish]
    refine (SchemaStore.current?_record d.store r n).trans ?_
    split_ifs with own
    · rw [own, Move.published_own]
      rfl
    · rw [Move.published_of_ne own, found]
      rfl
  | prepare names =>
    rw [Move.call, store_after (by simp), found]
    rfl

end Deployment

end EntitySchema
