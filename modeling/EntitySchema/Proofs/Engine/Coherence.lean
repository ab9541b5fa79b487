import EntitySchema.Proofs.Engine.Move

/-!
The cache of an engine agrees with its store. Whatever is registered, published and prepared, every
toolbox in the cache is that of the newest revision that has a table, counted from the schema that
the preparation found; the names in the cache stay the same once there are any.
-/

namespace EntitySchema

namespace Schema

variable {config : EngineConfig} {dialect : Sql.Dialect} {s r : Schema} {revisions : List Schema}

/-- The last one of the revisions that has a table. -/
def LastDerived (s : Schema) (config : EngineConfig) (dialect : Sql.Dialect)
    (revisions : List Schema) : Prop :=
  ∃ older newer, revisions = older ++ s :: newer ∧ s.Derives config dialect ∧
    ∀ r ∈ newer, ¬ r.Derives config dialect

theorem lastDerived_concat (derives : s.Derives config dialect) :
    s.LastDerived config dialect (revisions ++ [s]) :=
  ⟨revisions, [], rfl, derives, nofun⟩

theorem lastDerived_single (derives : s.Derives config dialect) :
    s.LastDerived config dialect [s] := by
  rw [← List.nil_append [s]]
  exact lastDerived_concat derives

theorem LastDerived.concat (last : s.LastDerived config dialect revisions)
    (fails : ¬ r.Derives config dialect) : s.LastDerived config dialect (revisions ++ [r]) := by
  obtain ⟨older, newer, rfl, derives, others⟩ := last
  refine ⟨older, newer ++ [r], by simp, derives, fun other member => ?_⟩
  rcases List.mem_append.mp member with before | single
  · exact others other before
  · rwa [List.mem_singleton.mp single]

/-- The last revision of all is this one, or has no table. -/
theorem LastDerived.getLast?_cases (last : s.LastDerived config dialect revisions) :
    revisions.getLast? = some s ∨
      ∃ r, revisions.getLast? = some r ∧ ¬ r.Derives config dialect := by
  obtain ⟨older, newer, rfl, _, others⟩ := last
  rcases List.eq_nil_or_concat newer with rfl | ⟨middle, r, rfl⟩
  · exact .inl List.getLast?_concat
  · refine .inr ⟨r, ?_, others r (by simp)⟩
    rw [List.concat_eq_append, ← List.cons_append, ← List.append_assoc]
    exact List.getLast?_concat

end Schema

namespace Deployment

open Move (published)

variable {config : EngineConfig} {dialect : Sql.Dialect} {e : Engine} {earlier moves : List Move}
  {n : String} {s r : Schema}

/-- The schema is the last one with a table, of the one that the preparation for the name found and of
those that were published under the name since. -/
def Follows (earlier : List Move) (config : EngineConfig) (dialect : Sql.Dialect)
    (moves : List Move) (n : String) (s : Schema) : Prop :=
  ∃ before names since first, moves = before ++ .prepare names :: since ∧
    (launched earlier config before).Prepares 0 SchemaStore.schemas names ∧ n ∈ names ∧
    (launched earlier config before).store.current? n = some first ∧
    (launched earlier config moves).store.current? n = (first :: published n since).getLast? ∧
    s.LastDerived config dialect (first :: published n since)

theorem Follows.current?_cases (follows : Follows earlier config dialect moves n s) :
    (launched earlier config moves).store.current? n = some s ∨
      ∃ r, (launched earlier config moves).store.current? n = some r ∧ ¬ r.Derives config dialect := by
  obtain ⟨_, _, _, _, _, _, _, _, current, last⟩ := follows
  rw [current]
  exact last.getLast?_cases

/-- A move adds to the revisions what it publishes. -/
theorem Follows.concat (follows : Follows earlier config dialect moves n s) (m : Move)
    (last : ∀ revisions, s.LastDerived config dialect revisions →
      r.LastDerived config dialect (revisions ++ published n [m])) :
    Follows earlier config dialect (moves ++ [m]) n r := by
  obtain ⟨before, names, since, first, rfl, prepares, asked, found, current, derived⟩ := follows
  refine ⟨before, names, since ++ [m], first, by simp, prepares, asked, found, ?_, ?_⟩
  · rw [List.getLast?_cons] at current
    rw [launched_concat, current?_after_move _ m current, Move.published_concat, ← List.cons_append,
      List.getLast?_append, List.getLast?_cons]
  · rw [Move.published_concat, ← List.cons_append]
    exact last _ derived

theorem Follows.keep (follows : Follows earlier config dialect moves n s) {m : Move}
    (silent : published n [m] = []) : Follows earlier config dialect (moves ++ [m]) n s := by
  refine follows.concat m fun revisions last => ?_
  rwa [silent, List.append_nil]

/-- The engine is there, with its settings, and every toolbox in its cache follows the revisions. -/
structure Coherent (earlier : List Move) (config : EngineConfig) (dialect : Sql.Dialect)
    (moves : List Move) (e : Engine) : Prop where
  there : (launched earlier config moves).engine? 0 = some e
  configured : e.config = config
  resolved : e.dialect = dialect
  follows : ∀ n t, e.toolbox? n = some t → Follows earlier config dialect moves n t.schema

/-- A move that publishes nothing and leaves the engine alone. -/
theorem Coherent.keep (coherent : Coherent earlier config dialect moves e) {m : Move}
    (silent : ∀ n, published n [m] = [])
    (same : (launched earlier config (moves ++ [m])).engine? 0 = some e) :
    Coherent earlier config dialect (moves ++ [m]) e :=
  ⟨same, coherent.configured, coherent.resolved,
    fun n t found => (coherent.follows n t found).keep (silent n)⟩

theorem Coherent.register (coherent : Coherent earlier config dialect moves e) (s : Schema) :
    Coherent earlier config dialect (moves ++ [.register s]) e := by
  refine coherent.keep (fun n => rfl) ?_
  rw [launched_concat, Move.call]
  rcases after_register_cases (launched earlier config moves) s with same | ⟨store, _, same⟩
  · rw [same, coherent.there]
  · rw [same]
    exact coherent.there

/-- A revision whose rules apply comes to the one engine that there is. -/
theorem Coherent.answer_publish (coherent : Coherent earlier config dialect moves e)
    (alone : (launched earlier config moves).engines.length = 1)
    (valid : s.Validates config.validation) :
    (launched earlier config moves).answer (.publish s) = .ok () := by
  refine ((wired_launched earlier config moves).answer_publish_eq_ok s).mpr fun i f here _ _ => ?_
  obtain rfl : i = 0 := by
    have inside := lt_length_of_engineAt here
    omega
  rw [coherent.there] at here
  cases here
  rwa [coherent.configured]

theorem Coherent.publish (coherent : Coherent earlier config dialect moves e)
    (alone : (launched earlier config moves).engines.length = 1)
    (valid : s.Validates config.validation) :
    Coherent earlier config dialect (moves ++ [.publish s]) (e.refreshed s) := by
  have wired := wired_launched earlier config moves
  obtain ⟨kept, same, _⟩ := Engine.config_refreshed e s
  refine ⟨?_, kept.trans coherent.configured, same.trans coherent.resolved, fun n t found => ?_⟩
  · rw [launched_concat]
    exact wired.engine?_publish_of_ok coherent.there (coherent.answer_publish alone valid)
  · by_cases own : n = s.name
    · subst own
      rw [← coherent.configured] at valid
      obtain ⟨before, held, revised⟩ :=
        (wired.sound 0 e coherent.there).toolbox?_refreshed_own valid found
      rw [coherent.configured, coherent.resolved] at revised
      refine (coherent.follows s.name before held).concat _ fun revisions last => ?_
      rw [Move.published_own]
      rcases revised with ⟨derives, newest⟩ | ⟨fails, rfl⟩
      · rw [newest]
        exact Schema.lastDerived_concat derives
      · exact last.concat fails
    · rw [Engine.toolbox?_refreshed_of_ne own] at found
      exact (coherent.follows n t found).keep (Move.published_of_ne own)

theorem Coherent.prepare (coherent : Coherent earlier config dialect moves e) (names : List String) :
    ∃ e', Coherent earlier config dialect (moves ++ [.prepare names]) e' := by
  rcases after_prepare_cases (launched earlier config moves) 0 SchemaStore.schemas names with
    ⟨_, same⟩ | ⟨f, built, here, fills, same⟩
  · refine ⟨e, coherent.keep (fun n => rfl) ?_⟩
    rw [launched_concat, Move.call, same, coherent.there]
  · have prepares := prepares_iff.mpr ⟨f, built, here, fills⟩
    rw [coherent.there] at here
    cases here
    refine ⟨e.installed built, ?_, coherent.configured, coherent.resolved, fun n t found => ?_⟩
    · rw [launched_concat, Move.call, same, engine?_installed coherent.there, if_pos rfl]
    · obtain ⟨asked, current, derives⟩ :=
        (filed_launched earlier config moves).current?_of_fills fills found
      rw [coherent.configured, coherent.resolved] at derives
      refine ⟨moves, names, [], t.schema, rfl, prepares, asked, current, ?_,
        Schema.lastDerived_single derives⟩
      rw [launched_concat, Move.call, same]
      exact current

theorem exists_coherent (resolved : config.resolve = .ok dialect) (earlier moves : List Move)
    (valid : ∀ s, .publish s ∈ moves → s.Validates config.validation) :
    ∃ e, Coherent earlier config dialect moves e := by
  have created := Engine.create_of_resolve resolved
  induction moves using List.reverseRecOn with
  | nil =>
    refine ⟨⟨config, dialect, .empty, false⟩, ?_, rfl, rfl, nofun⟩
    rw [engine?, launched_nil created]
    rfl
  | append_singleton moves m ih =>
    obtain ⟨e, coherent⟩ := ih fun s member => valid s (List.mem_append_left _ member)
    cases m with
    | register s => exact ⟨e, coherent.register s⟩
    | publish s =>
      have alone := length_engines_launched created earlier moves
      exact ⟨_, coherent.publish alone (valid s (List.mem_append_right _ (.head _)))⟩
    | prepare names => exact coherent.prepare names

/-- An engine on a store, after any moves. A toolbox in its cache has the name under which it stands, and
its table and validators are those of its schema. The names in the cache stay the same once there are
any, and publishing changes the toolbox of the published name at most. The schema of a toolbox is the
current one, or else the current one has no table; it is the last one with a table, from the one that
the preparation found. -/
theorem cache_coherent (resolved : config.resolve = .ok dialect) (earlier moves : List Move)
    (valid : ∀ s, .publish s ∈ moves → s.Validates config.validation) :
    ∃ e, (launched earlier config moves).engine? 0 = some e ∧
      (∀ n t, e.toolbox? n = some t → t.schema.name = n ∧ t.BuiltBy config dialect) ∧
      (e.entityNames ≠ [] → ∀ more, ∃ e',
        (launched earlier config (moves ++ more)).engine? 0 = some e' ∧
        e'.entityNames = e.entityNames) ∧
      (∀ s, ∃ e', (launched earlier config (moves ++ [.publish s])).engine? 0 = some e' ∧
        ∀ n, n ≠ s.name → e'.toolbox? n = e.toolbox? n) ∧
      ∀ n t, e.toolbox? n = some t →
        ((launched earlier config moves).store.current? n = some t.schema ∨
          ∃ s, (launched earlier config moves).store.current? n = some s ∧
            ¬ s.Derives config dialect) ∧
        Follows earlier config dialect moves n t.schema := by
  obtain ⟨e, coherent⟩ := exists_coherent resolved earlier moves valid
  have wired := wired_launched earlier config moves
  refine ⟨e, coherent.there, fun n t found => ?_, fun full more => ?_, fun s => ?_,
    fun n t found => ?_⟩
  · obtain ⟨named, parts⟩ := (wired.sound 0 e coherent.there).built n t found
    rw [coherent.configured, coherent.resolved] at parts
    exact ⟨named, parts⟩
  · rw [launched_append]
    exact wired.entityNames_run coherent.there (Engine.isPrepared_iff.mpr full) more
  · rw [launched_concat]
    rcases wired.engine?_publish s coherent.there with same | ⟨same, _⟩
    · exact ⟨_, same, fun n other => Engine.toolbox?_refreshed_of_ne other⟩
    · exact ⟨e, same, fun n _ => rfl⟩
  · have follows := coherent.follows n t found
    exact ⟨follows.current?_cases, follows⟩

/-- Notes are prepared, then get a mail address, and then lose their number. -/
def noteMoves : List Move := [.prepare ["Note"], .publish mailedNote, .publish keylessNote]

theorem cache_coherent_notes :
    ∃ e t, (launched [.register noteSchema] .standard noteMoves).engine? 0 = some e ∧
      e.toolbox? "Note" = some t ∧ t.schema = mailedNote ∧
      Follows [.register noteSchema] .standard .postgres noteMoves "Note" mailedNote := by
  have resolved : EngineConfig.standard.resolve = .ok .postgres := rfl
  have valid : ∀ s, .publish s ∈ noteMoves → s.Validates EngineConfig.standard.validation := by
    intro s member
    simp only [noteMoves, List.mem_cons, reduceCtorEq, Move.publish.injEq, List.not_mem_nil, or_false,
      false_or] at member
    rcases member with rfl | rfl
    · exact Bool.rec ⟨_, rfl⟩ ⟨_, rfl⟩
    · exact Bool.rec ⟨_, rfl⟩ ⟨_, rfl⟩
  obtain ⟨e, there, _, _, _, follows⟩ := cache_coherent resolved [.register noteSchema] noteMoves valid
  have ran : (launched [.register noteSchema] .standard noteMoves).engine? 0 = some _ := rfl
  rw [ran] at there
  cases there
  exact ⟨_, _, ran, rfl, rfl, (follows "Note" _ rfl).2⟩

end Deployment

end EntitySchema
