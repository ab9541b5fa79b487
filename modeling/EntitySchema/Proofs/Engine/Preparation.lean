import EntitySchema.Proofs.Engine.Run

/-!
Preparing is all or nothing, whatever a source answers: a failure leaves no trace, a success fills the
cache with everything that was asked for, and an engine subscribes once in a run, with the first
success that goes past the cache.
-/

namespace EntitySchema.Deployment

variable {d next : Deployment} {i j : Nat} {e : Engine} {source : SchemaSource} {names : List String}
  {built : KeyMap Toolbox}

theorem after_of_error {cause : EngineError}
    (failed : d.answer (.prepare i source names) = .error cause) :
    d.after (.prepare i source names) = d := by
  rcases after_prepare_cases d i source names with ⟨_, same⟩ | ⟨e, built, there, fills, _⟩
  · exact same
  · rw [(prepares_iff.mpr ⟨e, built, there, fills⟩).2] at failed
    cases failed

theorem Prepares.exists_engine (prepares : d.Prepares i source names) :
    ∃ e', (d.after (.prepare i source names)).engine? i = some e' ∧
      ∀ name ∈ names, name ∈ e'.entityNames := by
  obtain ⟨e, built, there, fills⟩ := prepares_iff.mp prepares
  refine ⟨e.installed built, ?_, fun name asked => ?_⟩
  · rw [after, perform_of_fills there fills, engine?_installed there, if_pos rfl]
  · exact KeyMap.contains_iff_mem_keys.mp (fills.complete name asked)

/-- An engine comes to the subscribers by a preparation that goes past its cache, and in no other way. -/
theorem Wired.mem_subscribers_after (wired : d.Wired) (c : Call) (i : Nat) :
    i ∈ (d.after c).subscribers ↔
      i ∈ d.subscribers ∨ ∃ source names, c = .prepare i source names ∧ d.Prepares i source names := by
  have idle (same : (d.after c).subscribers = d.subscribers)
      (none : ∀ source names, c = .prepare i source names → ¬ d.Prepares i source names) :
      i ∈ (d.after c).subscribers ↔
        i ∈ d.subscribers ∨
          ∃ source names, c = .prepare i source names ∧ d.Prepares i source names := by
    rw [same, or_iff_left]
    rintro ⟨source, names, here, prepares⟩
    exact none source names here prepares
  cases c with
  | prepare j source names =>
    rcases after_prepare_cases d j source names with ⟨none, same⟩ | ⟨e, built, there, fills, same⟩
    · apply idle (by rw [same])
      rintro _ _ here
      cases here
      exact none
    · rw [same, wired.mem_subscribers_installed there]
      apply or_congr_right
      constructor
      · rintro rfl
        exact ⟨source, names, rfl, prepares_iff.mpr ⟨e, built, there, fills⟩⟩
      · rintro ⟨_, _, here, _⟩
        cases here
        rfl
  | _ => exact idle (subscribers_after nofun) nofun

/-- The engines that are told of revisions are those that were prepared. -/
theorem mem_subscribers_run (calls : List Call) (i : Nat) : i ∈ (empty.run calls).subscribers ↔
    ∃ before source names later, calls = before ++ .prepare i source names :: later ∧
      (empty.run before).Prepares i source names := by
  induction calls using List.reverseRecOn with
  | nil => simp [run, empty]
  | append_singleton calls c ih =>
    rw [run_concat, (wired_run calls).mem_subscribers_after, ih]
    constructor
    · rintro (⟨before, source, names, later, rfl, prepares⟩ | ⟨source, names, rfl, prepares⟩)
      · exact ⟨before, source, names, later ++ [c], by simp, prepares⟩
      · exact ⟨calls, source, names, [], rfl, prepares⟩
    · rintro ⟨before, source, names, later, split, prepares⟩
      rcases List.eq_nil_or_concat later with rfl | ⟨later, last, rfl⟩
      · obtain ⟨rfl, same⟩ := List.append_inj' split rfl
        cases same
        exact .inr ⟨source, names, rfl, prepares⟩
      · rw [List.concat_eq_append, ← List.cons_append, ← List.append_assoc] at split
        obtain ⟨rfl, _⟩ := List.append_inj' split rfl
        exact .inl ⟨before, source, names, later, rfl, prepares⟩

/-- A preparation that fails leaves the deployment as it was, so that whatever is called later comes out
as if it had not been there. One that succeeds on an empty cache has every name in the cache. In a run
an engine is put among the subscribers at most once, and it is once some preparation has gone past
its cache and succeeded. -/
theorem prepare_all_or_nothing (d : Deployment) (i : Nat) (source : SchemaSource)
    (names : List String) (calls : List Call) :
    (∀ cause, d.answer (.prepare i source names) = .error cause →
      d.after (.prepare i source names) = d ∧
      ∀ later, (d.after (.prepare i source names)).answers later = d.answers later ∧
        (d.after (.prepare i source names)).run later = d.run later) ∧
    (∀ e, d.engine? i = some e → e.isPrepared = false →
      d.answer (.prepare i source names) = .ok () →
      ∃ e', (d.after (.prepare i source names)).engine? i = some e' ∧
        ∀ name ∈ names, ∃ t, e'.toolbox? name = some t) ∧
    (empty.run calls).subscribers.count i ≤ 1 ∧
    ((empty.run calls).subscribers.count i = 1 ↔
      ∃ before source names later, calls = before ++ .prepare i source names :: later ∧
        (empty.run before).Prepares i source names) := by
  have once := (wired_run calls).once
  refine ⟨fun cause failed => ?_, fun e there unprepared ok => ?_, ?_, ?_⟩
  · rw [after_of_error failed]
    exact ⟨rfl, fun later => ⟨rfl, rfl⟩⟩
  · have prepares : d.Prepares i source names := ⟨⟨e, there, unprepared⟩, ok⟩
    obtain ⟨e', here, complete⟩ := prepares.exists_engine
    exact ⟨e', here, fun name asked => Engine.mem_entityNames.mp (complete name asked)⟩
  · exact List.nodup_iff_count_le_one.mp once i
  · rw [← mem_subscribers_run, once.count]
    split_ifs with member <;> simp [member]

/-- A source that knows of notes only, whatever it is asked for. -/
def noteSource : SchemaSource := fun _ _ => .ok [noteSchema]

/-- An engine that has not been prepared. -/
def idle : Deployment := empty.after (.start .standard)

theorem prepare_all_or_nothing_note :
    idle.after (.prepare 0 noteSource ["Note", "Ghost"]) = idle ∧
    (∃ e, (idle.after (.prepare 0 noteSource ["Note"])).engine? 0 = some e ∧
      ∃ t, e.toolbox? "Note" = some t) ∧
    (empty.run [.start .standard, .prepare 0 noteSource ["Note", "Ghost"],
      .prepare 0 noteSource ["Note"], .prepare 0 noteSource ["Note"]]).subscribers.count 0 = 1 := by
  refine ⟨?_, ?_, ?_⟩
  · exact ((prepare_all_or_nothing idle 0 noteSource ["Note", "Ghost"] []).1
      (.missingSchema "Ghost") rfl).1
  · obtain ⟨e, there, complete⟩ :=
      (prepare_all_or_nothing idle 0 noteSource ["Note"] []).2.1 _ rfl rfl rfl
    exact ⟨e, there, complete "Note" (.head _)⟩
  · refine (prepare_all_or_nothing idle 0 noteSource ["Note"] _).2.2.2.mpr ?_
    exact ⟨[.start .standard, .prepare 0 noteSource ["Note", "Ghost"]], noteSource, ["Note"],
      [.prepare 0 noteSource ["Note"]], rfl, ⟨_, rfl, rfl⟩, rfl⟩

end EntitySchema.Deployment
