import EntitySchema.Proofs.Engine.Call
import Mathlib.Data.List.Induction

/-!
What every run keeps. An engine is among the subscribers exactly if it has subscribed, and only once; it
has subscribed if it has anything in its cache, and its cache is sound.
-/

namespace EntitySchema.Deployment

variable {d next : Deployment} {i j : Nat} {e f : Engine} {s : Schema} {source : SchemaSource}
  {names : List String} {built : KeyMap Toolbox}

/-! What one call does. -/

theorem settled_cases (d : Deployment) (outcome : Except EngineError Deployment) :
    (∃ cause, outcome = .error cause ∧ d.settled outcome = (.error cause, d)) ∨
      ∃ next, outcome = .ok next ∧ d.settled outcome = (.ok (), next) := by
  cases outcome with
  | error cause => exact .inl ⟨cause, rfl, rfl⟩
  | ok next => exact .inr ⟨next, rfl, rfl⟩

/-- Preparing fails and changes nothing, or finds a filled cache or no engine, or fills the cache. -/
theorem perform_prepare_cases (d : Deployment) (i : Nat) (source : SchemaSource)
    (names : List String) :
    (∃ cause, (perform (.prepare i source names)).run d = (.error cause, d)) ∨
    ((perform (.prepare i source names)).run d = (.ok (), d) ∧
      ∀ e, d.engine? i = some e → e.isPrepared = true) ∨
    ∃ e built, d.engine? i = some e ∧ e.Fills (source d.store names) names built ∧
      (perform (.prepare i source names)).run d = (.ok (), d.installed i e built) := by
  rw [perform_prepare]
  rcases settled_cases d (d.prepareFrom i (source d.store) names) with
    ⟨cause, _, failed⟩ | ⟨next, ok, done⟩
  · exact .inl ⟨cause, failed⟩
  · rcases prepareFrom_eq_ok.mp ok with
      ⟨absent, rfl⟩ | ⟨e, there, ⟨prepared, rfl⟩ | ⟨built, fills, rfl⟩⟩
    · refine .inr (.inl ⟨done, fun e there => ?_⟩)
      rw [absent] at there
      cases there
    · refine .inr (.inl ⟨done, fun f here => ?_⟩)
      rw [there] at here
      cases here
      exact prepared
    · exact .inr (.inr ⟨e, built, there, fills, done⟩)

theorem perform_of_fills (there : d.engine? i = some e)
    (fills : e.Fills (source d.store names) names built) :
    (perform (.prepare i source names)).run d = (.ok (), d.installed i e built) := by
  rw [perform_prepare, prepareFrom_eq_ok.mpr (.inr ⟨e, there, .inr ⟨built, fills, rfl⟩⟩)]
  rfl

theorem answer_prepare (there : d.engine? i = some e) : d.answer (.prepare i source names) =
    (e.prepare (source d.store) names).map fun _ => () := by
  rw [answer, perform_prepare, prepareFrom, there]
  dsimp only
  cases e.prepare (source d.store) names <;> rfl

/-- Preparing an engine goes past its cache, which is empty, and succeeds. -/
def Prepares (d : Deployment) (i : Nat) (source : SchemaSource) (names : List String) : Prop :=
  (∃ e, d.engine? i = some e ∧ e.isPrepared = false) ∧ d.answer (.prepare i source names) = .ok ()

theorem prepares_iff : d.Prepares i source names ↔
    ∃ e built, d.engine? i = some e ∧ e.Fills (source d.store names) names built := by
  constructor
  · rintro ⟨⟨e, there, unprepared⟩, ok⟩
    unfold answer at ok
    rcases perform_prepare_cases d i source names with ⟨cause, failed⟩ | ⟨_, idle⟩ | filled
    · rw [failed] at ok
      cases ok
    · rw [idle e there] at unprepared
      cases unprepared
    · obtain ⟨e, built, there, fills, _⟩ := filled
      exact ⟨e, built, there, fills⟩
  · rintro ⟨e, built, there, fills⟩
    refine ⟨⟨e, there, fills.unprepared⟩, ?_⟩
    rw [answer, perform_of_fills there fills]

/-- A preparation leaves everything as it is, or goes past an empty cache and fills it. -/
theorem after_prepare_cases (d : Deployment) (i : Nat) (source : SchemaSource) (names : List String) :
    (¬ d.Prepares i source names ∧ d.after (.prepare i source names) = d) ∨
    ∃ e built, d.engine? i = some e ∧ e.Fills (source d.store names) names built ∧
      d.after (.prepare i source names) = d.installed i e built := by
  unfold Prepares answer after
  rcases perform_prepare_cases d i source names with ⟨cause, failed⟩ | ⟨same, full⟩ | filled
  · rw [failed]
    refine .inl ⟨?_, rfl⟩
    rintro ⟨_, wrong⟩
    cases wrong
  · rw [same]
    refine .inl ⟨?_, rfl⟩
    rintro ⟨⟨e, there, unprepared⟩, _⟩
    rw [full e there] at unprepared
    cases unprepared
  · obtain ⟨e, built, there, fills, done⟩ := filled
    rw [done]
    exact .inr ⟨e, built, there, fills, rfl⟩

theorem engine?_installed (there : d.engine? i = some e) :
    (d.installed i e built).engine? j = if j = i then some (e.installed built) else d.engine? j :=
  engineAt_set (lt_length_of_engineAt there)

theorem start_eq_ok {config : EngineConfig} : d.start config = .ok next ↔
    ∃ e, Engine.create config = .ok e ∧ next = { d with engines := d.engines ++ [some e] } := by
  rw [start, Outcome.map_eq_ok]
  simp only [eq_comm]

theorem after_start {config : EngineConfig} (created : Engine.create config = .ok e) :
    d.after (.start config) = { d with engines := d.engines ++ [some e] } := by
  rw [after, perform_start, start_eq_ok.mpr ⟨e, created, rfl⟩]
  rfl

theorem after_start_cases (d : Deployment) (config : EngineConfig) :
    d.after (.start config) = d ∨ ∃ e, Engine.create config = .ok e ∧
      d.after (.start config) = { d with engines := d.engines ++ [some e] } := by
  rw [after, perform_start]
  rcases settled_cases d (d.start config) with ⟨_, _, same⟩ | ⟨next, ok, done⟩
  · exact .inl (congrArg Prod.snd same)
  · obtain ⟨e, created, rfl⟩ := start_eq_ok.mp ok
    exact .inr ⟨e, created, congrArg Prod.snd done⟩

/-- Registering changes the store at most. -/
theorem after_register_cases (d : Deployment) (s : Schema) :
    d.after (.register s) = d ∨
      ∃ store, d.store.register s = .ok store ∧ d.after (.register s) = { d with store } := by
  rw [after, perform_register]
  rcases settled_cases d ((d.register s).mapError .registry) with ⟨_, _, same⟩ | ⟨next, ok, done⟩
  · exact .inl (congrArg Prod.snd same)
  · obtain ⟨store, registered, rfl⟩ := Outcome.map_eq_ok.mp (Outcome.mapError_eq_ok.mp ok)
    exact .inr ⟨store, registered, congrArg Prod.snd done⟩

theorem engine?_stop (d : Deployment) (i j : Nat) :
    (d.stop i).engine? j = if j = i then none else d.engine? j := by
  by_cases inside : i < d.engines.length
  · exact engineAt_set inside
  · change engineAt (d.engines.set i none) j = _
    rw [List.set_eq_of_length_le (not_lt.mp inside)]
    split_ifs with same
    · rw [engineAt, same, List.getElem?_eq_none (not_lt.mp inside)]
      rfl
    · rfl

/-! What a run keeps. -/

structure Wired (d : Deployment) : Prop where
  once : d.subscribers.Nodup
  known : ∀ i ∈ d.subscribers, i < d.engines.length
  told : ∀ i e, d.engine? i = some e → (e.subscribed = true ↔ i ∈ d.subscribers)
  sound : ∀ i e, d.engine? i = some e → e.Sound

/-- A call that leaves the subscribers alone may change engines that have a place, as long as they stay
subscribed or not, and may add engines that are not subscribed yet. -/
theorem Wired.of_frame (wired : d.Wired) (subscribers : next.subscribers = d.subscribers)
    (length : d.engines.length ≤ next.engines.length)
    (engines : ∀ i f, next.engine? i = some f → f.Sound ∧
      ((∃ e, d.engine? i = some e ∧ f.subscribed = e.subscribed) ∨
        (d.engines.length ≤ i ∧ f.subscribed = false))) : next.Wired where
  once := subscribers ▸ wired.once
  known i member := (wired.known i (subscribers ▸ member)).trans_le length
  told i f there := by
    rw [subscribers]
    rcases (engines i f there).2 with ⟨e, here, same⟩ | ⟨fresh, silent⟩
    · rw [same]
      exact wired.told i e here
    · rw [silent]
      exact iff_of_false Bool.false_ne_true fun member => (wired.known i member).not_ge fresh
  sound i f there := (engines i f there).1

theorem Wired.mem_subscribers_installed (wired : d.Wired) (there : d.engine? i = some e) :
    j ∈ (d.installed i e built).subscribers ↔ j ∈ d.subscribers ∨ j = i := by
  unfold Deployment.installed
  cases told : e.subscribed with
  | true =>
    have own := (wired.told i e there).mp told
    exact (or_iff_left_of_imp fun same => same ▸ own).symm
  | false => exact List.mem_append.trans (or_congr_right List.mem_singleton)

theorem Wired.installed (wired : d.Wired) (there : d.engine? i = some e)
    {answer : Except ProviderError (List Schema)} (fills : e.Fills answer names built) :
    (d.installed i e built).Wired := by
  have inside := lt_length_of_engineAt there
  refine ⟨?_, fun j told => ?_, fun j f here => ?_, fun j f here => ?_⟩
  · unfold Deployment.installed
    cases told : e.subscribed with
    | true => exact wired.once
    | false =>
      refine List.nodup_append.mpr ⟨wired.once, List.nodup_singleton i, ?_⟩
      rintro j before _ single rfl
      rw [List.mem_singleton.mp single, ← wired.told i e there, told] at before
      cases before
  · refine Nat.lt_of_lt_of_eq ?_ List.length_set.symm
    rcases (wired.mem_subscribers_installed there).mp told with before | rfl
    · exact wired.known j before
    · exact inside
  · rw [engine?_installed there] at here
    rw [wired.mem_subscribers_installed there]
    split_ifs at here with same
    · cases here
      exact iff_of_true rfl (.inr same)
    · rw [or_iff_left same]
      exact wired.told j f here
  · rw [engine?_installed there] at here
    split_ifs at here
    · cases here
      exact fills.sound
    · exact wired.sound j f here

/-- What publishing does to the engines. -/
theorem Wired.exists_round (wired : d.Wired) (s : Schema) : ∃ told rest,
    d.subscribers = told ++ rest ∧
      Round s d.engines told rest ((d.publish s).1.engines, (d.publish s).2) :=
  Deployment.exists_round s wired.once d.engines

theorem Wired.publish (wired : d.Wired) (s : Schema) : (d.publish s).1.Wired := by
  obtain ⟨told, rest, _, round⟩ := wired.exists_round s
  refine wired.of_frame rfl round.length.ge fun i f there => ?_
  have here : engineAt (d.publish s).1.engines i = some f := there
  rw [round.engine] at here
  split_ifs at here
  · obtain ⟨e, before, rfl⟩ := Option.map_eq_some_iff.mp here
    exact ⟨(wired.sound i e before).refreshed s, .inl ⟨e, before, (Engine.config_refreshed e s).2.2⟩⟩
  · exact ⟨wired.sound i f here, .inl ⟨f, here, rfl⟩⟩

/-- Only a preparation changes the subscribers. -/
theorem subscribers_after {c : Call} (other : ∀ i source names, c ≠ .prepare i source names) :
    (d.after c).subscribers = d.subscribers := by
  cases c with
  | start config => rcases after_start_cases d config with same | ⟨e, _, same⟩ <;> rw [same]
  | stop j => rfl
  | register s => rcases after_register_cases d s with same | ⟨store, _, same⟩ <;> rw [same]
  | publish s =>
    rw [after_publish]
    rfl
  | prepare i source names => exact absurd rfl (other i source names)

theorem Wired.after (wired : d.Wired) (c : Call) : (d.after c).Wired := by
  cases c with
  | start config =>
    rcases after_start_cases d config with same | ⟨e, created, same⟩
    · rwa [same]
    · rw [same]
      refine wired.of_frame rfl (by simp) fun i f there => ?_
      change engineAt (d.engines ++ [some e]) i = some f at there
      rw [engineAt_concat] at there
      split_ifs at there with last
      · cases there
        obtain ⟨dialect, _, rfl⟩ := Outcome.map_eq_ok.mp created
        exact ⟨Engine.sound_create created, .inr ⟨last.ge, rfl⟩⟩
      · exact ⟨wired.sound i f there, .inl ⟨f, there, rfl⟩⟩
  | stop j =>
    refine wired.of_frame rfl List.length_set.ge fun i f there => ?_
    change (d.stop j).engine? i = some f at there
    rw [engine?_stop] at there
    split_ifs at there
    exact ⟨wired.sound i f there, .inl ⟨f, there, rfl⟩⟩
  | register s =>
    rcases after_register_cases d s with same | ⟨store, _, same⟩
    · rwa [same]
    · rw [same]
      exact ⟨wired.once, wired.known, wired.told, wired.sound⟩
  | publish s =>
    rw [after_publish]
    exact wired.publish s
  | prepare i source names =>
    rcases after_prepare_cases d i source names with ⟨_, same⟩ | ⟨e, built, there, fills, same⟩
    · rwa [same]
    · rw [same]
      exact wired.installed there fills

theorem wired_empty : empty.Wired := ⟨List.nodup_nil, nofun, nofun, nofun⟩

theorem wired_run (calls : List Call) : (empty.run calls).Wired := by
  induction calls using List.reverseRecOn with
  | nil => exact wired_empty
  | append_singleton calls c ih =>
    rw [run_concat]
    exact ih.after c

end EntitySchema.Deployment
