import EntitySchema.Proofs.Engine.Deployment

/-!
Calls on a deployment, carried out in place: what a call has changed before it fails stays changed. A
run is calls one after the other, those that fail among them. Starting, registering and preparing do
all that can fail before they change anything; publishing does not.
-/

namespace EntitySchema

/-- What is answered to a question for schemas, by whoever answers it. -/
abbrev SchemaSource := SchemaStore → List String → Except ProviderError (List Schema)

/-- A call on a deployment. Engines go by their number. -/
inductive Call where
  | start (config : EngineConfig)
  | stop (engine : Nat)
  | register (s : Schema)
  | publish (s : Schema)
  | prepare (engine : Nat) (source : SchemaSource) (names : List String)

namespace Deployment

/-! Work in place. -/

/-- Work on a deployment that may fail half-way, and then leaves what it has done so far. -/
abbrev Work := ExceptT EngineError (StateM Deployment)

/-- Builds the toolboxes of schemas one by one. -/
def buildEach (e : Engine) (schemas : List Schema) : Work (KeyMap Toolbox) :=
  schemas.foldlM (fun built s => return built.insert s.name (← e.build s)) .empty

def changeEngine (i : Nat) (change : Engine → Engine) : Work Unit :=
  modify fun d => { d with engines := d.engines.modify i (Option.map change) }

/-- Fills the cache of an engine and subscribes it, unless it is told already. -/
def install (i : Nat) (built : KeyMap Toolbox) (told : Bool) : Work Unit := do
  changeEngine i fun e => { e with cache := built }
  unless told do
    changeEngine i fun e => { e with subscribed := true }
    modify fun d => { d with subscribers := d.subscribers ++ [i] }

/-- Prepares an engine step by step: it asks, builds, looks for what is missing, and installs. -/
def prepareInPlace (i : Nat) (source : SchemaSource) (names : List String) : Work Unit := do
  let d ← get
  match d.engine? i with
  | none => return
  | some e =>
    if e.isPrepared then return
    let schemas ← (source d.store names).mapError EngineError.provider
    let built ← buildEach e schemas
    if let some missing := names.find? fun name => !built.contains name then
      throw (.missingSchema missing)
    install i built e.subscribed

/-- Carries a call out. A revision that an engine reports stays recorded, and so does what the engines
before it made of it. -/
def perform : Call → Work Unit
  | .start config => do set (← (← get).start config)
  | .stop i => modify (·.stop i)
  | .register s => do set (← ((← get).register s).mapError EngineError.registry)
  | .publish s => do
    let (next, report) := (← get).publish s
    set next
    if let some reason := report then throw (.misconfigured reason)
  | .prepare i source names => prepareInPlace i source names

/-- What a call is answered with. -/
def answer (d : Deployment) (c : Call) : Except EngineError Unit := ((perform c).run d).1

/-- The deployment that a call leaves behind. -/
def after (d : Deployment) (c : Call) : Deployment := ((perform c).run d).2

def run (d : Deployment) (calls : List Call) : Deployment := calls.foldl after d

/-- What the calls of a run are answered with. -/
def answers : Deployment → List Call → List (Except EngineError Unit)
  | _, [] => []
  | d, c :: rest => d.answer c :: answers (d.after c) rest

/-- A deployment without schemas and engines. -/
def empty : Deployment := ⟨⟨.empty, .empty⟩, [], []⟩

theorem run_concat (d : Deployment) (calls : List Call) (c : Call) :
    d.run (calls ++ [c]) = (d.run calls).after c := by
  rw [run, List.foldl_concat]
  rfl

variable {d next : Deployment} {i j : Nat} {e : Engine} {s : Schema} {source : SchemaSource}
  {names : List String} {built : KeyMap Toolbox}

/-- Work that gives another deployment or fails and changes nothing. -/
def settled (d : Deployment) : Except EngineError Deployment → Except EngineError Unit × Deployment
  | .ok next => (.ok (), next)
  | .error cause => (.error cause, d)

theorem run_bind_of_ok {α β : Type} (work : Work α) {rest : α → Work β} {a : α}
    (done : work.run d = (.ok a, next)) : (work >>= rest).run d = (rest a).run next := by
  change ExceptT.bindCont rest (work.run d).1 (work.run d).2 = _
  rw [done]
  rfl

theorem run_bind_of_error {α β : Type} (work : Work α) {rest : α → Work β} {cause : EngineError}
    (failed : work.run d = (.error cause, next)) :
    (work >>= rest).run d = (.error cause, next) := by
  change ExceptT.bindCont rest (work.run d).1 (work.run d).2 = _
  rw [failed]
  rfl

theorem run_buildEach (e : Engine) (schemas : List Schema) (d : Deployment) :
    (buildEach e schemas).run d = (e.buildAll schemas, d) := by
  unfold buildEach Engine.buildAll
  generalize KeyMap.empty = before
  induction schemas generalizing before with
  | nil => rfl
  | cons s rest ih =>
    rw [List.foldlM_cons, List.foldlM_cons]
    cases outcome : e.build s with
    | error cause => rfl
    | ok t => exact ih (before.insert s.name t)

theorem run_changeEngine (there : d.engine? i = some e) (change : Engine → Engine) :
    (changeEngine i change).run d =
      (.ok (), { d with engines := d.engines.set i (some (change e)) }) := by
  have changed : d.engines.modify i (Option.map change) = d.engines.set i (some (change e)) := by
    rw [List.modify_eq_set_getElem?, engineAt_eq_some.mp there]
    rfl
  rw [← changed]
  rfl

theorem run_install (there : d.engine? i = some e) :
    (install i built e.subscribed).run d = (.ok (), d.installed i e built) := by
  rw [install, run_bind_of_ok _ (run_changeEngine there _), installed, Engine.installed]
  cases told : e.subscribed with
  | true => rfl
  | false =>
    have changed : engine? { d with engines := d.engines.set i (some { e with cache := built }) } i =
        some { e with cache := built } := by
      rw [engine?_set there, if_pos rfl]
    rw [told] at changed
    rw [if_neg Bool.false_ne_true, if_neg Bool.false_ne_true]
    rw [run_bind_of_ok _ (run_changeEngine changed _), List.set_set]
    rfl

/-- Nothing is changed in place before the last step that can fail. -/
theorem perform_prepare : (perform (.prepare i source names)).run d =
    d.settled (d.prepareFrom i (source d.store) names) := by
  change (prepareInPlace i source names).run d = _
  unfold prepareInPlace prepareFrom Engine.prepare
  rw [run_bind_of_ok get rfl]
  cases there : d.engine? i with
  | none => rfl
  | some e =>
    dsimp only
    cases prepared : e.isPrepared with
    | true =>
      rw [if_pos rfl, if_pos rfl]
      change _ = d.settled (.ok { d with engines := d.engines.set i (some e), subscribers := _ })
      rw [set_engineAt there, Bool.and_not_self]
      rfl
    | false =>
      rw [if_neg Bool.false_ne_true, if_neg Bool.false_ne_true]
      cases answered : (source d.store names).mapError EngineError.provider with
      | error cause => rfl
      | ok schemas =>
        rw [run_bind_of_ok (liftM (Except.ok schemas : Except EngineError (List Schema))) rfl]
        cases ok : e.buildAll schemas with
        | error cause =>
          rw [run_bind_of_error (buildEach e schemas) (by rw [run_buildEach, ok])]
          change _ = d.settled (Except.map _ (e.buildAll schemas >>= _))
          rw [ok]
          rfl
        | ok built =>
          rw [run_bind_of_ok (buildEach e schemas) (by rw [run_buildEach, ok])]
          simp only [bind, Except.bind, ok]
          cases names.find? fun name => !built.contains name with
          | some missing => rfl
          | none =>
            change (install i built e.subscribed).run d = _
            rw [run_install there, installed]
            cases e.subscribed <;> rfl

theorem perform_start (config : EngineConfig) :
    (perform (.start config)).run d = d.settled (d.start config) := by
  change (get >>= fun d => _ : Work Unit).run d = _
  rw [run_bind_of_ok get rfl]
  cases d.start config <;> rfl

theorem perform_register (s : Schema) :
    (perform (.register s)).run d = d.settled ((d.register s).mapError .registry) := by
  change (get >>= fun d => _ : Work Unit).run d = _
  rw [run_bind_of_ok get rfl]
  cases d.register s <;> rfl

theorem after_stop (i : Nat) : d.after (.stop i) = d.stop i := rfl

theorem after_publish (s : Schema) : d.after (.publish s) = (d.publish s).1 := by
  change ((get >>= fun d => _ : Work Unit).run d).2 = _
  rw [run_bind_of_ok get rfl]
  dsimp only
  rw [run_bind_of_ok (set (d.publish s).1) rfl]
  cases (d.publish s).2 <;> rfl

/-- A revision that no engine reports is answered with nothing. -/
theorem answer_publish (s : Schema) : d.answer (.publish s) = .ok () ↔ (d.publish s).2 = none := by
  change ((get >>= fun d => _ : Work Unit).run d).1 = _ ↔ _
  rw [run_bind_of_ok get rfl]
  dsimp only
  rw [run_bind_of_ok (set (d.publish s).1) rfl]
  cases (d.publish s).2 with
  | none => exact iff_of_true rfl rfl
  | some reason => exact iff_of_false nofun nofun

end Deployment

end EntitySchema
