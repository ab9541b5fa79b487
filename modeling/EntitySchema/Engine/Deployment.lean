import EntitySchema.Engine.Basic

/-!
A store of schemas together with the engines that it feeds. The store keeps the authored schemas and
the newest published revision of each; publishing tells every engine that has asked for it.
-/

namespace EntitySchema

/-- The authored schemas and the newest revisions of those that were published. -/
structure SchemaStore where
  registry : Registry Schema
  revisions : KeyMap Schema

namespace SchemaStore

/-- A store that holds authored schemas only. -/
def ofSchemas (schemas : List Schema) : Except RegistryError SchemaStore :=
  ((Registry.empty : Registry Schema).registerAll schemas).map fun registry => ⟨registry, .empty⟩

/-- The newest revision, or else the authored schema. -/
def current? (s : SchemaStore) (name : String) : Option Schema :=
  s.revisions.get? name <|> s.registry.get? name

/-- The schemas of the names in turn. -/
def schemas (s : SchemaStore) (names : List String) : Except ProviderError (List Schema) :=
  names.mapM fun name =>
    match s.current? name with
    | some schema => .ok schema
    | none => .error (.notFound name)

def register (s : SchemaStore) (schema : Schema) : Except RegistryError SchemaStore :=
  (s.registry.register schema).map fun registry => { s with registry }

/-- Keeps a schema as the newest revision of its entity. -/
def record (s : SchemaStore) (schema : Schema) : SchemaStore :=
  { s with revisions := s.revisions.insert schema.name schema }

end SchemaStore

/-- A store, the engines by number, and the numbers of those that are told of revisions, in the
order in which they asked. An engine that is gone leaves its place empty, and its number stays. -/
structure Deployment where
  store : SchemaStore
  engines : List (Option Engine)
  subscribers : List Nat

namespace Deployment

/-- A store of authored schemas without engines. -/
def ofSchemas (schemas : List Schema) : Except RegistryError Deployment :=
  (SchemaStore.ofSchemas schemas).map fun store => ⟨store, [], []⟩

def engine? (d : Deployment) (i : Nat) : Option Engine := (d.engines[i]?).join

/-- Adds an engine, which gets the next number. -/
def start (d : Deployment) (config : EngineConfig) : Except EngineError Deployment :=
  (Engine.create config).map fun e => { d with engines := d.engines ++ [some e] }

/-- Takes an engine away. -/
def stop (d : Deployment) (i : Nat) : Deployment := { d with engines := d.engines.set i none }

/-- Prepares an engine from a source of schemas. -/
def prepareFrom (d : Deployment) (i : Nat) (source : List String → Except ProviderError (List Schema))
    (names : List String) : Except EngineError Deployment :=
  match d.engine? i with
  | none => .ok d
  | some e => (e.prepare source names).map fun next =>
    { d with
      engines := d.engines.set i (some next)
      subscribers := if next.subscribed && !e.subscribed then d.subscribers ++ [i] else d.subscribers }

/-- Prepares an engine from the store. -/
def prepare (d : Deployment) (i : Nat) (names : List String) : Except EngineError Deployment :=
  d.prepareFrom i d.store.schemas names

/-- Adds an authored schema. -/
def register (d : Deployment) (schema : Schema) : Except RegistryError Deployment :=
  (d.store.register schema).map fun store => { d with store }

/-- Tells engines of a revision, one after the other. The first one that reports a rule that cannot
apply ends the round. -/
def tell (schema : Schema) :
    List Nat → List (Option Engine) → List (Option Engine) × Option Validation.Misconfigured
  | [], engines => (engines, none)
  | i :: rest, engines =>
    match (engines[i]?).join with
    | none => tell schema rest engines
    | some e =>
      match e.refresh schema with
      | .ok next => tell schema rest (engines.set i (some next))
      | .error cause => (engines, some cause)

/-- Records a revision and tells the engines of it, together with what one of them reports. -/
def publish (d : Deployment) (schema : Schema) : Deployment × Option Validation.Misconfigured :=
  let (engines, report) := tell schema d.subscribers d.engines
  ({ d with store := d.store.record schema, engines }, report)

end Deployment

end EntitySchema
