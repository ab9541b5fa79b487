import EntitySchema.Engine.Toolbox

/-!
Engines. An engine caches the toolboxes of the entities that it was prepared for, by entity name,
and follows later revisions of their schemas.
-/

namespace EntitySchema

structure Engine where
  config : EngineConfig
  dialect : Sql.Dialect
  cache : KeyMap Toolbox
  /-- The engine is told of every revision. -/
  subscribed : Bool

namespace Engine

/-- An engine with an empty cache. -/
def create (config : EngineConfig) : Except EngineError Engine :=
  config.resolve.map fun dialect => ⟨config, dialect, .empty, false⟩

def isPrepared (e : Engine) : Bool := !e.cache.isEmpty

/-- The names of the cached entities in order. -/
def entityNames (e : Engine) : List String := e.cache.keys

def toolbox? (e : Engine) (name : String) : Option Toolbox := e.cache.get? name

def build (e : Engine) (s : Schema) : Except EngineError Toolbox :=
  Toolbox.build e.config e.dialect s

/-- The compiler of statements for a cached entity. -/
def compiler? (e : Engine) (name : String) : Option Sql.Compiler :=
  (e.toolbox? name).map fun t => ⟨t.entity, e.dialect⟩

/-- The toolboxes of schemas; of two schemas with one name the later stays. -/
def buildAll (e : Engine) (schemas : List Schema) : Except EngineError (KeyMap Toolbox) :=
  schemas.foldlM (fun built s => (e.build s).map fun t => built.insert s.name t) .empty

/-- Fills the cache with the schemas that a source answers for the names, and asks to be told of
revisions. A cache that is not empty stays as it is. Every name has to be among the answers, and
either all of them are installed or none is. -/
def prepare (e : Engine) (source : List String → Except ProviderError (List Schema))
    (names : List String) : Except EngineError Engine :=
  if e.isPrepared then .ok e
  else do
    let schemas ← (source names).mapError .provider
    let built ← e.buildAll schemas
    match names.find? (fun name => !built.contains name) with
    | some name => .error (.missingSchema name)
    | none => .ok { e with cache := built, subscribed := true }

/-- Rebuilds a cached entity from a revision of its schema. An entity that is not cached is left
out, and one whose table cannot be derived keeps its toolbox. A rule that cannot apply is
reported. -/
def refresh (e : Engine) (s : Schema) : Except Validation.Misconfigured Engine :=
  if e.cache.contains s.name then
    match e.build s with
    | .ok t => .ok { e with cache := e.cache.insert s.name t }
    | .error (.misconfigured cause) => .error cause
    | .error _ => .ok e
  else .ok e

end Engine

end EntitySchema
