import EntitySchema.Engine.Error
import EntitySchema.Toml.Reader
import EntitySchema.Text.Case
import EntitySchema.Validation.Config

/-!
Engine settings: the dialect, the prefix of table names and the length bounds of validation. Each
setting has a standard value. Settings are kept as TOML documents; a file that cannot be used stands
for the standard settings.
-/

namespace EntitySchema

structure EngineConfig where
  /-- The name of the dialect, as written. -/
  dialect : String
  tablePrefix : String
  validation : Validation.Config
deriving DecidableEq

namespace EngineConfig

def standard : EngineConfig := ⟨"postgres", "", .standard⟩

instance : Inhabited EngineConfig := ⟨standard⟩

/-- The dialect that the name stands for. -/
def resolve (c : EngineConfig) : Except EngineError Sql.Dialect :=
  match Sql.Dialect.ofName? c.dialect with
  | some d => .ok d
  | none => .error (.unknownDialect c.dialect)

/-- The table of an entity: its name in lower case after the prefix. -/
def tableName (c : EngineConfig) (entity : String) : String := c.tablePrefix ++ Text.lower entity

def textOf? : Toml → Option String
  | .text s => some s
  | _ => none

def boundOf? : Toml → Option UInt32
  | .integer i =>
    if 0 ≤ i.toInt ∧ i.toInt ≤ maxUInt32 then some (UInt32.ofNat i.toInt.toNat) else none
  | _ => none

/-- The setting if it is there, or else the standard one. -/
def setting {α : Type} (standard : α) (read : Toml → Option α) : Option Toml → Option α
  | none => some standard
  | some t => read t

/-- The bounds of validation: a table, or an array with the least length and the greatest. A date has
none of the settings of the table. -/
def validationOf? : Toml → Option Validation.Config
  | .table _ entries => do
    let minLength ← setting Validation.Config.standard.minLength boundOf?
      (entries.get? "default_min_length")
    let maxLength ← setting Validation.Config.standard.maxLength boundOf?
      (entries.get? "default_max_length")
    some { minLength, maxLength }
  | .array items => do
    let minLength ← setting Validation.Config.standard.minLength boundOf? items[0]?
    let maxLength ← setting Validation.Config.standard.maxLength boundOf? items[1]?
    some { minLength, maxLength }
  | .moment _ => some .standard
  | _ => none

/-- The settings of a document; others are passed over. -/
def ofTable? (entries : KeyMap Toml) : Option EngineConfig := do
  let dialect ← setting standard.dialect textOf? (entries.get? "dialect")
  let tablePrefix ← setting standard.tablePrefix textOf? (entries.get? "table_prefix")
  let validation ← setting standard.validation validationOf? (entries.get? "validation")
  some { dialect, tablePrefix, validation }

/-- The settings of a TOML document that names a known dialect. -/
def parse (contents : String) : Except EngineError EngineConfig :=
  match (Toml.parse? contents).bind ofTable? with
  | none => .error .config
  | some c => c.resolve.map fun _ => c

/-- The settings of a file with the given bytes, or the standard ones if there is no file or it
cannot be used. -/
def ofFile (bytes : Option ByteArray) : EngineConfig :=
  match (bytes.bind String.fromUTF8?).map parse with
  | some (.ok c) => c
  | _ => standard

/-- Reads settings from JSON. -/
def decode? (j : Json) : Option EngineConfig := do
  let m ← j.members? ["dialect", "table_prefix", "validation"]
  let dialect ← m.optional "dialect" standard.dialect Json.text?
  let tablePrefix ← m.optional "table_prefix" standard.tablePrefix Json.text?
  let validation ← m.optional "validation" standard.validation Validation.Config.decode?
  some { dialect, tablePrefix, validation }

end EngineConfig

end EntitySchema
