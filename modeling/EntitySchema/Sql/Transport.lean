import EntitySchema.Sql.Entity
import EntitySchema.Sql.Search
import EntitySchema.Sql.Statement
import EntitySchema.Model.Transport

/-!
The JSON documents in which search requests, tables and statements travel.
-/

namespace EntitySchema.Sql

open Json

namespace Condition

def memberNames : List String := ["field", "operator", "values"]

def encode (c : Condition) : Json :=
  .object [("field", .text c.field), ("operator", .text c.operator.name),
    ("values", .array (c.values.map Value.encode))]

def decode? (j : Json) : Option Condition := do
  let m ← j.members? memberNames
  let field ← m.required "field" text?
  let operator ← m.required "operator" fun j => j.text?.bind Operator.ofName?
  let values ← m.optional "values" [] (listOf Value.decode?)
  some { field, operator, values }

end Condition

namespace SearchNode

mutual

def encode : SearchNode → Json
  | .leaf c => alternative "condition" c.encode
  | .all children => alternative "and" (.array (encodeAll children))
  | .any children => alternative "or" (.array (encodeAll children))

def encodeAll : List SearchNode → List Json
  | [] => []
  | node :: rest => encode node :: encodeAll rest

end

mutual

def decode? : Json → Option SearchNode
  | .object [(choice, content)] =>
    if choice = "condition" then (Condition.decode? content).map .leaf
    else if choice = "and" then (decodeChildren? content).map .all
    else if choice = "or" then (decodeChildren? content).map .any
    else none
  | _ => none

def decodeChildren? : Json → Option (List SearchNode)
  | .array items => decodeAll? items
  | _ => none

def decodeAll? : List Json → Option (List SearchNode)
  | [] => some []
  | j :: rest => do some ((← decode? j) :: (← decodeAll? rest))

end

end SearchNode

namespace Direction

def name : Direction → String
  | .ascending => "asc"
  | .descending => "desc"

def ofName? : String → Option Direction
  | "asc" => some .ascending
  | "desc" => some .descending
  | _ => none

end Direction

namespace OrderBy

def encode (o : OrderBy) : Json :=
  .object [("field", .text o.field), ("direction", .text o.direction.name)]

def decode? (j : Json) : Option OrderBy := do
  let m ← j.members? ["field", "direction"]
  let field ← m.required "field" text?
  let direction ← m.optional "direction" .ascending fun j => j.plainChoice?.bind Direction.ofName?
  some { field, direction }

end OrderBy

namespace SearchGraph

/-- The greatest number of 64 bits. -/
def maxUInt64 : Nat := 18446744073709551615

def decodeUInt64? (j : Json) : Option UInt64 := (j.natural? maxUInt64).map UInt64.ofNat

/-- What is absent or empty is left out. -/
def encode (g : SearchGraph) : Json :=
  let page (name : String) : Option UInt64 → List (String × Json)
    | some n => [(name, .natural n.toNat)]
    | none => []
  let filter := match g.filter with
    | some node => [("filter", node.encode)]
    | none => []
  let order := if g.order.isEmpty then [] else [("order", .array (g.order.map OrderBy.encode))]
  .object (filter ++ order ++ page "limit" g.limit ++ page "offset" g.offset)

def decode? (j : Json) : Option SearchGraph := do
  let m ← j.members? ["filter", "order", "limit", "offset"]
  let filter ← m.optional "filter" none (nullable SearchNode.decode?)
  let order ← m.optional "order" [] (listOf OrderBy.decode?)
  let limit ← m.optional "limit" none (nullable decodeUInt64?)
  let offset ← m.optional "offset" none (nullable decodeUInt64?)
  some { filter, order, limit, offset }

end SearchGraph

namespace Column

def encode (c : Column) : Json :=
  let default := match c.default with
    | some v => [("default", v.encode)]
    | none => []
  .object ([("name", .text c.name), ("sql_type", .text c.sqlType), ("nullable", .bool c.nullable)]
    ++ default)

def decode? (j : Json) : Option Column := do
  let m ← j.members? ["name", "sql_type", "nullable", "default"]
  let name ← m.required "name" text?
  let sqlType ← m.required "sql_type" text?
  let default ← m.optional "default" none (Json.nullable Value.decode?)
  let nullable ← m.required "nullable" bool?
  some { name, sqlType, nullable, default }

end Column

namespace Entity

def memberNames : List String :=
  ["name", "table_name", "columns", "primary_keys", "tenant_key", "unique_keys"]

def encodeNames (names : List String) : Json := .array (names.map .text)

def encode (e : Entity) : Json :=
  .object [("name", .text e.name), ("table_name", .text e.tableName),
    ("columns", .array (e.columns.map Column.encode)), ("primary_keys", encodeNames e.primaryKeys),
    ("tenant_key", (e.tenantKey.map .text).getD .null),
    ("unique_keys", .array (e.uniqueKeys.map encodeNames))]

/-- The tenant key may be left out by name, but not by position. -/
def decodeTenant? (m : Members) : Option (Option String) :=
  if m.positional then m.required "tenant_key" (nullable text?)
  else m.optional "tenant_key" none (nullable text?)

/-- The table as it is described; nothing is checked against a schema. -/
def decode? (j : Json) : Option Entity := do
  let m ← j.members? memberNames
  let name ← m.required "name" text?
  let tableName ← m.required "table_name" text?
  let columns ← m.required "columns" (listOf Column.decode?)
  let primaryKeys ← m.required "primary_keys" (listOf text?)
  let tenantKey ← decodeTenant? m
  let uniqueKeys ← m.required "unique_keys" (listOf (listOf text?))
  some { name, tableName, columns, primaryKeys, tenantKey, uniqueKeys }

end Entity

def Statement.encode (s : Statement) : Json :=
  .object [("parameterized", .text s.parameterized),
    ("params", .array (s.params.map Value.encode)), ("sql", .text s.sql)]

end EntitySchema.Sql
