import EntitySchema.Sql.Error
import EntitySchema.Sql.Category
import EntitySchema.Model.Schema

/-!
The table of an entity, derived from its schema: one column a field, the primary keys, the tenant
key and the groups of columns that are unique together.
-/

namespace EntitySchema.Sql

structure Column where
  name : String
  sqlType : String
  nullable : Bool
  default : Option Value

def Column.category (c : Column) : Category := .ofSqlType c.sqlType

structure Entity where
  name : String
  tableName : String
  columns : List Column
  primaryKeys : List String
  tenantKey : Option String
  uniqueKeys : List (List String)

namespace Entity

def column? (e : Entity) (name : String) : Option Column := e.columns.find? (·.name == name)

def columnNames (e : Entity) : List String := e.columns.map Column.name

/-- The primary keys, and the tenant key unless it is one of them. -/
def keyColumns (e : Entity) : List String :=
  match e.tenantKey with
  | some tenant => if e.primaryKeys.contains tenant then e.primaryKeys else e.primaryKeys ++ [tenant]
  | none => e.primaryKeys

/-- The column is a primary key or the tenant key. -/
def isKey (e : Entity) (column : String) : Bool :=
  e.primaryKeys.contains column || e.tenantKey == some column

/-- A table under derivation. -/
structure Draft where
  columns : List Column
  primaryKeys : List String
  tenantKey : Option String
  uniqueFields : List String

namespace Draft

def empty : Draft := ⟨[], [], none, []⟩

def hasColumn (d : Draft) (name : String) : Bool := d.columns.any (·.name == name)

/-- The tenant key after a field that may be one. -/
def nextTenant (d : Draft) (f : Field) (column : String) : Except DeriveError (Option String) :=
  if f.isTenant then
    match d.tenantKey with
    | some existing => .error (.conflictingTenantKey column existing)
    | none => .ok (some column)
  else .ok d.tenantKey

/-- Adds the column of a field. Key columns do not take null. -/
def addField (resolve : Field → Except DeriveError String) (entity : String) (d : Draft)
    (f : Field) : Except DeriveError Draft :=
  let column := Text.trim f.name
  if column.isEmpty then .error (.emptyFieldName entity)
  else if d.hasColumn column then .error (.duplicateColumn entity column)
  else do
    let sqlType ← resolve f
    let tenantKey ← d.nextTenant f column
    .ok {
      columns := d.columns ++ [{
        name := column
        sqlType := sqlType
        nullable := !(f.required || f.isPrimary || f.isTenant)
        default := f.default }]
      primaryKeys := if f.isPrimary then d.primaryKeys ++ [column] else d.primaryKeys
      tenantKey := tenantKey
      uniqueFields := if f.isUnique then d.uniqueFields ++ [column] else d.uniqueFields }

/-- The columns of a rule, if all of them exist. -/
def ruleGroup (entity : String) (d : Draft) (r : EntityRule) : Except DeriveError (List String) :=
  match r with
  | .unique columns =>
    match columns.find? (fun c => !d.hasColumn c) with
    | some column => .error (.unknownUniqueColumn entity column)
    | none => .ok columns

end Draft

/-- Drops an item that equals the one after it. -/
def dropRepeats : List String → List String
  | a :: b :: rest => if a = b then dropRepeats (b :: rest) else a :: dropRepeats (b :: rest)
  | short => short

/-- The columns of a group in order, each once. -/
def normalGroup (group : List String) : List String :=
  dropRepeats (group.mergeSort (fun a b => decide (a ≤ b)))

/-- The name that groups are compared by. -/
def groupKey (group : List String) : String := "|".intercalate group

/-- Keeps the first group of each name. -/
def distinctGroups (seen : List String) : List (List String) → List (List String)
  | [] => []
  | g :: rest =>
    if seen.contains (groupKey g) then distinctGroups seen rest
    else g :: distinctGroups (groupKey g :: seen) rest

/-- The groups in normal form, without empty ones and repetitions. -/
def normalGroups (groups : List (List String)) : List (List String) :=
  distinctGroups [] ((groups.map normalGroup).filter (fun g => !g.isEmpty))

/-- Derives the table of a schema. A blank table name stands for the name of the entity. -/
def derive (resolve : Field → Except DeriveError String) (s : Schema) (tableName : String) :
    Except DeriveError Entity := do
  let name := Text.trim s.name
  if name.isEmpty then .error .emptyEntityName
  else
    let draft ← s.fields.foldlM (Draft.addField resolve name) Draft.empty
    let groups ← s.rules.mapM (Draft.ruleGroup name draft)
    if draft.primaryKeys.isEmpty then .error (.missingPrimaryKey name)
    else
      let table := Text.trim tableName
      .ok {
        name := name
        tableName := if table.isEmpty then name else table
        columns := draft.columns
        primaryKeys := draft.primaryKeys
        tenantKey := draft.tenantKey
        uniqueKeys := normalGroups (draft.uniqueFields.map (fun c => [c]) ++ groups) }

end Entity

end EntitySchema.Sql
