import EntitySchema.Sql.Entity
import EntitySchema.Sql.Search
import EntitySchema.Sql.Statement
import EntitySchema.Value.Record

/-!
Compilation of requests into statements for one entity in one dialect. Every column that a request
names and every value that it binds is checked before a statement comes out.
-/

namespace EntitySchema.Sql

open Calendar

/-- The value that is bound to a column. Text in a time column has to be an instant, which is bound
as such, or a date or a time of day, which stays text without blanks at its ends. -/
def Column.convert (c : Column) (v : Value) : Except SqlError Value :=
  let incompatible : Except SqlError Value := .error (.incompatibleValue c.name c.category v.kind)
  match c.category, v with
  | _, .null => if c.nullable then .ok .null else .error (.nullNotAllowed c.name)
  | .string, .text _ => .ok v
  | .bool, .bool _ => .ok v
  | .int, .int _ => .ok v
  | .int, .uint _ => .ok v
  | .numeric, _ => if v.isNumber then .ok v else incompatible
  | .time, .timestamp _ => .ok v
  | .json, .map _ => .ok v
  | .time, .text s =>
    let trimmed := Text.trim s
    match Timestamp.parse? trimmed with
    | some t => .ok (.timestamp t)
    | none =>
      if (Date.parse? trimmed).isSome || (Clock.parse? trimmed).isSome then .ok (.text trimmed)
      else incompatible
  | _, _ => incompatible

structure Compiler where
  entity : Entity
  dialect : Dialect

/-- A condition whose column and values have been checked. -/
inductive Test where
  | present (column : Column) (isSet : Bool)
  | compare (column : Column) (op : Comparison) (v : Value)
  | member (column : Column) (negated : Bool) (vs : List Value)
  | pattern (column : Column) (negated : Bool) (like : String)

/-- A predicate in SQL, and whether it needs parentheses inside another one. -/
structure Predicate where
  buffer : Buffer
  compound : Bool

/-- The text with a backslash before every character that has a meaning in a pattern. -/
def escapeLike (s : String) : String :=
  String.ofList (s.toList.flatMap fun c => if c = '\\' ∨ c = '%' ∨ c = '_' then ['\\', c] else [c])

/-- The pattern that a text has to match to hold `s` at the given place. -/
def likePattern (place : Place) (s : String) : String :=
  match place with
  | .anywhere => "%" ++ escapeLike s ++ "%"
  | .start => escapeLike s ++ "%"
  | .finish => "%" ++ escapeLike s

namespace Test

/-- Adds a test to a statement. -/
def write (d : Dialect) (b : Buffer) : Test → Buffer
  | .present column isSet =>
    b.push (quoteName column.name ++ (if isSet then " IS NOT NULL" else " IS NULL"))
  | .compare column op v => (b.push (quoteName column.name ++ " " ++ op.name ++ " ")).bind v
  | .member column negated vs =>
    let head := b.push (quoteName column.name ++ (if negated then " NOT IN (" else " IN ("))
    (head.separated ", " Buffer.bind vs).push ")"
  | .pattern column negated like =>
    let head := if negated then b.push "NOT (" else b
    let test := ((head.push (quoteName column.name ++ " " ++ d.like ++ " ")).bind (.text like)).push
      d.likeEscape
    if negated then test.push ")" else test

end Test

namespace Predicate

/-- Adds a predicate as a part of another one. -/
def write (b : Buffer) (p : Predicate) : Buffer :=
  if p.compound then ((b.push "(").append p.buffer).push ")" else b.append p.buffer

/-- Joins predicates; a single one stays as it is, and none gives none. -/
def join (separator : String) : List Predicate → Option Predicate
  | [] => none
  | [p] => some p
  | ps => some { buffer := Buffer.empty.separated separator write ps, compound := true }

end Predicate

/-- Names in quotes, separated by commas. -/
def nameList (names : List String) : String := ", ".intercalate (names.map quoteName)

namespace Compiler

/-- The column of a field name. Names with a dot are refused. -/
def resolve (c : Compiler) (field : String) : Except SqlError Column :=
  if field.toList.contains '.' then .error (.nestedField field)
  else match c.entity.column? field with
    | some column => .ok column
    | none => .error (.unknownColumn c.entity.tableName field)

def table (c : Compiler) : String := quoteName c.entity.tableName

/-- A row has to name the tenant. -/
def requireTenant (c : Compiler) (row : Record) : Except SqlError Unit :=
  match c.entity.tenantKey with
  | some tenant => if row.contains tenant then .ok () else .error (.missingTenantKey tenant)
  | none => .ok ()

/-- The columns of a row with the values to bind, in the order of the keys. -/
def bindRow (c : Compiler) (row : Record) : Except SqlError (List (Column × Value)) :=
  row.entries.mapM fun e => do
    let column ← c.resolve e.1
    let value ← column.convert e.2
    .ok (column, value)

/-! Definition of the table. -/

def columnDefinition (c : Compiler) (column : Column) : Except SqlError String := do
  let default ← match column.default with
    | some v => (c.dialect.literal v).map (" DEFAULT " ++ ·)
    | none => .ok ""
  .ok (quoteName column.name ++ " " ++ column.sqlType ++ (if column.nullable then "" else " NOT NULL")
    ++ default)

/-- The table with all its columns, the key over the key columns, and the unique groups. -/
def createTable (c : Compiler) : Except SqlError Statement := do
  let columns ← c.entity.columns.mapM c.columnDefinition
  let key := "PRIMARY KEY (" ++ nameList c.entity.keyColumns ++ ")"
  let uniques := c.entity.uniqueKeys.map fun group => "UNIQUE (" ++ nameList group ++ ")"
  let definitions := ", ".intercalate (columns ++ key :: uniques)
  (Buffer.empty.push ("CREATE TABLE IF NOT EXISTS " ++ c.table ++ " (" ++ definitions ++ ")")).finish
    c.dialect

/-! Conditions. -/

/-- Compares a column with a value; comparing with null for equality asks for presence. -/
def comparison (column : Column) (op : Comparison) (v : Value) : Except SqlError Test :=
  if v.isNull && column.nullable then
    match op with
    | .equals => .ok (.present column false)
    | .notEquals => .ok (.present column true)
    | _ => .error (.incompatibleValue column.name column.category v.kind)
  else (column.convert v).map (.compare column op)

/-- Tests whether a column's text holds a part, letter case aside. -/
def patternTest (column : Column) (place : Place) (negated : Bool) (v : Value) :
    Except SqlError Test :=
  if column.category ≠ .string then
    .error (.incompatibleOperator (Operator.pattern place negated).name column.name column.category)
  else match v with
    | .text s => .ok (.pattern column negated (likePattern place s))
    | _ => .error (.incompatibleValue column.name column.category v.kind)

/-- The test of one condition. -/
def condition (c : Compiler) (cond : Condition) : Except SqlError Test := do
  let column ← c.resolve cond.field
  let count (expected : String) : Except SqlError Test :=
    .error (.invalidValueCount cond.operator.name expected cond.values.length)
  match cond.operator, cond.values with
  | .present isSet, [] => .ok (.present column isSet)
  | .present _, _ => count "0"
  | .compare op, [v] => comparison column op v
  | .compare _, _ => count "1"
  | .member _, [] => count "at least 1"
  | .member negated, vs => (vs.mapM column.convert).map (.member column negated)
  | .pattern place negated, [v] => patternTest column place negated v
  | .pattern _ _, _ => count "1"

mutual

/-- The predicate of a filter; a filter without conditions has none. -/
def predicate? (c : Compiler) : SearchNode → Except SqlError (Option Predicate)
  | .leaf cond => (c.condition cond).map fun t => some ⟨t.write c.dialect .empty, false⟩
  | .all children => (predicates c children).map (Predicate.join " AND ")
  | .any children => (predicates c children).map (Predicate.join " OR ")

/-- The predicates of those filters that have one. -/
def predicates (c : Compiler) : List SearchNode → Except SqlError (List Predicate)
  | [] => .ok []
  | node :: rest => do
    let p ← predicate? c node
    let ps ← predicates c rest
    .ok (p.toList ++ ps)

end

/-- A filter on its own; none matches everything. -/
def compileFilter (c : Compiler) (node : SearchNode) : Except SqlError (Option Statement) := do
  match ← c.predicate? node with
  | some p => (p.buffer.finish c.dialect).map some
  | none => .ok none

/-! Selection. -/

def projection (c : Compiler) (fields : List String) : Except SqlError String :=
  if fields.isEmpty then .ok "*" else (fields.mapM c.resolve).map fun _ => nameList fields

/-- Adds the filter of a selection. -/
def whereClause (c : Compiler) (b : Buffer) (filter : Option SearchNode) : Except SqlError Buffer :=
  match filter with
  | none => .ok b
  | some node => (c.predicate? node).map fun
    | some p => (b.push " WHERE ").append p.buffer
    | none => b

/-- Adds the order of a selection. -/
def orderClause (c : Compiler) (b : Buffer) (order : List OrderBy) : Except SqlError Buffer :=
  if order.isEmpty then .ok b
  else do
    let terms ← order.mapM fun o => do
      let column ← c.resolve o.field
      .ok (quoteName column.name ++ " " ++ o.direction.keyword)
    .ok (b.push (" ORDER BY " ++ ", ".intercalate terms))

/-- Adds the paging of a selection. -/
def pagingClause (d : Dialect) (b : Buffer) (limit offset : Option UInt64) : Buffer :=
  let skip (n : UInt64) : String := " OFFSET " ++ Text.Numeral.ofNat n.toNat
  match limit, offset with
  | none, none => b
  | none, some n => (b.push d.unboundedLimit).push (skip n)
  | some n, none => b.push (" LIMIT " ++ Text.Numeral.ofNat n.toNat)
  | some n, some m => (b.push (" LIMIT " ++ Text.Numeral.ofNat n.toNat)).push (skip m)

/-- Selects fields, or all columns if none are named. -/
def select (c : Compiler) (fields : List String) (g : SearchGraph) : Except SqlError Statement := do
  let columns ← c.projection fields
  let filtered ← c.whereClause (Buffer.empty.push ("SELECT " ++ columns ++ " FROM " ++ c.table))
    g.filter
  let ordered ← c.orderClause filtered g.order
  (pagingClause c.dialect ordered g.limit g.offset).finish c.dialect

/-! Changes. -/

/-- Adds the values of a row in parentheses. -/
def writeTuple (b : Buffer) (bound : List (Column × Value)) : Buffer :=
  ((b.push "(").separated ", " Buffer.bind (bound.map Prod.snd)).push ")"

/-- The values of one row of a batch, which has to have the given columns. -/
def insertRow (c : Compiler) (columns : List String) (index : Nat) (row : Record) :
    Except SqlError (List (Column × Value)) := do
  c.requireTenant row
  if row.keys ≠ columns then .error (.raggedBatch index)
  else c.bindRow row

def insertRows (c : Compiler) (columns : List String) (index : Nat) :
    List Record → Except SqlError (List (List (Column × Value)))
  | [] => .ok []
  | row :: rest => do
    let first ← c.insertRow columns index row
    let others ← insertRows c columns (index + 1) rest
    .ok (first :: others)

/-- Inserts rows that all have the columns of the first. -/
def bulkInsert (c : Compiler) (rows : List Record) : Except SqlError Statement :=
  match rows with
  | [] => .error .emptyBatch
  | first :: _ =>
    if first.isEmpty then .error .noColumns
    else do
      let tuples ← c.insertRows first.keys 0 rows
      let head := Buffer.empty.push
        ("INSERT INTO " ++ c.table ++ " (" ++ nameList first.keys ++ ") VALUES ")
      (head.separated ", " writeTuple tuples).finish c.dialect

def insert (c : Compiler) (row : Record) : Except SqlError Statement := c.bulkInsert [row]

/-- Adds a column with its value after an equals sign. -/
def writePair (b : Buffer) (pair : Column × Value) : Buffer :=
  (b.push (quoteName pair.1.name ++ " = ")).bind pair.2

/-- Every primary key has to be in the row. -/
def requirePrimaryKeys (c : Compiler) (row : Record) : Except SqlError Unit :=
  match c.entity.primaryKeys.find? (fun key => !row.contains key) with
  | some key => .error (.missingPrimaryKey key)
  | none => .ok ()

/-- Changes the row that has the given keys. Key columns only find the row. -/
def updateByKey (c : Compiler) (row : Record) : Except SqlError Statement := do
  c.requireTenant row
  c.requirePrimaryKeys row
  let bound ← c.bindRow row
  let (keys, updates) := bound.partition fun b => c.entity.isKey b.1.name
  if updates.isEmpty then .error .noUpdatableColumns
  else
    let lookup := c.entity.keyColumns.filterMap fun name => keys.find? (·.1.name == name)
    let head := Buffer.empty.push ("UPDATE " ++ c.table ++ " SET ")
    let assigned := (head.separated ", " writePair updates).push " WHERE "
    (assigned.separated " AND " writePair lookup).finish c.dialect

/-- Deletes the rows that agree with the filter in every column it names. -/
def deleteByEquality (c : Compiler) (filter : Record) : Except SqlError Statement := do
  if filter.isEmpty then .error .emptyDeleteFilter
  else
    c.requireTenant filter
    let tests ← filter.entries.mapM fun e => do
      let column ← c.resolve e.1
      comparison column .equals e.2
    let head := Buffer.empty.push ("DELETE FROM " ++ c.table ++ " WHERE ")
    (head.separated " AND " (Test.write c.dialect) tests).finish c.dialect

end Compiler

end EntitySchema.Sql
