import EntitySchema.Sql.Error
import EntitySchema.Model.Field
import EntitySchema.Value.Json

/-!
SQL dialects: the column type of a field, the spelling of placeholders, of patterns, of names and of
literals.
-/

namespace EntitySchema.Sql

inductive Dialect where
  | postgres
  | sqlite
deriving DecidableEq, Repr

/-- A whole number among the options of a data type. -/
def typeOption? (f : Field) (option : String) : Except DeriveError (Option Nat) :=
  match f.option? option with
  | none => .ok none
  | some raw =>
    match Text.Numeral.unsigned? (Text.trimChars raw.toList) with
    | some n =>
      if n ≤ 4294967295 then .ok (some n) else .error (.invalidTypeOption f.name option raw)
    | none => .error (.invalidTypeOption f.name option raw)

/-- The integer field has 64 bits; the other width is 32. -/
def isWideInteger (f : Field) : Except DeriveError Bool := do
  match ← typeOption? f "size" with
  | none => .ok false
  | some 32 => .ok false
  | some 64 => .ok true
  | some n => .error (.invalidTypeOption f.name "size" (Text.Numeral.ofNat n))

/-- The column type of a field in PostgreSQL. -/
def postgresType (f : Field) : Except DeriveError String :=
  match f.dataType with
  | .email | .phone | .string | .secret | .url | .enumString =>
    match f.length? with
    | some (_, most) =>
      if 0 < most then .ok ("character varying(" ++ Text.Numeral.ofNat most.toNat ++ ")")
      else .ok "character varying"
    | none => .ok "character varying"
  | .ulid => .ok "character varying(26)"
  | .countryCode => .ok "character(2)"
  | .currencyCode => .ok "character(3)"
  | .uuid => .ok "uuid"
  | .integer | .enumNumber => do
    if ← isWideInteger f then .ok "bigint" else .ok "integer"
  | .float => do
    match ← typeOption? f "precision" with
    | some precision =>
      let scale := (← typeOption? f "scale").getD 0
      .ok ("numeric(" ++ Text.Numeral.ofNat precision ++ "," ++ Text.Numeral.ofNat scale ++ ")")
    | none => .ok "double precision"
  | .boolean => .ok "boolean"
  | .date => .ok "date"
  | .time => .ok "time without time zone"
  | .dateTime => .ok "timestamp with time zone"
  | .localizedText => .ok "jsonb"

/-- The column type of a field in SQLite. -/
def sqliteType (f : Field) : Except DeriveError String :=
  match f.dataType with
  | .email | .phone | .string | .secret | .url | .ulid | .uuid | .enumString | .countryCode
  | .currencyCode => .ok "TEXT"
  | .integer | .enumNumber => (isWideInteger f).map fun _ => "INTEGER"
  | .float => (typeOption? f "precision").map fun p => if p.isSome then "NUMERIC" else "REAL"
  | .boolean => .ok "BOOLEAN"
  | .date => .ok "DATE"
  | .time => .ok "TIME"
  | .dateTime => .ok "DATETIME"
  | .localizedText => .ok "JSON"

/-- The text between two marks; a mark inside is written twice. -/
def quoted (mark : Char) (s : String) : String :=
  String.ofList (mark :: s.toList.flatMap (fun c => if c = mark then [mark, mark] else [c])
    ++ [mark])

def quoteName (s : String) : String := quoted '"' s

def quoteText (s : String) : String := quoted '\'' s

namespace Dialect

def name : Dialect → String
  | .postgres => "postgres"
  | .sqlite => "sqlite"

/-- The dialect of a name in a configuration. -/
def ofName? (s : String) : Option Dialect :=
  match Text.asciiLower (Text.trim s) with
  | "postgres" | "postgresql" | "pg" => some .postgres
  | "sqlite" | "sqlite3" => some .sqlite
  | _ => none

def columnType : Dialect → Field → Except DeriveError String
  | .postgres => postgresType
  | .sqlite => sqliteType

/-- The placeholder of the parameter with this number, counted from one. -/
def placeholder (d : Dialect) (index : Nat) : String :=
  (match d with
    | .postgres => "$"
    | .sqlite => "?") ++ Text.Numeral.ofNat index

/-- The operator that matches a pattern whatever the letter case. -/
def like : Dialect → String
  | .postgres => "ILIKE"
  | .sqlite => "LIKE"

/-- What follows a pattern so that a backslash escapes in it. -/
def likeEscape : Dialect → String
  | .postgres => ""
  | .sqlite => " ESCAPE '\\'"

/-- What stands in front of an offset without a limit. -/
def unboundedLimit : Dialect → String
  | .postgres => ""
  | .sqlite => " LIMIT -1"

def boolLiteral : Dialect → Bool → String
  | .postgres, true => "TRUE"
  | .postgres, false => "FALSE"
  | .sqlite, true => "1"
  | .sqlite, false => "0"

/-- A value as a literal. A float at the top that is not finite has none. -/
def literal (d : Dialect) (v : Value) : Except SqlError String :=
  match v with
  | .null => .ok "NULL"
  | .bool b => .ok (d.boolLiteral b)
  | .float x => if x.isFinite then .ok x.text else .error (.unrenderableValue x.text)
  | .int _ | .uint _ | .decimal _ => .ok v.display
  | .text _ | .timestamp _ | .list _ | .map _ => .ok (quoteText v.display)

end Dialect

end EntitySchema.Sql
