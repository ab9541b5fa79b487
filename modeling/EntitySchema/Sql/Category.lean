import EntitySchema.Text.Case
import EntitySchema.Text.Search

/-!
Coarse categories of column types, told by words inside the type's name.
-/

namespace EntitySchema.Sql

inductive Category where
  | string
  | bool
  | int
  | numeric
  | time
  | json
  | unknown
deriving DecidableEq, Repr

namespace Category

def name : Category → String
  | .string => "string"
  | .bool => "bool"
  | .int => "int"
  | .numeric => "numeric"
  | .time => "time"
  | .json => "json"
  | .unknown => "unknown"

/-- The words of each category, in the order in which they are looked for. -/
def words : List (Category × List String) :=
  [(.json, ["json"]),
   (.bool, ["bool"]),
   (.string, ["char", "text", "uuid", "clob"]),
   (.time, ["timestamp", "date", "time"]),
   (.int, ["int", "serial"]),
   (.numeric, ["numeric", "decimal", "double", "real", "float", "money"])]

/-- The first category with a word in the type's name, letter case aside. -/
def ofSqlType (sqlType : String) : Category :=
  let name := Text.asciiLower sqlType
  match words.find? (fun entry => entry.2.any (Text.contains name)) with
  | some (category, _) => category
  | none => .unknown

end Category

end EntitySchema.Sql
