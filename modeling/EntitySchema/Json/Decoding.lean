import EntitySchema.Json.Tree
import EntitySchema.KeyMap

/-!
Decoding of records and choices from JSON documents. A record is an object, or an array that lists
the members in their order; a choice is the name of an alternative, or an object with the name as
its one field.
-/

namespace EntitySchema.Json

/-- The members of a record, and whether they were given by position. -/
structure Members where
  fields : List (String × Json)
  positional : Bool

/-- The members of a record whose members have these names. -/
def members? (names : List String) : Json → Option Members
  | .object fields => some ⟨fields, false⟩
  | .array items =>
    if items.length ≤ names.length then some ⟨names.zip items, true⟩ else none
  | _ => none

namespace Members

variable {α : Type}

def required (m : Members) (name : String) (decode : Json → Option α) : Option α :=
  (m.fields.lookup name).bind decode

/-- A member that may be missing. -/
def optional (m : Members) (name : String) (absent : α) (decode : Json → Option α) : Option α :=
  match m.fields.lookup name with
  | none => some absent
  | some j => decode j

end Members

variable {α : Type}

/-- Null is nothing. -/
def nullable (decode : Json → Option α) : Json → Option (Option α)
  | .null => some none
  | j => (decode j).map some

/-- Every item of an array. -/
def listOf (decode : Json → Option α) (j : Json) : Option (List α) :=
  j.array?.bind fun items => items.mapM decode

/-- Every field of an object, by name. -/
def mapOf (decode : Json → Option α) : Json → Option (KeyMap α)
  | .object fields =>
    (fields.mapM fun e => (decode e.2).map fun a => (e.1, a)).map KeyMap.ofList
  | _ => none

/-- The name of an alternative and what it holds. -/
def choice? : Json → Option (String × Option Json)
  | .text s => some (s, none)
  | .object [(name, j)] => some (name, some j)
  | _ => none

/-- An alternative that holds nothing; null may stand in its place. -/
def plainChoice? (j : Json) : Option String :=
  match j.choice? with
  | some (name, none) => some name
  | some (name, some .null) => some name
  | _ => none

/-- The alternative named `name` as an object. -/
def alternative (name : String) (content : Json) : Json := .object [(name, content)]

end EntitySchema.Json
