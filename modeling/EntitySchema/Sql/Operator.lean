/-!
The operators of search conditions: comparisons, membership in a list, text patterns and presence.
-/

namespace EntitySchema.Sql

inductive Comparison where
  | equals
  | notEquals
  | greater
  | greaterOrEqual
  | less
  | lessOrEqual
deriving DecidableEq, Repr

/-- Where in a text the sought part has to lie. -/
inductive Place where
  | anywhere
  | start
  | finish
deriving DecidableEq, Repr

inductive Operator where
  | compare (c : Comparison)
  | member (negated : Bool)
  | pattern (place : Place) (negated : Bool)
  /-- The value is set, or is not set. -/
  | present (isSet : Bool)
deriving DecidableEq, Repr

namespace Comparison

def name : Comparison → String
  | .equals => "="
  | .notEquals => "!="
  | .greater => ">"
  | .greaterOrEqual => ">="
  | .less => "<"
  | .lessOrEqual => "<="

end Comparison

namespace Operator

def name : Operator → String
  | .compare c => c.name
  | .member false => "in"
  | .member true => "not_in"
  | .pattern .anywhere false => "contains"
  | .pattern .anywhere true => "!contains"
  | .pattern .start false => "starts_with"
  | .pattern .start true => "!starts_with"
  | .pattern .finish false => "ends_with"
  | .pattern .finish true => "!ends_with"
  | .present true => "is_set"
  | .present false => "not_set"

def all : List Operator :=
  [.compare .equals, .compare .notEquals, .compare .greater, .compare .greaterOrEqual,
   .compare .less, .compare .lessOrEqual, .member false, .member true, .pattern .anywhere false,
   .pattern .anywhere true, .pattern .start false, .pattern .start true, .pattern .finish false,
   .pattern .finish true, .present true, .present false]

def ofName? (s : String) : Option Operator := all.find? (·.name == s)

def isComparison : Operator → Bool
  | .compare _ => true
  | _ => false

def isMembership : Operator → Bool
  | .member _ => true
  | _ => false

def isPattern : Operator → Bool
  | .pattern _ _ => true
  | _ => false

def isPresence : Operator → Bool
  | .present _ => true
  | _ => false

end Operator

end EntitySchema.Sql
