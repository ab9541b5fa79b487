import EntitySchema.Number.Binary

/-!
JSON documents. A number is an integer that a signed or an unsigned 64-bit word holds, or a finite
double. The fields of an object stand in the order in which they are written.
-/

namespace EntitySchema

open Number

/-- An integer that a signed or an unsigned 64-bit word holds. -/
def WordSized (i : Int) : Prop := -9223372036854775808 ≤ i ∧ i ≤ 18446744073709551615

instance (i : Int) : Decidable (WordSized i) := inferInstanceAs (Decidable (_ ∧ _))

inductive JsonNumber where
  | integer (i : Int) (fits : WordSized i)
  | float (x : FiniteBinary .double)
deriving DecidableEq

inductive Json where
  | null
  | bool (b : Bool)
  | number (n : JsonNumber)
  | text (s : String)
  | array (items : List Json)
  | object (fields : List (String × Json))

namespace Json

instance : Inhabited Json := ⟨.null⟩

/-- The integer as a number, if it has the size of a word. -/
def integer? (i : Int) : Option Json :=
  if h : WordSized i then some (.number (.integer i h)) else none

/-- A natural number below `2^64` as a number. -/
def natural (n : Nat) : Json := (integer? n).getD .null

/-- The field of this name; of several the first. -/
def field? (name : String) : Json → Option Json
  | .object fields => fields.lookup name
  | _ => none

def text? : Json → Option String
  | .text s => some s
  | _ => none

def bool? : Json → Option Bool
  | .bool b => some b
  | _ => none

def array? : Json → Option (List Json)
  | .array items => some items
  | _ => none

/-- A whole number from zero to `most`, written as an integer. -/
def natural? (most : Nat) : Json → Option Nat
  | .number (.integer i _) => if 0 ≤ i ∧ i ≤ most then some i.toNat else none
  | _ => none

end Json

end EntitySchema
