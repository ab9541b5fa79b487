import EntitySchema.KeyMap
import EntitySchema.Number.Conversion
import EntitySchema.Calendar.Timestamp

/-!
Loosely typed values, as entity rows, conditions and rules hold them. Integers keep their
signedness, numbers compare across all four numeric kinds, and values of other kinds compare only
with their own kind.
-/

namespace EntitySchema

open Number Calendar

inductive Value where
  | null
  | bool (b : Bool)
  | int (i : Int64)
  | uint (u : UInt64)
  | float (x : Binary64)
  | text (s : String)
  | list (items : List Value)
  | map (entries : KeyMap Value)
  | timestamp (t : Timestamp)
  | decimal (d : Decimal)

/-- An entity row: values by field name. -/
abbrev Record := KeyMap Value

inductive Kind where
  | null
  | bool
  | int
  | uint
  | float
  | text
  | list
  | map
  | timestamp
  | decimal
deriving DecidableEq, Repr

/-- The kind's name in messages. -/
def Kind.name : Kind → String
  | .null => "null"
  | .bool => "bool"
  | .int => "int"
  | .uint => "uint"
  | .float => "float"
  | .text => "text"
  | .list => "list"
  | .map => "map"
  | .timestamp => "timestamp"
  | .decimal => "decimal"

namespace Value

instance : Inhabited Value := ⟨.null⟩

def kind : Value → Kind
  | .null => .null
  | .bool _ => .bool
  | .int _ => .int
  | .uint _ => .uint
  | .float _ => .float
  | .text _ => .text
  | .list _ => .list
  | .map _ => .map
  | .timestamp _ => .timestamp
  | .decimal _ => .decimal

def isNull : Value → Bool
  | .null => true
  | _ => false

def isNumber : Value → Bool
  | .int _ | .uint _ | .float _ | .decimal _ => true
  | _ => false

def text? : Value → Option String
  | .text s => some s
  | _ => none

def bool? : Value → Option Bool
  | .bool b => some b
  | _ => none

def list? : Value → Option (List Value)
  | .list items => some items
  | _ => none

def record? : Value → Option Record
  | .map r => some r
  | _ => none

/-- An integer of either signedness, as a whole number. -/
def integer? : Value → Option Int
  | .int i => some i.toInt
  | .uint u => some u.toNat
  | _ => none

/-- An integer that a signed word holds. -/
def int64? (v : Value) : Option Int64 :=
  v.integer?.bind fun i => if i ≤ Int64.maxValue.toInt then some (Int64.ofInt i) else none

/-- Any number as the nearest double. -/
def binary? : Value → Option Binary64
  | .int i => some (Binary.ofInt .double i.toInt)
  | .uint u => some (Binary.ofInt .double u.toNat)
  | .float x => some x
  | .decimal d => some d.toBinary
  | _ => none

/-- Any number as a decimal; a float is rounded to about sixteen digits and may have none. -/
def decimal? : Value → Option Decimal
  | .int i => Decimal.ofInt? i.toInt
  | .uint u => Decimal.ofInt? u.toNat
  | .float x => x.toDecimal?
  | .decimal d => some d
  | _ => none

/-- Orders numbers as decimals, and as doubles if one of them has no decimal. -/
def compareNumbers (a b : Value) : Option Ordering :=
  match a.decimal?, b.decimal? with
  | some x, some y => some (x.compare y)
  | _, _ => do (← a.binary?).compare? (← b.binary?)

/-- Orders values of comparable kinds: numbers across kinds, text by code points, instants in time,
and false before true. -/
def compare? : Value → Value → Option Ordering
  | .text a, .text b => some (Ord.compare a b)
  | .bool a, .bool b => some (Ord.compare a b)
  | .timestamp a, .timestamp b => some (a.compare b)
  | .int a, .int b => some (Ord.compare a.toInt b.toInt)
  | .uint a, .uint b => some (Ord.compare a.toNat b.toNat)
  | a, b => if a.isNumber && b.isNumber then compareNumbers a b else none

mutual

/-- Equality of kind and content. Numbers of one kind are equal by value, so `nan` differs from
itself and decimals may differ in places. -/
def same : Value → Value → Bool
  | .null, .null => true
  | .bool a, .bool b => a == b
  | .int a, .int b => a == b
  | .uint a, .uint b => a == b
  | .float a, .float b => a.same b
  | .text a, .text b => a == b
  | .list a, .list b => sameItems a b
  | .map ⟨a⟩, .map ⟨b⟩ => sameEntries a b
  | .timestamp a, .timestamp b => a == b
  | .decimal a, .decimal b => a.compare b == .eq
  | _, _ => false

def sameItems : List Value → List Value → Bool
  | [], [] => true
  | a :: as, b :: bs => same a b && sameItems as bs
  | _, _ => false

def sameEntries : List (String × Value) → List (String × Value) → Bool
  | [], [] => true
  | (k, a) :: as, (l, b) :: bs => k == l && same a b && sameEntries as bs
  | _, _ => false

end

end Value

end EntitySchema
