import EntitySchema.Value.Record
import EntitySchema.Wire.Uuid
import EntitySchema.Number.DecimalText
import EntitySchema.Number.BinaryText

/-!
The types that fields of typed records have, with the values that each type holds and their form in
a row. Reading takes the matching kind first and then whatever converts without loss of meaning:
numbers of other kinds, and text.
-/

namespace EntitySchema

open Number Calendar Text

/-- Whole numbers of a fixed width. -/
structure IntegerType where
  signed : Bool
  bits : Nat
deriving DecidableEq

namespace IntegerType

def low (k : IntegerType) : Int := if k.signed then -(Nat.pow 2 (k.bits - 1) : Nat) else 0

def high (k : IntegerType) : Int :=
  (Nat.pow 2 (if k.signed then k.bits - 1 else k.bits) : Nat) - 1

/-- The type's name in messages. -/
def name (k : IntegerType) : String :=
  (if k.signed then "i" else "u") ++ Numeral.ofNat k.bits

/-- The numbers of the type. -/
abbrev Range (k : IntegerType) : Type := { i : Int // k.low ≤ i ∧ i ≤ k.high }

def ofInt? (k : IntegerType) (i : Int) : Option k.Range :=
  if h : k.low ≤ i ∧ i ≤ k.high then some ⟨i, h⟩ else none

/-- Reads digits after an optional sign; only a signed type takes a minus sign. -/
def ofChars? (k : IntegerType) (cs : List Char) : Option k.Range :=
  (if k.signed then Numeral.int? cs else (Numeral.unsigned? cs).map Int.ofNat).bind k.ofInt?

end IntegerType

inductive WireType where
  | integer (k : IntegerType)
  | single
  | double
  | decimal
  | text
  | bool
  | timestamp
  | uuid
  | value
  | record
  | list (item : WireType)
  | option (item : WireType)

namespace WireType

/-- The widest signed integers. -/
abbrev int64 : WireType := .integer ⟨true, 64⟩

/-- The widest unsigned integers. -/
abbrev uint64 : WireType := .integer ⟨false, 64⟩

/-- What a field of the type holds. -/
def Carrier : WireType → Type
  | .integer k => k.Range
  | .single => Binary32
  | .double => Binary64
  | .decimal => Decimal
  | .text => String
  | .bool => Bool
  | .timestamp => Timestamp
  | .uuid => Uuid
  | .value => Value
  | .record => Record
  | .list item => List item.Carrier
  | .option item => Option item.Carrier

end WireType

/-- Why a value does not become a field of some type. -/
inductive ConversionError where
  /-- Values of this kind never convert. -/
  | incompatible (expected : String) (found : Kind)
  /-- The kind converts, but the type does not hold this number. -/
  | outOfRange (target value : String)
  /-- The text does not spell a member of the type. -/
  | unreadable (target value : String)
  | field (name : String) (cause : ConversionError)
deriving DecidableEq

def ConversionError.message : ConversionError → String
  | .incompatible expected found => "cannot convert " ++ found.name ++ " into " ++ expected
  | .outOfRange target value => "value " ++ value ++ " is out of range for " ++ target
  | .unreadable target value => "cannot parse '" ++ value ++ "' as " ++ target
  | .field name cause => "field '" ++ name ++ "': " ++ cause.message

namespace WireType

/-- The text without blanks at its ends, read by `reader`. -/
def readText {α : Type} (target : String) (reader : List Char → Option α) (s : String) :
    Except ConversionError α :=
  match reader (trimChars s.toList) with
  | some x => .ok x
  | none => .error (.unreadable target s)

/-- A whole number of any numeric kind; floats count by their decimal. -/
def whole? : Value → Option Int
  | .int i => some i.toInt
  | .uint u => some u.toNat
  | .float (.finite x) => if x.isWhole then x.toDecimal?.map Decimal.whole else none
  | .decimal d => if d.isWhole then some d.whole else none
  | _ => none

def readInteger (k : IntegerType) (v : Value) : Except ConversionError k.Range :=
  match v with
  | .text s => readText k.name k.ofChars? s
  | _ =>
    if v.isNumber then
      match (whole? v).bind k.ofInt? with
      | some i => .ok i
      | none => .error (.outOfRange k.name v.display)
    else .error (.incompatible k.name v.kind)

def readDouble (v : Value) : Except ConversionError Binary64 :=
  match v with
  | .text s => readText "f64" (Binary.ofChars? .double) s
  | _ => match v.binary? with
    | some x => .ok x
    | none => .error (.incompatible "f64" v.kind)

/-- Reads a double and narrows it; a finite number must stay finite. -/
def readSingle (v : Value) : Except ConversionError Binary32 := do
  let wide ← readDouble v
  let narrow := wide.convert .single
  if wide.isFinite && !narrow.isFinite then .error (.outOfRange "f32" wide.text) else .ok narrow

def readDecimal (v : Value) : Except ConversionError Decimal :=
  match v with
  | .text s => readText "decimal" Decimal.ofChars? s
  | _ => match v.decimal? with
    | some d => .ok d
    | none =>
      if v.isNumber then .error (.outOfRange "decimal" v.display)
      else .error (.incompatible "decimal" v.kind)

/-- Scalars become text as they are displayed. -/
def readString (v : Value) : Except ConversionError String :=
  match v with
  | .null | .list _ | .map _ => .error (.incompatible "string" v.kind)
  | _ => .ok v.display

/-- The words for the truth values, letter case aside. -/
def truth? (cs : List Char) : Option Bool :=
  match String.ofList (cs.map asciiLowerChar) with
  | "true" | "1" => some true
  | "false" | "0" => some false
  | _ => none

def readBool (v : Value) : Except ConversionError Bool :=
  match v with
  | .bool b => .ok b
  | .text s => readText "bool" truth? s
  | _ => match v.integer? with
    | some 0 => .ok false
    | some 1 => .ok true
    | _ => .error (.incompatible "bool" v.kind)

def readTimestamp (v : Value) : Except ConversionError Timestamp :=
  match v with
  | .timestamp t => .ok t
  | .text s => readText "timestamp" Timestamp.ofChars? s
  | _ => .error (.incompatible "timestamp" v.kind)

def readUuid (v : Value) : Except ConversionError Uuid :=
  match v with
  | .text s => readText "uuid" Uuid.ofChars? s
  | _ => .error (.incompatible "uuid" v.kind)

def readRecord (v : Value) : Except ConversionError Record :=
  match v with
  | .map r => .ok r
  | _ => .error (.incompatible "map" v.kind)

/-- Reads a field of the type from a value. -/
def read : (type : WireType) → Value → Except ConversionError type.Carrier
  | .integer k, v => readInteger k v
  | .single, v => readSingle v
  | .double, v => readDouble v
  | .decimal, v => readDecimal v
  | .text, v => readString v
  | .bool, v => readBool v
  | .timestamp, v => readTimestamp v
  | .uuid, v => readUuid v
  | .value, v => .ok v
  | .record, v => readRecord v
  | .list item, v => match v with
    | .list items => items.mapM (read item)
    | _ => .error (.incompatible "list" v.kind)
  | .option item, v => match v with
    | .null => .ok none
    | _ => (read item v).map some

/-- The value that a field of the type is stored as. -/
def write : (type : WireType) → type.Carrier → Value
  | .integer k, i => if k = ⟨false, 64⟩ then .uint (UInt64.ofNat i.val.toNat) else .int (Int64.ofInt i.val)
  | .single, x => .float (Binary.convert .double x)
  | .double, x => .float x
  | .decimal, d => .decimal d
  | .text, s => .text s
  | .bool, b => .bool b
  | .timestamp, t => .timestamp t
  | .uuid, u => .text u.text
  | .value, v => v
  | .record, r => .map r
  | .list item, xs => .list (List.map (write item) xs)
  | .option item, x => match x with
    | none => .null
    | some y => write item y

end WireType

end EntitySchema
