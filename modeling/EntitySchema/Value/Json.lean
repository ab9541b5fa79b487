import EntitySchema.Value.Basic
import EntitySchema.Json.Printer

/-!
Values as JSON documents and back. JSON has no decimals and no instants, so both become text, and
a float that is not finite becomes null; text is never read back as one of them.
-/

namespace EntitySchema.Value

open Number Calendar

/-- An integer that a word holds as a value: signed if it fits. -/
def ofInteger (i : Int) : Value :=
  if i ≤ Int64.maxValue.toInt then .int (Int64.ofInt i) else .uint (UInt64.ofNat i.toNat)

def ofNumber : JsonNumber → Value
  | .integer i _ => ofInteger i
  | .float x => .float (.finite x)

mutual

/-- The value of a document; a field that is repeated counts at its last place. -/
def ofJson : Json → Value
  | .null => .null
  | .bool b => .bool b
  | .number n => ofNumber n
  | .text s => .text s
  | .array items => .list (ofItems items)
  | .object fields => .map (KeyMap.ofList (ofFields fields))

def ofItems : List Json → List Value
  | [] => []
  | j :: rest => ofJson j :: ofItems rest

def ofFields : List (String × Json) → List (String × Value)
  | [] => []
  | (name, j) :: rest => (name, ofJson j) :: ofFields rest

end

/-- Reads null. -/
def decodeNull? : Json → Option Value
  | .null => some .null
  | _ => none

def decodeBool? : Json → Option Value
  | .bool b => some (.bool b)
  | _ => none

/-- Reads an integer that a signed word holds. -/
def decodeInt? : Json → Option Value
  | .number (.integer i _) =>
    if i ≤ Int64.maxValue.toInt then some (.int (Int64.ofInt i)) else none
  | _ => none

/-- Reads an integer that an unsigned word holds. -/
def decodeUInt? : Json → Option Value
  | .number (.integer i _) => if 0 ≤ i then some (.uint (UInt64.ofNat i.toNat)) else none
  | _ => none

def decodeFloat? : Json → Option Value
  | .number (.float x) => some (.float (.finite x))
  | _ => none

def decodeText? : Json → Option Value
  | .text s => some (.text s)
  | _ => none

/-- Reads whatever is neither array nor object: the first kind that takes the document. -/
def decodeScalar? (j : Json) : Option Value :=
  decodeNull? j <|> decodeBool? j <|> decodeInt? j <|> decodeUInt? j <|> decodeFloat? j
    <|> decodeText? j

mutual

/-- Reads a document without being told its kind, by trying the kinds in turn. -/
def decode? : Json → Option Value
  | .array items => (decodeItems? items).map .list
  | .object fields => (decodeFields? fields).map fun es => .map (KeyMap.ofList es)
  | j => decodeScalar? j

def decodeItems? : List Json → Option (List Value)
  | [] => some []
  | j :: rest => do some ((← decode? j) :: (← decodeItems? rest))

def decodeFields? : List (String × Json) → Option (List (String × Value))
  | [] => some []
  | (name, j) :: rest => do some ((name, ← decode? j) :: (← decodeFields? rest))

end

/-- A float as a number, or null if it is not finite. -/
def floatJson : Binary64 → Json
  | .finite x => .number (.float x)
  | _ => .null

mutual

/-- The document of a value, with instants in the given zone notation. -/
def toJson (zone : Timestamp.Zone) : Value → Json
  | .null => .null
  | .bool b => .bool b
  | .int i => (Json.integer? i.toInt).getD .null
  | .uint u => Json.natural u.toNat
  | .float x => floatJson x
  | .text s => .text s
  | .list items => .array (toItems zone items)
  | .map ⟨entries⟩ => .object (toFields zone entries)
  | .timestamp t => .text (String.ofList (t.chars zone))
  | .decimal d => .text d.text

def toItems (zone : Timestamp.Zone) : List Value → List Json
  | [] => []
  | v :: rest => toJson zone v :: toItems zone rest

def toFields (zone : Timestamp.Zone) : List (String × Value) → List (String × Json)
  | [] => []
  | (name, v) :: rest => (name, toJson zone v) :: toFields zone rest

end

/-- The document that carries a value between programs; instants end in `Z`. -/
def encode (v : Value) : Json := v.toJson .letter

/-- The value as plain text. Lists and maps are shown as their JSON text. -/
def display : Value → String
  | .null => "null"
  | .bool b => if b then "true" else "false"
  | .int i => Text.Numeral.ofInt i.toInt
  | .uint u => Text.Numeral.ofNat u.toNat
  | .float x => x.text
  | .text s => s
  | .decimal d => d.text
  | .timestamp t => t.text
  | .list items => (encode (.list items)).render
  | .map entries => (encode (.map entries)).render

end EntitySchema.Value
