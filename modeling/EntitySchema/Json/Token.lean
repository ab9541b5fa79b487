import EntitySchema.Json.Numeral
import EntitySchema.Text.Hex

/-!
The tokens of JSON text. One pass over the characters cuts the text into marks, texts and bare
words; bare words are the three names and the numbers.
-/

namespace EntitySchema.Json

inductive Token where
  | openArray
  | closeArray
  | openObject
  | closeObject
  | comma
  | colon
  | text (s : String)
  | null
  | bool (b : Bool)
  | number (n : JsonNumber)

namespace Token

/-- The mark that a character is. -/
def mark? (c : Char) : Option Token :=
  if c = '[' then some .openArray
  else if c = ']' then some .closeArray
  else if c.toNat = 123 then some .openObject
  else if c.toNat = 125 then some .closeObject
  else if c = ',' then some .comma
  else if c = ':' then some .colon
  else none

def isGap (c : Char) : Bool := c = ' ' || c = '\n' || c = '\r' || c = '\t'

/-- The character after a backslash that stands for one character. -/
def escaped? (c : Char) : Option Char :=
  if c = '"' ∨ c = '\\' ∨ c = '/' then some c
  else if c = 'n' then some '\n'
  else if c = 'r' then some '\r'
  else if c = 't' then some '\t'
  else if c = 'b' then some (Char.ofNat 8)
  else if c = 'f' then some (Char.ofNat 12)
  else none

/-- A bare word, a name or a number. -/
def ofWord? (cs : List Char) : Option Token :=
  match String.ofList cs with
  | "null" => some .null
  | "true" => some (.bool true)
  | "false" => some (.bool false)
  | _ => (JsonNumber.ofChars? cs).map .number

/-- What the characters before the next one belong to; characters read so far are in reverse. -/
inductive Mode where
  | gap
  | word (read : List Char)
  | text (read : List Char)
  | escape (read : List Char)
  /-- Four hexadecimal digits of a code unit, after the high half of a pair if there is one. -/
  | code (read : List Char) (high : Option Nat) (digits : List (Fin 16))
  /-- After the high half of a pair. -/
  | pair (read : List Char) (high : Nat)
  | pairEscape (read : List Char) (high : Nat)

/-- The character of a code unit, or of a pair of them, put in front of `read`. -/
def closeCode (read : List Char) (high : Option Nat) (unit : Nat) : Option Mode :=
  match high with
  | some h =>
    if 0xDC00 ≤ unit ∧ unit ≤ 0xDFFF then
      some (.text (Char.ofNat (0x10000 + (h - 0xD800) * 1024 + (unit - 0xDC00)) :: read))
    else none
  | none =>
    if 0xD800 ≤ unit ∧ unit ≤ 0xDBFF then some (.pair read unit)
    else if 0xDC00 ≤ unit ∧ unit ≤ 0xDFFF then none
    else some (.text (Char.ofNat unit :: read))

/-- One character between tokens: the tokens that it completes and the mode after it. -/
def stepGap (c : Char) : Option (List Token × Mode) :=
  if isGap c then some ([], .gap)
  else if c = '"' then some ([], .text [])
  else match mark? c with
    | some t => some ([t], .gap)
    | none => some ([], .word [c])

def endsWord (c : Char) : Bool := isGap c || c = '"' || (mark? c).isSome

def step : Mode → Char → Option (List Token × Mode)
  | .gap, c => stepGap c
  | .word read, c =>
    if endsWord c then do
      let t ← ofWord? read.reverse
      let (ts, m) ← stepGap c
      some (t :: ts, m)
    else some ([], .word (c :: read))
  | .text read, c =>
    if c = '"' then some ([.text (String.ofList read.reverse)], .gap)
    else if c = '\\' then some ([], .escape read)
    else if c.toNat < 32 then none
    else some ([], .text (c :: read))
  | .escape read, c =>
    if c = 'u' then some ([], .code read none [])
    else (escaped? c).map fun d => ([], .text (d :: read))
  | .code read high digits, c => do
    let d ← Text.Hex.digit? c
    let ds := digits ++ [d]
    if ds.length < 4 then some ([], .code read high ds)
    else (closeCode read high (Text.Hex.value ds)).map fun m => ([], m)
  | .pair read high, c => if c = '\\' then some ([], .pairEscape read high) else none
  | .pairEscape read high, c => if c = 'u' then some ([], .code read (some high) []) else none

/-- The tokens of the remaining characters in a mode. -/
def lexFrom : Mode → List Char → Option (List Token)
  | .gap, [] => some []
  | .word read, [] => (ofWord? read.reverse).map fun t => [t]
  | _, [] => none
  | m, c :: rest => do
    let (ts, next) ← step m c
    (lexFrom next rest).map (ts ++ ·)

/-- The tokens of a text. -/
def lex (cs : List Char) : Option (List Token) := lexFrom .gap cs

end Token

end EntitySchema.Json
