import EntitySchema.Json.Tree
import EntitySchema.Number.BinaryText
import EntitySchema.Text.Hex

/-!
Compact JSON text: no blanks between tokens, characters outside ASCII as they are.
-/

namespace EntitySchema

namespace Json

open Number Text.Numeral

/-- Floats have a point or an exponent: leading exponents from -5 to 15 are positional, and a tie
between two shortest decimals goes to the even one. -/
def floatLayout : FloatLayout := ⟨.even, true, some (-5, 15)⟩

/-- A character of a text: quotes, backslashes and control characters are escaped, with a short form
where there is one. -/
def escapeChar (c : Char) : List Char :=
  if c = '"' then ['\\', '"']
  else if c = '\\' then ['\\', '\\']
  else if c = '\n' then ['\\', 'n']
  else if c = '\r' then ['\\', 'r']
  else if c = '\t' then ['\\', 't']
  else if c.toNat = 8 then ['\\', 'b']
  else if c.toNat = 12 then ['\\', 'f']
  else if c.toNat < 32 then
    '\\' :: 'u' :: ([0, 0, c.toNat / 16, c.toNat % 16].map fun n => Text.Hex.digitChar (Fin.ofNat 16 n))
  else [c]

def quotedChars (s : String) : List Char := '"' :: s.toList.flatMap escapeChar ++ ['"']

end Json

def JsonNumber.chars : JsonNumber → List Char
  | .integer i _ => Text.Numeral.intChars i
  | .float x => Json.floatLayout.chars x

namespace Json

mutual

/-- The compact text of a document. -/
def chars : Json → List Char
  | .null => ['n', 'u', 'l', 'l']
  | .bool true => ['t', 'r', 'u', 'e']
  | .bool false => ['f', 'a', 'l', 's', 'e']
  | .number n => n.chars
  | .text s => quotedChars s
  | .array [] => ['[', ']']
  | .array (j :: rest) => '[' :: j.chars ++ itemsChars rest ++ [']']
  | .object [] => [Char.ofNat 123, Char.ofNat 125]
  | .object ((name, j) :: rest) =>
    Char.ofNat 123 :: quotedChars name ++ ':' :: j.chars ++ fieldsChars rest ++ [Char.ofNat 125]

/-- The items after the first, each behind a comma. -/
def itemsChars : List Json → List Char
  | [] => []
  | j :: rest => ',' :: j.chars ++ itemsChars rest

/-- The fields after the first, each behind a comma. -/
def fieldsChars : List (String × Json) → List Char
  | [] => []
  | (name, j) :: rest => ',' :: quotedChars name ++ ':' :: j.chars ++ fieldsChars rest

end

def render (j : Json) : String := String.ofList j.chars

end Json

end EntitySchema
