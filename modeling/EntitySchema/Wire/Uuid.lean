import EntitySchema.Text.Hex

/-!
Universally unique identifiers: thirty-two hexadecimal digits, shown in five groups. The groups may
also be read in braces or behind `urn:uuid:`, and the digits without groups; letter case is ignored.
-/

namespace EntitySchema

structure Uuid where
  digits : List (Fin 16)
  length_eq : digits.length = 32
deriving DecidableEq

namespace Uuid

open Text.Hex

/-- All digits zero. -/
def nil : Uuid := ⟨List.replicate 32 ⟨0, by decide⟩, List.length_replicate⟩

instance : Inhabited Uuid := ⟨nil⟩

/-- Groups of eight, four, four, four and twelve digits, joined by hyphens. -/
def chars (u : Uuid) : List Char :=
  let cs := u.digits.map digitChar
  cs.take 8 ++ '-' :: (cs.drop 8).take 4 ++ '-' :: (cs.drop 12).take 4
    ++ '-' :: (cs.drop 16).take 4 ++ '-' :: cs.drop 20

def text (u : Uuid) : String := String.ofList u.chars

/-- Reads exactly thirty-two digits. -/
def ofDigits? (cs : List Char) : Option Uuid :=
  (cs.mapM digit?).bind fun ds => if h : ds.length = 32 then some ⟨ds, h⟩ else none

/-- The digits of five groups with single hyphens between them. -/
def ungroup? (cs : List Char) : Option (List Char) :=
  let hyphens := [cs[8]?, cs[13]?, cs[18]?, cs[23]?]
  if cs.length = 36 ∧ hyphens.all (· == some '-') then
    some (cs.take 8 ++ (cs.drop 9).take 4 ++ (cs.drop 14).take 4 ++ (cs.drop 19).take 4
      ++ cs.drop 24)
  else none

/-- Takes off the braces or the name of the scheme around grouped digits. -/
def unwrap (cs : List Char) : List Char :=
  if cs.length = 38 ∧ cs.head?.map Char.toNat = some 123 ∧ cs.getLast?.map Char.toNat = some 125 then
    (cs.drop 1).take 36
  else if cs.length = 45 ∧ (cs.take 9).map Char.toLower = "urn:uuid:".toList then cs.drop 9
  else cs

/-- Reads an identifier in any of its forms. -/
def ofChars? (cs : List Char) : Option Uuid :=
  if cs.length = 32 then ofDigits? cs else (ungroup? (unwrap cs)).bind ofDigits?

def parse? (s : String) : Option Uuid := ofChars? s.toList

end Uuid

end EntitySchema
