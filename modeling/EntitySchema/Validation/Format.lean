import EntitySchema.Model.DataType
import EntitySchema.Value.Basic
import EntitySchema.Wire.Uuid

/-!
The formats of data types that are checked as text, and the normal form in which dates, times and
instants are compared.
-/

namespace EntitySchema.Validation

open Calendar

namespace Format

def isLower (c : Char) : Bool := 'a' ≤ c && c ≤ 'z'

def isUpper (c : Char) : Bool := 'A' ≤ c && c ≤ 'Z'

def isLetter (c : Char) : Bool := isLower c || isUpper c

def isDigit (c : Char) : Bool := '0' ≤ c && c ≤ '9'

/-- The parts of a list between separators. -/
def splitAt (separator : Char) : List Char → List (List Char)
  | [] => [[]]
  | c :: rest =>
    if c = separator then [] :: splitAt separator rest
    else match splitAt separator rest with
      | part :: parts => (c :: part) :: parts
      | [] => [[c]]

/-- Characters in front of the at sign of an address. -/
def isLocalChar (c : Char) : Bool :=
  isLetter c || isDigit c || c = '.' || c = '_' || c = '%' || c = '+' || c = '-'

def isLabelChar (c : Char) : Bool := isLetter c || isDigit c || c = '-'

/-- Labels joined by dots; the last of at least two is made of two or more letters. -/
def isDomain (cs : List Char) : Bool :=
  let labels := splitAt '.' cs
  let last := labels.getLastD []
  2 ≤ labels.length && labels.all (fun l => !l.isEmpty && l.all isLabelChar)
    && 2 ≤ last.length && last.all isLetter

/-- An address: a local part, an at sign and a domain. -/
def isEmail (cs : List Char) : Bool :=
  match cs.dropWhile isLocalChar with
  | '@' :: domain => !(cs.takeWhile isLocalChar).isEmpty && isDomain domain
  | _ => false

def isPhoneChar (c : Char) : Bool :=
  isDigit c || c = ' ' || c = '(' || c = ')' || c = '.' || c = '-'

/-- A digit and five to nineteen more digits or separators, perhaps after a plus sign. -/
def isPhone (cs : List Char) : Bool :=
  match (if cs.head? = some '+' then cs.drop 1 else cs) with
  | d :: rest => isDigit d && 5 ≤ rest.length && rest.length ≤ 19 && rest.all isPhoneChar
  | [] => false

/-- ASCII white space. -/
def isSpace (c : Char) : Bool := c.toNat = 32 || (9 ≤ c.toNat && c.toNat ≤ 13)

/-- Something after a web scheme, without white space; it does not start with a mark. -/
def isUrl (cs : List Char) : Bool :=
  let after (scheme : String) : Option (List Char) :=
    if scheme.toList.isPrefixOf cs then some (cs.drop scheme.length) else none
  match after "http://" <|> after "https://" with
  | some (c :: rest) =>
    !isSpace c && c ≠ '/' && c ≠ '$' && c ≠ '.' && c ≠ '?' && c ≠ '#' && rest.all (!isSpace ·)
  | _ => false

/-- Digits and letters except I, L, O and U. -/
def isUlidChar (c : Char) : Bool :=
  isDigit c || (isLetter c && !"ILOUilou".toList.contains c)

def isUlid (cs : List Char) : Bool := cs.length = 26 && cs.all isUlidChar

/-- Capital letters in the given number. -/
def isCode (length : Nat) (cs : List Char) : Bool := cs.length = length && cs.all isUpper

/-- Two or three small letters, and perhaps a region of two capital letters. -/
def isLanguage (cs : List Char) : Bool :=
  let language := cs.takeWhile isLower
  let region := cs.dropWhile isLower
  2 ≤ language.length && language.length ≤ 3 &&
    match region with
    | [] => true
    | '-' :: code => isCode 2 code
    | _ => false

end Format

open Format

/-- The text has the format of the data type; types without a format take any text. -/
def matchesFormat (t : DataType) (s : String) : Bool :=
  match t with
  | .email => isEmail s.toList
  | .phone => isPhone s.toList
  | .url => isUrl s.toList
  | .ulid => isUlid s.toList
  | .uuid => (Uuid.parse? s).isSome
  | .countryCode => isCode 2 s.toList
  | .currencyCode => isCode 3 s.toList
  | _ => true

/-- A date, time or instant in the form that rules compare. An instant may stand for its date. -/
def normalizeTemporal (t : DataType) (v : Value) : Option Value :=
  match t, v with
  | .dateTime, .timestamp _ => some v
  | .dateTime, .text s => (Timestamp.parse? s).map .timestamp
  | .date, .timestamp i => some (.text i.date.text)
  | .date, .text s => (Date.parse? s).map fun d => .text d.text
  | .time, .text s => (Clock.parse? s).map fun c => .text c.text
  | _, _ => none

end EntitySchema.Validation
