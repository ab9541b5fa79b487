/-!
The closed set of data types that a field can have.
-/

namespace EntitySchema

inductive DataType where
  | email
  | phone
  | string
  | secret
  | url
  | ulid
  | uuid
  | integer
  | float
  | boolean
  | date
  | time
  | dateTime
  | enumString
  | enumNumber
  /-- Texts by language code. -/
  | localizedText
  /-- Two letters of ISO 3166-1. -/
  | countryCode
  /-- Three letters of ISO 4217. -/
  | currencyCode
deriving DecidableEq, Repr

namespace DataType

def all : List DataType :=
  [.email, .phone, .string, .secret, .url, .ulid, .uuid, .integer, .float, .boolean, .date, .time,
   .dateTime, .enumString, .enumNumber, .localizedText, .countryCode, .currencyCode]

def name : DataType → String
  | .email => "email"
  | .phone => "phone"
  | .string => "string"
  | .secret => "secret"
  | .url => "url"
  | .ulid => "ulid"
  | .uuid => "uuid"
  | .integer => "integer"
  | .float => "float"
  | .boolean => "boolean"
  | .date => "date"
  | .time => "time"
  | .dateTime => "dateTime"
  | .enumString => "enumString"
  | .enumNumber => "enumNumber"
  | .localizedText => "localizedText"
  | .countryCode => "countryCode"
  | .currencyCode => "currencyCode"

def ofName? (s : String) : Option DataType := all.find? (·.name == s)

/-- Types of a particular domain. -/
def isCustom : DataType → Bool
  | .localizedText | .countryCode | .currencyCode => true
  | _ => false

/-- Types with a check of their own in place of the generic rules. -/
def ownsValidation : DataType → Bool
  | .email | .phone | .url | .ulid | .uuid | .enumString | .enumNumber => true
  | t => t.isCustom

/-- Types whose values travel as text. -/
def isTextual : DataType → Bool
  | .email | .phone | .string | .secret | .url | .ulid | .uuid | .enumString | .countryCode
  | .currencyCode => true
  | _ => false

end DataType

end EntitySchema
