import EntitySchema.Validation.Format
import EntitySchema.Validation.Config
import EntitySchema.Validation.Violations
import EntitySchema.Model.Field
import EntitySchema.Value.Json

/-!
The rules of one field. Types with a check of their own get it together with a length check; all
other types get the field's rules. A rule that cannot apply to its field is refused when the rules
are built.
-/

namespace EntitySchema.Validation

open Text.Numeral

inductive Rule where
  | min (bound : Value)
  | max (bound : Value)
  | length (least most : UInt32)
  | oneOf (values : List Value)
  | format
  | localized (least most : UInt32)

/-- Why a rule cannot apply. -/
inductive Reason where
  | noAllowedValues
  | notTextual (t : DataType)
  | emptyRange (least most : UInt32)
  | boundNotNumber (found : Kind)
  | boundUnreadable (bound : Value) (t : DataType)
  | notApplicable (t : DataType)
  | valueMismatch (found : Kind) (t : DataType)

def Reason.message : Reason → String
  | .noAllowedValues => "enumeration fields need allowed values"
  | .notTextual t => t.name ++ " is not textual"
  | .emptyRange least most =>
    "min " ++ ofNat least.toNat ++ " exceeds max " ++ ofNat most.toNat
  | .boundNotNumber found => found.name ++ " bound on a number field"
  | .boundUnreadable bound t => "'" ++ bound.display ++ "' is not a valid " ++ t.name
  | .notApplicable t => "not applicable to " ++ t.name ++ " fields"
  | .valueMismatch found t => found.name ++ " value for a " ++ t.name ++ " field"

/-- A rule of a field that cannot apply. -/
structure Misconfigured where
  rule : String
  field : String
  reason : Reason

def Misconfigured.message (m : Misconfigured) : String :=
  "invalid " ++ m.rule ++ " rule on field '" ++ m.field ++ "': " ++ m.reason.message

structure FieldRules where
  name : String
  dataType : DataType
  required : Bool
  rules : List Rule

/-- The value in the shape that rules compare, if it fits the data type. -/
def typed (t : DataType) (v : Value) : Option Value :=
  match t, v with
  | .integer, .int _ => some v
  | .integer, .uint _ => some v
  | .enumNumber, .int _ => some v
  | .enumNumber, .uint _ => some v
  | .float, _ => if v.isNumber then some v else none
  | .boolean, .bool _ => some v
  | .date, _ => normalizeTemporal .date v
  | .time, _ => normalizeTemporal .time v
  | .dateTime, _ => normalizeTemporal .dateTime v
  | .localizedText, .map _ => some v
  | t, .text _ => if t.isTextual then some v else none
  | _, _ => none

/-- Equal in order or in kind and content. -/
def isEqual (a b : Value) : Bool := a.compare? b == some .eq || a.same b

namespace FieldRules

/-- The bounds of the first length rule, or the configured ones. -/
def lengthBounds (f : Field) (config : Config) : Except Misconfigured (UInt32 × UInt32) :=
  let (least, most) := f.length?.getD (config.minLength, config.maxLength)
  if most < least then .error ⟨"length", f.name, .emptyRange least most⟩ else .ok (least, most)

/-- A bound in the shape that values are compared in. -/
def boundFor (f : Field) (rule : String) (bound : Value) : Except Misconfigured Value :=
  match f.dataType with
  | .integer | .float =>
    if bound.isNumber then .ok bound else .error ⟨rule, f.name, .boundNotNumber bound.kind⟩
  | .date | .time | .dateTime =>
    match normalizeTemporal f.dataType bound with
    | some v => .ok v
    | none => .error ⟨rule, f.name, .boundUnreadable bound f.dataType⟩
  | t => .error ⟨rule, f.name, .notApplicable t⟩

/-- Allowed values in the shape that values are compared in. -/
def allowed (f : Field) (values : List Value) : Except Misconfigured (List Value) :=
  values.mapM fun v =>
    match typed f.dataType v with
    | some w => .ok w
    | none => .error ⟨"one_of", f.name, .valueMismatch v.kind f.dataType⟩

/-- The check of a rule that a field carries; key markers check nothing. -/
def ofFieldRule (f : Field) : FieldRule → Except Misconfigured (List Rule)
  | .min bound => (boundFor f "min" bound).map fun b => [.min b]
  | .max bound => (boundFor f "max" bound).map fun b => [.max b]
  | .length least most =>
    if !f.dataType.isTextual then .error ⟨"length", f.name, .notTextual f.dataType⟩
    else if most < least then .error ⟨"length", f.name, .emptyRange least most⟩
    else .ok [.length least most]
  | .oneOf values => (allowed f values).map fun vs => [.oneOf vs]
  | .primary | .tenant | .unique => .ok []

/-- The checks of a type that has its own. -/
def ofOwnType (f : Field) (config : Config) : Except Misconfigured (List Rule) :=
  match f.dataType with
  | .enumString | .enumNumber =>
    match f.oneOf? with
    | none => .error ⟨"one_of", f.name, .noAllowedValues⟩
    | some values => (allowed f values).map fun vs => [.oneOf vs]
  | .localizedText => (lengthBounds f config).map fun (least, most) => [.localized least most]
  | _ => (lengthBounds f config).map fun (least, most) => [.length least most, .format]

/-- The rules of a field. Nothing is required when an entity is edited. -/
def build (f : Field) (edit : Bool) (config : Config) : Except Misconfigured FieldRules := do
  let rules ←
    if f.dataType.ownsValidation then ofOwnType f config
    else (f.rules.mapM (ofFieldRule f)).map List.flatten
  .ok ⟨f.name, f.dataType, f.required && !edit, rules⟩

/-- The violation of a text whose length is out of bounds. -/
def lengthViolation (s : String) (least most : UInt32) : List Violation :=
  if least.toNat ≤ s.length ∧ s.length ≤ most.toNat then []
  else [⟨"length", "length must be between " ++ ofNat least.toNat ++ " and " ++ ofNat most.toNat⟩]

/-- The violations of one text of a localized value. -/
def localizedViolations (least most : UInt32) (code : String) (v : Value) : List Violation :=
  let language :=
    if Format.isLanguage code.toList then []
    else [⟨"format", "'" ++ code ++ "' is not a language code"⟩]
  let content := match v with
    | .text s => (lengthViolation s least most).map fun w =>
      { w with message := code ++ ": " ++ w.message }
    | _ => [⟨"type", code ++ ": expected text, got " ++ v.kind.name⟩]
  language ++ content

/-- What a value of the right type breaks in one rule. -/
def evaluate (t : DataType) (v : Value) : Rule → List Violation
  | .min bound =>
    if v.compare? bound == some .lt then [⟨"min", "must be at least " ++ bound.display⟩] else []
  | .max bound =>
    if v.compare? bound == some .gt then [⟨"max", "must be at most " ++ bound.display⟩] else []
  | .length least most => match v with
    | .text s => lengthViolation s least most
    | _ => []
  | .oneOf values =>
    if values.any (isEqual v) then []
    else [⟨"one_of", "must be one of: " ++ ", ".intercalate (values.map Value.display)⟩]
  | .format => match v with
    | .text s => if matchesFormat t s then [] else [⟨"format", "is not a valid " ++ t.name⟩]
    | _ => []
  | .localized least most => match v with
    | .map texts => texts.entries.flatMap fun e => localizedViolations least most e.1 e.2
    | _ => []

/-- What a value breaks, null and a missing value alike. -/
def check (r : FieldRules) (v : Option Value) : List Violation :=
  match v with
  | none | some .null => if r.required then [⟨"required", "is required"⟩] else []
  | some v =>
    match typed r.dataType v with
    | none => [⟨"type", "expected " ++ r.dataType.name ++ ", got " ++ v.kind.name⟩]
    | some w => r.rules.flatMap (evaluate r.dataType w)

end FieldRules

end EntitySchema.Validation
