import EntitySchema.Model.DataType
import EntitySchema.Value.Basic
import EntitySchema.Text.Blank

/-!
Fields of an entity and the draft in which a field is put together. A finished field has a name;
its label is the name unless another was given.
-/

namespace EntitySchema

inductive FieldRule where
  | max (bound : Value)
  | min (bound : Value)
  | length (least most : UInt32)
  | oneOf (values : List Value)
  | primary
  | tenant
  | unique

namespace FieldRule

def isPrimary : FieldRule → Bool
  | .primary => true
  | _ => false

def isTenant : FieldRule → Bool
  | .tenant => true
  | _ => false

def isUnique : FieldRule → Bool
  | .unique => true
  | _ => false

def length? : FieldRule → Option (UInt32 × UInt32)
  | .length least most => some (least, most)
  | _ => none

def oneOf? : FieldRule → Option (List Value)
  | .oneOf values => some values
  | _ => none

end FieldRule

structure Field where
  name : String
  label : String
  description : String
  dataType : DataType
  options : KeyMap String
  required : Bool
  default : Option Value
  rules : List FieldRule

namespace Field

def option? (f : Field) (key : String) : Option String := f.options.get? key

def isPrimary (f : Field) : Bool := f.rules.any FieldRule.isPrimary

def isTenant (f : Field) : Bool := f.rules.any FieldRule.isTenant

def isUnique (f : Field) : Bool := f.rules.any FieldRule.isUnique

/-- The bounds of the first length rule. -/
def length? (f : Field) : Option (UInt32 × UInt32) := f.rules.findSome? FieldRule.length?

/-- The values of the first rule that lists allowed ones. -/
def oneOf? (f : Field) : Option (List Value) := f.rules.findSome? FieldRule.oneOf?

end Field

/-- A field that is still being put together. -/
structure FieldDraft where
  field : Field
  labelled : Bool

inductive FieldError where
  | blankName
deriving DecidableEq

def FieldError.message : FieldError → String
  | .blankName => "field name must not be empty"

/-- A new field is optional text without rules. -/
def Field.define (name : String) : FieldDraft where
  field := ⟨name, "", "", .string, .empty, false, none, []⟩
  labelled := false

/-- A finished field taken up again keeps its label under another name. -/
def Field.reopen (f : Field) : FieldDraft := ⟨f, true⟩

namespace FieldDraft

def name (d : FieldDraft) (s : String) : FieldDraft := { d with field.name := s }

def label (d : FieldDraft) (s : String) : FieldDraft :=
  { d with field.label := s, labelled := true }

def description (d : FieldDraft) (s : String) : FieldDraft := { d with field.description := s }

def dataType (d : FieldDraft) (t : DataType) : FieldDraft := { d with field.dataType := t }

def option (d : FieldDraft) (key value : String) : FieldDraft :=
  { d with field.options := d.field.options.insert key value }

def required (d : FieldDraft) (b : Bool) : FieldDraft := { d with field.required := b }

def default (d : FieldDraft) (v : Value) : FieldDraft := { d with field.default := some v }

def rule (d : FieldDraft) (r : FieldRule) : FieldDraft :=
  { d with field.rules := d.field.rules ++ [r] }

/-- The finished field, unless its name is blank. -/
def build (d : FieldDraft) : Except FieldError Field :=
  if Text.blank d.field.name then .error .blankName
  else .ok (if d.labelled then d.field else { d.field with label := d.field.name })

end FieldDraft

end EntitySchema
