import EntitySchema.Model.Field

/-!
Entity schemas: fields in the order of their declaration, and rules over the whole entity.
-/

namespace EntitySchema

inductive EntityRule where
  /-- The columns are unique together. -/
  | unique (columns : List String)
deriving DecidableEq

structure Schema where
  name : String
  label : String
  description : String
  fields : List Field
  rules : List EntityRule

namespace Schema

def define (name : String) : Schema := ⟨name, "", "", [], []⟩

def field? (s : Schema) (name : String) : Option Field := s.fields.find? (·.name == name)

def fieldNames (s : Schema) : List String := s.fields.map Field.name

def withLabel (s : Schema) (label : String) : Schema := { s with label }

def withDescription (s : Schema) (description : String) : Schema := { s with description }

/-- Puts a field in the place of the first one of its name, or at the end. -/
def placeField (field : Field) : List Field → List Field
  | [] => [field]
  | f :: rest => if f.name = field.name then field :: rest else f :: placeField field rest

def addField (s : Schema) (field : Field) : Schema := { s with fields := placeField field s.fields }

def addFields (s : Schema) (fields : List Field) : Schema := fields.foldl addField s

def addRule (s : Schema) (rule : EntityRule) : Schema := { s with rules := s.rules ++ [rule] }

/-- Declares the columns unique together. -/
def addUnique (s : Schema) (columns : List String) : Schema := s.addRule (.unique columns)

end Schema

end EntitySchema
