import EntitySchema.Model.Schema

/-!
Schemas assembled at run time: a tree of named groups. An entry is a field, or a holder, whose value
is a map described by a schema of its own.
-/

namespace EntitySchema

inductive AdhocEntry where
  | field (f : Field)
  /-- A group with its name in the payload, and the title and entries of its schema. -/
  | holder (name : String) (required : Bool) (title : String) (entries : KeyMap AdhocEntry)

structure AdhocSchema where
  name : String
  entries : KeyMap AdhocEntry

/-- A group as a consumer sees it. -/
structure Holder where
  name : String
  required : Bool
  schema : AdhocSchema

namespace AdhocEntry

def name : AdhocEntry → String
  | .field f => f.name
  | .holder name _ _ _ => name

def field? : AdhocEntry → Option Field
  | .field f => some f
  | .holder _ _ _ _ => none

def holder? : AdhocEntry → Option Holder
  | .field _ => none
  | .holder name required title entries => some ⟨name, required, ⟨title, entries⟩⟩

end AdhocEntry

namespace AdhocSchema

def define (name : String) : AdhocSchema := ⟨name, .empty⟩

/-- Adds an entry under its own name, in place of an earlier one of that name. -/
def addEntry (s : AdhocSchema) (e : AdhocEntry) : AdhocSchema :=
  { s with entries := s.entries.insert e.name e }

def addField (s : AdhocSchema) (f : Field) : AdhocSchema := s.addEntry (.field f)

def addHolder (s : AdhocSchema) (name : String) (required : Bool) (inner : AdhocSchema) :
    AdhocSchema :=
  s.addEntry (.holder name required inner.name inner.entries)

/-- The fields of a static schema as entries. -/
def ofSchema (s : Schema) : AdhocSchema := s.fields.foldl addField (define s.name)

def entry? (s : AdhocSchema) (key : String) : Option AdhocEntry := s.entries.get? key

def fields (s : AdhocSchema) : List Field := s.entries.values.filterMap AdhocEntry.field?

def holders (s : AdhocSchema) : List Holder := s.entries.values.filterMap AdhocEntry.holder?

end AdhocSchema

end EntitySchema
