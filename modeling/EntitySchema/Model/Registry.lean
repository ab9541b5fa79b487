import EntitySchema.Model.Adhoc

/-!
Append-only stores of schemas by name. An item is kept under its name without blanks at the ends,
and stays for good.
-/

namespace EntitySchema

/-- Items that have a name. -/
class Named (α : Type) where
  name : α → String

instance : Named Schema := ⟨Schema.name⟩

instance : Named AdhocSchema := ⟨AdhocSchema.name⟩

inductive RegistryError where
  | alreadyRegistered (name : String)
  | emptyName
deriving DecidableEq

def RegistryError.message : RegistryError → String
  | .alreadyRegistered name => "schema already registered: " ++ name
  | .emptyName => "cannot register a schema with an empty name"

structure Registry (α : Type) where
  items : KeyMap α

namespace Registry

variable {α : Type}

def empty : Registry α := ⟨.empty⟩

def get? (r : Registry α) (name : String) : Option α := r.items.get? name

def contains (r : Registry α) (name : String) : Bool := r.items.contains name

/-- The names in order. -/
def names (r : Registry α) : List String := r.items.keys

def size (r : Registry α) : Nat := r.items.size

def isEmpty (r : Registry α) : Bool := r.size == 0

/-- Adds an item, unless its name is blank or taken. -/
def register [Named α] (r : Registry α) (item : α) : Except RegistryError (Registry α) :=
  let name := Text.trim (Named.name item)
  if name.isEmpty then .error .emptyName
  else if r.contains name then .error (.alreadyRegistered name)
  else .ok ⟨r.items.insert name item⟩

/-- Adds items in turn up to the first refusal. -/
def registerAll [Named α] (r : Registry α) (items : List α) : Except RegistryError (Registry α) :=
  items.foldlM register r

end Registry

end EntitySchema
