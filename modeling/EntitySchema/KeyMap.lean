/-!
Finite maps with text keys. The entries are one list in increasing key order, keys ordered by
code point, so two maps that hold the same entries are equal and everything read off a map comes
out in one fixed order.
-/

namespace EntitySchema

/-- A finite map from text keys to `α`. -/
structure KeyMap (α : Type) where
  entries : List (String × α)
deriving Repr, DecidableEq

namespace KeyMap

variable {α β : Type}

/-- Keys increase strictly along the entries. Every operation below keeps this. -/
def Sorted (m : KeyMap α) : Prop :=
  m.entries.Pairwise (fun a b => a.1 < b.1)

def empty : KeyMap α := ⟨[]⟩

instance : Inhabited (KeyMap α) := ⟨empty⟩

def isEmpty (m : KeyMap α) : Bool := m.entries.isEmpty

def size (m : KeyMap α) : Nat := m.entries.length

def keys (m : KeyMap α) : List String := m.entries.map Prod.fst

def values (m : KeyMap α) : List α := m.entries.map Prod.snd

def get? (m : KeyMap α) (key : String) : Option α := m.entries.lookup key

def contains (m : KeyMap α) (key : String) : Bool := (m.get? key).isSome

/-- Puts an entry at its place in the order; an entry of the same key is replaced. -/
def insertEntry (key : String) (value : α) : List (String × α) → List (String × α)
  | [] => [(key, value)]
  | (k, v) :: rest =>
    if key < k then (key, value) :: (k, v) :: rest
    else if key = k then (key, value) :: rest
    else (k, v) :: insertEntry key value rest

def insert (m : KeyMap α) (key : String) (value : α) : KeyMap α :=
  ⟨insertEntry key value m.entries⟩

def erase (m : KeyMap α) (key : String) : KeyMap α :=
  ⟨m.entries.filter (fun e => e.1 != key)⟩

/-- Inserts unless the key is already present. -/
def insertNew (m : KeyMap α) (key : String) (value : α) : KeyMap α :=
  if m.contains key then m else m.insert key value

/-- Inserts the entries in turn, so of two entries with one key the later stays. -/
def insertAll (m : KeyMap α) (entries : List (String × α)) : KeyMap α :=
  entries.foldl (fun m e => m.insert e.1 e.2) m

def ofList (entries : List (String × α)) : KeyMap α := empty.insertAll entries

def filter (keep : String → α → Bool) (m : KeyMap α) : KeyMap α :=
  ⟨m.entries.filter (fun e => keep e.1 e.2)⟩

def map (f : α → β) (m : KeyMap α) : KeyMap β :=
  ⟨m.entries.map (fun e => (e.1, f e.2))⟩

end KeyMap

end EntitySchema
