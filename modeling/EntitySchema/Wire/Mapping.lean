import EntitySchema.Wire.Type

/-!
How a typed record is laid out in a row. A mapping lists the fields of a type under their names in
the row, the mappings of the records embedded in it, whose fields lie in the same row, and at most
one overflow, a map that takes the entries no field claims.
-/

namespace EntitySchema

/-- A part of `S` that can be read and replaced. -/
structure Lens (S F : Type) where
  get : S → F
  set : F → S → S

/-- The part of a part. -/
def Lens.through {S T F : Type} (outer : Lens S T) (inner : Lens T F) : Lens S F where
  get s := inner.get (outer.get s)
  set f s := outer.set (inner.set f (outer.get s)) s

/-- One field of a type and its name in the row. -/
inductive Slot (T : Type) where
  | required (name : String) (type : WireType) (lens : Lens T type.Carrier)
  /-- Left out of the row when empty. -/
  | optional (name : String) (type : WireType) (lens : Lens T (Option type.Carrier))

namespace Slot

variable {S T : Type}

def name : Slot T → String
  | .required name _ _ => name
  | .optional name _ _ => name

def write (x : T) (row : Record) : Slot T → Record
  | .required name type lens => row.insert name (type.write (lens.get x))
  | .optional name type lens =>
    match lens.get x with
    | some y => row.insert name (type.write y)
    | none => row

/-- Sets the field from a value; an error names the field. -/
def read (x : T) (v : Value) : Slot T → Except ConversionError T
  | .required name type lens =>
    match type.read v with
    | .ok y => .ok (lens.set y x)
    | .error e => .error (.field name e)
  | .optional name type lens =>
    match (WireType.option type).read v with
    | .ok y => .ok (lens.set y x)
    | .error e => .error (.field name e)

/-- Takes the field's entry out of the row, if it is there, and sets the field from it. -/
def take (state : T × Record) (slot : Slot T) : Except ConversionError (T × Record) :=
  match state.2.get? slot.name with
  | none => .ok state
  | some v => (slot.read state.1 v).map fun x => (x, state.2.erase slot.name)

/-- The field as a field of what embeds the type. -/
def through (outer : Lens S T) : Slot T → Slot S
  | .required name type lens => .required name type (outer.through lens)
  | .optional name type lens => .optional name type (outer.through lens)

end Slot

inductive Mapping (T : Type) where
  | node (slots : List (Slot T)) (embedded : List (Mapping T)) (overflow : Option (Lens T Record))

/-- A mapping cannot be built: unknown entries would have two places to go. -/
inductive MappingError where
  | secondOverflow
deriving DecidableEq

def MappingError.message : MappingError → String
  | .secondOverflow => "record mapping declares more than one overflow map"

namespace Mapping

variable {S T : Type}

def slots : Mapping T → List (Slot T)
  | .node slots _ _ => slots

def embedded : Mapping T → List (Mapping T)
  | .node _ embedded _ => embedded

mutual

/-- The overflow of the tree: the mapping's own, or else the first among the embedded ones. -/
def overflow? : Mapping T → Option (Lens T Record)
  | .node _ _ (some lens) => some lens
  | .node _ embedded none => firstOverflow? embedded

def firstOverflow? : List (Mapping T) → Option (Lens T Record)
  | [] => none
  | m :: rest => match overflow? m with
    | some lens => some lens
    | none => firstOverflow? rest

end

def hasOverflow (m : Mapping T) : Bool := m.overflow?.isSome

mutual

/-- The names of all fields: the mapping's own, then those of the embedded ones. -/
def wireNames : Mapping T → List String
  | .node slots embedded _ => slots.map Slot.name ++ embeddedNames embedded

def embeddedNames : List (Mapping T) → List String
  | [] => []
  | m :: rest => wireNames m ++ embeddedNames rest

end

mutual

/-- Writes a typed record over a row: the overflow first, then what is embedded, and the mapping's own
fields last. A field that is written takes the place of an entry of its name. -/
def writeOver (x : T) : Mapping T → Record → Record
  | .node slots embedded overflow, row =>
    let row := match overflow with
      | some lens => row.insertAll (lens.get x).entries
      | none => row
    slots.foldl (Slot.write x) (writeEmbedded x embedded row)

def writeEmbedded (x : T) : List (Mapping T) → Record → Record
  | [], row => row
  | m :: rest, row => writeEmbedded x rest (writeOver x m row)

end

mutual

/-- Takes the declared fields out of a row: the mapping's own, then those of the embedded ones. -/
def take : Mapping T → T × Record → Except ConversionError (T × Record)
  | .node slots embedded _, state => do
    let state ← slots.foldlM Slot.take state
    takeEmbedded embedded state

def takeEmbedded : List (Mapping T) → T × Record → Except ConversionError (T × Record)
  | [], state => .ok state
  | m :: rest, state => do
    let state ← take m state
    takeEmbedded rest state

end

mutual

/-- The mapping as a part of the mapping of what embeds the type. -/
def through (outer : Lens S T) : Mapping T → Mapping S
  | .node slots embedded overflow =>
    .node (slots.map (Slot.through outer)) (throughAll outer embedded)
      (overflow.map outer.through)

def throughAll (outer : Lens S T) : List (Mapping T) → List (Mapping S)
  | [] => []
  | m :: rest => through outer m :: throughAll outer rest

end

/-! Building a mapping, one declaration at a time. -/

def empty : Mapping T := .node [] [] none

def addSlot (slot : Slot T) : Mapping T → Mapping T
  | .node slots embedded overflow => .node (slots ++ [slot]) embedded overflow

/-- A field that is always written; an empty option is written as null. -/
def field (m : Mapping T) (name : String) (type : WireType) (lens : Lens T type.Carrier) :
    Mapping T :=
  m.addSlot (.required name type lens)

/-- A field that is left out of the row when it is empty. -/
def optional (m : Mapping T) (name : String) (type : WireType)
    (lens : Lens T (Option type.Carrier)) : Mapping T :=
  m.addSlot (.optional name type lens)

/-- Lays the fields of a part into the same row. -/
def embed (m : Mapping T) (lens : Lens T S) (inner : Mapping S) : Except MappingError (Mapping T) :=
  if m.hasOverflow && inner.hasOverflow then .error .secondOverflow
  else match m with
    | .node slots embedded overflow => .ok (.node slots (embedded ++ [inner.through lens]) overflow)

/-- Names the part that takes unknown entries, in place of an earlier one of this type. -/
def withOverflow (m : Mapping T) (lens : Lens T Record) : Except MappingError (Mapping T) :=
  match m with
  | .node slots embedded _ =>
    if embedded.any hasOverflow then .error .secondOverflow
    else .ok (.node slots embedded (some lens))

/-- The row of a typed record. -/
def write (m : Mapping T) (x : T) : Record := m.writeOver x .empty

/-- Reads a typed record from a row, starting from the type's default. Entries that no field claims
are added to the overflow, or dropped if there is none. -/
def read (m : Mapping T) (initial : T) (row : Record) : Except ConversionError T := do
  let (x, rest) ← m.take (initial, row)
  if rest.isEmpty then .ok x
  else match m.overflow? with
    | some lens => .ok (lens.set ((lens.get x).insertAll rest.entries) x)
    | none => .ok x

end Mapping

end EntitySchema
