import EntitySchema.Sql.Dialect

/-!
Statements. A statement is put together in a buffer of SQL and of slots that refer to parameters by
number, and written in two forms: with numbered placeholders, and with every parameter as a literal.
-/

namespace EntitySchema.Sql

structure Statement where
  parameterized : String
  params : List Value
  sql : String

/-- A part of a statement that is being put together: SQL, or the slot of the parameter with this
number, counted from zero. -/
inductive Part where
  | sql (s : String)
  | slot (index : Nat)

/-! Parts stand in a list with the last one first, as they are added at the end. -/

namespace Part

/-- How many slots there are. -/
def slots : List Part → Nat
  | [] => 0
  | .sql _ :: before => slots before
  | .slot _ :: before => slots before + 1

/-- Every slot refers to the parameter with the number of the slots before it. -/
def Numbered : List Part → Prop
  | [] => True
  | .sql _ :: before => Numbered before
  | .slot index :: before => index = slots before ∧ Numbered before

/-- Adds SQL, which joins SQL that stands at the end. -/
def push (s : String) : List Part → List Part
  | .sql t :: before => .sql (t ++ s) :: before
  | parts => .sql s :: parts

/-- Adds other parts after these, with the numbers of their slots raised by `base`. -/
def append (base : Nat) (parts : List Part) : List Part → List Part
  | [] => parts
  | .sql s :: before => push s (append base parts before)
  | .slot index :: before => .slot (base + index) :: append base parts before

theorem slots_push (s : String) (parts : List Part) : slots (push s parts) = slots parts := by
  unfold push
  split <;> rfl

theorem numbered_push (s : String) (parts : List Part) :
    Numbered (push s parts) ↔ Numbered parts := by
  unfold push
  split <;> rfl

theorem slots_append (base : Nat) (parts others : List Part) :
    slots (append base parts others) = slots parts + slots others := by
  induction others with
  | nil => rfl
  | cons other before ih =>
    cases other with
    | sql s => simpa only [append, slots_push, slots] using ih
    | slot index => simp only [append, slots, ih, Nat.add_assoc]

theorem numbered_append (parts others : List Part) (ready : Numbered parts)
    (good : Numbered others) : Numbered (append (slots parts) parts others) := by
  induction others with
  | nil => exact ready
  | cons other before ih =>
    cases other with
    | sql s => exact (numbered_push _ _).mpr (ih good)
    | slot index => exact ⟨by rw [slots_append, good.1], ih good.2⟩

theorem index_lt_slots (parts : List Part) (good : Numbered parts) (index : Nat)
    (member : .slot index ∈ parts) : index < slots parts := by
  induction parts with
  | nil => cases member
  | cons part before ih =>
    cases part with
    | sql s =>
      rcases List.mem_cons.mp member with same | earlier
      · cases same
      · exact ih good earlier
    | slot other =>
      rcases List.mem_cons.mp member with same | earlier
      · cases same
        rw [slots, good.1]
        exact Nat.lt_succ_self _
      · exact Nat.lt_succ_of_lt (ih good.2 earlier)

/-- The text in which `spell` writes the slots. -/
def text (spell : Nat → String) : List Part → String
  | [] => ""
  | .sql s :: before => text spell before ++ s
  | .slot index :: before => text spell before ++ spell index

/-- The text in which every slot is the literal of its parameter. -/
def filled (d : Dialect) (params : Array Value) : (parts : List Part) →
    (∀ index, .slot index ∈ parts → index < params.size) → Except SqlError String
  | [], _ => .ok ""
  | .sql s :: before, known => do
    let front ← filled d params before fun index member => known index (.tail _ member)
    .ok (front ++ s)
  | .slot index :: before, known => do
    let front ← filled d params before fun index member => known index (.tail _ member)
    have inside : index < params.size := known index (.head _)
    let literal ← d.literal params[index]
    .ok (front ++ literal)

end Part

/-- A statement that is being put together. Its slots refer to all the parameters in turn. -/
structure Buffer where
  parts : List Part
  params : Array Value
  numbered : Part.Numbered parts
  counted : Part.slots parts = params.size

namespace Buffer

def empty : Buffer := ⟨[], #[], trivial, rfl⟩

/-- Adds SQL. -/
def push (b : Buffer) (s : String) : Buffer where
  parts := Part.push s b.parts
  params := b.params
  numbered := (Part.numbered_push s b.parts).mpr b.numbered
  counted := (Part.slots_push s b.parts).trans b.counted

/-- Adds the slot of a new parameter. -/
def bind (b : Buffer) (v : Value) : Buffer where
  parts := .slot b.params.size :: b.parts
  params := b.params.push v
  numbered := ⟨b.counted.symm, b.numbered⟩
  counted := by rw [Part.slots, b.counted, Array.size_push]

/-- Adds another buffer, whose parameters come after those of this one. -/
def append (b other : Buffer) : Buffer where
  parts := Part.append b.params.size b.parts other.parts
  params := b.params ++ other.params
  numbered := by
    rw [← b.counted]
    exact Part.numbered_append _ _ b.numbered other.numbered
  counted := by rw [Part.slots_append, b.counted, other.counted, Array.size_append]

/-- Adds items one after the other, with a separator between each two. -/
def separated {α : Type} (separator : String) (write : Buffer → α → Buffer) (b : Buffer) :
    List α → Buffer
  | [] => b
  | [x] => write b x
  | x :: rest => separated separator write ((write b x).push separator) rest

theorem index_lt (b : Buffer) (index : Nat) (member : .slot index ∈ b.parts) :
    index < b.params.size := by
  rw [← b.counted]
  exact Part.index_lt_slots b.parts b.numbered index member

/-- The finished statement; it has none if one of its values has no literal. -/
def finish (b : Buffer) (d : Dialect) : Except SqlError Statement := do
  let sql ← Part.filled d b.params b.parts b.index_lt
  .ok {
    parameterized := Part.text (fun index => d.placeholder (index + 1)) b.parts
    params := b.params.toList
    sql := sql }

end Buffer

end EntitySchema.Sql
