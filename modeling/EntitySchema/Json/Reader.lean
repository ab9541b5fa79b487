import EntitySchema.Json.Token
import EntitySchema.KeyMap

/-!
Reading JSON text. The tokens drive a machine whose stack holds the arrays and objects that are
still open. Fields of an object are ordered by name, and of two fields with one name the later
stays.
-/

namespace EntitySchema.Json

/-- An array or object that is still open; items are in reverse. -/
inductive Frame where
  | array (items : List Json)
  | object (fields : KeyMap Json) (name : String)

/-- What may come next. -/
inductive Expect where
  | value
  | firstItem
  | firstField
  | field
  | colon (name : String) (fields : KeyMap Json)
  | separator (done : Json)

structure Machine where
  stack : List Frame
  expect : Expect

namespace Machine

def start : Machine := ⟨[], .value⟩

/-- A value is complete. -/
def finish (stack : List Frame) (j : Json) : Machine := ⟨stack, .separator j⟩

/-- A value begins. -/
def open? (stack : List Frame) : Token → Option Machine
  | .null => some (finish stack .null)
  | .bool b => some (finish stack (.bool b))
  | .number n => some (finish stack (.number n))
  | .text s => some (finish stack (.text s))
  | .openArray => some ⟨.array [] :: stack, .firstItem⟩
  | .openObject => some ⟨.object .empty "" :: stack, .firstField⟩
  | _ => none

/-- A comma or the end of the innermost array or object, after a complete value in it. -/
def close? (j : Json) : List Frame → Token → Option Machine
  | .array items :: stack, .comma => some ⟨.array (j :: items) :: stack, .value⟩
  | .array items :: stack, .closeArray => some (finish stack (.array (j :: items).reverse))
  | .object fields name :: stack, .comma =>
    some ⟨.object (fields.insert name j) "" :: stack, .field⟩
  | .object fields name :: stack, .closeObject =>
    some (finish stack (.object (fields.insert name j).entries))
  | _, _ => none

def step (m : Machine) (t : Token) : Option Machine :=
  match m.expect, m.stack, t with
  | .value, stack, t => open? stack t
  | .firstItem, .array _ :: stack, .closeArray => some (finish stack (.array []))
  | .firstItem, stack, t => open? stack t
  | .firstField, .object _ _ :: stack, .closeObject => some (finish stack (.object []))
  | .firstField, .object fields _ :: stack, .text name => some ⟨stack, .colon name fields⟩
  | .field, .object fields _ :: stack, .text name => some ⟨stack, .colon name fields⟩
  | .colon name fields, stack, .colon => some ⟨.object fields name :: stack, .value⟩
  | .separator j, stack, t => close? j stack t
  | _, _, _ => none

/-- The document of a run that has ended. -/
def result? (m : Machine) : Option Json :=
  match m.stack, m.expect with
  | [], .separator j => some j
  | _, _ => none

def run (m : Machine) (ts : List Token) : Option Machine := ts.foldlM step m

end Machine

/-- Reads a text that holds one document. -/
def parse? (s : String) : Option Json := do
  let m ← Machine.start.run (← Token.lex s.toList)
  m.result?

end EntitySchema.Json
