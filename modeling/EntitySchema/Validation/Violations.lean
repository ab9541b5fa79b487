import EntitySchema.Json.Decoding
import EntitySchema.KeyMap

/-!
Violations found in one validation, by the path of the field they concern. Fields inside a holder
have paths such as `address.city`.
-/

namespace EntitySchema.Validation

/-- One rule that a value breaks, with the rule's stable name. -/
structure Violation where
  code : String
  message : String
deriving DecidableEq, Repr

structure Violations where
  paths : KeyMap (List Violation)
deriving DecidableEq

namespace Violations

def empty : Violations := ⟨.empty⟩

def isEmpty (vs : Violations) : Bool := vs.paths.isEmpty

/-- The number of paths. -/
def size (vs : Violations) : Nat := vs.paths.size

def get? (vs : Violations) (path : String) : Option (List Violation) := vs.paths.get? path

/-- The codes at a path, in the order in which they were found. -/
def codes (vs : Violations) (path : String) : List String :=
  ((vs.get? path).getD []).map Violation.code

def fields (vs : Violations) : List String := vs.paths.keys

/-- Adds violations at the end of those of their path. -/
def append (vs : Violations) (path : String) (found : List Violation) : Violations :=
  ⟨vs.paths.insert path ((vs.get? path).getD [] ++ found)⟩

def add (vs : Violations) (path : String) (v : Violation) : Violations := vs.append path [v]

def addAll (vs : Violations) (path : String) (found : List Violation) : Violations :=
  found.foldl (fun vs v => vs.add path v) vs

/-- Takes in the violations of a holder under its name. -/
def mergeNested (vs : Violations) (holder : String) (nested : Violations) : Violations :=
  nested.paths.entries.foldl (fun vs e => vs.append (holder ++ "." ++ e.1) e.2) vs

/-- All paths with their codes. -/
def message (vs : Violations) : String :=
  "validation failed: " ++ "; ".intercalate (vs.paths.entries.map fun e =>
    e.1 ++ " (" ++ ", ".intercalate (e.2.map Violation.code) ++ ")")

/-- Success if nothing was found. -/
def toResult (vs : Violations) : Except Violations Unit :=
  if vs.isEmpty then .ok () else .error vs

end Violations

open Json

def Violation.encode (v : Violation) : Json :=
  .object [("code", .text v.code), ("message", .text v.message)]

def Violation.decode? (j : Json) : Option Violation := do
  let m ← j.members? ["code", "message"]
  let code ← m.required "code" text?
  let message ← m.required "message" text?
  some { code, message }

def Violations.encode (vs : Violations) : Json :=
  .object (vs.paths.entries.map fun e => (e.1, .array (e.2.map Violation.encode)))

def Violations.decode? (j : Json) : Option Violations :=
  (mapOf (listOf Violation.decode?) j).map Violations.mk

end EntitySchema.Validation
