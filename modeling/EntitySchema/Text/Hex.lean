/-!
Hexadecimal digits, read in either letter case and written in lower case.
-/

namespace EntitySchema.Text.Hex

/-- The digit that a character stands for. -/
def digit? (c : Char) : Option (Fin 16) :=
  let n := c.toNat
  if h : 48 ≤ n ∧ n ≤ 57 then some ⟨n - 48, by omega⟩
  else if h : 97 ≤ n ∧ n ≤ 102 then some ⟨n - 87, by omega⟩
  else if h : 65 ≤ n ∧ n ≤ 70 then some ⟨n - 55, by omega⟩
  else none

/-- A digit in lower case. -/
def digitChar (d : Fin 16) : Char :=
  if d.val < 10 then Char.ofNat (48 + d.val) else Char.ofNat (87 + d.val)

/-- The number that digits write, most significant first. -/
def value (ds : List (Fin 16)) : Nat := ds.foldl (fun n d => 16 * n + d.val) 0

/-- The number that characters write, if all of them are digits. -/
def number? (cs : List Char) : Option Nat := (cs.mapM digit?).map value

end EntitySchema.Text.Hex
