import EntitySchema.Wire.Type
import EntitySchema.Proofs.Number.Binary
import EntitySchema.Proofs.Outcome
import EntitySchema.Proofs.Wire.Uuid

/-!
Fields are read back from the values that they are stored as. The one thing that a stored value does
not tell is an option that holds what is itself stored as null.
-/

namespace EntitySchema

open Number Calendar Text

/-- The widths of integers that fields have. -/
def IntegerType.Standard (k : IntegerType) : Prop :=
  k.bits = 8 ∨ k.bits = 16 ∨ k.bits = 32 ∨ k.bits = 64

namespace WireType

/-- All integers in the type have a standard width. -/
def Standard : WireType → Prop
  | .integer k => k.Standard
  | .list item => item.Standard
  | .option item => item.Standard
  | _ => True

/-- No option in a value of the type holds what is stored as null. -/
def Tells : (type : WireType) → type.Carrier → Prop
  | .list item, xs => List.Forall item.Tells xs
  | .option item, x => match x with
    | none => True
    | some y => item.write y ≠ .null ∧ item.Tells y
  | _, _ => True

theorem write_integer (k : IntegerType) (i : k.Range) : (WireType.integer k).write i =
    if k = ⟨false, 64⟩ then .uint (UInt64.ofNat i.val.toNat) else .int (Int64.ofInt i.val) := rfl

theorem read_option (item : WireType) {v : Value} (given : v ≠ .null) :
    (WireType.option item).read v = (item.read v).map some := by
  cases v <;> first | rfl | exact absurd rfl given

/-- Signed words hold every standard integer except the widest unsigned ones. -/
theorem int64_of_range {k : IntegerType} (standard : k.Standard) (narrow : k ≠ ⟨false, 64⟩)
    (i : k.Range) : (Int64.ofInt i.val).toInt = i.val := by
  obtain ⟨low, high⟩ := i.property
  have fits : -2 ^ 63 ≤ i.val ∧ i.val < 2 ^ 63 := by
    obtain ⟨signed, bits⟩ := k
    rcases standard with rfl | rfl | rfl | rfl <;> cases signed <;>
      simp [IntegerType.low, IntegerType.high] at low high narrow ⊢ <;> omega
  exact Int64.toInt_ofInt_of_le fits.1 fits.2

theorem readInteger_write {k : IntegerType} (standard : k.Standard) (i : k.Range) :
    readInteger k ((WireType.integer k).write i) = .ok i := by
  have inside : k.ofInt? i.val = some i := dif_pos i.property
  rw [write_integer]
  by_cases wide : k = ⟨false, 64⟩
  · subst wide
    have whole : ((UInt64.ofNat i.val.toNat).toNat : Int) = i.val := by
      obtain ⟨low, high⟩ := i.property
      simp [IntegerType.low, IntegerType.high] at low high
      rw [UInt64.toNat_ofNat_of_lt' (by simp [UInt64.size]; omega)]
      omega
    simp only [if_true, readInteger, Value.isNumber, whole?, whole, Option.bind_some, inside]
  · simp only [if_neg wide, readInteger, Value.isNumber, if_true, whole?, int64_of_range standard wide i,
      Option.bind_some, inside]

theorem readSingle_write (x : Binary32) : readSingle (.float (x.convert .double)) = .ok x := by
  obtain ⟨back, finite⟩ := Binary.convert_double x
  change (if (x.convert .double).isFinite && !((x.convert .double).convert .single).isFinite
    then _ else Except.ok ((x.convert .double).convert .single)) = _
  rw [back, finite, Bool.and_not_self, if_neg Bool.false_ne_true]

theorem read_list {item : WireType} {xs : List item.Carrier}
    (each : ∀ x ∈ xs, item.read (item.write x) = .ok x) :
    (WireType.list item).read (.list (xs.map item.write)) = .ok xs := by
  apply Outcome.mapM_eq_ok.mpr
  rw [List.forall₂_map_left_iff, List.forall₂_same]
  exact each

theorem read_write (type : WireType) (standard : type.Standard) (x : type.Carrier)
    (tells : type.Tells x) : type.read (type.write x) = .ok x := by
  induction type with
  | integer k => exact readInteger_write standard x
  | single => exact readSingle_write x
  | double => rfl
  | decimal => rfl
  | text => rfl
  | bool => rfl
  | timestamp => rfl
  | uuid =>
    change readText "uuid" Uuid.ofChars? x.text = _
    rw [readText, Uuid.ofChars?_text x]
    rfl
  | value => rfl
  | record => rfl
  | list item ih =>
    exact read_list fun y member => ih standard y (List.forall_iff_forall_mem.mp tells y member)
  | option item ih =>
    cases x with
    | none => rfl
    | some y =>
      obtain ⟨given, inner⟩ := tells
      change (WireType.option item).read (item.write y) = _
      rw [read_option item given, ih standard y inner]
      rfl

end WireType

end EntitySchema
