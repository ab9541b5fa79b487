import EntitySchema.Proofs.Calendar.Instant
import EntitySchema.Proofs.Validation.Temporal
import Mathlib.Data.Option.Basic

/-!
Normal forms of dates, times of day and instants. A value has one if it stands for something, the normal
form stands for the same and is its own, and values have the same one only if they stand for the same.
-/

namespace EntitySchema

open Calendar Validation

/-- The instant that a value is read as. -/
def Value.instant? : Value → Option Timestamp
  | .timestamp t => some t
  | .text s => Timestamp.parse? s
  | _ => none

/-- The point of the time line that a value stands for; a text gives it by a local time and its offset
from universal time. -/
def Value.point? : Value → Option Timestamp.Point
  | .timestamp t => some t.point
  | .text s => (Timestamp.zoned? s.toList).map fun (t, offset) => t.zonedPoint offset
  | _ => none

theorem Value.point?_eq (v : Value) : v.point? = v.instant?.map Timestamp.point := by
  cases v with
  | text s => exact (Timestamp.map_point_ofChars? s.toList).symm
  | _ => rfl

/-- The leap second at the end of a year, an hour ahead of universal time. -/
example : (Value.text "2017-01-01T00:59:60.5+01:00").point? =
    (Value.text "2016-12-31 23:59:60.500z").point? := by decide

namespace Validation

/-- The values of a data type are brought to one form for each thing that they stand for. -/
structure Canonical {α : Type} (t : DataType) (meaning? : Value → Option α) : Prop where
  accepts : ∀ v, (normalizeTemporal t v).isSome = (meaning? v).isSome
  stable : ∀ v w, normalizeTemporal t v = some w → normalizeTemporal t w = some w
  keeps : ∀ v w, normalizeTemporal t v = some w → meaning? w = meaning? v
  unique : ∀ v w x y, normalizeTemporal t v = some x → normalizeTemporal t w = some y →
    (x = y ↔ meaning? v = meaning? w)

namespace Canonical

variable {α β : Type} {t : DataType} {read? : Value → Option α} {write : α → Value}

/-- What is read is written in a form that is read as the same again. -/
theorem of_written (normal : ∀ v, normalizeTemporal t v = (read? v).map write)
    (again : ∀ a, read? (write a) = some a) : Canonical t read? where
  accepts v := by rw [normal, Option.isSome_map]
  stable v w found := by
    rw [normal, Option.map_eq_some_iff] at found
    obtain ⟨a, _, rfl⟩ := found
    rw [normal, again]
    rfl
  keeps v w found := by
    rw [normal, Option.map_eq_some_iff] at found
    obtain ⟨a, read, rfl⟩ := found
    rw [again, read]
  unique v w x y first second := by
    rw [normal, Option.map_eq_some_iff] at first second
    obtain ⟨a, left, rfl⟩ := first
    obtain ⟨b, right, rfl⟩ := second
    have apart : write a = write b ↔ a = b := by
      refine ⟨fun same => ?_, congrArg write⟩
      rw [← Option.some_inj, ← again a, same, again]
    rw [left, right, apart, Option.some_inj]

/-- Meanings may be named in another way, if their names differ. -/
theorem renamed {meaning? : Value → Option β} {name : α → β} (canonical : Canonical t read?)
    (differ : name.Injective) (named : ∀ v, meaning? v = (read? v).map name) :
    Canonical t meaning? where
  accepts v := by rw [named, Option.isSome_map, canonical.accepts]
  stable := canonical.stable
  keeps v w found := by rw [named, named, canonical.keeps v w found]
  unique v w x y first second := by
    rw [named, named, (Option.map_injective differ).eq_iff]
    exact canonical.unique v w x y first second

end Canonical

theorem canonical_date : Canonical .date Value.date? :=
  .of_written spelled_date.normal Date.parse?_text

theorem canonical_time : Canonical .time Value.clock? :=
  .of_written spelled_time.normal Clock.parse?_text

theorem canonical_instant : Canonical .dateTime Value.instant? :=
  .of_written (fun v => by cases v <;> rfl) fun _ => rfl

/-- Normal forms are those of days, of times of day to the nanosecond and of points of the time line.
Dates of all years and times of day with leap seconds are read back from the text they are brought to. -/
theorem temporal_normal_forms :
    Canonical .date Value.date? ∧ Canonical .time Value.clock? ∧ Canonical .dateTime Value.point? ∧
    (∀ d : Date, Date.parse? d.text = some d) ∧ ∀ c : Clock, Clock.parse? c.text = some c := by
  have differ : Timestamp.point.Injective := fun _ _ => Timestamp.point_inj.mp
  exact ⟨canonical_date, canonical_time, canonical_instant.renamed differ Value.point?_eq,
    Date.parse?_text, Clock.parse?_text⟩

end Validation

end EntitySchema
