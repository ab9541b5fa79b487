import EntitySchema.Proofs.Wire.Overflow
import EntitySchema.Value.Record

/-!
A record whose unknown entries are kept apart in the row, as a map under a key of their own. Lifting
that map into the row gives the row of the record itself: the row keeps the entries it has, which are
those of the fields, and fields take the place of unknown entries when a record is written.
-/

namespace EntitySchema

namespace Record

variable {r inner : Record} {key : String}

theorem flatten_of_map (nested : r.get? key = some (.map inner)) : r.flatten key =
    (inner.entries.foldl (fun row e => row.insertNew e.1 e.2) (r.erase key), true) := by
  unfold flatten
  rw [nested]

/-- Only a map is lifted; what else stands under the key stays there. -/
theorem flatten_of_no_map (scalar : ∀ inner, r.get? key ≠ some (.map inner)) :
    r.flatten key = (r, false) := by
  unfold flatten
  split
  · next inner nested => exact absurd nested (scalar inner)
  · rfl

/-- The lifted entries are found where the row has nothing, the key itself included. -/
theorem get?_flatten (nested : r.get? key = some (.map inner)) (other : String) :
    (r.flatten key).1.get? other = ((r.erase key).get? other).or (inner.get? other) := by
  rw [flatten_of_map nested]
  exact KeyMap.get?_foldl_insertNew _ _ _

theorem sorted_flatten (sorted : r.Sorted) (nested : r.get? key = some (.map inner)) :
    (r.flatten key).1.Sorted := by
  rw [flatten_of_map nested]
  exact (sorted.erase key).foldl_insertNew _

end Record

namespace Mapping

variable {T : Type} {m : Mapping T} {lens : Lens T Record} {x y : T}

/-- The record `y` is `x` without its unknown entries. -/
structure Emptied (m : Mapping T) (lens : Lens T Record) (x y : T) : Prop where
  overflow : lens.get y = .empty
  fields : ∀ slot ∈ m.allSlots, slot.lens.get y = slot.lens.get x

/-- Where the overflow shares nothing with the fields, it can be emptied. -/
theorem emptied_set (access : lens.Lawful) (apart : ∀ slot ∈ m.allSlots, lens.Apart slot.lens)
    (x : T) : m.Emptied lens x (lens.set .empty x) where
  overflow := access.get_set .empty x
  fields slot member := (apart slot member).right .empty x

theorem overflows_eq_of_own (built : m.Built) (own : m.ownOverflow? = some lens) :
    m.overflows = [lens] := by
  cases m with
  | node slots embedded overflow =>
    obtain rfl : overflow = some lens := own
    exact built.overflows_eq rfl

/-- The mapping's own overflow is written first, and all fields after it. -/
theorem written_of_own (built : m.Built) (own : m.ownOverflow? = some lens) (x : T) :
    m.written x = (lens.get x).entries ++ fieldEntries x m.slotsAfter := by
  have only := overflows_eq_of_own built own
  cases m with
  | node slots embedded overflow =>
    obtain rfl : overflow = some lens := own
    rw [overflows_node, Option.toList_some, List.singleton_append, List.cons.injEq] at only
    have fields : ∀ part ∈ partsIn embedded ++ slots.map Part.field, part.overflow? = none := by
      rw [List.forall_mem_append]
      refine ⟨List.filterMap_eq_nil_iff.mp only.2, ?_⟩
      intro part member
      obtain ⟨slot, _, rfl⟩ := List.mem_map.mp member
      rfl
    have after : (node slots embedded (some lens)).slotsAfter =
        (partsIn embedded ++ slots.map Part.field).filterMap Part.slot? := by
      rw [slotsAfter, parts, Option.toList_some, List.append_assoc]
      rfl
    rw [written, parts, Option.toList_some, List.append_assoc, List.flatMap_append,
      written_fields x fields, after]
    exact congrArg (· ++ _) (List.append_nil _)

/-- Under a name the row has what the field of that name writes, and else the unknown entry. -/
theorem get?_write_of_own (built : m.Built) (own : m.ownOverflow? = some lens)
    (sorted : (lens.get x).Sorted) (key : String) : (m.write x).get? key =
      ((fieldEntries x m.slotsAfter).reverse.lookup key).or ((lens.get x).get? key) := by
  rw [write_eq, KeyMap.get?_ofList, written_of_own built own, List.reverse_append,
    List.lookup_append, sorted.lookup_reverse]

/-- Without its unknown entries a record has the same fields in the row. -/
theorem Emptied.get?_write (emptied : m.Emptied lens x y) (built : m.Built)
    (own : m.ownOverflow? = some lens) (key : String) :
    (m.write y).get? key = (fieldEntries x m.slotsAfter).reverse.lookup key := by
  obtain ⟨_, _, declared, _⟩ := exists_written (overflows_eq_of_own built own)
  have same : fieldEntries y m.slotsAfter = fieldEntries x m.slotsAfter := by
    refine List.flatMap_congr fun slot member => ?_
    rw [Slot.written, Slot.written, Slot.value?_congr (emptied.fields slot (declared slot member))]
  have none : (lens.get y).Sorted := emptied.overflow ▸ KeyMap.sorted_empty
  rw [get?_write_of_own built own none, same, emptied.overflow]
  exact Option.or_none

/-- The row of a record's fields with a map of entries under a key of its own. -/
def nestedRow (m : Mapping T) (x : T) (key : String) (entries : Record) : Record :=
  (m.write x).insert key (.map entries)

theorem get?_nestedRow (m : Mapping T) (x : T) (key : String) (entries : Record) :
    (m.nestedRow x key entries).get? key = some (.map entries) := by
  rw [nestedRow, KeyMap.get?_insert, if_pos rfl]

theorem sorted_nestedRow (m : Mapping T) (x : T) (key : String) (entries : Record) :
    (m.nestedRow x key entries).Sorted := by
  rw [nestedRow, write_eq]
  exact (KeyMap.sorted_ofList _).insert key _

/-- A record is written in one of two ways: its unknown entries go into the row and the fields after
them, or the fields go into the row, the unknown entries under a key of their own, and the map there is
lifted. A row that has no map under the key stays as it is. -/
theorem flatten_nestedRow (built : m.Built) (own : m.ownOverflow? = some lens)
    (sorted : (lens.get x).Sorted) (emptied : m.Emptied lens x y) {key : String}
    (undeclared : key ∉ m.wireNames) :
    (m.nestedRow y key (lens.get x)).flatten key = (m.write x, true) ∧
    ∀ (row : Record) (key : String), (∀ inner, row.get? key ≠ some (.map inner)) →
      row.flatten key = (row, false) := by
  refine ⟨?_, fun row key => Record.flatten_of_no_map⟩
  have nested := get?_nestedRow m y key (lens.get x)
  have written : (m.write x).Sorted := by
    rw [write_eq]
    exact KeyMap.sorted_ofList _
  have lifted : ((m.nestedRow y key (lens.get x)).flatten key).2 = true := by
    rw [Record.flatten_of_map nested]
  have same : ((m.nestedRow y key (lens.get x)).flatten key).1 = m.write x := by
    apply (Record.sorted_flatten (sorted_nestedRow _ _ _ _) nested).ext written
    intro other
    rw [Record.get?_flatten nested, KeyMap.get?_erase]
    by_cases here : other = key
    · -- the key is gone from the row, and is found again if it is among the unknown entries
      rw [if_pos here, here, get?_write_undeclared (overflows_eq_of_own built own) x undeclared,
        sorted.lookup_reverse, Option.none_or]
    · rw [if_neg here, nestedRow, KeyMap.get?_insert, if_neg here, emptied.get?_write built own,
        get?_write_of_own built own sorted]
  exact Prod.ext same lifted

end Mapping

/-! A guest with a name, perhaps a title, and whatever else is noted. -/

structure Guest where
  name : String
  title : Option String
  notes : Record

def Guest.notesLens : Lens Guest Record := ⟨Guest.notes, fun row g => { g with notes := row }⟩

def guestMapping : Mapping Guest :=
  .node [.required "name" .text ⟨Guest.name, fun s g => { g with name := s }⟩,
      .optional "title" .text ⟨Guest.title, fun s g => { g with title := s }⟩]
    [] (some Guest.notesLens)

/-- The notes give another name, a title, and a note under the key of the notes. -/
def Guest.sample : Guest :=
  ⟨"Ada", none, .ofList [("name", .text "Eve"), ("notes", .int 2), ("title", .text "Dr")]⟩

theorem Mapping.flatten_nestedRow_guest :
    (guestMapping.nestedRow ⟨"Ada", none, .empty⟩ "notes" Guest.sample.notes).flatten "notes" =
      (.ofList [("name", .text "Ada"), ("notes", .int 2), ("title", .text "Dr")], true) ∧
    Record.flatten (.ofList [("notes", .int 2)]) "notes" = (.ofList [("notes", .int 2)], false) := by
  have built : guestMapping.Built := .withOverflow (.addSlot _ (.addSlot _ .empty)) rfl
  have access : Guest.notesLens.Lawful := ⟨fun _ _ => rfl, fun _ => rfl⟩
  have apart : ∀ slot ∈ guestMapping.allSlots, Guest.notesLens.Apart slot.lens := by
    rw [← List.forall_iff_forall_mem]
    exact And.intro ⟨fun _ _ => rfl, fun _ _ => rfl⟩ ⟨fun _ _ => rfl, fun _ _ => rfl⟩
  have sorted : (Guest.notesLens.get .sample).Sorted := KeyMap.sorted_ofList _
  have undeclared : "notes" ∉ guestMapping.wireNames := by decide
  obtain ⟨lifted, kept⟩ :=
    flatten_nestedRow built rfl sorted (emptied_set access apart .sample) undeclared
  refine ⟨lifted, kept _ "notes" ?_⟩
  rintro inner ⟨⟩

end EntitySchema
