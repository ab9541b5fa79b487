import EntitySchema.Proofs.Wire.RoundTrip

/-!
When an unknown entry has the name of a field. The row keeps the entry that is written last: fields
that are written after the overflow win, if they are written at all, and no other field does.
-/

namespace EntitySchema

namespace Slot

variable {T : Type}

theorem value?_congr {slot : Slot T} {x y : T} (same : slot.lens.get y = slot.lens.get x) :
    slot.value? y = slot.value? x := by
  cases slot with
  | required name type lens => exact congrArg (some ∘ type.write) same
  | optional name type lens => exact congrArg (Option.map type.write) same

theorem value?_set {F : Type} {slot : Slot T} {l : Lens T F} (apart : l.Apart slot.lens) (f : F)
    (x : T) : slot.value? (l.set f x) = slot.value? x :=
  value?_congr (apart.right f x)

end Slot

namespace Mapping

variable {T : Type} {m : Mapping T} {lens : Lens T Record}

/-- The fields that are written after the overflow. -/
def slotsAfter (m : Mapping T) : List (Slot T) :=
  (m.parts.dropWhile fun part => part.overflow?.isNone).filterMap Part.slot?

/-- What the fields among the parts write. -/
def fieldEntries (x : T) (slots : List (Slot T)) : List (String × Value) :=
  slots.flatMap (Slot.written x)

theorem written_fields (x : T) {parts : List (Part T)}
    (none : ∀ part ∈ parts, part.overflow? = none) :
    parts.flatMap (Part.written x) = fieldEntries x (parts.filterMap Part.slot?) := by
  induction parts with
  | nil => rfl
  | cons part rest ih =>
    have others := ih fun other member => none other (.tail _ member)
    cases part with
    | field slot =>
      rw [List.flatMap_cons, others]
      rfl
    | overflow lens => cases none (.overflow lens) (.head _)

/-- The only overflow is written between two groups of fields. -/
theorem exists_written (only : m.overflows = [lens]) : ∃ before : List (Slot T),
    (∀ slot ∈ before, slot ∈ m.allSlots) ∧ (∀ slot ∈ m.slotsAfter, slot ∈ m.allSlots) ∧
      ∀ x, m.written x =
        fieldEntries x before ++ (lens.get x).entries ++ fieldEntries x m.slotsAfter := by
  obtain ⟨before, part, after, split, front, found, behind⟩ := List.filterMap_eq_cons_iff.mp only
  have here : part = .overflow lens := by
    cases part with
    | field slot => cases found
    | overflow other => exact congrArg Part.overflow (Option.some.inj found)
  subst here
  have dropped : m.slotsAfter = after.filterMap Part.slot? := by
    have skipped : before.dropWhile (fun part => part.overflow?.isNone) = [] := by
      rw [List.dropWhile_eq_nil_iff]
      intro part member
      rw [front part member]
      rfl
    rw [slotsAfter, split, List.dropWhile_append, skipped]
    rfl
  have declared {slot : Slot T} {parts : List (Part T)} (inside : parts ⊆ m.parts)
      (member : slot ∈ parts.filterMap Part.slot?) : slot ∈ m.allSlots := by
    rw [← m.slots_perm.mem_iff]
    exact (List.filterMap_subset _ inside) member
  refine ⟨before.filterMap Part.slot?, ?_, ?_, ?_⟩
  · intro slot
    apply declared
    rw [split]
    exact List.subset_append_left _ _
  · rw [dropped]
    intro slot
    apply declared
    rw [split]
    exact fun part member => List.mem_append_right _ (.tail _ member)
  · intro x
    rw [written, split, List.flatMap_append, List.flatMap_cons, written_fields x front,
      written_fields x (List.filterMap_eq_nil_iff.mp behind), dropped, List.append_assoc]
    rfl

theorem lookup_fieldEntries {x : T} {slots : List (Slot T)} {w : String} :
    (fieldEntries x slots).reverse.lookup w = none ↔
      ∀ slot ∈ slots, slot.name = w → slot.value? x = none := by
  rw [List.lookup_eq_none_iff]
  simp only [List.mem_reverse, fieldEntries, List.mem_flatMap, Slot.mem_written, bne_iff_ne]
  constructor
  · intro absent slot member same
    rw [Option.eq_none_iff_forall_ne_some]
    intro v stored
    exact absent (w, v) ⟨slot, member, same.symm, stored⟩ rfl
  · rintro absent e ⟨slot, member, same, stored⟩ rfl
    rw [absent slot member same.symm] at stored
    cases stored

theorem fieldEntries_set {slots : List (Slot T)} (lawful : m.Lawful) (carried : lens ∈ m.overflows)
    (inside : ∀ slot ∈ slots, slot ∈ m.allSlots) (row : Record) (x : T) :
    fieldEntries (lens.set row x) slots = fieldEntries x slots := by
  refine List.flatMap_congr fun slot member => ?_
  have apart := lawful.overflow_apart carried (inside slot member)
  rw [Slot.written, Slot.written, Slot.value?_set apart]

/-- The row has the entry that is written last. -/
theorem exists_get?_write (lawful : m.Lawful) (only : m.overflows = [lens]) (x : T) :
    ∃ fallback : String → Option Value, ∀ (row : Record) (w : String),
      (m.write (lens.set row x)).get? w = ((fieldEntries x m.slotsAfter).reverse.lookup w).or
        ((row.entries.reverse.lookup w).or (fallback w)) := by
  have carried : lens ∈ m.overflows := only ▸ .head _
  obtain ⟨before, early, late, written⟩ := exists_written only
  have access := lawful.lawful (.overflow lens) (mem_overflows.mp carried)
  refine ⟨fun w => (fieldEntries x before).reverse.lookup w, ?_⟩
  intro row w
  have held : lens.get (lens.set row x) = row := access.get_set row x
  rw [write_eq, KeyMap.get?_ofList, written, held, fieldEntries_set lawful carried early,
    fieldEntries_set lawful carried late, List.reverse_append, List.lookup_append,
    List.reverse_append, List.lookup_append]

/-- A field that is written after the overflow is found in the row, whatever the overflow holds. -/
theorem get?_write_of_after (lawful : m.Lawful) (only : m.overflows = [lens])
    (distinct : m.wireNames.Nodup) {x : T} {slot : Slot T} (member : slot ∈ m.slotsAfter) {v : Value}
    (present : slot.value? x = some v) (row : Record) :
    (m.write (lens.set row x)).get? slot.name = some v := by
  obtain ⟨fallback, found⟩ := exists_get?_write lawful only x
  obtain ⟨_, _, late, _⟩ := exists_written only
  rw [found]
  cases last : (fieldEntries x m.slotsAfter).reverse.lookup slot.name with
  | none =>
    rw [lookup_fieldEntries.mp last slot member rfl] at present
    cases present
  | some w =>
    have entry := List.mem_reverse.mp (Outcome.mem_of_lookup last)
    obtain ⟨other, inside, stored⟩ := List.mem_flatMap.mp entry
    obtain ⟨same, stored⟩ := Slot.mem_written.mp stored
    rw [wireNames_eq] at distinct
    rw [← List.inj_on_of_nodup_map distinct (late slot member) (late other inside) same,
      present] at stored
    exact stored.symm

/-- A field keeps unknown entries of its name out of the row exactly if it is written after the
overflow, and not left out. -/
theorem unknown_kept_out_iff (built : m.Built) (lawful : m.Lawful) (held : m.overflow? = some lens)
    (x : T) (w : String) :
    (∀ first second : Record, first.Sorted → second.Sorted →
      (m.write (lens.set first x)).get? w = (m.write (lens.set second x)).get? w) ↔
    ∃ slot ∈ m.slotsAfter, slot.name = w ∧ (slot.value? x).isSome := by
  obtain ⟨fallback, found⟩ := exists_get?_write lawful (built.overflows_eq held) x
  constructor
  · intro alike
    by_contra unguarded
    have nothing : (fieldEntries x m.slotsAfter).reverse.lookup w = none := by
      apply lookup_fieldEntries.mpr
      intro slot member same
      by_contra present
      exact unguarded ⟨slot, member, same, Option.isSome_iff_ne_none.mpr present⟩
    -- an overflow of the one entry shows that entry, so two of them tell the rows apart
    have shown (v : Value) : (m.write (lens.set (.ofList [(w, v)]) x)).get? w = some v := by
      have alone : (KeyMap.ofList [(w, v)]).entries = [(w, v)] := rfl
      rw [found, nothing, Option.none_or, alone, List.reverse_singleton, List.lookup_cons_self,
        Option.some_or]
    have same := alike _ _ (KeyMap.sorted_ofList [(w, .bool true)])
      (KeyMap.sorted_ofList [(w, .bool false)])
    rw [shown, shown] at same
    cases same
  · rintro ⟨slot, member, same, present⟩ first second _ _
    cases last : (fieldEntries x m.slotsAfter).reverse.lookup w with
    | none =>
      rw [lookup_fieldEntries.mp last slot member same] at present
      cases present
    | some v => rw [found, found, last, Option.some_or, Option.some_or]

/-- An invoice without a note keeps no other note out; its payments are its own. -/
theorem unknown_kept_out_invoice :
    (¬ ∀ first second : Record, first.Sorted → second.Sorted →
      (invoiceMapping.write (Invoice.othersLens.set first .sample)).get? "note" =
        (invoiceMapping.write (Invoice.othersLens.set second .sample)).get? "note") ∧
    ∀ first second : Record, first.Sorted → second.Sorted →
      (invoiceMapping.write (Invoice.othersLens.set first .sample)).get? "paid" =
        (invoiceMapping.write (Invoice.othersLens.set second .sample)).get? "paid" := by
  have held : invoiceMapping.overflow? = some Invoice.othersLens := rfl
  constructor
  · rw [unknown_kept_out_iff invoiceMapping_built invoiceMapping_lawful held]
    decide
  · rw [unknown_kept_out_iff invoiceMapping_built invoiceMapping_lawful held]
    decide

/-- A record of a name and of what else is known, each in a part of its own. -/
def siblingMapping : Mapping (String × Record) :=
  .node []
    [.node [.required "city" .text ⟨Prod.fst, fun s x => (s, x.2)⟩] [] none,
      .node [] [] (some ⟨Prod.snd, fun row x => (x.1, row)⟩)]
    none

/-- A field that is left out gives way to an unknown entry, and so does a field of a part that is
written before the overflow. -/
theorem fields_give_way :
    ((invoiceMapping.write (Invoice.othersLens.set .empty .sample)).get? "note" = none ∧
      (invoiceMapping.write (Invoice.othersLens.set (.ofList [("note", .null)]) .sample)).get? "note"
        = some .null) ∧
    ((siblingMapping.write ("Oslo", .empty)).get? "city" = some (.text "Oslo") ∧
      (siblingMapping.write ("Oslo", .ofList [("city", .text "Rome")])).get? "city" =
        some (.text "Rome")) := by
  exact ⟨⟨rfl, rfl⟩, ⟨rfl, rfl⟩⟩

end Mapping

end EntitySchema
