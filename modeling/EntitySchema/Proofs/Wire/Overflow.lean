import EntitySchema.Proofs.Wire.Collision

/-!
What becomes of a row that is read. The fields take their entries one after the other, the first field
of a name takes its entry, and what is not declared is added to the overflow and written from there.
-/

namespace EntitySchema

namespace Slot

variable {T : Type}

/-- What the row has under the field's name, if anything, is of the field's type. -/
def Accepts (slot : Slot T) (row : Record) : Prop :=
  ∀ v, row.get? slot.name = some v → ∃ y, slot.type.read v = .ok y

/-- What the row has under the field's name is not of the field's type. -/
def Refuses (slot : Slot T) (row : Record) (e : ConversionError) : Prop :=
  ∃ v cause, row.get? slot.name = some v ∧ slot.type.read v = .error cause ∧
    e = .field slot.name cause

/-- The first field of a name. -/
def first? (slots : List (Slot T)) (w : String) : Option (Slot T) :=
  slots.find? fun slot => slot.name == w

/-- The first field of a name accepts the row. -/
def Holds (slots : List (Slot T)) (row : Record) (w : String) : Prop :=
  ∀ slot, first? slots w = some slot → slot.Accepts row

/-- The first of its name among the fields refuses its entry, and none before it does. -/
def FirstRefusal (slots : List (Slot T)) (row : Record) (e : ConversionError) : Prop :=
  ∃ before slot after, slots = before ++ slot :: after ∧ slot.name ∉ before.map name ∧
    slot.Refuses row e ∧ ∀ w ∈ before.map name, Holds slots row w

variable {slot : Slot T} {row : Record} {e : ConversionError}

theorem Accepts.not_refuses (accepted : slot.Accepts row) : ¬ slot.Refuses row e := by
  rintro ⟨v, cause, stored, wrong, _⟩
  obtain ⟨y, fits⟩ := accepted v stored
  rw [wrong] at fits
  cases fits

theorem Refuses.unique {e' : ConversionError} (first : slot.Refuses row e)
    (second : slot.Refuses row e') : e = e' := by
  obtain ⟨v, cause, stored, wrong, rfl⟩ := first
  obtain ⟨w, other, again, failed, rfl⟩ := second
  cases stored.symm.trans again
  cases wrong.symm.trans failed
  rfl

theorem name_of_first? {slots : List (Slot T)} {w : String} (found : first? slots w = some slot) :
    slot.name = w := by
  have named := List.find?_some found
  exact beq_iff_eq.mp named

theorem read_of_error {x : T} {v : Value} {cause : ConversionError}
    (failed : slot.type.read v = .error cause) : slot.read x v = .error (.field slot.name cause) := by
  cases slot with
  | required name type lens =>
    have failed : type.read v = .error cause := failed
    simp only [read, failed]
    rfl
  | optional name type lens =>
    have failed : (WireType.option type).read v = .error cause := failed
    simp only [read, failed]
    rfl

/-- Taking one field either fails on its entry, or takes the entry out of the row and reaches nothing
else in the record. -/
theorem take_cases (slot : Slot T) (x : T) (row : Record) :
    (slot.Accepts row ∧ ∃ y, slot.take (x, row) = .ok (y, row.erase slot.name) ∧
      ∀ {F : Type} {l : Lens T F}, l.Apart slot.lens → l.get y = l.get x) ∨
    ∃ e, slot.Refuses row e ∧ slot.take (x, row) = .error e := by
  unfold take Accepts
  dsimp only
  cases stored : row.get? slot.name with
  | none =>
    rw [KeyMap.erase_of_get?_eq_none stored]
    exact .inl ⟨nofun, x, rfl, fun _ => rfl⟩
  | some v =>
    dsimp only
    cases tried : slot.type.read v with
    | ok y =>
      rw [read_of_ok tried]
      refine .inl ⟨?_, _, rfl, fun apart => apart.left y x⟩
      rintro _ ⟨⟩
      exact ⟨y, tried⟩
    | error cause =>
      rw [read_of_error tried]
      exact .inr ⟨_, ⟨v, cause, stored, tried, rfl⟩, rfl⟩

/-! The fields behind the first one find the row without its entry. -/

section Behind

variable {rest : List (Slot T)}

theorem holds_head : Holds (slot :: rest) row slot.name ↔ slot.Accepts row := by
  unfold Holds first?
  simp only [List.find?_cons, beq_self_eq_true, Option.some.injEq, forall_eq']

theorem refuses_erase {other : Slot T} : other.Refuses (row.erase slot.name) e ↔
    other.name ≠ slot.name ∧ other.Refuses row e := by
  unfold Refuses
  rw [KeyMap.get?_erase]
  by_cases same : other.name = slot.name
  · simp [same]
  · rw [if_neg same, and_iff_right same]

theorem holds_erase {w : String} : Holds rest (row.erase slot.name) w ↔
    w = slot.name ∨ Holds (slot :: rest) row w := by
  by_cases same : w = slot.name
  · refine iff_of_true (fun other found v stored => ?_) (.inl same)
    rw [KeyMap.get?_erase, if_pos ((name_of_first? found).trans same)] at stored
    cases stored
  · have behind : first? (slot :: rest) w = first? rest w := by
      rw [first?, List.find?_cons, beq_false_of_ne (Ne.symm same)]
      rfl
    rw [or_iff_right same, Holds, Holds, behind]
    refine forall₂_congr fun other found => ?_
    have different : other.name ≠ slot.name := (name_of_first? found).symm ▸ same
    rw [Accepts, KeyMap.get?_erase, if_neg different, ← Accepts]

theorem holds_of_erase (accepted : slot.Accepts row) {names : List String} :
    (∀ w ∈ names, Holds rest (row.erase slot.name) w) ↔ ∀ w ∈ names, Holds (slot :: rest) row w := by
  refine forall₂_congr fun w _ => holds_erase.trans (or_iff_right_of_imp ?_)
  rintro rfl
  exact holds_head.mpr accepted

theorem firstRefusal_cons (accepted : slot.Accepts row) :
    FirstRefusal (slot :: rest) row e ↔ FirstRefusal rest (row.erase slot.name) e := by
  constructor
  · rintro ⟨before, failing, after, split, fresh, refused, held⟩
    cases before with
    | nil =>
      cases split
      exact absurd refused accepted.not_refuses
    | cons first before =>
      cases split
      rw [List.map_cons, List.mem_cons, not_or] at fresh
      refine ⟨before, failing, after, rfl, fresh.2, refuses_erase.mpr ⟨fresh.1, refused⟩, ?_⟩
      exact (holds_of_erase accepted).mpr (List.forall_mem_cons.mp held).2
  · rintro ⟨before, failing, after, rfl, fresh, refused, held⟩
    obtain ⟨different, refused⟩ := refuses_erase.mp refused
    refine ⟨slot :: before, failing, after, rfl, ?_, refused, ?_⟩
    · rw [List.map_cons, List.mem_cons, not_or]
      exact ⟨different, fresh⟩
    · rw [List.map_cons, List.forall_mem_cons]
      exact ⟨holds_head.mpr accepted, (holds_of_erase accepted).mp held⟩

end Behind

/-- All fields are taken if the first of each name is. -/
theorem takeAll_eq_ok {slots : List (Slot T)} {x : T} {row : Record} :
    (∃ state, slots.foldlM take (x, row) = .ok state) ↔ ∀ w ∈ slots.map name, Holds slots row w := by
  induction slots generalizing x row with
  | nil => exact ⟨fun _ => List.forall_mem_nil _, fun _ => ⟨(x, row), rfl⟩⟩
  | cons slot rest ih =>
    rw [List.map_cons, List.forall_mem_cons, holds_head, List.foldlM_cons]
    rcases slot.take_cases x row with ⟨accepted, y, taken, _⟩ | ⟨e, refused, failed⟩
    · rw [taken, and_iff_right accepted, ← holds_of_erase accepted]
      exact ih
    · rw [failed]
      constructor
      · rintro ⟨state, done⟩
        cases done
      · rintro ⟨accepted, _⟩
        exact absurd refused accepted.not_refuses

/-- The error is that of the first field that is refused its entry. -/
theorem takeAll_eq_error {slots : List (Slot T)} {x : T} {row : Record} :
    slots.foldlM take (x, row) = .error e ↔ FirstRefusal slots row e := by
  induction slots generalizing x row with
  | nil =>
    constructor
    · intro wrong
      cases wrong
    · rintro ⟨before, slot, after, split, _⟩
      simp at split
  | cons slot rest ih =>
    rw [List.foldlM_cons]
    rcases slot.take_cases x row with ⟨accepted, y, taken, _⟩ | ⟨e', refused, failed⟩
    · rw [taken, firstRefusal_cons accepted]
      exact ih
    · rw [failed]
      constructor
      · intro same
        cases same
        exact ⟨[], slot, rest, rfl, List.not_mem_nil, refused, List.forall_mem_nil _⟩
      · rintro ⟨before, failing, after, split, _, found, held⟩
        cases before with
        | nil =>
          cases split
          exact congrArg _ (refused.unique found)
        | cons first before =>
          cases split
          exact absurd refused (holds_head.mp (held _ (.head _))).not_refuses

/-- The names are gone from the row, and a part apart from all fields is as it was. -/
theorem takeAll_effect {slots : List (Slot T)} {x y : T} {row rest : Record}
    (done : slots.foldlM take (x, row) = .ok (y, rest)) : rest = row.eraseAll (slots.map name) ∧
      ∀ {F : Type} {l : Lens T F}, (∀ slot ∈ slots, l.Apart slot.lens) → l.get y = l.get x := by
  induction slots generalizing x row with
  | nil =>
    cases done
    exact ⟨rfl, fun _ => rfl⟩
  | cons slot others ih =>
    rw [List.foldlM_cons] at done
    rcases slot.take_cases x row with ⟨_, z, taken, kept⟩ | ⟨e, _, failed⟩
    · rw [taken] at done
      obtain ⟨rfl, unchanged⟩ := ih done
      refine ⟨rfl, fun apart => ?_⟩
      rw [unchanged fun other member => apart other (.tail _ member), kept (apart slot (.head _))]
    · rw [failed] at done
      cases done

end Slot

namespace Mapping

variable {T : Type} {m : Mapping T} {lens : Lens T Record} {initial x : T} {row : Record}

/-- The entries that no field claims. -/
def unknown (m : Mapping T) (row : Record) : Record := row.filter fun key _ => key ∉ m.wireNames

theorem unknown_eq (m : Mapping T) (row : Record) : m.unknown row = row.eraseAll m.wireNames :=
  (row.eraseAll_eq_filter m.wireNames).symm

theorem sorted_unknown (sorted : row.Sorted) : (m.unknown row).Sorted := by
  rw [unknown_eq]
  exact sorted.eraseAll _

theorem get?_unknown {key : String} (undeclared : key ∉ m.wireNames) :
    (m.unknown row).get? key = row.get? key := by
  rw [unknown_eq, KeyMap.get?_eraseAll, if_neg undeclared]

/-- The part that unknown entries are added to, and what it is set to. -/
def extend (lens : Lens T Record) (entries : Record) (y : T) : T :=
  if entries.isEmpty then y else lens.set ((lens.get y).insertAll entries.entries) y

theorem get_extend (access : lens.Lawful) (entries : Record) (y : T) :
    lens.get (extend lens entries y) = (lens.get y).insertAll entries.entries := by
  unfold extend
  split_ifs with none
  · rw [KeyMap.eq_empty_of_isEmpty none]
    rfl
  · exact access.get_set _ y

/-- A row is read by taking all fields and handing the rest to the overflow. -/
theorem read_eq (held : m.overflow? = some lens) : m.read initial row =
    (m.allSlots.foldlM Slot.take (initial, row)).map fun state =>
      extend lens (m.unknown row) state.1 := by
  unfold read
  rw [take_eq, held]
  cases taken : m.allSlots.foldlM Slot.take (initial, row) with
  | error e => rfl
  | ok state =>
    obtain ⟨y, rest⟩ := state
    obtain ⟨rfl, _⟩ := Slot.takeAll_effect taken
    rw [unknown_eq, wireNames_eq]
    exact (apply_ite Except.ok _ _ _).symm

theorem read_succeeds (held : m.overflow? = some lens) :
    (∃ x, m.read initial row = .ok x) ↔ ∀ w ∈ m.wireNames, Slot.Holds m.allSlots row w := by
  rw [wireNames_eq, ← Slot.takeAll_eq_ok (x := initial), read_eq held]
  constructor
  · rintro ⟨x, done⟩
    obtain ⟨state, taken, _⟩ := Outcome.map_eq_ok.mp done
    exact ⟨state, taken⟩
  · rintro ⟨state, taken⟩
    exact ⟨_, Outcome.map_eq_ok.mpr ⟨state, taken, rfl⟩⟩

theorem read_fails (held : m.overflow? = some lens) {e : ConversionError} :
    m.read initial row = .error e ↔ Slot.FirstRefusal m.allSlots row e := by
  rw [← Slot.takeAll_eq_error (x := initial), read_eq held]
  cases m.allSlots.foldlM Slot.take (initial, row) with
  | error cause => simp only [Except.map, Except.error.injEq]
  | ok state => exact ⟨nofun, nofun⟩

/-- Reading leaves the overflow as it is in the default, and adds the unknown entries. -/
theorem overflow_of_read (held : m.overflow? = some lens) (access : lens.Lawful)
    (apart : ∀ slot ∈ m.allSlots, lens.Apart slot.lens) (done : m.read initial row = .ok x) :
    lens.get x = (lens.get initial).insertAll (m.unknown row).entries := by
  rw [read_eq held] at done
  obtain ⟨⟨y, rest⟩, taken, rfl⟩ := Outcome.map_eq_ok.mp done
  rw [get_extend access, (Slot.takeAll_effect taken).2 apart]

/-- Fields write nothing under other names than theirs. -/
theorem get?_write_undeclared (only : m.overflows = [lens]) (x : T) {key : String}
    (undeclared : key ∉ m.wireNames) :
    (m.write x).get? key = (lens.get x).entries.reverse.lookup key := by
  obtain ⟨before, early, late, written⟩ := exists_written only
  have silent {slots : List (Slot T)} (inside : ∀ slot ∈ slots, slot ∈ m.allSlots) :
      (fieldEntries x slots).reverse.lookup key = none := by
    rw [lookup_fieldEntries]
    rintro slot member rfl
    rw [wireNames_eq] at undeclared
    exact absurd (List.mem_map_of_mem (inside slot member)) undeclared
  rw [write_eq, KeyMap.get?_ofList, written, List.reverse_append, List.lookup_append, silent late,
    Option.none_or, List.reverse_append, List.lookup_append, silent early, Option.or_none]

/-- What is unknown in a row comes through a record unchanged, if the row is read at all: a row is
refused only by a field, and by the first one in reading order that its entry does not fit. -/
theorem unknown_comes_through (built : m.Built) (held : m.overflow? = some lens)
    (access : lens.Lawful) (apart : ∀ slot ∈ m.allSlots, lens.Apart slot.lens)
    (ordered : (lens.get initial).Sorted) (sorted : row.Sorted) :
    ((∃ x, m.read initial row = .ok x) ↔ ∀ w ∈ m.wireNames, Slot.Holds m.allSlots row w) ∧
    (∀ e, m.read initial row = .error e ↔ Slot.FirstRefusal m.allSlots row e) ∧
    ∀ x, m.read initial row = .ok x →
      lens.get x = (lens.get initial).insertAll (m.unknown row).entries ∧
      ∀ key ∉ m.wireNames, ∀ v, row.get? key = some v → (m.write x).get? key = some v := by
  refine ⟨read_succeeds held, fun e => read_fails held, fun x done => ?_⟩
  have filled := overflow_of_read held access apart done
  refine ⟨filled, fun key undeclared v found => ?_⟩
  have ordered := ordered.insertAll (m.unknown row).entries
  rw [get?_write_undeclared (built.overflows_eq held) x undeclared, filled,
    ordered.lookup_reverse, KeyMap.get?_insertAll, (sorted_unknown sorted).lookup_reverse,
    get?_unknown undeclared, found, Option.some_or]

/-- An invoice keeps the source that came with it. Where neither its payments nor its revision can be
read, the payments are named. -/
theorem unknown_comes_through_invoice :
    (∃ x, invoiceMapping.read .blank (.ofList [("revision", .int 2), ("source", .text "fax")]) = .ok x ∧
      Invoice.othersLens.get x = .ofList [("source", .text "fax")] ∧
      (invoiceMapping.write x).get? "source" = some (.text "fax")) ∧
    Slot.FirstRefusal invoiceMapping.allSlots
      (.ofList [("paid", .null), ("revision", .null), ("source", .text "fax")])
      (.field "paid" (.incompatible "list" .null)) := by
  have held : invoiceMapping.overflow? = some Invoice.othersLens := rfl
  have carried : Invoice.othersLens ∈ invoiceMapping.overflows := .head _
  have access := invoiceMapping_lawful.lawful _ (mem_overflows.mp carried)
  have apart : ∀ slot ∈ invoiceMapping.allSlots, Invoice.othersLens.Apart slot.lens :=
    fun slot member => invoiceMapping_lawful.overflow_apart carried member
  have blank : (Invoice.othersLens.get .blank).Sorted := KeyMap.sorted_empty
  constructor
  · obtain ⟨_, _, kept⟩ := unknown_comes_through invoiceMapping_built held access apart blank
      (KeyMap.sorted_ofList [("revision", .int 2), ("source", .text "fax")])
    obtain ⟨filled, stored⟩ := kept _ rfl
    exact ⟨_, rfl, filled, stored "source" (by decide) _ rfl⟩
  · obtain ⟨_, refused, _⟩ := unknown_comes_through invoiceMapping_built held access apart blank
      (KeyMap.sorted_ofList [("paid", .null), ("revision", .null), ("source", .text "fax")])
    exact (refused _).mp rfl

end Mapping

end EntitySchema
