import EntitySchema.Proofs.Wire.Mapping
import EntitySchema.Proofs.Wire.Type

/-!
A typed record is read back from its row. Fields are taken out of the row one by one, each by its own
name, and what is left over is the overflow.
-/

namespace EntitySchema

namespace Slot

variable {T : Type}

/-- Sets the field to what it is in `x`. -/
def copy (x y : T) (slot : Slot T) : T := slot.lens.set (slot.lens.get x) y

/-- The field is empty if it may be left out of rows. -/
def Blank (y : T) : Slot T → Prop
  | .required _ _ _ => True
  | .optional _ _ lens => lens.get y = none

/-- The row tells the field of `x`, to be read into `y`. -/
structure Ready (x : T) (state : T × Record) (slot : Slot T) : Prop where
  lawful : slot.lens.Lawful
  standard : slot.type.Standard
  tells : slot.type.Tells (slot.lens.get x)
  stored : state.2.get? slot.name = slot.value? x
  blank : slot.Blank state.1

theorem copy_of_absent {x y : T} {slot : Slot T} (lawful : slot.lens.Lawful) (blank : slot.Blank y)
    (absent : slot.value? x = none) : slot.copy x y = y := by
  cases slot with
  | required name type lens => cases absent
  | optional name type lens =>
    have same : lens.get x = lens.get y := (value?_eq_none.mp absent).trans blank.symm
    change lens.set (lens.get x) y = y
    rw [same]
    exact lawful.set_get y

/-- One field is read, and its entry is gone. -/
theorem Ready.take {x : T} {state : T × Record} {slot : Slot T} (ready : slot.Ready x state) :
    slot.take state = .ok (slot.copy x state.1, state.2.erase slot.name) := by
  unfold Slot.take
  rw [ready.stored]
  cases stored : slot.value? x with
  | none =>
    have absent : state.2.get? slot.name = none := ready.stored.trans stored
    rw [copy_of_absent ready.lawful ready.blank stored, KeyMap.erase_of_get?_eq_none absent]
  | some v =>
    have back := WireType.read_write slot.type ready.standard _ ready.tells
    dsimp only
    rw [← value?_eq_some stored, read_of_ok back]
    rfl

theorem Blank.set {F : Type} {y : T} {slot : Slot T} (blank : slot.Blank y) {other : Lens T F}
    (apart : slot.lens.Apart other) (g : F) : slot.Blank (other.set g y) := by
  cases slot with
  | required name type lens => trivial
  | optional name type lens => exact (apart.left g y).trans blank

/-- Taking one field leaves the others to be taken. -/
theorem Ready.after {x : T} {state : T × Record} {slot other : Slot T} (ready : slot.Ready x state)
    (apart : slot.lens.Apart other.lens) (different : slot.name ≠ other.name) :
    slot.Ready x (other.copy x state.1, state.2.erase other.name) where
  lawful := ready.lawful
  standard := ready.standard
  tells := ready.tells
  stored := by
    rw [KeyMap.get?_erase, if_neg different]
    exact ready.stored
  blank := ready.blank.set apart _

theorem take_all {x : T} {slots : List (Slot T)} {state : T × Record}
    (distinct : (slots.map name).Nodup)
    (apart : slots.Pairwise fun a b => a.lens.Apart b.lens)
    (ready : ∀ slot ∈ slots, slot.Ready x state) :
    slots.foldlM Slot.take state =
      .ok (slots.foldl (copy x) state.1, state.2.eraseAll (slots.map name)) := by
  -- each step erases one name and sets one part, so the other fields stay ready
  induction slots generalizing state with
  | nil => rfl
  | cons slot rest ih =>
    rw [List.map_cons, List.nodup_cons] at distinct
    obtain ⟨first, others⟩ := List.pairwise_cons.mp apart
    have next : ∀ other ∈ rest, other.Ready x (slot.copy x state.1, state.2.erase slot.name) := by
      intro other member
      apply (ready other (.tail _ member)).after (first other member).symm
      intro same
      exact distinct.1 (same ▸ List.mem_map_of_mem member)
    rw [List.foldlM_cons, (ready slot (.head _)).take]
    exact ih distinct.2 others next

theorem get_copies_of_apart {F : Type} {l : Lens T F} {slots : List (Slot T)}
    (apart : ∀ slot ∈ slots, l.Apart slot.lens) (x y : T) :
    l.get (slots.foldl (copy x) y) = l.get y := by
  induction slots generalizing y with
  | nil => rfl
  | cons slot rest ih =>
    rw [List.foldl_cons, ih fun other member => apart other (.tail _ member)]
    exact (apart slot (.head _)).left _ y

theorem get_copies {slots : List (Slot T)} (lawful : ∀ slot ∈ slots, slot.lens.Lawful)
    (apart : slots.Pairwise fun a b => a.lens.Apart b.lens) (x y : T) :
    ∀ slot ∈ slots, slot.lens.get (slots.foldl (copy x) y) = slot.lens.get x := by
  induction slots generalizing y with
  | nil =>
    intro slot member
    cases member
  | cons first rest ih =>
    obtain ⟨front, others⟩ := List.pairwise_cons.mp apart
    intro slot member
    rw [List.foldl_cons]
    rcases List.mem_cons.mp member with rfl | later
    · rw [get_copies_of_apart front]
      exact (lawful slot (.head _)).get_set _ y
    · exact ih (fun other inside => lawful other (.tail _ inside)) others _ slot later

end Slot

namespace Mapping

variable {T : Type}

/-- Rows of the mapping can be told apart by field: names and overflow are unambiguous. -/
structure Unambiguous (m : Mapping T) : Prop where
  distinct : m.wireNames.Nodup
  single : m.overflows.length ≤ 1

/-- A value to read into: no field that may be left out is there, and no unknown entry. -/
structure Blank (m : Mapping T) (y : T) : Prop where
  slots : ∀ slot ∈ m.allSlots, slot.Blank y
  overflow : ∀ lens ∈ m.overflows, lens.get y = .empty

/-- No unknown entry of the value has the name of a field, and its options are told by what they are
stored as. -/
structure Stores (m : Mapping T) (x : T) : Prop where
  tells : ∀ slot ∈ m.allSlots, slot.type.Tells (slot.lens.get x)
  sorted : ∀ lens ∈ m.overflows, (lens.get x).Sorted
  unknown : ∀ lens ∈ m.overflows, ∀ key ∈ (lens.get x).keys, key ∉ m.wireNames

/-- Two values have the same in every part that the mapping stores. -/
def Agree (m : Mapping T) (x y : T) : Prop := ∀ part ∈ m.parts, part.lens.get x = part.lens.get y

/-- The mapping stores all of a value. -/
def Covers (m : Mapping T) : Prop := ∀ x y, m.Agree x y → x = y

variable {m : Mapping T} {x : T}

theorem Lawful.slots_apart (lawful : m.Lawful) :
    m.allSlots.Pairwise fun a b => a.lens.Apart b.lens := by
  refine (m.slots_perm.pairwise_iff fun apart => apart.symm).mp ?_
  rw [List.pairwise_filterMap]
  refine lawful.apart.imp ?_
  intro a b apart slot first other second
  cases a with
  | field a =>
    cases b with
    | field b =>
      cases first
      cases second
      exact apart
    | overflow lens => cases second
  | overflow lens => cases first

theorem mem_written {e : String × Value} : e ∈ m.written x ↔
    (∃ slot ∈ m.allSlots, e ∈ slot.written x) ∨ ∃ lens ∈ m.overflows, e ∈ (lens.get x).entries := by
  simp only [written, List.mem_flatMap, mem_allSlots, mem_overflows]
  constructor
  · rintro ⟨part, member, inside⟩
    cases part with
    | field slot => exact .inl ⟨slot, member, inside⟩
    | overflow lens => exact .inr ⟨lens, member, inside⟩
  · rintro (⟨slot, member, inside⟩ | ⟨lens, member, inside⟩)
    · exact ⟨.field slot, member, inside⟩
    · exact ⟨.overflow lens, member, inside⟩

theorem Lawful.overflow_apart (lawful : m.Lawful) {lens : Lens T Record}
    (carried : lens ∈ m.overflows) {slot : Slot T} (member : slot ∈ m.allSlots) :
    lens.Apart slot.lens := by
  have symmetric : Std.Symm fun a b : Part T => a.lens.Apart b.lens :=
    ⟨fun a b apart => apart.symm⟩
  have different : Part.overflow lens ≠ Part.field slot := by
    intro same
    cases same
  exact lawful.apart.forall (mem_overflows.mp carried) (mem_allSlots.mp member) different

theorem Unambiguous.names_differ (unambiguous : m.Unambiguous) :
    m.parts.Pairwise fun a b => ∀ slot, a.slot? = some slot → ∀ other, b.slot? = some other →
      slot.name ≠ other.name := by
  have distinct := unambiguous.distinct
  rw [wireNames_eq, ← (m.slots_perm.map Slot.name).nodup_iff, List.Nodup, List.pairwise_map,
    List.pairwise_filterMap] at distinct
  exact distinct

theorem Unambiguous.overflow_single (unambiguous : m.Unambiguous) :
    m.parts.Pairwise fun a b => ∀ lens, a.overflow? = some lens → ∀ other,
      b.overflow? = some other → False := by
  have short : m.overflows.Pairwise fun _ _ => False := by
    have length := unambiguous.single
    match listed : m.overflows with
    | [] => exact .nil
    | [lens] => exact List.pairwise_singleton _ _
    | first :: second :: rest =>
      rw [listed] at length
      simp at length
  rw [overflows, List.pairwise_filterMap] at short
  exact short

/-- No key is written twice. -/
theorem nodup_written (unambiguous : m.Unambiguous) (stores : m.Stores x) :
    ((m.written x).map Prod.fst).Nodup := by
  have apart : ∀ slot, Part.field slot ∈ m.parts → ∀ lens, Part.overflow lens ∈ m.parts →
      slot.name ∉ (lens.get x).keys := by
    intro slot declared lens carried inside
    apply stores.unknown lens (mem_overflows.mpr carried) slot.name inside
    rw [wireNames_eq]
    exact List.mem_map_of_mem (mem_allSlots.mpr declared)
  have key {slot : Slot T} {name : String} (member : name ∈ (slot.written x).map Prod.fst) :
      name = slot.name := by
    obtain ⟨e, inside, rfl⟩ := List.mem_map.mp member
    exact (Slot.mem_written.mp inside).1
  rw [written, List.map_flatMap, List.nodup_flatMap]
  constructor
  · intro part member
    cases part with
    | field slot =>
      change ((slot.written x).map Prod.fst).Nodup
      unfold Slot.written
      cases slot.value? x with
      | none => exact List.nodup_nil
      | some v => exact List.nodup_singleton _
    | overflow lens => exact (stores.sorted lens (mem_overflows.mpr member)).nodup
  · refine (unambiguous.names_differ.and unambiguous.overflow_single).imp_of_mem ?_
    intro a b first second unlike name left right
    cases a with
    | field slot =>
      cases b with
      | field other => exact unlike.1 slot rfl other rfl ((key left).symm.trans (key right))
      | overflow lens => exact apart slot first lens second (key left ▸ right)
    | overflow lens =>
      cases b with
      | field slot => exact apart slot second lens first (key right ▸ left)
      | overflow other => exact unlike.2 lens rfl other rfl

/-- Each field is stored under its name. -/
theorem get?_write_field (unambiguous : m.Unambiguous) (stores : m.Stores x) {slot : Slot T}
    (member : slot ∈ m.allSlots) : (m.write x).get? slot.name = slot.value? x := by
  ext v
  rw [write_eq, KeyMap.get?_ofList_eq_some_iff (nodup_written unambiguous stores), mem_written]
  constructor
  · rintro (⟨other, inside, stored⟩ | ⟨lens, carried, entry⟩)
    · obtain ⟨same, stored⟩ := Slot.mem_written.mp stored
      have names := unambiguous.distinct
      rw [wireNames_eq] at names
      rw [List.inj_on_of_nodup_map names member inside same]
      exact stored
    · refine absurd ?_ (stores.unknown lens carried slot.name (List.mem_map_of_mem entry))
      rw [wireNames_eq]
      exact List.mem_map_of_mem member
  · intro stored
    exact .inl ⟨slot, member, Slot.mem_written.mpr ⟨rfl, stored⟩⟩

/-- All other entries are those of the overflow. -/
theorem get?_write_unknown (unambiguous : m.Unambiguous) (stores : m.Stores x) {key : String}
    (unknown : key ∉ m.wireNames) {v : Value} : (m.write x).get? key = some v ↔
      ∃ lens ∈ m.overflows, (lens.get x).get? key = some v := by
  rw [write_eq, KeyMap.get?_ofList_eq_some_iff (nodup_written unambiguous stores), mem_written]
  constructor
  · rintro (⟨slot, inside, stored⟩ | ⟨lens, carried, entry⟩)
    · obtain ⟨same, _⟩ := Slot.mem_written.mp stored
      refine absurd ?_ unknown
      rw [wireNames_eq]
      exact List.mem_map.mpr ⟨slot, inside, same.symm⟩
    · exact ⟨lens, carried, KeyMap.get?_eq_some_of_mem (stores.sorted lens carried).nodup entry⟩
  · rintro ⟨lens, carried, found⟩
    exact .inr ⟨lens, carried, Outcome.mem_of_lookup found⟩

/-- What is left of the row when all fields are taken. -/
def leftover (m : Mapping T) (x : T) : Record := (m.write x).eraseAll m.wireNames

theorem sorted_leftover (m : Mapping T) (x : T) : (m.leftover x).Sorted := by
  unfold leftover
  rw [write_eq]
  exact (KeyMap.sorted_ofList _).eraseAll _

theorem get?_leftover (unambiguous : m.Unambiguous) (stores : m.Stores x) {key : String}
    {v : Value} : (m.leftover x).get? key = some v ↔
      ∃ lens ∈ m.overflows, (lens.get x).get? key = some v := by
  rw [leftover, KeyMap.get?_eraseAll]
  by_cases declared : key ∈ m.wireNames
  · rw [if_pos declared]
    constructor
    · intro wrong
      cases wrong
    · rintro ⟨lens, carried, found⟩
      have entry := Outcome.mem_of_lookup found
      exact absurd declared (stores.unknown lens carried key (List.mem_map_of_mem entry))
  · rw [if_neg declared, get?_write_unknown unambiguous stores declared]

theorem leftover_eq (unambiguous : m.Unambiguous) (stores : m.Stores x) {lens : Lens T Record}
    (only : m.overflows = [lens]) : m.leftover x = lens.get x := by
  have carried : lens ∈ m.overflows := only ▸ .head _
  apply (m.sorted_leftover x).ext (stores.sorted lens carried)
  intro key
  ext v
  rw [get?_leftover unambiguous stores, only]
  simp only [List.mem_singleton, exists_eq_left]

/-- The fields are all read, and the rest of the row is left. -/
theorem take_write {initial : T} (lawful : m.Lawful) (unambiguous : m.Unambiguous)
    (standard : ∀ slot ∈ m.allSlots, slot.type.Standard) (blank : m.Blank initial)
    (stores : m.Stores x) : m.take (initial, m.write x) =
      .ok (m.allSlots.foldl (Slot.copy x) initial, m.leftover x) := by
  have distinct := unambiguous.distinct
  rw [wireNames_eq] at distinct
  rw [take_eq, leftover, wireNames_eq]
  apply Slot.take_all distinct lawful.slots_apart
  intro slot member
  exact {
    lawful := lawful.lawful (.field slot) (mem_allSlots.mp member)
    standard := standard slot member
    tells := stores.tells slot member
    stored := get?_write_field unambiguous stores member
    blank := blank.slots slot member }

theorem read_of_take {initial y : T} {row rest : Record}
    (taken : m.take (initial, row) = .ok (y, rest)) : m.read initial row =
      if rest.isEmpty then .ok y
      else match m.overflows.head? with
        | some lens => .ok (lens.set ((lens.get y).insertAll rest.entries) y)
        | none => .ok y := by
  unfold read
  rw [taken, overflow?_eq]
  rfl

theorem agree_of {y : T} (fields : ∀ slot ∈ m.allSlots, slot.lens.get y = slot.lens.get x)
    (overflow : ∀ lens ∈ m.overflows, lens.get y = lens.get x) : m.Agree x y := by
  intro part member
  cases part with
  | field slot => exact (fields slot (mem_allSlots.mpr member)).symm
  | overflow lens => exact (overflow lens (mem_overflows.mpr member)).symm

/-- The overflow is filled with what is left over. -/
theorem exists_read {initial : T} (lawful : m.Lawful) (unambiguous : m.Unambiguous)
    (standard : ∀ slot ∈ m.allSlots, slot.type.Standard) (blank : m.Blank initial)
    (stores : m.Stores x) : ∃ y, m.read initial (m.write x) = .ok y ∧ m.Agree x y := by
  rw [read_of_take (take_write lawful unambiguous standard blank stores)]
  generalize copied : m.allSlots.foldl (Slot.copy x) initial = y
  have fields : ∀ slot ∈ m.allSlots, slot.lens.get y = slot.lens.get x := by
    rw [← copied]
    exact Slot.get_copies (fun slot member => lawful.lawful _ (mem_allSlots.mp member))
      lawful.slots_apart x initial
  match listed : m.overflows with
  | [] =>
    refine ⟨y, ite_self _, agree_of fields ?_⟩
    rw [listed]
    exact List.forall_mem_nil _
  | first :: second :: rest =>
    have single := unambiguous.single
    rw [listed] at single
    simp at single
  | [lens] =>
    have carried : lens ∈ m.overflows := listed ▸ .head _
    -- fields are copied apart from the overflow, so it is still as empty as in the default
    have nothing : lens.get y = .empty := by
      rw [← copied, Slot.get_copies_of_apart fun slot member =>
        lawful.overflow_apart carried member]
      exact blank.overflow lens carried
    rw [leftover_eq unambiguous stores listed]
    by_cases none : (lens.get x).isEmpty
    · refine ⟨y, if_pos none, agree_of fields ?_⟩
      rw [listed, List.forall_mem_singleton, nothing, KeyMap.eq_empty_of_isEmpty none]
    · have filled : (lens.get y).insertAll (lens.get x).entries = lens.get x := by
        rw [nothing]
        exact KeyMap.ofList_entries (stores.sorted lens carried)
      refine ⟨lens.set (lens.get x) y, ?_, agree_of ?_ ?_⟩
      · rw [if_neg none, List.head?_cons]
        dsimp only
        rw [filled]
      · intro slot member
        rw [(lawful.overflow_apart carried member).right, fields slot member]
      · rw [listed, List.forall_mem_singleton]
        exact (lawful.lawful (.overflow lens) (mem_overflows.mp carried)).get_set _ y

/-- A row that is written is read, and what is read has every stored part of what was written. Where
the mapping stores all of a value, that is the value itself. -/
theorem round_trip {initial : T} (lawful : m.Lawful) (unambiguous : m.Unambiguous)
    (standard : ∀ slot ∈ m.allSlots, slot.type.Standard) (blank : m.Blank initial)
    (stores : m.Stores x) : (∃ y, m.read initial (m.write x) = .ok y ∧ m.Agree x y) ∧
      (m.Covers → m.read initial (m.write x) = .ok x) := by
  have read := exists_read lawful unambiguous standard blank stores
  refine ⟨read, ?_⟩
  intro covers
  obtain ⟨y, done, agree⟩ := read
  rw [done, covers x y agree]

end Mapping

/-! An invoice that is laid out beside the account of its changes. -/

structure Audit where
  revision : (IntegerType.mk false 32).Range
  others : Record

structure Invoice where
  note : Option String
  paid : List Bool
  audit : Audit

def Audit.othersLens : Lens Audit Record := ⟨Audit.others, fun row a => { a with others := row }⟩

def auditMapping : Mapping Audit :=
  .node [.required "revision" (.integer ⟨false, 32⟩)
      ⟨Audit.revision, fun i a => { a with revision := i }⟩]
    [] (some Audit.othersLens)

def Invoice.auditLens : Lens Invoice Audit := ⟨Invoice.audit, fun a x => { x with audit := a }⟩

def Invoice.othersLens : Lens Invoice Record := auditLens.through Audit.othersLens

def invoiceFields : Mapping Invoice :=
  .node [.optional "note" .text ⟨Invoice.note, fun s x => { x with note := s }⟩,
      .required "paid" (.list .bool) ⟨Invoice.paid, fun bs x => { x with paid := bs }⟩]
    [] none

def invoiceMapping : Mapping Invoice :=
  .node invoiceFields.slots [auditMapping.through Invoice.auditLens] none

theorem invoiceMapping_embed :
    invoiceFields.embed Invoice.auditLens auditMapping = .ok invoiceMapping := rfl

theorem invoiceMapping_built : invoiceMapping.Built :=
  .embed (.addSlot _ (.addSlot _ .empty)) (.withOverflow (.addSlot _ .empty) rfl)
    invoiceMapping_embed

theorem invoiceMapping_lawful : invoiceMapping.Lawful := by
  have fields : invoiceFields.Lawful := by
    refine (Mapping.lawful_empty.addSlot ?_ ?_).addSlot ?_ ?_
    · exact ⟨fun _ _ => rfl, fun _ => rfl⟩
    · exact List.forall_mem_nil _
    · exact ⟨fun _ _ => rfl, fun _ => rfl⟩
    · rw [← List.forall_iff_forall_mem]
      exact ⟨fun _ _ => rfl, fun _ _ => rfl⟩
  have audit : auditMapping.Lawful := by
    refine Mapping.Lawful.withOverflow rfl (Mapping.lawful_empty.addSlot ?_ ?_) ?_ ?_
    · exact ⟨fun _ _ => rfl, fun _ => rfl⟩
    · exact List.forall_mem_nil _
    · exact ⟨fun _ _ => rfl, fun _ => rfl⟩
    · rw [← List.forall_iff_forall_mem]
      exact ⟨fun _ _ => rfl, fun _ _ => rfl⟩
  refine fields.embed invoiceMapping_embed audit ?_ ?_
  · exact ⟨fun _ _ => rfl, fun _ => rfl⟩
  · rw [← List.forall_iff_forall_mem]
    exact And.intro ⟨fun _ _ => rfl, fun _ _ => rfl⟩ ⟨fun _ _ => rfl, fun _ _ => rfl⟩

def Invoice.blank : Invoice := ⟨none, [], ⟨⟨0, by decide⟩, .empty⟩⟩

def Invoice.sample : Invoice :=
  ⟨none, [true, false], ⟨⟨3, by decide⟩, .ofList [("source", .null)]⟩⟩

theorem Mapping.round_trip_invoice :
    invoiceMapping.read .blank (invoiceMapping.write .sample) = .ok .sample := by
  refine (round_trip invoiceMapping_lawful
    ⟨by decide, invoiceMapping_built.length_overflows_le⟩ ?_ ⟨?_, ?_⟩ ⟨?_, ?_, ?_⟩).2 ?_
  · rw [← List.forall_iff_forall_mem]
    exact And.intro trivial (And.intro trivial (.inr (.inr (.inl rfl))))
  · rw [← List.forall_iff_forall_mem]
    exact And.intro rfl (And.intro trivial trivial)
  · rw [← List.forall_iff_forall_mem]
    exact rfl
  · rw [← List.forall_iff_forall_mem]
    exact And.intro trivial (And.intro (And.intro trivial trivial) trivial)
  · rw [← List.forall_iff_forall_mem]
    exact KeyMap.sorted_ofList _
  · rw [← List.forall_iff_forall_mem]
    change ∀ key ∈ ["source"], key ∉ ["note", "paid", "revision"]
    decide
  · intro x y agree
    obtain ⟨others, revision, note, paid⟩ := List.forall_iff_forall_mem.mpr agree
    obtain ⟨xNote, xPaid, xRevision, xOthers⟩ := x
    obtain ⟨yNote, yPaid, yRevision, yOthers⟩ := y
    cases others
    cases revision
    cases note
    cases paid
    rfl

end EntitySchema
