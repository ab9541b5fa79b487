import EntitySchema.Wire.Mapping
import EntitySchema.Proofs.KeyMap
import Mathlib.Data.List.Pairwise

/-!
A mapping as the list of the parts that it stores. A row is written by one pass over the parts, and
read by one pass over the fields among them, however deeply they are embedded.
-/

namespace EntitySchema

namespace Lens

variable {S T F G : Type}

/-- Replacing the part replaces it and nothing else. -/
structure Lawful (l : Lens S F) : Prop where
  get_set : ∀ f s, l.get (l.set f s) = f
  set_get : ∀ s, l.set (l.get s) s = s

/-- Two parts that share nothing. -/
structure Apart (a : Lens S F) (b : Lens S G) : Prop where
  left : ∀ g s, a.get (b.set g s) = a.get s
  right : ∀ f s, b.get (a.set f s) = b.get s

theorem Apart.symm {a : Lens S F} {b : Lens S G} (apart : a.Apart b) : b.Apart a :=
  ⟨apart.right, apart.left⟩

theorem Lawful.through {outer : Lens S T} {inner : Lens T F} (first : outer.Lawful)
    (second : inner.Lawful) : (outer.through inner).Lawful where
  get_set f s := by
    change inner.get (outer.get (outer.set (inner.set f (outer.get s)) s)) = f
    rw [first.get_set, second.get_set]
  set_get s := by
    change outer.set (inner.set (inner.get (outer.get s)) (outer.get s)) s = s
    rw [second.set_get, first.set_get]

/-- Parts of one part are as far apart as they are within it. -/
theorem Apart.through {outer : Lens S T} {a : Lens T F} {b : Lens T G} (lawful : outer.Lawful)
    (apart : a.Apart b) : (outer.through a).Apart (outer.through b) where
  left g s := by
    change a.get (outer.get (outer.set (b.set g (outer.get s)) s)) = a.get (outer.get s)
    rw [lawful.get_set, apart.left]
  right f s := by
    change b.get (outer.get (outer.set (a.set f (outer.get s)) s)) = b.get (outer.get s)
    rw [lawful.get_set, apart.right]

theorem Apart.inner {a : Lens S G} {outer : Lens S T} (apart : a.Apart outer) (inner : Lens T F) :
    a.Apart (outer.through inner) where
  left _ s := apart.left _ s
  right g s := congrArg inner.get (apart.right g s)

end Lens

namespace Slot

variable {S T : Type}

/-- An optional field is one that holds an option. -/
def type : Slot T → WireType
  | .required _ type _ => type
  | .optional _ type _ => .option type

def lens : (slot : Slot T) → Lens T slot.type.Carrier
  | .required _ _ lens => lens
  | .optional _ _ lens => lens

/-- What is stored of the field. -/
def value? (x : T) : Slot T → Option Value
  | .required _ type lens => some (type.write (lens.get x))
  | .optional _ type lens => (lens.get x).map type.write

def written (x : T) (slot : Slot T) : List (String × Value) :=
  (slot.value? x).toList.map fun v => (slot.name, v)

theorem mem_written {x : T} {slot : Slot T} {e : String × Value} :
    e ∈ slot.written x ↔ e.1 = slot.name ∧ slot.value? x = some e.2 := by
  obtain ⟨key, v⟩ := e
  simp only [written, List.mem_map, Option.mem_toList, Prod.mk.injEq]
  constructor
  · rintro ⟨w, stored, same, rfl⟩
    exact ⟨same.symm, stored⟩
  · rintro ⟨same, stored⟩
    exact ⟨v, stored, same.symm, rfl⟩

theorem write_eq (x : T) (row : Record) (slot : Slot T) :
    slot.write x row = row.insertAll (slot.written x) := by
  cases slot with
  | required name type lens => rfl
  | optional name type lens =>
    simp only [write, written, value?]
    cases lens.get x with
    | none => rfl
    | some y => rfl

theorem value?_eq_some {x : T} {slot : Slot T} {v : Value} (stored : slot.value? x = some v) :
    slot.type.write (slot.lens.get x) = v := by
  cases slot with
  | required name type lens => exact Option.some.inj stored
  | optional name type lens =>
    obtain ⟨y, held, same⟩ := Option.map_eq_some_iff.mp stored
    change (WireType.option type).write (lens.get x) = v
    rw [held]
    exact same

/-- Only an empty option is not stored. -/
theorem value?_eq_none {x : T} {name : String} {type : WireType}
    {lens : Lens T (Option type.Carrier)} :
    (optional name type lens).value? x = none ↔ lens.get x = none :=
  Option.map_eq_none_iff

theorem read_of_ok {x : T} {slot : Slot T} {v : Value} {y : slot.type.Carrier}
    (done : slot.type.read v = .ok y) : slot.read x v = .ok (slot.lens.set y x) := by
  cases slot with
  | required name type lens =>
    have done : type.read v = .ok y := done
    simp only [read, done]
    rfl
  | optional name type lens =>
    have done : (WireType.option type).read v = .ok y := done
    simp only [read, done]
    rfl

end Slot

/-- A part of a typed record that is laid into a row. -/
inductive Part (T : Type) where
  | field (slot : Slot T)
  | overflow (lens : Lens T Record)

namespace Part

variable {S T : Type}

def slot? : Part T → Option (Slot T)
  | .field slot => some slot
  | .overflow _ => none

def overflow? : Part T → Option (Lens T Record)
  | .field _ => none
  | .overflow lens => some lens

/-- What the part holds. -/
def Carrier : Part T → Type
  | .field slot => slot.type.Carrier
  | .overflow _ => Record

def lens : (part : Part T) → Lens T part.Carrier
  | .field slot => slot.lens
  | .overflow lens => lens

def written (x : T) : Part T → List (String × Value)
  | .field slot => slot.written x
  | .overflow lens => (lens.get x).entries

def through (outer : Lens S T) : Part T → Part S
  | .field slot => .field (slot.through outer)
  | .overflow lens => .overflow (outer.through lens)

theorem lawful_through {outer : Lens S T} (access : outer.Lawful) {part : Part T}
    (lawful : part.lens.Lawful) : (part.through outer).lens.Lawful := by
  cases part with
  | field slot => cases slot <;> exact access.through lawful
  | overflow lens => exact access.through lawful

theorem apart_through {outer : Lens S T} (access : outer.Lawful) {a b : Part T}
    (apart : a.lens.Apart b.lens) : (a.through outer).lens.Apart (b.through outer).lens := by
  cases a with
  | field a =>
    cases a <;> cases b with
    | field b => cases b <;> exact apart.through access
    | overflow lens => exact apart.through access
  | overflow lens =>
    cases b with
    | field b => cases b <;> exact apart.through access
    | overflow other => exact apart.through access

theorem apart_inner {F : Type} {l : Lens S F} {outer : Lens S T} (apart : l.Apart outer)
    (part : Part T) : l.Apart (part.through outer).lens := by
  cases part with
  | field slot => cases slot <;> exact apart.inner _
  | overflow lens => exact apart.inner lens

end Part

namespace Mapping

variable {S T : Type}

mutual

/-- The parts in the order in which they are written. -/
def parts : Mapping T → List (Part T)
  | .node slots embedded overflow =>
    overflow.toList.map .overflow ++ partsIn embedded ++ slots.map .field

def partsIn : List (Mapping T) → List (Part T)
  | [] => []
  | m :: rest => parts m ++ partsIn rest

end

mutual

/-- The fields in the order in which they are read. -/
def allSlots : Mapping T → List (Slot T)
  | .node slots embedded _ => slots ++ slotsIn embedded

def slotsIn : List (Mapping T) → List (Slot T)
  | [] => []
  | m :: rest => allSlots m ++ slotsIn rest

end

def overflows (m : Mapping T) : List (Lens T Record) := m.parts.filterMap Part.overflow?

/-- The entries of a typed record in the order in which they are written. -/
def written (x : T) (m : Mapping T) : List (String × Value) := m.parts.flatMap (Part.written x)

/-! The same fields are written and read. -/

mutual

theorem slots_perm : (m : Mapping T) → (m.parts.filterMap Part.slot?).Perm m.allSlots
  | .node slots embedded overflow => by
    have own : (slots.map Part.field).filterMap Part.slot? = slots := by
      rw [List.filterMap_map]
      exact List.filterMap_some
    have none : (overflow.toList.map Part.overflow).filterMap Part.slot? = [] := by
      cases overflow <;> rfl
    rw [parts, allSlots, List.filterMap_append, List.filterMap_append, own, none, List.nil_append]
    exact (slotsIn_perm embedded).append_right slots |>.trans List.perm_append_comm

theorem slotsIn_perm : (ms : List (Mapping T)) →
    ((partsIn ms).filterMap Part.slot?).Perm (slotsIn ms)
  | [] => .nil
  | m :: rest => by
    rw [partsIn, slotsIn, List.filterMap_append]
    exact (slots_perm m).append (slotsIn_perm rest)

end

theorem mem_allSlots {m : Mapping T} {slot : Slot T} :
    slot ∈ m.allSlots ↔ Part.field slot ∈ m.parts := by
  rw [← m.slots_perm.mem_iff, List.mem_filterMap]
  constructor
  · rintro ⟨part, member, same⟩
    cases part with
    | field other =>
      cases same
      exact member
    | overflow lens => cases same
  · intro member
    exact ⟨.field slot, member, rfl⟩

theorem mem_overflows {m : Mapping T} {lens : Lens T Record} :
    lens ∈ m.overflows ↔ Part.overflow lens ∈ m.parts := by
  rw [overflows, List.mem_filterMap]
  constructor
  · rintro ⟨part, member, same⟩
    cases part with
    | field slot => cases same
    | overflow other =>
      cases same
      exact member
  · intro member
    exact ⟨.overflow lens, member, rfl⟩

mutual

theorem wireNames_eq : (m : Mapping T) → m.wireNames = m.allSlots.map Slot.name
  | .node slots embedded overflow => by
    rw [wireNames, allSlots, List.map_append, embeddedNames_eq]

theorem embeddedNames_eq : (ms : List (Mapping T)) →
    embeddedNames ms = (slotsIn ms).map Slot.name
  | [] => rfl
  | m :: rest => by
    rw [embeddedNames, slotsIn, List.map_append, wireNames_eq m, embeddedNames_eq rest]

end

theorem overflows_node (slots : List (Slot T)) (embedded : List (Mapping T))
    (overflow : Option (Lens T Record)) : (node slots embedded overflow).overflows =
      overflow.toList ++ (partsIn embedded).filterMap Part.overflow? := by
  have none : (slots.map Part.field).filterMap Part.overflow? = [] := by
    rw [List.filterMap_map]
    exact List.filterMap_eq_nil_iff.mpr fun _ _ => rfl
  rw [overflows, parts, List.filterMap_append, List.filterMap_append, none, List.append_nil]
  cases overflow <;> rfl

/-- The overflow of the mapping itself, not of an embedded one. -/
def ownOverflow? : Mapping T → Option (Lens T Record)
  | .node _ _ overflow => overflow

/-- The overflows of the embedded mappings. -/
def innerOverflows (m : Mapping T) : List (Lens T Record) :=
  (partsIn m.embedded).filterMap Part.overflow?

theorem overflows_eq_append (m : Mapping T) :
    m.overflows = m.ownOverflow?.toList ++ m.innerOverflows := by
  cases m with
  | node slots embedded overflow => exact overflows_node slots embedded overflow

mutual

/-- Unknown entries go where the first overflow is. -/
theorem overflow?_eq : (m : Mapping T) → m.overflow? = m.overflows.head?
  | .node slots embedded overflow => by
    rw [overflows_node]
    cases overflow with
    | some lens => rfl
    | none => exact firstOverflow?_eq embedded

theorem firstOverflow?_eq : (ms : List (Mapping T)) →
    firstOverflow? ms = ((partsIn ms).filterMap Part.overflow?).head?
  | [] => rfl
  | m :: rest => by
    rw [firstOverflow?, partsIn, List.filterMap_append, List.head?_append, overflow?_eq m,
      firstOverflow?_eq rest, overflows]
    cases (m.parts.filterMap Part.overflow?).head? with
    | none => rfl
    | some lens => rfl

end

/-! Writing is one pass over the parts. -/

mutual

theorem writeOver_eq (x : T) : (m : Mapping T) → (row : Record) →
    m.writeOver x row = row.insertAll (m.written x)
  | .node slots embedded overflow, row => by
    -- three passes in turn: the overflow, the embedded mappings, the mapping's own fields
    have own (row : Record) : slots.foldl (Slot.write x) row =
        row.insertAll ((slots.map Part.field).flatMap (Part.written x)) := by
      rw [List.flatMap_map]
      induction slots generalizing row with
      | nil => rfl
      | cons slot rest ih =>
        rw [List.foldl_cons, ih, Slot.write_eq, List.flatMap_cons, KeyMap.insertAll_append]
        rfl
    rw [written, parts, List.flatMap_append, List.flatMap_append, KeyMap.insertAll_append,
      KeyMap.insertAll_append, ← own, ← writeEmbedded_eq x embedded]
    cases overflow with
    | none => rfl
    | some lens =>
      have entries : ([lens].map Part.overflow).flatMap (Part.written x) = (lens.get x).entries :=
        List.append_nil _
      rw [Option.toList_some, entries]
      rfl

theorem writeEmbedded_eq (x : T) : (ms : List (Mapping T)) → (row : Record) →
    writeEmbedded x ms row = row.insertAll ((partsIn ms).flatMap (Part.written x))
  | [], row => rfl
  | m :: rest, row => by
    rw [writeEmbedded, writeEmbedded_eq x rest, writeOver_eq x m, partsIn, List.flatMap_append,
      KeyMap.insertAll_append, written]

end

theorem write_eq (m : Mapping T) (x : T) : m.write x = KeyMap.ofList (m.written x) :=
  writeOver_eq x m .empty

/-! Reading is one pass over the fields. -/

mutual

theorem take_eq : (m : Mapping T) → (state : T × Record) →
    m.take state = m.allSlots.foldlM Slot.take state
  | .node slots embedded overflow, state => by
    rw [take, allSlots, List.foldlM_append]
    exact bind_congr fun next => takeEmbedded_eq embedded next

theorem takeEmbedded_eq : (ms : List (Mapping T)) → (state : T × Record) →
    takeEmbedded ms state = (slotsIn ms).foldlM Slot.take state
  | [], state => rfl
  | m :: rest, state => by
    rw [takeEmbedded, slotsIn, List.foldlM_append, take_eq m]
    exact bind_congr fun next => takeEmbedded_eq rest next

end

/-! A mapping in one piece of what embeds its type. -/

mutual

theorem parts_through (outer : Lens S T) : (m : Mapping T) →
    (m.through outer).parts = m.parts.map (Part.through outer)
  | .node slots embedded overflow => by
    have own : (slots.map (Slot.through outer)).map Part.field =
        (slots.map Part.field).map (Part.through outer) := by
      rw [List.map_map, List.map_map]
      rfl
    have first : (overflow.map outer.through).toList.map Part.overflow =
        (overflow.toList.map Part.overflow).map (Part.through outer) := by
      cases overflow <;> rfl
    rw [through, parts, parts, List.map_append, List.map_append, own, first,
      partsIn_throughAll outer embedded]

theorem partsIn_throughAll (outer : Lens S T) : (ms : List (Mapping T)) →
    partsIn (throughAll outer ms) = (partsIn ms).map (Part.through outer)
  | [] => rfl
  | m :: rest => by
    rw [throughAll, partsIn, partsIn, List.map_append, parts_through outer m,
      partsIn_throughAll outer rest]

end

theorem partsIn_append (first second : List (Mapping T)) :
    partsIn (first ++ second) = partsIn first ++ partsIn second := by
  induction first with
  | nil => rfl
  | cons m rest ih => rw [List.cons_append, partsIn, partsIn, ih, List.append_assoc]

/-- The mappings that declarations lead to. -/
inductive Built : {T : Type} → Mapping T → Prop where
  | empty {T : Type} : Built (empty : Mapping T)
  | addSlot {T : Type} {m : Mapping T} (slot : Slot T) : Built m → Built (m.addSlot slot)
  | embed {S T : Type} {m whole : Mapping T} {inner : Mapping S} {lens : Lens T S} :
    Built m → Built inner → m.embed lens inner = .ok whole → Built whole
  | withOverflow {T : Type} {m whole : Mapping T} {lens : Lens T Record} :
    Built m → m.withOverflow lens = .ok whole → Built whole

theorem hasOverflow_eq_false {m : Mapping T} : m.hasOverflow = false ↔ m.overflows = [] := by
  rw [hasOverflow, overflow?_eq]
  cases m.overflows with
  | nil => simp
  | cons lens rest => simp

theorem hasOverflow_iff {m : Mapping T} : m.hasOverflow = true ↔ m.overflows ≠ [] := by
  rw [← Bool.not_eq_false, Ne, hasOverflow_eq_false]

theorem overflowsIn_eq_nil {ms : List (Mapping T)} :
    (partsIn ms).filterMap Part.overflow? = [] ↔ ∀ m ∈ ms, m.overflows = [] := by
  induction ms with
  | nil => exact iff_of_true rfl (List.forall_mem_nil _)
  | cons m rest ih =>
    rw [partsIn, List.filterMap_append, List.append_eq_nil_iff, ih, List.forall_mem_cons, overflows]

theorem overflows_through (outer : Lens S T) (m : Mapping T) :
    (m.through outer).overflows = m.overflows.map outer.through := by
  unfold overflows
  rw [parts_through, List.filterMap_map, List.map_filterMap]
  refine List.filterMap_congr fun part _ => ?_
  cases part <;> rfl

/-! What a declaration does to the overflows. -/

theorem addSlot_overflows (m : Mapping T) (slot : Slot T) :
    (m.addSlot slot).ownOverflow? = m.ownOverflow? ∧
      (m.addSlot slot).innerOverflows = m.innerOverflows := by
  cases m
  exact ⟨rfl, rfl⟩

theorem embed_cases (m : Mapping T) (lens : Lens T S) (inner : Mapping S) :
    (m.overflows ≠ [] ∧ inner.overflows ≠ [] ∧ m.embed lens inner = .error .secondOverflow) ∨
    ((m.overflows = [] ∨ inner.overflows = []) ∧ ∃ whole, m.embed lens inner = .ok whole ∧
      whole.ownOverflow? = m.ownOverflow? ∧
      whole.innerOverflows = m.innerOverflows ++ inner.overflows.map lens.through) := by
  unfold embed
  split_ifs with both
  · rw [Bool.and_eq_true, hasOverflow_iff, hasOverflow_iff] at both
    exact .inl ⟨both.1, both.2, rfl⟩
  · rw [Bool.and_eq_true, not_and_or, Bool.not_eq_true, Bool.not_eq_true, hasOverflow_eq_false,
      hasOverflow_eq_false] at both
    cases m with
    | node slots embedded overflow =>
      refine .inr ⟨both, _, rfl, rfl, ?_⟩
      have added : partsIn [inner.through lens] = (inner.through lens).parts := List.append_nil _
      rw [← overflows_through]
      change (partsIn (embedded ++ [inner.through lens])).filterMap Part.overflow? = _
      rw [partsIn_append, List.filterMap_append, added]
      rfl

theorem withOverflow_cases (m : Mapping T) (lens : Lens T Record) :
    (m.innerOverflows ≠ [] ∧ m.withOverflow lens = .error .secondOverflow) ∨
    (m.innerOverflows = [] ∧ ∃ whole, m.withOverflow lens = .ok whole ∧
      whole.ownOverflow? = some lens ∧ whole.innerOverflows = []) := by
  cases m with
  | node slots embedded overflow =>
    have carried : embedded.any hasOverflow = true ↔
        (node slots embedded overflow).innerOverflows ≠ [] := by
      rw [innerOverflows, Ne, overflowsIn_eq_nil, List.any_eq_true]
      simp only [hasOverflow_iff, not_forall, exists_prop]
      rfl
    unfold withOverflow
    dsimp only
    split_ifs with given
    · exact .inl ⟨carried.mp given, rfl⟩
    · have none := not_not.mp (mt carried.mpr given)
      exact .inr ⟨none, _, rfl, rfl, none⟩

/-- There is one place at most for unknown entries. -/
theorem Built.length_overflows_le {m : Mapping T} (built : Built m) : m.overflows.length ≤ 1 := by
  induction built with
  | empty => exact Nat.zero_le 1
  | @addSlot T m slot built ih =>
    obtain ⟨own, inner⟩ := m.addSlot_overflows slot
    rwa [overflows_eq_append, own, inner, ← overflows_eq_append]
  | @embed S T m whole inner lens built other done ih inside =>
    rcases m.embed_cases lens inner with ⟨_, _, failed⟩ | ⟨empty, _, same, own, joined⟩
    · rw [failed] at done
      cases done
    · cases same.symm.trans done
      rw [overflows_eq_append, own, joined, ← List.append_assoc, ← overflows_eq_append,
        List.length_append, List.length_map]
      rcases empty with outer | none
      · rw [outer]
        simpa using inside
      · rw [none]
        exact ih
  | @withOverflow T m whole lens built done ih =>
    rcases m.withOverflow_cases lens with ⟨_, failed⟩ | ⟨_, _, same, own, none⟩
    · rw [failed] at done
      cases done
    · cases same.symm.trans done
      rw [overflows_eq_append, own, none]
      rfl

/-- Where there is one overflow at most, unknown entries go there. -/
theorem overflow?_eq_some_iff {m : Mapping T} (single : m.overflows.length ≤ 1)
    {lens : Lens T Record} : m.overflow? = some lens ↔ m.overflows = [lens] := by
  rw [overflow?_eq, List.head?_eq_some_iff]
  constructor
  · rintro ⟨rest, listed⟩
    rw [listed, List.length_cons] at single
    rw [listed, List.eq_nil_of_length_eq_zero (Nat.le_zero.mp (Nat.le_of_succ_le_succ single))]
  · intro listed
    exact ⟨[], listed⟩

theorem Built.overflows_eq {m : Mapping T} (built : Built m) {lens : Lens T Record}
    (held : m.overflow? = some lens) : m.overflows = [lens] :=
  (overflow?_eq_some_iff built.length_overflows_le).mp held

/-- The accessors of the mapping reach parts that share nothing. -/
structure Lawful (m : Mapping T) : Prop where
  lawful : ∀ part ∈ m.parts, part.lens.Lawful
  apart : m.parts.Pairwise fun a b => a.lens.Apart b.lens

theorem lawful_empty : (empty : Mapping T).Lawful where
  lawful := List.forall_mem_nil _
  apart := .nil

theorem Lawful.addSlot {m : Mapping T} (lawful : m.Lawful) {slot : Slot T}
    (access : slot.lens.Lawful) (apart : ∀ part ∈ m.parts, part.lens.Apart slot.lens) :
    (m.addSlot slot).Lawful := by
  have added : (m.addSlot slot).parts = m.parts ++ [.field slot] := by
    cases m with
    | node slots embedded overflow =>
      rw [Mapping.addSlot, parts, parts, List.map_append, ← List.append_assoc]
      rfl
  constructor
  · rw [added]
    intro part member
    rcases List.mem_append.mp member with before | here
    · exact lawful.lawful part before
    · exact List.mem_singleton.mp here ▸ access
  · rw [added, List.pairwise_append]
    refine ⟨lawful.apart, List.pairwise_singleton _ _, ?_⟩
    intro a member b here
    exact List.mem_singleton.mp here ▸ apart a member

/-- The parts of a part share nothing with the rest if the part does not. -/
theorem Lawful.embed {m whole : Mapping T} {inner : Mapping S} {lens : Lens T S}
    (done : m.embed lens inner = .ok whole) (lawful : m.Lawful) (inside : inner.Lawful)
    (access : lens.Lawful) (apart : ∀ part ∈ m.parts, part.lens.Apart lens) : whole.Lawful := by
  have added : (m.parts ++ inner.parts.map (Part.through lens)).Perm whole.parts := by
    unfold Mapping.embed at done
    split_ifs at done
    cases m with
    | node slots embedded overflow =>
      cases done
      rw [parts, parts, partsIn_append, partsIn, partsIn, List.append_nil, parts_through,
        ← List.append_assoc, List.append_assoc _ (slots.map Part.field),
        List.append_assoc _ (inner.parts.map _)]
      exact List.perm_append_comm.append_left _
  constructor
  · intro part member
    rcases List.mem_append.mp (added.mem_iff.mpr member) with own | other
    · exact lawful.lawful part own
    · obtain ⟨source, inner, rfl⟩ := List.mem_map.mp other
      exact Part.lawful_through access (inside.lawful source inner)
  · refine (added.pairwise_iff fun apart => apart.symm).mp ?_
    rw [List.pairwise_append, List.pairwise_map]
    refine ⟨lawful.apart, inside.apart.imp (Part.apart_through access), ?_⟩
    intro a member b other
    obtain ⟨part, _, rfl⟩ := List.mem_map.mp other
    exact Part.apart_inner (apart a member) part

theorem Lawful.withOverflow {m whole : Mapping T} {lens : Lens T Record}
    (done : m.withOverflow lens = .ok whole) (lawful : m.Lawful) (access : lens.Lawful)
    (apart : ∀ part ∈ m.parts, part.lens.Apart lens) : whole.Lawful := by
  cases m with
  | node slots embedded overflow =>
    unfold Mapping.withOverflow at done
    dsimp only at done
    split_ifs at done
    cases done
    have kept : (partsIn embedded ++ slots.map Part.field).Sublist
        (node slots embedded overflow).parts := by
      rw [parts, List.append_assoc]
      exact List.sublist_append_right _ _
    constructor
    · intro part member
      rcases List.mem_cons.mp member with rfl | other
      · exact access
      · exact lawful.lawful part (kept.subset other)
    · refine List.pairwise_cons.mpr ⟨?_, lawful.apart.sublist kept⟩
      intro part member
      exact (apart part (kept.subset member)).symm

end Mapping

end EntitySchema
