import EntitySchema.Proofs.Wire.RoundTrip

/-!
Declarations that build a mapping, and where they put its overflow. A mapping cannot be built if two
different types of its tree name an overflow. If it can be, the tree has the overflow that is named, and
unknown entries go there.
-/

namespace EntitySchema.Mapping

/-- Declarations one after the other. A part that is embedded has declarations of its own. -/
inductive Plan : Type → Type 1 where
  | start {T : Type} : Plan T
  | field {T : Type} (before : Plan T) (name : String) (type : WireType)
    (lens : Lens T type.Carrier) : Plan T
  | optional {T : Type} (before : Plan T) (name : String) (type : WireType)
    (lens : Lens T (Option type.Carrier)) : Plan T
  | embed {S T : Type} (before : Plan T) (lens : Lens T S) (inner : Plan S) : Plan T
  | overflow {T : Type} (before : Plan T) (lens : Lens T Record) : Plan T

namespace Plan

/-- Builds the mapping; a declaration that it cannot take ends it. -/
def build : {T : Type} → Plan T → Except MappingError (Mapping T)
  | _, .start => .ok .empty
  | _, .field before name type lens => before.build.map (·.field name type lens)
  | _, .optional before name type lens => before.build.map (·.optional name type lens)
  | _, .embed before lens inner => do
    let m ← before.build
    let part ← inner.build
    m.embed lens part
  | _, .overflow before lens => do
    let m ← before.build
    m.withOverflow lens

/-- The overflow that is named for the type itself; the last one counts. -/
def own? : {T : Type} → Plan T → Option (Lens T Record)
  | _, .start => none
  | _, .field before _ _ _ => before.own?
  | _, .optional before _ _ _ => before.own?
  | _, .embed before _ _ => before.own?
  | _, .overflow _ lens => some lens

/-- The overflows that are named within embedded parts, reached from the whole. -/
def inside : {T : Type} → Plan T → List (Lens T Record)
  | _, .start => []
  | _, .field before _ _ _ => before.inside
  | _, .optional before _ _ _ => before.inside
  | _, .embed before lens inner =>
    before.inside ++ (inner.own?.toList ++ inner.inside).map lens.through
  | _, .overflow before _ => before.inside

/-- All overflows that are named. -/
def places {T : Type} (plan : Plan T) : List (Lens T Record) := plan.own?.toList ++ plan.inside

/-- A declaration names a second overflow: one within a part joins one that is there, or one of the type
itself joins one within a part. -/
def Clashes : {T : Type} → Plan T → Prop
  | _, .start => False
  | _, .field before _ _ _ => before.Clashes
  | _, .optional before _ _ _ => before.Clashes
  | _, .embed before _ inner =>
    before.Clashes ∨ inner.Clashes ∨ (before.places ≠ [] ∧ inner.places ≠ [])
  | _, .overflow before _ => before.Clashes ∨ before.inside ≠ []

variable {S T : Type} {m : Mapping T}

theorem build_embed (before : Plan T) (lens : Lens T S) (inner : Plan S) :
    (before.embed lens inner).build =
      before.build.bind fun m => inner.build.bind fun part => m.embed lens part := rfl

theorem build_overflow (before : Plan T) (lens : Lens T Record) :
    (before.overflow lens).build = before.build.bind fun m => m.withOverflow lens := rfl

theorem inside_embed (before : Plan T) (lens : Lens T S) (inner : Plan S) :
    (before.embed lens inner).inside = before.inside ++ inner.places.map lens.through := rfl

theorem places_embed (before : Plan T) (lens : Lens T S) (inner : Plan S) :
    (before.embed lens inner).places = before.places ++ inner.places.map lens.through :=
  (List.append_assoc ..).symm

theorem places_overflow (before : Plan T) (lens : Lens T Record) :
    (before.overflow lens).places = lens :: before.inside := rfl

theorem clashes_embed (before : Plan T) (lens : Lens T S) (inner : Plan S) :
    (before.embed lens inner).Clashes ↔
      before.Clashes ∨ inner.Clashes ∨ (before.places ≠ [] ∧ inner.places ≠ []) := Iff.rfl

theorem clashes_overflow (before : Plan T) (lens : Lens T Record) :
    (before.overflow lens).Clashes ↔ before.Clashes ∨ before.inside ≠ [] := Iff.rfl

/-- The mapping has the overflows that are named, its own and those of its parts. -/
structure Fits (plan : Plan T) (m : Mapping T) : Prop where
  own : m.ownOverflow? = plan.own?
  inside : m.innerOverflows = plan.inside

theorem Fits.overflows {plan : Plan T} (fits : plan.Fits m) : m.overflows = plan.places := by
  rw [overflows_eq_append, fits.own, fits.inside, places]

theorem length_places (plan : Plan T) :
    plan.places.length = plan.own?.toList.length + plan.inside.length :=
  List.length_append

theorem length_own_le (plan : Plan T) : plan.own?.toList.length ≤ 1 := Option.length_toList_le

theorem length_places_embed (before : Plan T) (lens : Lens T S) (inner : Plan S) :
    (before.embed lens inner).places.length = before.places.length + inner.places.length := by
  rw [places_embed, List.length_append, List.length_map]

theorem length_places_overflow (before : Plan T) (lens : Lens T Record) :
    (before.overflow lens).places.length = 1 + before.inside.length := by
  rw [places_overflow, List.length_cons, Nat.add_comm]

/-- A second overflow stays a second one, whatever is declared after it. -/
theorem clashes_iff : {T : Type} → (plan : Plan T) → plan.Clashes ↔ 2 ≤ plan.places.length
  | _, .start => iff_of_false id (show ¬ 2 ≤ 0 by decide)
  | _, .field before _ _ _ => before.clashes_iff
  | _, .optional before _ _ _ => before.clashes_iff
  | _, .embed before lens inner => by
    rw [clashes_embed, before.clashes_iff, inner.clashes_iff, length_places_embed,
      ← List.length_pos_iff, ← List.length_pos_iff]
    omega
  | _, .overflow before lens => by
    have single := before.length_own_le
    rw [clashes_overflow, before.clashes_iff, length_places_overflow, length_places,
      ← List.length_pos_iff]
    omega

/-- One overflow is named at most and the mapping is built with it, or there are two and it is not. -/
def Decided (plan : Plan T) : Prop :=
  (∃ m, plan.build = .ok m ∧ plan.Fits m ∧ plan.places.length ≤ 1) ∨
    (plan.build = .error .secondOverflow ∧ 2 ≤ plan.places.length)

theorem Decided.addSlot {before plan : Plan T} (decided : before.Decided) (slot : Slot T)
    (next : plan.build = before.build.map (·.addSlot slot)) (own : plan.own? = before.own?)
    (inside : plan.inside = before.inside) : plan.Decided := by
  have same : plan.places = before.places := by rw [places, own, inside, places]
  unfold Decided
  rw [next, same]
  rcases decided with ⟨m, built, fits, single⟩ | ⟨failed, several⟩
  · obtain ⟨kept, others⟩ := m.addSlot_overflows slot
    refine .inl ⟨m.addSlot slot, by rw [built]; rfl, ⟨?_, ?_⟩, single⟩
    · rw [kept, fits.own, own]
    · rw [others, fits.inside, inside]
  · exact .inr ⟨by rw [failed]; rfl, several⟩

theorem Decided.embed {before : Plan T} {inner : Plan S} (decided : before.Decided)
    (part : inner.Decided) (lens : Lens T S) : (before.embed lens inner).Decided := by
  unfold Decided
  rw [length_places_embed]
  rcases decided with ⟨m, built, fits, single⟩ | ⟨failed, several⟩
  · rcases part with ⟨within, done, holds, one⟩ | ⟨failed, several⟩
    · have next : (before.embed lens inner).build = m.embed lens within := by
        rw [build_embed, built, done]
        rfl
      rw [next]
      have own := fits.overflows
      have others := holds.overflows
      rcases m.embed_cases lens within with ⟨here, there, failed⟩ | ⟨empty, whole, joined, kept, added⟩
      · rw [own, ← List.length_pos_iff] at here
        rw [others, ← List.length_pos_iff] at there
        exact .inr ⟨failed, by omega⟩
      · refine .inl ⟨whole, joined, ⟨kept.trans fits.own, ?_⟩, ?_⟩
        · rw [added, fits.inside, others, inside_embed]
        · rw [own, others, ← List.length_eq_zero_iff, ← List.length_eq_zero_iff] at empty
          omega
    · refine .inr ⟨?_, by omega⟩
      rw [build_embed, built, failed]
      rfl
  · refine .inr ⟨?_, by omega⟩
    rw [build_embed, failed]
    rfl

theorem Decided.overflow {before : Plan T} (decided : before.Decided) (lens : Lens T Record) :
    (before.overflow lens).Decided := by
  unfold Decided
  rw [length_places_overflow]
  rcases decided with ⟨m, built, fits, single⟩ | ⟨failed, several⟩
  · have next : (before.overflow lens).build = m.withOverflow lens := by
      rw [build_overflow, built]
      rfl
    rw [next]
    rcases m.withOverflow_cases lens with ⟨others, failed⟩ | ⟨none, whole, done, own, kept⟩
    · rw [fits.inside, ← List.length_pos_iff] at others
      exact .inr ⟨failed, by omega⟩
    · rw [fits.inside] at none
      refine .inl ⟨whole, done, ⟨own, ?_⟩, ?_⟩
      · exact kept.trans none.symm
      · rw [none]
        rfl
  · -- what two types name is still there if one of them names another
    have single := before.length_own_le
    rw [length_places] at several
    refine .inr ⟨?_, by omega⟩
    rw [build_overflow, failed]
    rfl

theorem decided : {T : Type} → (plan : Plan T) → plan.Decided
  | _, .start => .inl ⟨.empty, rfl, ⟨rfl, rfl⟩, Nat.zero_le 1⟩
  | _, .field before name type lens => before.decided.addSlot (.required name type lens) rfl rfl rfl
  | _, .optional before name type lens => before.decided.addSlot (.optional name type lens) rfl rfl rfl
  | _, .embed before lens inner => before.decided.embed inner.decided lens
  | _, .overflow before lens => before.decided.overflow lens

/-- A mapping is not built if a declaration names a second overflow: one of the type itself and one
within a part, in whatever order, or two within parts. What is built has one overflow at most, the one
that is named, and unknown entries go there. -/
theorem builds_single_overflow (plan : Plan T) :
    (plan.build = .error .secondOverflow ↔ plan.Clashes) ∧
    (plan.Clashes ↔ (plan.own?.isSome ∧ plan.inside ≠ []) ∨ 2 ≤ plan.inside.length) ∧
    (plan.Clashes ∨ ∃ m, plan.build = .ok m) ∧
    ∀ m, plan.build = .ok m → m.overflows = plan.places ∧ m.overflows.length ≤ 1 ∧
      (m.hasOverflow = true ↔ m.overflows ≠ []) ∧
      ∀ lens, m.overflow? = some lens ↔ m.overflows = [lens] := by
  have places : plan.Clashes ↔ (plan.own?.isSome ∧ plan.inside ≠ []) ∨ 2 ≤ plan.inside.length := by
    rw [clashes_iff, length_places, ← List.length_pos_iff]
    cases plan.own? with
    | none => simp
    | some lens =>
      simp only [Option.toList_some, List.length_singleton, Option.isSome_some, true_and]
      omega
  rcases plan.decided with ⟨m, built, fits, single⟩ | ⟨failed, several⟩
  · have quiet : ¬ plan.Clashes := by
      rw [clashes_iff]
      omega
    refine ⟨?_, places, .inr ⟨m, built⟩, ?_⟩
    · rw [built]
      exact iff_of_false nofun quiet
    · intro other done
      cases built.symm.trans done
      have named := fits.overflows
      rw [← named] at single
      exact ⟨named, single, hasOverflow_iff, fun lens => overflow?_eq_some_iff single⟩
  · have clash := plan.clashes_iff.mpr several
    refine ⟨iff_of_true failed clash, places, .inl clash, ?_⟩
    intro m built
    cases failed.symm.trans built

end Plan

def auditPlan : Plan Audit :=
  (Plan.start.field "revision" (.integer ⟨false, 32⟩)
    ⟨Audit.revision, fun i a => { a with revision := i }⟩).overflow Audit.othersLens

def invoicePlan : Plan Invoice :=
  ((Plan.start.optional "note" .text ⟨Invoice.note, fun s x => { x with note := s }⟩).field
    "paid" (.list .bool) ⟨Invoice.paid, fun bs x => { x with paid := bs }⟩).embed
    Invoice.auditLens auditPlan

/-- Unknown entries of an invoice go to its audit. An overflow of its own is refused, and so is a second
audit. -/
theorem Plan.builds_single_overflow_invoice :
    (invoicePlan.build = .ok invoiceMapping ∧
      invoiceMapping.overflow? = some Invoice.othersLens) ∧
    (invoicePlan.overflow Invoice.othersLens).build = .error .secondOverflow ∧
    (invoicePlan.embed Invoice.auditLens auditPlan).build = .error .secondOverflow := by
  have built : invoicePlan.build = .ok invoiceMapping := rfl
  obtain ⟨_, _, _, held⟩ := builds_single_overflow invoicePlan
  obtain ⟨named, _, _, reached⟩ := held invoiceMapping built
  refine ⟨⟨built, (reached _).mpr named⟩, ?_, ?_⟩
  · exact (builds_single_overflow _).1.mpr (.inr (List.cons_ne_nil _ _))
  · exact (builds_single_overflow _).1.mpr
      (.inr (.inr ⟨List.cons_ne_nil _ _, List.cons_ne_nil _ _⟩))

end EntitySchema.Mapping
