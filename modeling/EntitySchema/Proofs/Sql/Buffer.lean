import EntitySchema.Proofs.Outcome
import EntitySchema.Sql.Statement

/-!
The text of a buffer, for any way to write its slots. Each operation adds its text at the end, and a
buffer that is added has its slots numbered on. A finished statement is this text written twice.
-/

namespace EntitySchema.Sql

/-- The literal of a value, or nothing for a value without one. -/
def Dialect.literalText (d : Dialect) (v : Value) : String :=
  match d.literal v with
  | .ok s => s
  | .error _ => ""

theorem Dialect.literalText_of_ok {d : Dialect} {v : Value} {s : String} (ok : d.literal v = .ok s) :
    d.literalText v = s := by
  rw [Dialect.literalText, ok]

/-- Only floats that are not finite have no literal. -/
theorem Dialect.literal_eq_error {d : Dialect} {v : Value} {e : SqlError} :
    d.literal v = .error e ↔
      ∃ x, v = .float x ∧ x.isFinite = false ∧ e = .unrenderableValue x.text := by
  cases v with
  | float x =>
    cases finite : x.isFinite with
    | true => simp [literal, finite]
    | false =>
      simp only [literal, finite, Bool.false_eq_true, if_false, Except.error.injEq]
      constructor
      · intro same
        exact ⟨x, rfl, finite, same.symm⟩
      · rintro ⟨y, same, _, rfl⟩
        cases same
        rfl
  | _ => simp [literal]

namespace Part

theorem text_push (spell : Nat → String) (s : String) (parts : List Part) :
    text spell (push s parts) = text spell parts ++ s := by
  unfold push
  split
  · rw [text, text, String.append_assoc]
  · rw [text]

theorem text_append (spell : Nat → String) (base : Nat) (parts others : List Part) :
    text spell (append base parts others) =
      text spell parts ++ text (fun index => spell (base + index)) others := by
  induction others with
  | nil => simp only [append, text, String.append_empty]
  | cons other before ih =>
    cases other with
    | sql s => rw [append, text_push, ih, text, String.append_assoc]
    | slot index => rw [append, text, ih, text, String.append_assoc]

theorem slot_mem (parts : List Part) (good : Numbered parts) (index : Nat)
    (bound : index < slots parts) : .slot index ∈ parts := by
  induction parts with
  | nil => exact absurd bound (Nat.not_lt_zero index)
  | cons part before ih =>
    cases part with
    | sql s => exact .tail _ (ih good bound)
    | slot last =>
      rcases Nat.lt_succ_iff_lt_or_eq.mp bound with earlier | same
      · exact .tail _ (ih good.2 earlier)
      · rw [same, ← good.1]
        exact .head _

theorem filled_eq_ok {d : Dialect} {params : Array Value} {parts : List Part}
    (known : ∀ index, .slot index ∈ parts → index < params.size) {sql : String} :
    filled d params parts known = .ok sql ↔
      (∀ index, .slot index ∈ parts → ∃ s, d.literal (params.getD index .null) = .ok s) ∧
      sql = text (fun index => d.literalText (params.getD index .null)) parts := by
  induction parts generalizing sql with
  | nil =>
    constructor
    · intro ok
      cases ok
      exact ⟨fun _ member => absurd member List.not_mem_nil, rfl⟩
    · intro given
      obtain ⟨_, rfl⟩ := given
      rfl
  | cons part before ih =>
    have earlier : ∀ index, .slot index ∈ before → index < params.size :=
      fun index member => known index (.tail _ member)
    cases part with
    | sql s =>
      simp only [filled, Outcome.bind_eq_ok, ih earlier, text]
      constructor
      · intro given
        obtain ⟨front, ⟨literals, rfl⟩, done⟩ := given
        cases done
        exact ⟨fun index member => literals index (by simpa using member), rfl⟩
      · intro given
        obtain ⟨literals, rfl⟩ := given
        exact ⟨_, ⟨fun index member => literals index (.tail _ member), rfl⟩, rfl⟩
    | slot last =>
      -- the slot's own literal comes last, behind those of the parts before it
      have inside : last < params.size := known last (.head _)
      have lookup : params.getD last .null = params[last] := by simp [inside]
      simp only [filled, Outcome.bind_eq_ok, ih earlier, text, ← lookup]
      constructor
      · intro given
        obtain ⟨front, ⟨literals, rfl⟩, literal, ok, done⟩ := given
        cases done
        refine ⟨fun index member => ?_, by rw [Dialect.literalText_of_ok ok]⟩
        rcases List.mem_cons.mp member with same | later
        · cases same
          exact ⟨literal, ok⟩
        · exact literals index later
      · intro given
        obtain ⟨literals, rfl⟩ := given
        obtain ⟨literal, ok⟩ := literals last (.head _)
        exact ⟨_, ⟨fun index member => literals index (.tail _ member), rfl⟩, literal, ok,
          by rw [Dialect.literalText_of_ok ok]⟩

theorem filled_eq_error {d : Dialect} {params : Array Value} {parts : List Part}
    {known : ∀ index, .slot index ∈ parts → index < params.size} {e : SqlError}
    (failed : filled d params parts known = .error e) : ∃ v ∈ params, d.literal v = .error e := by
  induction parts with
  | nil => cases failed
  | cons part before ih =>
    cases part with
    | sql s =>
      rcases Outcome.bind_eq_error.mp failed with front | ⟨text, _, wrong⟩
      · exact ih front
      · cases wrong
    | slot last =>
      rcases Outcome.bind_eq_error.mp failed with front | ⟨text, _, rest⟩
      · exact ih front
      · rcases Outcome.bind_eq_error.mp rest with unwritten | ⟨literal, _, wrong⟩
        · exact ⟨_, Array.getElem_mem (known last (.head _)), unwritten⟩
        · cases wrong

/-- The parts can be filled in when all their parameters have literals, and fail with the first one that
has none. -/
theorem filled_agree (d : Dialect) {params : Array Value} {parts : List Part}
    (known : ∀ index, .slot index ∈ parts → index < params.size) (numbered : Numbered parts) :
    Outcome.Agree (fun _ _ => True) (filled d params parts known)
      ((params.toList.take (slots parts)).mapM d.literal) := by
  induction parts with
  | nil => exact .ok trivial
  | cons part before ih =>
    have earlier : ∀ index, .slot index ∈ before → index < params.size :=
      fun index member => known index (.tail _ member)
    cases part with
    | sql s =>
      exact (ih earlier numbered).bind_ok fun _ _ _ => trivial
    | slot index =>
      obtain ⟨rfl, numbered⟩ := numbered
      have inside : slots before < params.size := known _ (.head _)
      rw [filled, slots, List.take_add_one, List.getElem?_eq_getElem (by simpa using inside),
        Option.toList_some, List.mapM_append]
      refine (ih earlier numbered).bind fun front literals _ => ?_
      rw [Array.getElem_toList, List.mapM_cons, List.mapM_nil]
      dsimp only
      cases d.literal params[slots before] with
      | error e => exact .error e
      | ok literal => exact .ok trivial

end Part

namespace Buffer

/-- The text in which `spell` writes the slots. -/
def text (b : Buffer) (spell : Nat → String) : String := Part.text spell b.parts

@[simp]
theorem text_push (b : Buffer) (s : String) (spell : Nat → String) :
    (b.push s).text spell = b.text spell ++ s :=
  Part.text_push spell s b.parts

@[simp]
theorem params_push (b : Buffer) (s : String) : (b.push s).params = b.params := rfl

@[simp]
theorem text_bind (b : Buffer) (v : Value) (spell : Nat → String) :
    (b.bind v).text spell = b.text spell ++ spell b.params.size := rfl

@[simp]
theorem params_bind (b : Buffer) (v : Value) : (b.bind v).params = b.params.push v := rfl

@[simp]
theorem text_append (b other : Buffer) (spell : Nat → String) :
    (b.append other).text spell =
      b.text spell ++ other.text (fun index => spell (b.params.size + index)) :=
  Part.text_append spell b.params.size b.parts other.parts

@[simp]
theorem params_append (b other : Buffer) : (b.append other).params = b.params ++ other.params := rfl

/-- A statement is finished when all its parameters have literals; it is the buffer's text written
once with placeholders and once with these literals. -/
theorem finish_eq_ok {b : Buffer} {d : Dialect} {s : Statement} :
    b.finish d = .ok s ↔
      (∀ v ∈ b.params.toList, ∃ literal, d.literal v = .ok literal) ∧
      s = ⟨b.text fun index => d.placeholder (index + 1), b.params.toList,
        b.text fun index => d.literalText (b.params.getD index .null)⟩ := by
  have used : (∀ index, .slot index ∈ b.parts →
      ∃ literal, d.literal (b.params.getD index .null) = .ok literal) ↔
      ∀ v ∈ b.params.toList, ∃ literal, d.literal v = .ok literal := by
    constructor
    · intro literals v member
      obtain ⟨index, bound, rfl⟩ := Array.getElem_of_mem (Array.mem_toList_iff.mp member)
      have used : .slot index ∈ b.parts :=
        Part.slot_mem b.parts b.numbered index (by rwa [b.counted])
      simpa [bound] using literals index used
    · intro literals index member
      have bound := b.index_lt index member
      simpa [bound] using literals b.params[index] (by simp)
  simp only [finish, Outcome.bind_eq_ok, Part.filled_eq_ok b.index_lt, used, text]
  constructor
  · intro given
    obtain ⟨sql, ⟨literals, rfl⟩, done⟩ := given
    cases done
    exact ⟨literals, rfl⟩
  · intro given
    obtain ⟨literals, rfl⟩ := given
    exact ⟨_, ⟨literals, rfl⟩, rfl⟩

theorem finish_agree (b : Buffer) (d : Dialect) :
    Outcome.Agree (fun _ _ => True) (b.finish d) (b.params.toList.mapM d.literal) := by
  have filled := Part.filled_agree d b.index_lt b.numbered
  rw [b.counted, ← Array.length_toList, List.take_length] at filled
  exact filled.bind_ok fun _ _ _ => trivial

/-- A statement fails to be finished because of one of its parameters. -/
theorem finish_eq_error {b : Buffer} {d : Dialect} {e : SqlError} (failed : b.finish d = .error e) :
    ∃ v ∈ b.params, d.literal v = .error e := by
  rcases Outcome.bind_eq_error.mp failed with unwritten | ⟨sql, _, wrong⟩
  · exact Part.filled_eq_error unwritten
  · cases wrong

theorem exists_finish {b : Buffer} {d : Dialect}
    (finite : ∀ x, .float x ∈ b.params.toList → x.isFinite = true) : ∃ s, b.finish d = .ok s := by
  cases done : b.finish d with
  | ok s => exact ⟨s, rfl⟩
  | error e =>
    obtain ⟨v, member, unwritten⟩ := finish_eq_error done
    obtain ⟨x, rfl, infinite, _⟩ := Dialect.literal_eq_error.mp unwritten
    rw [finite x (Array.mem_toList_iff.mpr member)] at infinite
    cases infinite

/-- A float that is not finite keeps a statement from being finished. -/
theorem finish_unrenderable {b : Buffer} {d : Dialect} {x : Number.Binary64}
    (member : .float x ∈ b.params.toList) (infinite : x.isFinite = false) :
    ∃ y, .float y ∈ b.params.toList ∧ y.isFinite = false ∧
      b.finish d = .error (.unrenderableValue y.text) := by
  cases done : b.finish d with
  | ok s =>
    obtain ⟨literal, written⟩ := (finish_eq_ok.mp done).1 (.float x) member
    rw [Dialect.literal_eq_error.mpr ⟨x, rfl, infinite, rfl⟩] at written
    cases written
  | error e =>
    obtain ⟨v, inside, unwritten⟩ := finish_eq_error done
    obtain ⟨y, rfl, infinite, rfl⟩ := Dialect.literal_eq_error.mp unwritten
    exact ⟨y, Array.mem_toList_iff.mpr inside, infinite, rfl⟩

end Buffer

end EntitySchema.Sql
