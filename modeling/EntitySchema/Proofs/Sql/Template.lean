import EntitySchema.Proofs.Sql.Request

/-!
Both forms of a statement fill the slots of one template. The slots are nameless, so it is their
order alone that ties a placeholder and a literal to a parameter.
-/

namespace EntitySchema.Sql

/-- A piece of a template. -/
inductive Fragment where
  | sql (s : String)
  | slot
deriving DecidableEq

namespace Fragment

/-- The template with its slots filled in turn. -/
def write : List Fragment → List String → String
  | [], _ => ""
  | .sql s :: rest, fillings => s ++ write rest fillings
  | .slot :: rest, filling :: fillings => filling ++ write rest fillings
  | .slot :: _, [] => ""

theorem write_append (before after : List Fragment) (first second : List String)
    (count : before.count .slot = first.length) :
    write (before ++ after) (first ++ second) = write before first ++ write after second := by
  induction before generalizing first with
  | nil =>
    rw [List.count_nil] at count
    rw [List.eq_nil_of_length_eq_zero count.symm]
    simp [write]
  | cons fragment rest ih =>
    cases fragment with
    | sql s =>
      rw [List.count_cons_of_ne (by simp)] at count
      rw [List.cons_append, write, write, ih first count, String.append_assoc]
    | slot =>
      rw [List.count_cons_self] at count
      cases first with
      | nil => exact absurd count (by simp)
      | cons filling fillings =>
        rw [List.cons_append, List.cons_append, write, write, ih fillings (by simpa using count),
          String.append_assoc]

end Fragment

namespace Part

/-- The parts as a template, first one first. -/
def template : List Part → List Fragment
  | [] => []
  | .sql s :: before => template before ++ [.sql s]
  | .slot _ :: before => template before ++ [.slot]

theorem count_template (parts : List Part) : (template parts).count .slot = slots parts := by
  induction parts with
  | nil => rfl
  | cons part before ih =>
    cases part with
    | sql s => rw [template, List.count_append, ih]; simp [slots]
    | slot index => rw [template, List.count_append, ih]; simp [slots]

/-- With numbered slots, the text fills the template in the order of the numbers. -/
theorem text_eq_write (spell : Nat → String) (parts : List Part) (good : Numbered parts) :
    text spell parts = Fragment.write (template parts) ((List.range (slots parts)).map spell) := by
  induction parts with
  | nil => rfl
  | cons part before ih =>
    have count : (template before).count .slot = ((List.range (slots before)).map spell).length := by
      simpa using count_template before
    cases part with
    | sql s =>
      have last := Fragment.write_append _ [.sql s] _ [] count
      rw [List.append_nil] at last
      rw [text, ih good, template, slots, last]
      simp [Fragment.write]
    | slot index =>
      have last := Fragment.write_append _ [.slot] _ [spell index] count
      rw [text, ih good.2, template, slots, List.range_succ, List.map_append, ← good.1]
      rw [good.1] at last ⊢
      simpa [Fragment.write] using last.symm

end Part

/-- The literals of the parameters, in order. -/
theorem Buffer.literals_of_finish {b : Buffer} {d : Dialect}
    (ok : ∀ v ∈ b.params.toList, ∃ literal, d.literal v = .ok literal) :
    List.Forall₂ (fun v literal => d.literal v = .ok literal) b.params.toList
      (b.params.toList.map d.literalText) := by
  rw [List.forall₂_map_right_iff, List.forall₂_same]
  intro v member
  obtain ⟨literal, rendered⟩ := ok v member
  rw [rendered, Dialect.literalText_of_ok rendered]

/-- Looking the literals up by number gives them in order. -/
theorem Buffer.literals_by_number (b : Buffer) (d : Dialect) :
    ((List.range b.params.toList.length).map fun index => d.literalText (b.params.getD index .null)) =
      b.params.toList.map d.literalText := by
  apply List.ext_getElem
  · simp
  · intro index bound _
    have inside : index < b.params.size := by simpa using bound
    simp [inside]

/-- Every statement fills one template twice: with the placeholders from one to the number of its
parameters, and with the literals of its parameters. The template has a slot for each of them. -/
theorem Compiler.run_fills_template (c : Compiler) (q : Request) (s : Statement)
    (ok : c.run q = .ok (some s)) :
    ∃ (template : List Fragment) (literals : List String),
      template.count .slot = s.params.length ∧
      List.Forall₂ (fun v literal => c.dialect.literal v = .ok literal) s.params literals ∧
      s.parameterized = Fragment.write template
        ((List.range s.params.length).map fun index => c.dialect.placeholder (index + 1)) ∧
      s.sql = Fragment.write template literals := by
  obtain ⟨b, finished⟩ := run_finish ok
  obtain ⟨rendered, rfl⟩ := Buffer.finish_eq_ok.mp finished
  have size : Part.slots b.parts = b.params.toList.length := by
    rw [b.counted, Array.length_toList]
  refine ⟨Part.template b.parts, b.params.toList.map c.dialect.literalText, ?_, ?_, ?_, ?_⟩
  · rw [Part.count_template, size]
  · exact Buffer.literals_of_finish rendered
  · rw [Buffer.text, Part.text_eq_write _ _ b.numbered, size]
  · change b.text _ = _
    rw [Buffer.text, Part.text_eq_write _ _ b.numbered, size, Buffer.literals_by_number]

unseal Text.Numeral.digits in
theorem Compiler.run_fills_template_filter :
    notes.run (.filter notesFilter) = .ok (some notesFilterStatement) ∧
    ∃ (template : List Fragment) (literals : List String),
      template.count .slot = notesFilterStatement.params.length ∧
      List.Forall₂ (fun v literal => notes.dialect.literal v = .ok literal)
        notesFilterStatement.params literals ∧
      notesFilterStatement.parameterized = Fragment.write template
        ((List.range notesFilterStatement.params.length).map fun index =>
          notes.dialect.placeholder (index + 1)) ∧
      notesFilterStatement.sql = Fragment.write template literals :=
  ⟨rfl, run_fills_template notes (.filter notesFilter) notesFilterStatement rfl⟩

end EntitySchema.Sql
