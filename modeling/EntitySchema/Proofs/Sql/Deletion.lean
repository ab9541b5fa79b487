import EntitySchema.Proofs.Sql.Matching
import EntitySchema.Proofs.Sql.Updating

/-!
Deletions by equality. The filter becomes a conjunction with one test for each of its entries, and the
rows that go are those that agree with every entry. A filter without entries is refused.
-/

namespace EntitySchema.Sql

open Formula

variable {α : Type}

namespace Compiler

variable {c : Compiler} {filter : Record} {s : Statement} {text : String}

/-- The row has what the entry asks for in its column: null, or the value that the column makes of it. -/
def Agrees (c : Compiler) (db : Database α) (row : Row α) (e : String × Value) : Prop :=
  if e.2.isNull then db.isNull (row e.1) = true
  else ∃ v, c.Takes e.1 e.2 v ∧ db.equal (row e.1) (db.value c.dialect v) = .yes

/-- The test of an entry in the text: whether its column is null, or equals the value that the column
makes of it. -/
inductive Tests (c : Compiler) (s : Statement) (text : String) : String × Value → Formula Atom → Prop
  | null {name : String} (takes : c.Takes name .null .null) :
    Tests c s text (name, .null) (.atom (.present name false))
  | equals {name : String} {u v : Value} {x : Token} (takes : c.Takes name u v)
    (set : v.isNull = false) (denotes : s.Denotes c.dialect text x v) :
    Tests c s text (name, u) (.atom (.compare name "=" x))

/-- The text deletes the rows that agree with every entry of the filter, and tests each entry once. -/
structure Deletes (c : Compiler) (filter : Record) (s : Statement) (text : String)
    (condition : Formula Atom) : Prop where
  command : Command.ofText? text = some (.delete c.entity.tableName condition)
  tests : ∃ fs, conjunction? fs = some condition ∧
    List.Forall₂ (c.Tests s text) filter.entries fs
  truth : ∀ (α : Type) (db : Database α) (row : Row α),
    condition.truth (db.supply c.dialect s.params) row = .yes ↔
      ∀ e ∈ filter.entries, c.Agrees db row e
  remaining : ∀ (α : Type) (db : Database α) (defaults : Row α) (rows : List (Row α)) (row : Row α),
    row ∈ (Command.delete c.entity.tableName condition).run (db.supply c.dialect s.params) defaults
        rows ↔ row ∈ rows ∧ ∃ e ∈ filter.entries, ¬c.Agrees db row e

variable {column : Column} {e : String × Value} {w : Value}

theorem tests_equality (resolved : c.resolve e.1 = .ok column) (converted : column.convert e.2 = .ok w)
    {fill : Nat → Token} {index : Nat} (slots : ∀ k v,
      (Test.equality column false w).params[k]? = some v →
        s.Denotes c.dialect text (fill (index + k)) v) :
    c.Tests s text e (Test.reading c.dialect fill (index, Test.equality column false w)) := by
  obtain ⟨name, u⟩ := e
  have takes : c.Takes name u w := ⟨column, resolve_column? resolved, converted⟩
  obtain ⟨_, rfl⟩ := resolve_eq_ok resolved
  cases null : w.isNull with
  | true =>
    obtain rfl := eq_null_of_isNull null
    obtain rfl := eq_null_of_isNull (Column.convert_isNull converted).symm
    exact .null takes
  | false =>
    rw [Test.equality, null] at slots ⊢
    exact .equals takes null (slots 0 w rfl)

theorem agrees_iff (resolved : c.resolve e.1 = .ok column) (converted : column.convert e.2 = .ok w)
    {db : Database α} {row : Row α} :
    (Test.equality column false w).truthAt c.dialect db row = .yes ↔ c.Agrees db row e := by
  have known := resolve_column? resolved
  rw [Test.truthAt_equals, Agrees, Column.convert_isNull converted, (resolve_eq_ok resolved).2]
  split
  · rfl
  · constructor
    · exact fun equal => ⟨w, ⟨column, known, converted⟩, equal⟩
    · intro given
      obtain ⟨v, ⟨other, again, made⟩, equal⟩ := given
      rw [known, Option.some.injEq] at again
      subst again
      rw [converted, Except.ok.injEq] at made
      rwa [made]

/-- The tests of a filter are equalities of columns with what they make of its entries. -/
theorem equalities_tested {tests : List Test}
    (compared : List.Forall₂ (fun e t => ∃ column, c.resolve e.1 = .ok column ∧
      comparison column .equals e.2 = .ok t) filter.entries tests) :
    List.Forall₂ (fun e t => ∃ column w, c.resolve e.1 = .ok column ∧
      column.convert e.2 = .ok w ∧ Test.equality column false w = t) filter.entries tests := by
  refine compared.imp fun e t given => ?_
  obtain ⟨column, resolved, tested⟩ := given
  have equality : comparison column (.equality false) e.2 = .ok t := tested
  obtain ⟨w, converted, same⟩ := comparison_equality.mp equality
  exact ⟨column, w, resolved, converted, same⟩

theorem deleteByEquality_deletes (ok : c.deleteByEquality filter = .ok s)
    (member : text ∈ [s.parameterized, s.sql]) : ∃ condition, c.Deletes filter s text condition := by
  obtain ⟨tests, filled, _, compared, reads⟩ := deleteByEquality_reads ok
  have each := equalities_tested compared
  have nonempty : tests ≠ [] := by
    intro none
    rw [none, List.forall₂_nil_right_iff] at each
    rw [KeyMap.isEmpty, each] at filled
    cases filled
  obtain ⟨fill, form, supplied⟩ := reads.supplied (c.tidy_deleteItems tests) member
  have params : s.params = tests.flatMap Test.params :=
    reads.params.trans (c.params_deleteItems tests)
  obtain ⟨f, parsed, read⟩ := tests_read c.dialect form.operands 0 nonempty (listed_comparisons compared)
  have truth (α : Type) (db : Database α) (row : Row α) :
      f.truth (db.supply c.dialect s.params) row = .yes ↔
        ∀ e ∈ filter.entries, c.Agrees db row e := by
    rw [truth_tests read fun k v slot => supplied α db k v (params ▸ slot)]
    refine (Outcome.forall_results (each.imp fun e t given => ?_)).symm
    obtain ⟨column, w, resolved, converted, rfl⟩ := given
    exact (agrees_iff resolved converted).symm
  refine ⟨f, ?_, ⟨_, read, ?_⟩, truth, fun α db defaults rows row => ?_⟩
  · rw [Command.ofText?, form.tokens, Option.bind_some]
    exact Command.ofTokens?_deleteItems parsed
  · have slots : ∀ x ∈ Test.numbered 0 tests, ∀ k v, x.2.params[k]? = some v →
        s.Denotes c.dialect text (fill (x.1 + k)) v :=
      fun x inside k v slot =>
        form.denotes _ v (params ▸ Test.slots_numbered [] tests x inside k v slot)
    rw [← Test.map_numbered 0 tests, List.forall₂_map_right_iff] at each
    rw [List.forall₂_map_right_iff]
    refine ((List.forall₂_and_left _ _).mpr ⟨slots, each.flip⟩).flip.imp fun e x both => ?_
    obtain ⟨i, _⟩ := x
    obtain ⟨own, column, w, resolved, converted, rfl⟩ := both
    exact tests_equality resolved converted own
  · rw [Command.run, List.mem_filter, decide_eq_true_iff, ne_eq, truth]
    simp only [not_forall, exists_prop]

/-- A filter without entries is refused. With any others, a deletion tests each entry once, and the rows
that go are those that agree with all of them. -/
theorem deletes_agreeing_rows (c : Compiler) (filter : Record) :
    (filter.entries = [] → c.deleteByEquality filter = .error .emptyDeleteFilter) ∧
    ∀ s, c.deleteByEquality filter = .ok s → filter.entries ≠ [] ∧
      ∀ text ∈ [s.parameterized, s.sql], ∃ condition, c.Deletes filter s text condition := by
  have refused : filter.entries = [] → c.deleteByEquality filter = .error .emptyDeleteFilter :=
    fun empty => if_pos (List.isEmpty_iff.mpr empty)
  refine ⟨refused, fun s ok => ⟨fun empty => ?_, fun text => deleteByEquality_deletes ok⟩⟩
  rw [refused empty] at ok
  cases ok

/-! Notes of a tenant that have no body. -/

def blankNotes : Record := ⟨[("body", .null), ("tenant", .text "t")]⟩

def blankDeletion : Statement where
  parameterized := "DELETE FROM \"notes\" WHERE \"body\" IS NULL AND \"tenant\" = ?1"
  params := [.text "t"]
  sql := "DELETE FROM \"notes\" WHERE \"body\" IS NULL AND \"tenant\" = 't'"

unseal Text.Numeral.digits in
theorem deletes_agreeing_rows_blank :
    notes.deleteByEquality ⟨[]⟩ = .error .emptyDeleteFilter ∧
    notes.deleteByEquality blankNotes = .ok blankDeletion ∧
    ∃ condition, notes.Deletes blankNotes blankDeletion blankDeletion.sql condition :=
  ⟨(deletes_agreeing_rows notes ⟨[]⟩).1 rfl, rfl,
    ((deletes_agreeing_rows notes blankNotes).2 blankDeletion rfl).2 _ (.tail _ (.head _))⟩

end Compiler

end EntitySchema.Sql
