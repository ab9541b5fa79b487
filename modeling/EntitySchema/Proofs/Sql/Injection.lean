import EntitySchema.Proofs.Sql.Filter
import EntitySchema.Proofs.Sql.Form
import EntitySchema.Proofs.Sql.Mask

/-!
No value gets out of its literal. Requests that differ in the contents of their values alone have the
same text with placeholders, and texts with literals that differ in the literals alone, token by
token.
-/

namespace EntitySchema.Sql

open Token

namespace Token

/-- The tokens with the empty places filled in turn. -/
def fillIn : List (Option Token) → List Token → List Token
  | [], _ => []
  | some t :: rest, fillings => t :: fillIn rest fillings
  | none :: rest, t :: fillings => t :: fillIn rest fillings
  | none :: rest, [] => fillIn rest []

end Token

namespace Item

/-- The tokens of items, with an empty place for each slot. -/
def skeleton : List Item → List (Option Token)
  | [] => []
  | .blank :: rest => skeleton rest
  | .token t :: rest => some t :: skeleton rest
  | .slot _ :: rest => none :: skeleton rest

theorem skeleton_masked (is : List Item) : skeleton (masked is) = skeleton is := by
  induction is with
  | nil => rfl
  | cons item rest ih => cases item <;> simp only [masked, skeleton, ih]

theorem count_skeleton (is : List Item) : (skeleton is).count none = (params is).length := by
  induction is with
  | nil => rfl
  | cons item rest ih => cases item <;> simp [skeleton, params, ih]

theorem tokens_eq_fillIn (fill : Nat → Token) (index : Nat) (is : List Item) :
    tokens fill index is =
      fillIn (skeleton is) ((List.range' index (params is).length).map fill) := by
  induction is generalizing index with
  | nil => rfl
  | cons item rest ih =>
    cases item with
    | blank => exact ih index
    | token t => rw [tokens, ih, skeleton, params, fillIn]
    | slot v =>
      rw [tokens, ih, skeleton, params, List.length_cons, List.range'_succ, List.map_cons, fillIn]

theorem name_of_mem {is : List Item} {n : String} (member : .token (.name n) ∈ is) :
    n ∈ names is := by
  induction is with
  | nil => cases member
  | cons item rest ih =>
    rcases List.mem_cons.mp member with rfl | later
    · exact .head _
    · have found := ih later
      cases item with
      | token t => cases t <;> first | exact .tail _ found | exact found
      | _ => exact found

end Item

/-- Both texts of the statement are the skeleton: with the placeholders in its empty places in turn,
and with the literals of the parameters. -/
structure Statement.Fills (d : Dialect) (s : Statement) (skeleton : List (Option Token)) : Prop where
  slots : skeleton.count none = s.params.length
  parameterized : tokens? s.parameterized = some (fillIn skeleton
    ((List.range s.params.length).map fun index => d.placeholderToken (index + 1)))
  sql : ∃ literals, List.Forall₂ d.IsLiteral s.params literals ∧
    tokens? s.sql = some (fillIn skeleton literals)

namespace Statement

variable {d : Dialect} {s : Statement} {is : List Item}

theorem map_literals (d : Dialect) (params : List Value) :
    (List.range params.length).map (literals d params) = params.map d.literalToken := by
  apply List.ext_getElem
  · simp
  · intro index bound _
    have inside : index < params.length := by simpa using bound
    simp [literals, inside]

theorem Reads.fills (reads : s.Reads d is) (tidy : Item.Tidy false is) :
    s.Fills d (Item.skeleton is) where
  slots := by rw [Item.count_skeleton, reads.params]
  parameterized := by
    rw [reads.tokens_parameterized tidy, Item.tokens_eq_fillIn, ← reads.params,
      ← List.range_eq_range']
    rfl
  sql := by
    refine ⟨s.params.map d.literalToken, ?_, ?_⟩
    · rw [List.forall₂_map_right_iff, List.forall₂_same]
      intro v member
      obtain ⟨text, ok⟩ := reads.rendered v member
      exact Dialect.isLiteral ok
    · rw [reads.tokens_sql tidy, Item.tokens_eq_fillIn, ← reads.params, ← List.range_eq_range',
        map_literals]

/-- A name in one of the texts is a name in the items, since a name is no operand. -/
theorem IsForm.name_of_mem {text : String} {fill : Nat → Token} (form : s.IsForm d is text fill)
    {ts : List Token} (read : tokens? text = some ts) {n : String} (member : .name n ∈ ts) :
    n ∈ Item.names is := by
  rw [form.tokens, Option.some.injEq] at read
  rw [← read] at member
  rcases Item.mem_tokens member with inside | filled
  · exact Item.name_of_mem inside
  · obtain ⟨_, i, same⟩ := filled
    have operand := form.operands i
    rw [← same] at operand
    cases operand

end Statement

namespace Compiler

variable {c : Compiler}

/-- The items of alike requests differ in the values of their slots. -/
theorem Composes.alike {first second : Request} {is js : List Item} (one : c.Composes first is)
    (two : c.Composes second js) (alike : first.masked = second.masked) :
    Item.masked is = Item.masked js := by
  cases one with
  | select _ _ filtered =>
    cases two with
    | select _ _ found =>
      rw [Request.masked, Request.masked, Request.select.injEq, SearchGraph.masked,
        SearchGraph.masked, SearchGraph.mk.injEq] at alike
      obtain ⟨fields, filter, order, limit, offset⟩ := alike
      simp only [Item.masked_append, masked_whereItems (filtered.masked filter found), fields,
        tailItems, order, limit, offset]
    | _ => cases alike
  | @filter node _ filtered =>
    cases two with
    | @filter other _ found =>
      rw [Request.masked, Request.masked, Request.filter.injEq] at alike
      have nodes : (some node).map (Tree.map Condition.masked) =
          (some other).map (Tree.map Condition.masked) := congrArg some alike
      exact congrArg Clause.items (Option.some.inj (filtered.masked nodes found))
    | _ => cases alike
  | insert checked =>
    cases two with
    | insert measured =>
      rw [Request.masked, Request.masked, Request.insert.injEq] at alike
      rw [keys_alike alike] at checked ⊢
      exact masked_insertItems ((insert_lengths checked).trans (insert_lengths measured).symm)
    | _ => cases alike
  | bulkInsert checked =>
    cases two with
    | bulkInsert measured =>
      rw [Request.masked, Request.masked, Request.bulkInsert.injEq, List.map_cons, List.map_cons,
        List.cons.injEq] at alike
      obtain ⟨head, tail⟩ := alike
      have rows := congrArg List.length tail
      rw [List.length_map, List.length_map] at rows
      rw [keys_alike head] at checked ⊢
      refine masked_insertItems ((insert_lengths checked).trans ?_)
      rw [insert_lengths measured, List.length_cons, List.length_cons, rows]
    | _ => cases alike
  | updateByKey bind =>
    cases two with
    | updateByKey bound =>
      rw [Request.masked, Request.masked, Request.updateByKey.injEq] at alike
      -- the columns of both rows come from the same keys
      have columns := bound_columns bind
      rw [keys_alike alike] at columns
      exact masked_updateItems (Outcome.results_unique columns (bound_columns bound))
    | _ => cases alike
  | deleteByEquality each =>
    cases two with
    | deleteByEquality others =>
      rw [Request.masked, Request.masked, Request.deleteByEquality.injEq] at alike
      exact masked_deleteItems (delete_alike alike each others)
    | _ => cases alike

/-- Whether there is a statement can be told without the contents of the values. -/
theorem run_eq_none {q : Request} {r : Option Statement} (ok : c.run q = .ok r) :
    r = none ↔ ∃ node, q.masked = .filter node ∧ node.leaves = [] := by
  cases q with
  | filter node =>
    rw [compileFilter_eq_none ok]
    simp [Request.masked, Tree.leaves_map]
  | _ =>
    obtain ⟨s, _, rfl⟩ := Outcome.map_eq_ok.mp ok
    simp [Request.masked]

/-- Take two requests that differ in the contents of their values alone. If both are accepted, they
have the same text with placeholders, and their texts with literals are alike but for the literals.
A text can be read off its literal, and a name in quotes is that of the table or of a column. -/
theorem run_alike (c : Compiler) (first second : Request) (r r' : Option Statement)
    (other : first ≠ .createTable) (alike : first.masked = second.masked)
    (one : c.run first = .ok r) (two : c.run second = .ok r') :
    (r = none ↔ r' = none) ∧
    ∀ s s', r = some s → r' = some s' →
      s.parameterized = s'.parameterized ∧
      (∃ skeleton, s.Fills c.dialect skeleton ∧ s'.Fills c.dialect skeleton) ∧
      ∀ text ∈ [s.parameterized, s.sql, s'.sql], ∀ ts, tokens? text = some ts →
        ∀ n, .name n ∈ ts → c.Knows n := by
  refine ⟨by rw [run_eq_none one, run_eq_none two, alike], ?_⟩
  intro s s' found found'
  subst found found'
  have others : second ≠ .createTable := by
    intro wrong
    rw [wrong] at alike
    cases first <;> first | exact other rfl | cases alike
  obtain ⟨is, composes, reads⟩ := run_composes one other
  obtain ⟨js, composes', reads'⟩ := run_composes two others
  have items := composes.alike composes' alike
  have skeletons : Item.skeleton is = Item.skeleton js := by
    rw [← Item.skeleton_masked, items, Item.skeleton_masked]
  refine ⟨?_, ⟨Item.skeleton is, reads.fills composes.tidy, ?_⟩, ?_⟩
  · rw [reads.parameterized, reads'.parameterized, ← Item.write_masked, items, Item.write_masked]
  · rw [skeletons]
    exact reads'.fills composes'.tidy
  · intro text member ts read n name
    simp only [List.mem_cons, List.not_mem_nil, or_false] at member
    rcases member with same | same | same
    · obtain ⟨fill, form⟩ := reads.isForm composes.tidy (.inl same)
      exact composes.known n (form.name_of_mem read name)
    · obtain ⟨fill, form⟩ := reads.isForm composes.tidy (.inr same)
      exact composes.known n (form.name_of_mem read name)
    · obtain ⟨fill, form⟩ := reads'.isForm composes'.tidy (.inr same)
      exact composes'.known n (form.name_of_mem read name)

unseal Text.Numeral.digits in
theorem run_alike_note :
    notes.run (.updateByKey (note "plain")) = .ok (some (noteUpdate "plain" "'plain'")) ∧
    notes.run (.updateByKey (note "' \\\" --")) =
      .ok (some (noteUpdate "' \\\" --" "''' \\\" --'")) ∧
    ∃ skeleton, (noteUpdate "plain" "'plain'").Fills .sqlite skeleton ∧
      (noteUpdate "' \\\" --" "''' \\\" --'").Fills .sqlite skeleton :=
  ⟨rfl, rfl, ((run_alike notes (.updateByKey (note "plain")) (.updateByKey (note "' \\\" --"))
    (some (noteUpdate "plain" "'plain'")) (some (noteUpdate "' \\\" --" "''' \\\" --'"))
    Request.noConfusion rfl rfl rfl).2 _ _ rfl rfl).2.1⟩

end Compiler

end EntitySchema.Sql
