import EntitySchema.Proofs.Sql.Condition

/-!
The two texts of a statement. One has placeholders in the slots, the other has the literals of the
parameters; either way an operand stands for its parameter.
-/

namespace EntitySchema.Sql

open Token

/-- The token is the literal of the value; a text is in it exactly. -/
structure Dialect.IsLiteral (d : Dialect) (v : Value) (t : Token) : Prop where
  written : ∃ text, d.literal v = .ok text ∧ tokens? text = some [t]
  exact : ∀ s, v = .text s → t = .text s

theorem Dialect.isLiteral {d : Dialect} {v : Value} {text : String} (ok : d.literal v = .ok text) :
    d.IsLiteral v (d.literalToken v) := by
  obtain ⟨spelled, proper⟩ := literal_token ok
  refine ⟨⟨text, ok, ?_⟩, fun s same => by rw [same]; rfl⟩
  have tidy : Item.Tidy false [.token (d.literalToken v)] := ⟨proper, rfl, trivial⟩
  have read := Item.tokens?_write (Statement.fills_placeholders d) tidy
  rw [spelled]
  simpa [Item.write, Item.tokens] using read

namespace Statement

variable {d : Dialect} {s : Statement} {is : List Item}

/-- In this text of the statement, the operand stands for the value. -/
def Denotes (d : Dialect) (s : Statement) (text : String) (x : Token) (v : Value) : Prop :=
  (text = s.parameterized ∧ ∃ i, s.params[i]? = some v ∧ x = d.placeholderToken (i + 1)) ∨
  (text = s.sql ∧ d.IsLiteral v x)

/-- The text is that of the items, with operands in the slots that stand for the parameters. -/
structure IsForm (d : Dialect) (s : Statement) (is : List Item) (text : String)
    (fill : Nat → Token) : Prop where
  tokens : tokens? text = some (Item.tokens fill 0 is)
  operands : IsFilling fill
  denotes : ∀ i v, s.params[i]? = some v → s.Denotes d text (fill i) v

theorem Reads.isForm_parameterized (reads : s.Reads d is) (tidy : Item.Tidy false is) :
    s.IsForm d is s.parameterized (placeholders d) where
  tokens := reads.tokens_parameterized tidy
  operands := isFilling_placeholders d
  denotes i _ slot := .inl ⟨rfl, i, slot, rfl⟩

theorem Reads.isForm_sql (reads : s.Reads d is) (tidy : Item.Tidy false is) :
    s.IsForm d is s.sql (literals d s.params) where
  tokens := reads.tokens_sql tidy
  operands := isFilling_literals d s.params
  denotes i v slot := by
    obtain ⟨text, ok⟩ := reads.rendered v (List.mem_of_getElem? slot)
    rw [literals, List.getD_eq_getElem?_getD, slot, Option.getD_some]
    exact .inr ⟨rfl, Dialect.isLiteral ok⟩

theorem Reads.isForm (reads : s.Reads d is) (tidy : Item.Tidy false is) {text : String}
    (either : text = s.parameterized ∨ text = s.sql) : ∃ fill, s.IsForm d is text fill := by
  rcases either with rfl | rfl
  · exact ⟨_, reads.isForm_parameterized tidy⟩
  · exact ⟨_, reads.isForm_sql tidy⟩

end Statement

end EntitySchema.Sql
