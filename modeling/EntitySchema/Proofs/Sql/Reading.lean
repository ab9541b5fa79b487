import EntitySchema.Proofs.Sql.Item
import EntitySchema.Proofs.Sql.Literal

/-!
Buffers and statements as items. What an operation adds to a buffer is added to its items. The tokens
of both forms of a statement are those of its items, so the forms differ in the slots alone.
-/

namespace EntitySchema.Sql

open Token

namespace Item

/-- Items without slots that are written as `s`. -/
def Spells (s : String) (is : List Item) : Prop :=
  params is = [] ∧ ∀ spell index, write spell index is = s

theorem spells_of_params {is : List Item} (none : params is = []) :
    Spells (write (fun _ => "") 0 is) is := by
  refine ⟨none, fun spell index => ?_⟩
  generalize 0 = start
  induction is with
  | nil => rfl
  | cons item rest ih =>
    cases item with
    | blank => rw [write, write, ih none]
    | token t => rw [write, write, ih none]
    | slot v => cases none

theorem Spells.append {s t : String} {is js : List Item} (first : Spells s is)
    (second : Spells t js) : Spells (s ++ t) (is ++ js) := by
  refine ⟨by rw [params_append, first.1, second.1, List.append_nil], fun spell index => ?_⟩
  rw [write_append, first.2, second.2]

/-- Items between others that have no slots. -/
theorem write_between {front back : String} {before after : List Item} (first : Spells front before)
    (last : Spells back after) (spell : Nat → String) (is : List Item) :
    write spell 0 (before ++ is ++ after) = front ++ write spell 0 is ++ back := by
  rw [write_append, write_append, first.2, last.2, first.1, List.length_nil]

theorem params_between {front back : String} {before after : List Item} (first : Spells front before)
    (last : Spells back after) (is : List Item) : params (before ++ is ++ after) = params is := by
  rw [params_append, params_append, first.1, last.1, List.append_nil, List.nil_append]

theorem spells_token (t : Token) : Spells (String.ofList t.spelling) [.token t] :=
  ⟨rfl, fun _ _ => String.append_empty⟩

theorem spells_word (s : String) : Spells s [.word s] := by
  have written := spells_token (.word s)
  rwa [spelling, String.ofList_toList] at written

theorem spells_symbol (s : String) : Spells s [.symbol s] := by
  have written := spells_token (.symbol s)
  rwa [spelling, String.ofList_toList] at written

theorem spells_name (s : String) : Spells (quoteName s) [.name s] := by
  have written := spells_token (.name s)
  rwa [spelling, String.ofList_toList] at written

theorem spells_blank : Spells " " [.blank] := ⟨rfl, fun _ _ => rfl⟩

end Item

namespace Buffer

/-- The text of the buffer is that of the items, whatever is written in the slots, and the slots
hold its parameters. -/
structure Reads (b : Buffer) (is : List Item) : Prop where
  text : ∀ spell, b.text spell = Item.write spell 0 is
  params : b.params.toList = Item.params is

theorem reads_empty : empty.Reads [] := ⟨fun _ => rfl, rfl⟩

variable {b other : Buffer} {is js : List Item}

theorem Reads.size (reads : b.Reads is) : b.params.size = (Item.params is).length := by
  rw [← reads.params, Array.length_toList]

theorem Reads.push {s : String} (reads : b.Reads is) (spells : Item.Spells s js) :
    (b.push s).Reads (is ++ js) where
  text spell := by rw [text_push, Item.write_append, reads.text, spells.2]
  params := by rw [params_push, Item.params_append, reads.params, spells.1, List.append_nil]

theorem Reads.bind (reads : b.Reads is) (v : Value) : (b.bind v).Reads (is ++ [.slot v]) where
  text spell := by
    rw [text_bind, Item.write_append, reads.text, reads.size, Nat.zero_add]
    simp [Item.write]
  params := by
    rw [params_bind, Item.params_append, Array.toList_push, reads.params]
    rfl

theorem Reads.append (reads : b.Reads is) (others : other.Reads js) :
    (b.append other).Reads (is ++ js) where
  text spell := by
    rw [text_append, Item.write_append, reads.text, others.text, reads.size, Nat.zero_add]
    rw [Item.write_shift, Nat.add_zero]
  params := by
    rw [params_append, Item.params_append, Array.toList_append, reads.params, others.params]

/-- A buffer without parameters is finished as it is. -/
theorem Reads.finish {d : Dialect} {text : String} (reads : b.Reads is)
    (spells : Item.Spells text is) : b.finish d = .ok ⟨text, [], text⟩ := by
  have none : b.params.toList = [] := reads.params.trans spells.1
  rw [finish_eq_ok]
  refine ⟨fun v member => ?_, ?_⟩
  · rw [none] at member
    cases member
  · rw [none, reads.text, reads.text, spells.2, spells.2]

/-- Writing `x` adds these items, whatever stands before. -/
def Writes {α : Type} (write : Buffer → α → Buffer) (x : α) (js : List Item) : Prop :=
  ∀ (b : Buffer) (is : List Item), b.Reads is → (write b x).Reads (is ++ js)

theorem Reads.separated {α : Type} {write : Buffer → α → Buffer} {xs : List α}
    {jss : List (List Item)} (writes : List.Forall₂ (Writes write) xs jss) {separator : String}
    (spells : Item.Spells separator js) (reads : b.Reads is) :
    (b.separated separator write xs).Reads (is ++ Item.join js jss) := by
  induction writes generalizing b is with
  | nil =>
    rw [Item.join, List.append_nil]
    exact reads
  | cons first others ih =>
    cases others with
    | nil => exact first b is reads
    | cons second others =>
      have rest := ih ((first b is reads).push spells)
      rw [Item.join_cons_cons, ← List.append_assoc, ← List.append_assoc]
      exact rest

theorem Reads.separated_map {α : Type} (write : Buffer → α → Buffer) (items : α → List Item)
    (writes : ∀ x, Writes write x (items x)) {separator : String}
    (spells : Item.Spells separator js) (reads : b.Reads is) (xs : List α) :
    (b.separated separator write xs).Reads (is ++ Item.join js (xs.map items)) := by
  apply reads.separated _ spells
  rw [List.forall₂_map_right_iff, List.forall₂_same]
  exact fun x _ => writes x

end Buffer

namespace Statement

/-- Both forms of the statement are the text of the items. -/
structure Reads (d : Dialect) (s : Statement) (is : List Item) : Prop where
  params : s.params = Item.params is
  rendered : ∀ v ∈ s.params, ∃ literal, d.literal v = .ok literal
  parameterized : s.parameterized = Item.write (fun index => d.placeholder (index + 1)) 0 is
  sql : s.sql = Item.write (fun index => d.literalText (s.params.getD index .null)) 0 is

/-- The tokens in the slots of the form with placeholders. -/
def placeholders (d : Dialect) (index : Nat) : Token := d.placeholderToken (index + 1)

/-- The tokens in the slots of the form with literals. -/
def literals (d : Dialect) (params : List Value) (index : Nat) : Token :=
  d.literalToken (params.getD index .null)

variable {d : Dialect} {s : Statement} {is : List Item}

theorem Reads.ofBuffer {b : Buffer} (reads : b.Reads is) (ok : b.finish d = .ok s) :
    s.Reads d is := by
  obtain ⟨rendered, rfl⟩ := Buffer.finish_eq_ok.mp ok
  refine ⟨reads.params, rendered, reads.text _, ?_⟩
  simpa using reads.text _

theorem fills_placeholders (d : Dialect) :
    Item.Fills (fun index => d.placeholder (index + 1)) (placeholders d) := by
  intro index
  obtain ⟨spelled, proper⟩ := d.placeholder_token (index + 1)
  exact ⟨spelled, proper, rfl⟩

theorem fills_literals {params : List Value}
    (rendered : ∀ v ∈ params, ∃ literal, d.literal v = .ok literal) :
    Item.Fills (fun index => d.literalText (params.getD index .null)) (literals d params) := by
  intro index
  have known : ∃ literal, d.literal (params.getD index .null) = .ok literal := by
    rw [List.getD_eq_getElem?_getD]
    cases found : params[index]? with
    | none => exact ⟨"NULL", rfl⟩
    | some v => exact rendered v (List.mem_of_getElem? found)
  obtain ⟨literal, ok⟩ := known
  obtain ⟨spelled, proper⟩ := Dialect.literal_token ok
  exact ⟨(Dialect.literalText_of_ok ok).trans spelled, proper, d.literalToken_not_mark _⟩

theorem Reads.tokens_parameterized (reads : s.Reads d is) (tidy : Item.Tidy false is) :
    tokens? s.parameterized = some (Item.tokens (placeholders d) 0 is) := by
  rw [reads.parameterized]
  exact Item.tokens?_write (fills_placeholders d) tidy

theorem Reads.tokens_sql (reads : s.Reads d is) (tidy : Item.Tidy false is) :
    tokens? s.sql = some (Item.tokens (literals d s.params) 0 is) := by
  rw [reads.sql]
  exact Item.tokens?_write (fills_literals reads.rendered) tidy

end Statement

end EntitySchema.Sql
