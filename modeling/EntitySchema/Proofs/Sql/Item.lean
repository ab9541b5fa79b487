import EntitySchema.Proofs.Sql.Buffer
import EntitySchema.Proofs.Sql.Token

/-!
Statements as tokens, blanks and slots. A buffer reads as items when they are its text, whatever is
written in the slots. If the items are tidy, the tokens of the text are those of the items, with one
token for each slot.
-/

namespace EntitySchema.Sql

open Token

inductive Item where
  | blank
  | token (t : Token)
  | slot (v : Value)

namespace Item

abbrev word (s : String) : Item := .token (.word s)

abbrev name (s : String) : Item := .token (.name s)

abbrev symbol (s : String) : Item := .token (.symbol s)

/-- The item needs a blank or a mark between itself and another of its kind. -/
@[simp]
def solid : Item → Bool
  | .blank => false
  | .token t => !t.isMarkToken
  | .slot _ => true

@[simp]
def Proper : Item → Prop
  | .token t => t.Proper
  | _ => True

/-- The text of items whose first slot has the number `index`. -/
def write (spell : Nat → String) (index : Nat) : List Item → String
  | [] => ""
  | .blank :: rest => " " ++ write spell index rest
  | .token t :: rest => String.ofList t.spelling ++ write spell index rest
  | .slot _ :: rest => spell index ++ write spell (index + 1) rest

/-- The tokens of items, those of slots by number. -/
def tokens (fill : Nat → Token) (index : Nat) : List Item → List Token
  | [] => []
  | .blank :: rest => tokens fill index rest
  | .token t :: rest => t :: tokens fill index rest
  | .slot _ :: rest => fill index :: tokens fill (index + 1) rest

/-- The parameters in the order of their slots. -/
def params : List Item → List Value
  | [] => []
  | .blank :: rest => params rest
  | .token _ :: rest => params rest
  | .slot v :: rest => v :: params rest

def names : List Item → List String
  | [] => []
  | .token (.name s) :: rest => s :: names rest
  | _ :: rest => names rest

def join (separator : List Item) : List (List Item) → List Item
  | [] => []
  | [is] => is
  | is :: rest => is ++ separator ++ join separator rest

theorem join_cons_cons (separator first second : List Item) (rest : List (List Item)) :
    join separator (first :: second :: rest) =
      first ++ separator ++ join separator (second :: rest) :=
  rfl

@[simp]
theorem write_append (spell : Nat → String) (index : Nat) (first second : List Item) :
    write spell index (first ++ second) =
      write spell index first ++ write spell (index + (params first).length) second := by
  induction first generalizing index with
  | nil => simp [write, params]
  | cons item rest ih =>
    cases item with
    | slot v =>
      rw [List.cons_append, write, ih, write, params, List.length_cons, String.append_assoc,
        Nat.add_assoc, Nat.add_comm 1]
    | _ => simp [write, params, ih, String.append_assoc]

@[simp]
theorem tokens_append (fill : Nat → Token) (index : Nat) (first second : List Item) :
    tokens fill index (first ++ second) =
      tokens fill index first ++ tokens fill (index + (params first).length) second := by
  induction first generalizing index with
  | nil => simp [tokens, params]
  | cons item rest ih =>
    cases item with
    | slot v =>
      rw [List.cons_append, tokens, ih, tokens, params, List.length_cons, List.cons_append,
        Nat.add_assoc, Nat.add_comm 1]
    | _ => simp [tokens, params, ih]

@[simp]
theorem params_append (first second : List Item) :
    params (first ++ second) = params first ++ params second := by
  induction first with
  | nil => rfl
  | cons item rest ih => cases item <;> simp [params, ih]

@[simp]
theorem names_append (first second : List Item) :
    names (first ++ second) = names first ++ names second := by
  induction first with
  | nil => rfl
  | cons item rest ih =>
    cases item with
    | token t => cases t <;> simp [names, ih]
    | _ => exact ih

theorem params_join {separator : List Item} (none : params separator = [])
    (iss : List (List Item)) : params (join separator iss) = iss.flatMap params := by
  induction iss with
  | nil => rfl
  | cons is rest ih =>
    cases rest with
    | nil => simp [join]
    | cons other others => simp [join_cons_cons, none, ih]

theorem names_join {separator : List Item} (none : names separator = [])
    (iss : List (List Item)) : names (join separator iss) = iss.flatMap names := by
  induction iss with
  | nil => rfl
  | cons is rest ih =>
    cases rest with
    | nil => simp [join]
    | cons other others => simp [join_cons_cons, none, ih]

theorem mem_join {separator : List Item} {iss : List (List Item)} {item : Item}
    (member : item ∈ join separator iss) : item ∈ separator ∨ ∃ is ∈ iss, item ∈ is := by
  induction iss with
  | nil => cases member
  | cons is rest ih =>
    cases rest with
    | nil => exact .inr ⟨is, .head _, member⟩
    | cons other others =>
      rw [join_cons_cons, List.mem_append, List.mem_append] at member
      rcases member with (first | between) | later
      · exact .inr ⟨is, .head _, first⟩
      · exact .inl between
      · rcases ih later with between | ⟨js, inside, found⟩
        · exact .inl between
        · exact .inr ⟨js, .tail _ inside, found⟩

theorem mem_tokens {fill : Nat → Token} {index : Nat} {is : List Item} {t : Token}
    (member : t ∈ tokens fill index is) : .token t ∈ is ∨ (params is ≠ [] ∧ ∃ i, t = fill i) := by
  induction is generalizing index with
  | nil => cases member
  | cons item rest ih =>
    cases item with
    | blank => exact (ih member).imp_left (.tail _)
    | token u =>
      rcases List.mem_cons.mp member with rfl | later
      · exact .inl (.head _)
      · exact (ih later).imp_left (.tail _)
    | slot v =>
      rcases List.mem_cons.mp member with rfl | later
      · exact .inr ⟨List.cons_ne_nil _ _, index, rfl⟩
      · rcases ih later with found | ⟨_, filled⟩
        · exact .inl (.tail _ found)
        · exact .inr ⟨List.cons_ne_nil _ _, filled⟩

/-- Numbering from `base` on is counting on from `base`. -/
theorem write_shift (spell : Nat → String) (base index : Nat) (is : List Item) :
    write (fun i => spell (base + i)) index is = write spell (base + index) is := by
  induction is generalizing index with
  | nil => rfl
  | cons item rest ih =>
    cases item with
    | slot v => rw [write, write, ih, Nat.add_assoc]
    | _ => rw [write, write, ih]

/-! Tidy items. -/

/-- No two solid items stand side by side, also not the first one behind a solid item. -/
@[simp]
def Tidy (behind : Bool) : List Item → Prop
  | [] => True
  | item :: rest => item.Proper ∧ (behind && item.solid) = false ∧ Tidy item.solid rest

/-- Whether the last item is solid; if there is none, whether these stand behind a solid item. -/
@[simp]
def ending (behind : Bool) : List Item → Bool
  | [] => behind
  | item :: rest => ending item.solid rest

@[simp]
theorem tidy_append {behind : Bool} {first second : List Item} :
    Tidy behind (first ++ second) ↔ Tidy behind first ∧ Tidy (ending behind first) second := by
  induction first generalizing behind with
  | nil => simp [Tidy, ending]
  | cons item rest ih => simp only [List.cons_append, Tidy, ending, ih, and_assoc]

@[simp]
theorem ending_append (behind : Bool) (first second : List Item) :
    ending behind (first ++ second) = ending (ending behind first) second := by
  induction first generalizing behind with
  | nil => rfl
  | cons item rest ih => exact ih item.solid

/-- Items that may stand behind a solid one may stand anywhere. -/
theorem Tidy.anywhere {is : List Item} (tidy : Tidy true is) (behind : Bool) : Tidy behind is := by
  cases is with
  | nil => trivial
  | cons item rest =>
    refine ⟨tidy.1, ?_, tidy.2.2⟩
    rw [show item.solid = false from tidy.2.1, Bool.and_false]

theorem Tidy.append {behind : Bool} {first second : List Item} (tidy : Tidy behind first)
    (after : Tidy true second) : Tidy behind (first ++ second) :=
  tidy_append.mpr ⟨tidy, after.anywhere _⟩

/-- A separator with blanks or marks at both ends keeps tidy items apart. -/
theorem tidy_join {separator : List Item} (apart : Tidy true separator)
    (open_ : ∀ behind, ending behind separator = false) {iss : List (List Item)}
    (each : ∀ is ∈ iss, Tidy false is) : Tidy false (join separator iss) := by
  induction iss with
  | nil => trivial
  | cons is rest ih =>
    cases rest with
    | nil => exact each is (.head _)
    | cons other others =>
      have later := ih fun is member => each is (.tail _ member)
      rw [join_cons_cons, tidy_append, tidy_append, ending_append, open_]
      exact ⟨⟨each is (.head _), apart.anywhere _⟩, later⟩

/-- Each slot is written as one token, which is solid. -/
def Fills (spell : Nat → String) (fill : Nat → Token) : Prop :=
  ∀ index, spell index = String.ofList (fill index).spelling ∧ (fill index).Proper ∧
    (fill index).isMarkToken = false

/-! Reading what was written. -/

theorem read?_blank {l : Lexer} {done : List Token} (finished : l.finish? = some done)
    (cs : List Char) : l.read? (' ' :: cs) = Lexer.read? ⟨done, .gap⟩ cs := by
  rw [Lexer.read?, Lexer.run_cons, Lexer.step_joint finished (.inl rfl),
    Lexer.step_gap (show Mode.begin? ' ' = some ([], .gap) from rfl), List.append_nil]
  rfl

theorem read?_mark {l : Lexer} {done : List Token} (finished : l.finish? = some done) {c : Char}
    (mark : isMark c = true) (cs : List Char) :
    l.read? (c :: cs) = Lexer.read? ⟨done ++ [.symbol (String.ofList [c])], .gap⟩ cs := by
  rw [Lexer.read?, Lexer.run_cons, Lexer.step_joint finished (.inr mark),
    Lexer.step_gap (Mode.begin?_mark mark)]
  rfl

/-- A token that is no mark leaves the lexer in some mode in which it may end. -/
theorem read?_solid (done : List Token) {t : Token} (proper : t.Proper) :
    ∃ l : Lexer, l.finish? = some (done ++ [t]) ∧
      ∀ cs, Lexer.read? ⟨done, .gap⟩ (t.spelling ++ cs) = l.read? cs := by
  obtain ⟨l, reads, ends⟩ := run_spelling done t proper
  refine ⟨l, ends, fun cs => ?_⟩
  rw [Lexer.read?, Lexer.run_append, reads]
  rfl

/-- The tokens of a tidy text follow the tokens before it; in front of a solid item, the lexer must
be between tokens. -/
theorem read?_write {spell : Nat → String} {fill : Nat → Token} (fills : Fills spell fill)
    {is : List Item} {index : Nat} {behind : Bool} (tidy : Tidy behind is) {l : Lexer}
    {done : List Token} (finished : l.finish? = some done)
    (ready : behind = false → l = ⟨done, .gap⟩) :
    l.read? (write spell index is).toList = some (done ++ tokens fill index is) := by
  induction is generalizing index behind l done with
  | nil =>
    rw [tokens, List.append_nil]
    exact finished
  | cons item rest ih =>
    obtain ⟨proper, apart, after⟩ := tidy
    -- two solid items never meet, so a token is not joined to the one before it
    have between (solid : item.solid = true) : l = ⟨done, .gap⟩ := by
      rw [solid, Bool.and_true] at apart
      exact ready apart
    cases item with
    | blank =>
      rw [write, String.toList_append, tokens]
      exact (read?_blank finished _).trans (ih after (by simp [Lexer.finish?, Mode.finish?])
        fun _ => rfl)
    | token t =>
      rw [write, String.toList_append, String.toList_ofList, tokens]
      cases mark : t.isMarkToken with
      | true =>
        cases t with
        | symbol s =>
          obtain ⟨c, rfl, single⟩ := exists_mark mark
          rw [spelling, String.toList_ofList, List.cons_append, List.nil_append,
            read?_mark finished single, ih after (by simp [Lexer.finish?, Mode.finish?])
            fun _ => rfl]
          simp
        | _ => cases mark
      | false =>
        have solid : (Item.token t).solid = true := by rw [Item.solid, mark, Bool.not_false]
        obtain ⟨next, ends, goesOn⟩ := read?_solid done proper
        rw [between solid, goesOn, ih after ends (by simp [mark])]
        simp
    | slot v =>
      obtain ⟨spelled, properFill, _⟩ := fills index
      obtain ⟨next, ends, goesOn⟩ := read?_solid done properFill
      rw [write, String.toList_append, spelled, String.toList_ofList, tokens, between rfl, goesOn,
        ih after ends (by simp [solid])]
      simp

theorem tokens?_write {spell : Nat → String} {fill : Nat → Token} (fills : Fills spell fill)
    {is : List Item} (tidy : Tidy false is) :
    tokens? (write spell 0 is) = some (tokens fill 0 is) :=
  read?_write fills tidy rfl fun _ => rfl

end Item

end EntitySchema.Sql
