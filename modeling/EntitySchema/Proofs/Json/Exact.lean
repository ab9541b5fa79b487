import EntitySchema.Proofs.Json.Arrangement
import EntitySchema.Proofs.Json.Token
import EntitySchema.Proofs.Number.Numeral

/-!
JSON text read without rounding. Numbers are read as the rational numbers that their numerals stand for,
members are kept in the order in which they are written, and the text of a document is read as the
document, with every float as the value of its digits.
-/

namespace EntitySchema

open Number

/-- A document whose numbers are exact. -/
inductive ExactJson where
  | null
  | bool (b : Bool)
  | number (q : ℚ)
  | text (s : String)
  | array (items : List ExactJson)
  | object (fields : List (String × ExactJson))

namespace ExactJson

open Json

/-- A bare word, a name or a numeral. -/
def ofWord? (cs : List Char) : Option ExactJson :=
  if cs = ['n', 'u', 'l', 'l'] then some .null
  else if cs = ['t', 'r', 'u', 'e'] then some (.bool true)
  else if cs = ['f', 'a', 'l', 's', 'e'] then some (.bool false)
  else (rational? cs).map .number

/-- The characters from the first one on that is not a gap. -/
def skipGaps (cs : List Char) : List Char := cs.dropWhile Token.isGap

/-- A text up to its closing quote and the characters after it. -/
def text? : Token.Mode → List Char → Option (String × List Char)
  | _, [] => none
  | m, c :: rest =>
    match Token.step m c with
    | some ([], n) => text? n rest
    | some ([.text s], _) => some (s, rest)
    | _ => none

/-- A mark, gaps before it aside, and the characters after it. -/
def mark? (cs : List Char) : Option (Token × List Char) :=
  match skipGaps cs with
  | [] => none
  | c :: rest => (Token.mark? c).map fun t => (t, rest)

/-- The name of a member and the characters after the colon behind it. -/
def name? (cs : List Char) : Option (String × List Char) :=
  match skipGaps cs with
  | [] => none
  | c :: rest =>
    if c = '"' then do
      let (name, rest) ← text? (.text []) rest
      match mark? rest with
      | some (.colon, rest) => some (name, rest)
      | _ => none
    else none

mutual

/-- A document and the characters after it. Whatever is read takes at least one character, so as many
steps as there are characters are enough. -/
def value? : Nat → List Char → Option (ExactJson × List Char)
  | 0, _ => none
  | steps + 1, cs =>
    match skipGaps cs with
    | [] => none
    | c :: rest =>
      if c = '"' then (text? (.text []) rest).map fun (s, after) => (.text s, after)
      else
        match Token.mark? c with
        | none =>
          let word := (c :: rest).takeWhile fun d => !Token.endsWord d
          (ofWord? word).map fun j => (j, (c :: rest).drop word.length)
        | some .openArray =>
          match mark? rest with
          | some (.closeArray, after) => some (.array [], after)
          | _ => do
            let (j, rest) ← value? steps rest
            let (items, after) ← items? steps rest
            some (.array (j :: items), after)
        | some .openObject =>
          match mark? rest with
          | some (.closeObject, after) => some (.object [], after)
          | _ => do
            let (name, rest) ← name? rest
            let (j, rest) ← value? steps rest
            let (fields, after) ← fields? steps rest
            some (.object ((name, j) :: fields), after)
        | _ => none

/-- The items behind an item, up to the end of the array. -/
def items? : Nat → List Char → Option (List ExactJson × List Char)
  | 0, _ => none
  | steps + 1, cs =>
    match mark? cs with
    | some (.closeArray, after) => some ([], after)
    | some (.comma, rest) => do
      let (j, rest) ← value? steps rest
      let (items, after) ← items? steps rest
      some (j :: items, after)
    | _ => none

/-- The members behind a member, up to the end of the object. -/
def fields? : Nat → List Char → Option (List (String × ExactJson) × List Char)
  | 0, _ => none
  | steps + 1, cs =>
    match mark? cs with
    | some (.closeObject, after) => some ([], after)
    | some (.comma, rest) => do
      let (name, rest) ← name? rest
      let (j, rest) ← value? steps rest
      let (fields, after) ← fields? steps rest
      some ((name, j) :: fields, after)
    | _ => none

end

/-- Reads a text that holds one document. -/
def read? (s : String) : Option ExactJson :=
  match value? s.toList.length s.toList with
  | some (j, after) => if (skipGaps after).isEmpty then some j else none
  | none => none

end ExactJson

/-- The number as it is written. -/
def JsonNumber.exact : JsonNumber → ℚ
  | .integer i _ => i
  | .float x => Shortest.written .even x

mutual

/-- The document with its numbers as they are written. -/
def Json.exact : Json → ExactJson
  | .null => .null
  | .bool b => .bool b
  | .number n => .number n.exact
  | .text s => .text s
  | .array items => .array (exactItems items)
  | .object fields => .object (exactFields fields)

def Json.exactItems : List Json → List ExactJson
  | [] => []
  | j :: rest => j.exact :: exactItems rest

def Json.exactFields : List (String × Json) → List (String × ExactJson)
  | [] => []
  | (name, j) :: rest => (name, j.exact) :: exactFields rest

end

namespace ExactJson

open Json

theorem skipGaps_cons {c : Char} (solid : Token.isGap c = false) (rest : List Char) :
    skipGaps (c :: rest) = c :: rest :=
  List.dropWhile_cons_of_neg (by simp [solid])

theorem mark?_cons {c : Char} {t : Token} (solid : Token.isGap c = false)
    (mark : Token.mark? c = some t) (rest : List Char) : mark? (c :: rest) = some (t, rest) := by
  rw [mark?, skipGaps_cons solid]
  dsimp only
  rw [mark, Option.map_some]

theorem mark?_other {c : Char} (solid : Token.isGap c = false) (other : Token.mark? c = none)
    (rest : List Char) : mark? (c :: rest) = none := by
  rw [mark?, skipGaps_cons solid]
  dsimp only
  rw [other, Option.map_none]

theorem value?_quote (steps : Nat) (rest : List Char) : value? (steps + 1) ('"' :: rest) =
    (text? (.text []) rest).map fun (s, after) => (.text s, after) := rfl

theorem value?_openArray (steps : Nat) (rest : List Char) : value? (steps + 1) ('[' :: rest) =
    match mark? rest with
    | some (.closeArray, after) => some (.array [], after)
    | _ => (value? steps rest).bind fun (j, rest) =>
      (items? steps rest).bind fun (items, after) => some (.array (j :: items), after) := rfl

theorem value?_openObject (steps : Nat) (rest : List Char) :
    value? (steps + 1) (Char.ofNat 123 :: rest) =
      match mark? rest with
      | some (.closeObject, after) => some (.object [], after)
      | _ => (name? rest).bind fun (name, rest) => (value? steps rest).bind fun (j, rest) =>
        (fields? steps rest).bind fun (fields, after) =>
          some (.object ((name, j) :: fields), after) := rfl

theorem items?_close (steps : Nat) (rest : List Char) :
    items? (steps + 1) (']' :: rest) = some ([], rest) := rfl

theorem items?_comma (steps : Nat) (rest : List Char) : items? (steps + 1) (',' :: rest) =
    (value? steps rest).bind fun (j, rest) =>
      (items? steps rest).bind fun (items, after) => some (j :: items, after) := rfl

theorem fields?_close (steps : Nat) (rest : List Char) :
    fields? (steps + 1) (Char.ofNat 125 :: rest) = some ([], rest) := rfl

theorem fields?_comma (steps : Nat) (rest : List Char) : fields? (steps + 1) (',' :: rest) =
    (name? rest).bind fun (name, rest) => (value? steps rest).bind fun (j, rest) =>
      (fields? steps rest).bind fun (fields, after) => some ((name, j) :: fields, after) := rfl

/-! Texts and names. -/

theorem text?_passes {m n : Token.Mode} {cs : List Char} (passes : Token.Passes m cs n)
    (rest : List Char) : text? m (cs ++ rest) = text? n rest := by
  induction passes with
  | nil m => rfl
  | cons silent _ ih =>
    rw [List.cons_append, text?, silent]
    exact ih

theorem text?_body (s : String) (rest : List Char) :
    text? (.text []) (s.toList.flatMap escapeChar ++ '"' :: rest) = some (s, rest) := by
  have close : Token.step (.text s.toList.reverse) '"' = some ([.text s], .gap) := by
    rw [Token.step, if_pos rfl, List.reverse_reverse, String.ofList_toList]
  rw [text?_passes (Token.passes_body [] s.toList), List.append_nil, text?, close]

theorem quotedChars_append (s : String) (rest : List Char) :
    quotedChars s ++ rest = '"' :: (s.toList.flatMap escapeChar ++ '"' :: rest) := by
  simp [quotedChars]

theorem value?_quoted (steps : Nat) (s : String) (rest : List Char) :
    value? (steps + 1) (quotedChars s ++ rest) = some (.text s, rest) := by
  rw [quotedChars_append, value?_quote, text?_body, Option.map_some]

theorem name?_quoted (name : String) (rest : List Char) :
    name? (quotedChars name ++ ':' :: rest) = some (name, rest) := by
  rw [quotedChars_append, name?, skipGaps_cons rfl]
  dsimp only
  rw [if_pos rfl, text?_body, Option.bind_eq_bind, Option.bind_some]
  dsimp only
  rw [mark?_cons rfl rfl]

/-! Words. -/

theorem solid_of_inner {c : Char} (inner : Token.endsWord c = false) :
    Token.isGap c = false ∧ c ≠ '"' ∧ Token.mark? c = none := by
  simpa [Token.endsWord, and_assoc] using inner

theorem value?_word {cs : List Char} (nonempty : cs ≠ [])
    (inner : ∀ c ∈ cs, Token.endsWord c = false) {j : ExactJson} (word : ofWord? cs = some j)
    (steps : Nat) {rest : List Char} (boundary : Token.Boundary rest) :
    value? (steps + 1) (cs ++ rest) = some (j, rest) := by
  have whole : (cs ++ rest).takeWhile (fun d => !Token.endsWord d) = cs := by
    apply Text.takeWhile_append_of_stops
    · simpa using inner
    · simpa [Token.Boundary] using boundary
  obtain ⟨c, tail, rfl⟩ := List.exists_cons_of_ne_nil nonempty
  obtain ⟨solid, quote, mark⟩ := solid_of_inner (inner c (.head _))
  rw [List.cons_append] at whole ⊢
  rw [value?, skipGaps_cons solid]
  dsimp only
  rw [if_neg quote, mark]
  dsimp only
  rw [whole, word, Option.map_some, ← List.cons_append, List.drop_left]

theorem ofWord?_number {cs : List Char} {q : ℚ} (read : rational? cs = some q) :
    ofWord? cs = some (.number q) := by
  have noName {name : List Char} (unread : rational? name = none) : cs ≠ name := by
    rintro rfl
    rw [unread] at read
    cases read
  rw [ofWord?, if_neg (noName rfl), if_neg (noName rfl), if_neg (noName rfl), read, Option.map_some]

theorem rational?_chars (n : JsonNumber) : rational? n.chars = some n.exact := by
  cases n with
  | integer i fits => exact rational?_intChars i
  | float x => exact rational?_floatChars floatLayout x

theorem value?_number (steps : Nat) (n : JsonNumber) {rest : List Char}
    (boundary : Token.Boundary rest) :
    value? (steps + 1) (n.chars ++ rest) = some (.number n.exact, rest) := by
  have read := rational?_chars n
  apply value?_word _ (fun c member => Token.endsWord_of_isPart (n.isPart_of_mem_chars c member))
    (ofWord?_number read) steps boundary
  intro none
  rw [none] at read
  cases read

/-- The first character of a document is neither a gap nor the end of an array. -/
theorem exists_first (j : Json) : ∃ c cs, j.chars = c :: cs ∧ Token.isGap c = false ∧
    Token.mark? c ≠ some .closeArray := by
  cases j with
  | null => exact ⟨_, _, rfl, rfl, nofun⟩
  | bool b => cases b <;> exact ⟨_, _, rfl, rfl, nofun⟩
  | number n =>
    have read := rational?_chars n
    cases written : n.chars with
    | nil =>
      rw [written] at read
      cases read
    | cons c cs =>
      have part := n.isPart_of_mem_chars c (written ▸ .head cs)
      obtain ⟨solid, _, none⟩ := solid_of_inner (Token.endsWord_of_isPart part)
      exact ⟨c, cs, written, solid, by rw [none]; nofun⟩
  | text s => exact ⟨_, _, rfl, rfl, nofun⟩
  | array items => cases items <;> exact ⟨_, _, rfl, rfl, nofun⟩
  | object fields => cases fields <;> exact ⟨_, _, rfl, rfl, nofun⟩

theorem mark?_chars_ne (j : Json) (rest after : List Char) :
    mark? (j.chars ++ rest) ≠ some (.closeArray, after) := by
  obtain ⟨c, cs, first, solid, other⟩ := exists_first j
  rw [first, List.cons_append, mark?, skipGaps_cons solid]
  dsimp only
  intro closed
  obtain ⟨t, mark, pair⟩ := Option.map_eq_some_iff.mp closed
  cases pair
  exact other mark

/-! Documents part by part. -/

/-- The text of a document is read as the document, and reading ends behind it. -/
def Reads (j : Json) : Prop :=
  ∀ steps rest, j.chars.length ≤ steps → Token.Boundary rest →
    value? steps (j.chars ++ rest) = some (j.exact, rest)

theorem boundary_items (items : List Json) (rest : List Char) :
    Token.Boundary (itemsChars items ++ ']' :: rest) := by
  cases items <;> (intro c first; cases first; rfl)

theorem boundary_fields (fields : List (String × Json)) (rest : List Char) :
    Token.Boundary (fieldsChars fields ++ Char.ofNat 125 :: rest) := by
  cases fields <;> (intro c first; cases first; rfl)

theorem items?_chars {items : List Json} (each : ∀ j ∈ items, Reads j) {steps : Nat}
    (enough : (itemsChars items).length < steps) (rest : List Char) :
    items? steps (itemsChars items ++ ']' :: rest) = some (exactItems items, rest) := by
  induction items generalizing steps with
  | nil =>
    obtain ⟨steps, rfl⟩ := Nat.exists_eq_add_one.mpr (Nat.zero_lt_of_lt enough)
    exact items?_close steps rest
  | cons j items ih =>
    obtain ⟨steps, rfl⟩ := Nat.exists_eq_add_one.mpr (Nat.zero_lt_of_lt enough)
    rw [itemsChars_cons, List.length_cons, List.length_append] at enough
    have one := each j (.head _) steps _ (by omega) (boundary_items items rest)
    have others := ih (fun k member => each k (.tail _ member))
      (show (itemsChars items).length < steps by omega)
    rw [itemsChars_cons, List.cons_append, List.append_assoc, items?_comma, one, Option.bind_some]
    dsimp only
    rw [others, Option.bind_some]
    rfl

theorem fields?_chars {fields : List (String × Json)} (each : ∀ e ∈ fields, Reads e.2) {steps : Nat}
    (enough : (fieldsChars fields).length < steps) (rest : List Char) :
    fields? steps (fieldsChars fields ++ Char.ofNat 125 :: rest) =
      some (exactFields fields, rest) := by
  induction fields generalizing steps with
  | nil =>
    obtain ⟨steps, rfl⟩ := Nat.exists_eq_add_one.mpr (Nat.zero_lt_of_lt enough)
    exact fields?_close steps rest
  | cons e fields ih =>
    obtain ⟨name, j⟩ := e
    obtain ⟨steps, rfl⟩ := Nat.exists_eq_add_one.mpr (Nat.zero_lt_of_lt enough)
    rw [fieldsChars_cons] at enough ⊢
    simp only [List.length_append, List.length_cons] at enough
    have own : Reads j := each (name, j) (.head _)
    have one := own steps _ (by omega) (boundary_fields fields rest)
    have others := ih (fun e member => each e (.tail _ member))
      (show (fieldsChars fields).length < steps by omega)
    rw [List.cons_append, List.append_assoc, List.cons_append, List.append_assoc, fields?_comma, name?_quoted, Option.bind_some]
    dsimp only
    rw [one, Option.bind_some]
    dsimp only
    rw [others, Option.bind_some]
    rfl

theorem reads_of_step {j : Json} (read : ∀ steps rest, j.chars.length ≤ steps + 1 →
    Token.Boundary rest → value? (steps + 1) (j.chars ++ rest) = some (j.exact, rest)) : Reads j := by
  intro steps rest enough boundary
  obtain ⟨c, cs, first, _⟩ := exists_first j
  have some : 0 < j.chars.length := by simp [first]
  obtain ⟨steps, rfl⟩ := Nat.exists_eq_add_one.mpr (Nat.lt_of_lt_of_le some enough)
  exact read steps rest enough boundary

theorem reads_word {j : Json} (nonempty : j.chars ≠ [])
    (inner : j.chars.all (fun c => !Token.endsWord c) = true)
    (word : ofWord? j.chars = some j.exact) : Reads j :=
  reads_of_step fun steps _ _ boundary => value?_word nonempty
    (fun c member => by simpa using List.all_eq_true.mp inner c member) word steps boundary

theorem reads_array {items : List Json} (each : ∀ j ∈ items, Reads j) : Reads (.array items) := by
  apply reads_of_step
  intro steps rest enough boundary
  cases items with
  | nil => rfl
  | cons j items =>
    rw [chars_array] at enough ⊢
    simp only [List.cons_append, List.append_assoc, List.nil_append, List.length_cons,
      List.length_append] at enough ⊢
    have one := each j (.head _) steps _ (by omega) (boundary_items items rest)
    have others := items?_chars (fun k member => each k (.tail _ member))
      (show (itemsChars items).length < steps by omega) rest
    rw [value?_openArray]
    split
    · next closed => exact absurd closed (mark?_chars_ne j _ _)
    · rw [one, Option.bind_some]
      dsimp only
      rw [others, Option.bind_some]
      rfl

theorem reads_object {fields : List (String × Json)} (each : ∀ e ∈ fields, Reads e.2) :
    Reads (.object fields) := by
  apply reads_of_step
  intro steps rest enough boundary
  cases fields with
  | nil => rfl
  | cons e fields =>
    obtain ⟨name, j⟩ := e
    rw [chars_object] at enough ⊢
    simp only [List.cons_append, List.append_assoc, List.nil_append, List.length_cons,
      List.length_append] at enough ⊢
    have own : Reads j := each (name, j) (.head _)
    have one := own steps _ (by omega) (boundary_fields fields rest)
    have others := fields?_chars (fun e member => each e (.tail _ member))
      (show (fieldsChars fields).length < steps by omega) rest
    rw [value?_openObject, quotedChars_append, mark?_other rfl rfl, ← quotedChars_append]
    dsimp only
    rw [name?_quoted, Option.bind_some]
    dsimp only
    rw [one, Option.bind_some]
    dsimp only
    rw [others, Option.bind_some]
    rfl

theorem reads (j : Json) : Reads j := by
  induction j using inductionOn with
  | null => exact reads_word (List.cons_ne_nil _ _) rfl rfl
  | bool b => cases b <;> exact reads_word (List.cons_ne_nil _ _) rfl rfl
  | number n => exact reads_of_step fun steps _ _ boundary => value?_number steps n boundary
  | text s => exact reads_of_step fun steps rest _ _ => value?_quoted steps s rest
  | array items each => exact reads_array each
  | object fields each => exact reads_object each

theorem read?_render (j : Json) : read? j.render = some j.exact := by
  have done := reads j j.chars.length [] le_rfl nofun
  rw [List.append_nil] at done
  rw [read?, render, String.toList_ofList, done]
  rfl

end ExactJson

end EntitySchema
