import EntitySchema.Json.Token
import EntitySchema.Proofs.Json.Numeral
import EntitySchema.Proofs.Text.Hex

/-!
The tokens of the text that the printer writes. Marks and quoted texts end by themselves, a word
ends where a mark, a quote or a gap follows it, and so a document is cut into the tokens that it was
put together from.
-/

namespace EntitySchema.Json

/-! The characters of arrays and objects. -/

theorem chars_array (j : Json) (rest : List Json) :
    (Json.array (j :: rest)).chars = '[' :: (j.chars ++ (itemsChars rest ++ [']'])) :=
  congrArg ('[' :: ·) (List.append_assoc ..)

theorem itemsChars_cons (j : Json) (rest : List Json) :
    itemsChars (j :: rest) = ',' :: (j.chars ++ itemsChars rest) := rfl

theorem chars_object (name : String) (j : Json) (rest : List (String × Json)) :
    (Json.object ((name, j) :: rest)).chars = Char.ofNat 123 :: (quotedChars name ++
      ':' :: (j.chars ++ (fieldsChars rest ++ [Char.ofNat 125]))) := by
  simp only [chars, List.cons_append, List.append_assoc]

theorem fieldsChars_cons (name : String) (j : Json) (rest : List (String × Json)) :
    fieldsChars ((name, j) :: rest) =
      ',' :: (quotedChars name ++ ':' :: (j.chars ++ fieldsChars rest)) :=
  congrArg (',' :: ·) (List.append_assoc ..)

end EntitySchema.Json

namespace EntitySchema.Json.Token

open Text.Numeral

/-! How the characters of one token are passed over. -/

theorem lexFrom_cons (m : Mode) (c : Char) (rest : List Char) : lexFrom m (c :: rest) =
    (step m c).bind fun next => (lexFrom next.2 rest).map (next.1 ++ ·) := by
  cases m <;> rfl

theorem lexFrom_silent {m n : Mode} {c : Char} (silent : step m c = some ([], n))
    (rest : List Char) : lexFrom m (c :: rest) = lexFrom n rest := by
  rw [lexFrom_cons, silent]
  exact Option.map_id'

theorem lexFrom_gap_cons (c : Char) (rest : List Char) : lexFrom .gap (c :: rest) =
    (stepGap c).bind fun next => (lexFrom next.2 rest).map (next.1 ++ ·) :=
  lexFrom_cons .gap c rest

theorem lexFrom_mark {c : Char} {t : Token} (mark : stepGap c = some ([t], .gap))
    (rest : List Char) : lexFrom .gap (c :: rest) = (lexFrom .gap rest).map (t :: ·) := by
  rw [lexFrom_gap_cons, mark]
  rfl

/-- The characters lead from one mode to another without completing a token. -/
inductive Passes : Mode → List Char → Mode → Prop where
  | nil (m : Mode) : Passes m [] m
  | cons {m n k : Mode} {c : Char} {cs : List Char} (silent : step m c = some ([], n))
    (behind : Passes n cs k) : Passes m (c :: cs) k

theorem Passes.one {m n : Mode} {c : Char} (silent : step m c = some ([], n)) : Passes m [c] n :=
  .cons silent (.nil n)

theorem Passes.append {m n k : Mode} {cs ds : List Char} (front : Passes m cs n)
    (behind : Passes n ds k) : Passes m (cs ++ ds) k := by
  induction front with
  | nil m => exact behind
  | cons silent _ ih => exact .cons silent (ih behind)

theorem Passes.lexFrom {m n : Mode} {cs : List Char} (passes : Passes m cs n) (rest : List Char) :
    lexFrom m (cs ++ rest) = lexFrom n rest := by
  induction passes with
  | nil m => rfl
  | cons silent _ ih => exact (lexFrom_silent silent _).trans ih

/-! Texts. -/

/-- Four digits of a control character stand for it. -/
theorem passes_control (read : List Char) {n : Nat} (control : n < 32) :
    Passes (.code read none [])
      ([0, 0, n / 16, n % 16].map fun k => Text.Hex.digitChar (Fin.ofNat 16 k))
      (.text (Char.ofNat n :: read)) := by
  have digit (ds : List (Fin 16)) (few : ds.length < 3) (d : Fin 16) :
      step (.code read none ds) (Text.Hex.digitChar d) = some ([], .code read none (ds ++ [d])) := by
    rw [step, Text.Hex.digit?_digitChar]
    simp only [Option.bind_eq_bind, Option.bind_some, List.length_append, List.length_singleton]
    rw [if_pos (by omega)]
  have close : step (.code read none [0, 0, Fin.ofNat 16 (n / 16)])
      (Text.Hex.digitChar (Fin.ofNat 16 (n % 16))) = some ([], .text (Char.ofNat n :: read)) := by
    have number : Text.Hex.value [0, 0, Fin.ofNat 16 (n / 16), Fin.ofNat 16 (n % 16)] = n := by
      revert n
      decide
    rw [step, Text.Hex.digit?_digitChar]
    simp only [Option.bind_eq_bind, Option.bind_some, List.cons_append, List.nil_append, number]
    rw [if_neg (by simp), closeCode, if_neg (by omega), if_neg (by omega)]
    rfl
  exact .cons (digit [] (by decide) 0) <| .cons (digit [0] (by decide) 0) <|
    .cons (digit [0, 0] (by decide) (Fin.ofNat 16 (n / 16))) <| .one close

/-- Each character of a text is read back from the characters that stand for it. -/
theorem passes_escapeChar (read : List Char) (c : Char) :
    Passes (.text read) (escapeChar c) (.text (c :: read)) := by
  have short {d : Char} (stands : step (.escape read) d = some ([], .text (c :: read))) :
      Passes (.text read) ['\\', d] (.text (c :: read)) :=
    .cons (n := .escape read) rfl (.one stands)
  have ofCode {n : Nat} (code : c.toNat = n) : Char.ofNat n = c := code ▸ Char.ofNat_toNat c
  rw [escapeChar]
  split_ifs with quote backslash newline carriage tab back feed control
  · subst quote
    exact short rfl
  · subst backslash
    exact short rfl
  · subst newline
    exact short rfl
  · subst carriage
    exact short rfl
  · subst tab
    exact short rfl
  · refine short ?_
    rw [← ofCode back]
    rfl
  · refine short ?_
    rw [← ofCode feed]
    rfl
  · have code := passes_control read control
    rw [Char.ofNat_toNat] at code
    exact .cons (n := .escape read) rfl (.cons (n := .code read none []) rfl code)
  · have plain : step (.text read) c = some ([], .text (c :: read)) := by
      rw [step, if_neg quote, if_neg backslash, if_neg control]
    exact .one plain

theorem passes_body (read cs : List Char) :
    Passes (.text read) (cs.flatMap escapeChar) (.text (cs.reverse ++ read)) := by
  induction cs generalizing read with
  | nil => exact .nil _
  | cons c cs ih =>
    rw [List.flatMap_cons, List.reverse_cons, List.append_assoc, List.singleton_append]
    exact (passes_escapeChar read c).append (ih (c :: read))

theorem lexFrom_quoted (s : String) (rest : List Char) :
    lexFrom .gap (quotedChars s ++ rest) = (lexFrom .gap rest).map (.text s :: ·) := by
  have close : step (.text s.toList.reverse) '"' = some ([.text s], .gap) := by
    rw [step, if_pos rfl, List.reverse_reverse, String.ofList_toList]
  have body := (passes_body [] s.toList).lexFrom ('"' :: rest)
  rw [List.append_nil, lexFrom_cons, close] at body
  rw [quotedChars, List.cons_append, List.cons_append, List.append_assoc, List.singleton_append,
    lexFrom_silent (n := .text []) rfl, body]
  rfl

/-! Words. -/

/-- Characters behind which a word is over: there are none, or the first one ends it. -/
def Boundary (cs : List Char) : Prop := ∀ c ∈ cs.head?, endsWord c = true

theorem lexFrom_ended {read : List Char} {t : Token} (word : ofWord? read.reverse = some t)
    {rest : List Char} (boundary : Boundary rest) :
    lexFrom (.word read) rest = (lexFrom .gap rest).map (t :: ·) := by
  cases rest with
  | nil =>
    rw [lexFrom, lexFrom, word]
    rfl
  | cons c rest =>
    rw [lexFrom_cons, lexFrom_gap_cons, step, if_pos (boundary c rfl), word]
    cases stepGap c with
    | none => rfl
    | some next => simp [Function.comp_def]

theorem lexFrom_word {cs : List Char} (nonempty : cs ≠ []) (inner : ∀ c ∈ cs, endsWord c = false)
    {t : Token} (word : ofWord? cs = some t) {rest : List Char} (boundary : Boundary rest) :
    lexFrom .gap (cs ++ rest) = (lexFrom .gap rest).map (t :: ·) := by
  have body (cs read : List Char) (inner : ∀ c ∈ cs, endsWord c = false) :
      lexFrom (.word read) (cs ++ rest) = lexFrom (.word (cs.reverse ++ read)) rest := by
    induction cs generalizing read with
    | nil => rfl
    | cons c cs ih =>
      have goesOn : step (.word read) c = some ([], .word (c :: read)) := by
        rw [step, if_neg (by simp [inner c (.head _)])]
      rw [List.cons_append, lexFrom_silent goesOn, ih _ fun d member => inner d (.tail _ member),
        List.reverse_cons, List.append_assoc, List.singleton_append]
  cases cs with
  | nil => exact absurd rfl nonempty
  | cons c cs =>
    have starts : step .gap c = some ([], .word [c]) := by
      have none := inner c (.head _)
      simp only [endsWord, Bool.or_eq_false_iff, decide_eq_false_iff_not,
        Option.isSome_eq_false_iff, Option.isNone_iff_eq_none] at none
      rw [step, stepGap, if_neg (by simp [none.1.1]), if_neg none.1.2, none.2]
    rw [List.cons_append, lexFrom_silent starts, body cs [c] fun d member => inner d (.tail _ member)]
    refine lexFrom_ended ?_ boundary
    rw [List.reverse_append, List.reverse_reverse]
    exact word

/-- A number is a word that is not one of the names. -/
theorem ofWord?_number {cs : List Char} {n : JsonNumber} (number : JsonNumber.ofChars? cs = some n) :
    ofWord? cs = some (.number n) := by
  have noName {name : String} (unread : JsonNumber.ofChars? name.toList = none) :
      String.ofList cs ≠ name := by
    rintro rfl
    rw [String.toList_ofList, number] at unread
    cases unread
  unfold ofWord?
  split
  · next name => exact absurd name (noName rfl)
  · next name => exact absurd name (noName rfl)
  · next name => exact absurd name (noName rfl)
  · rw [number]
    rfl

/-- No character of a number ends a word. -/
theorem endsWord_of_isPart {c : Char} (part : IsPart c) : endsWord c = false := by
  rcases part with digit | other
  · obtain ⟨d, small, rfl⟩ := exists_digitChar digit
    revert d
    decide
  · simp only [List.mem_cons, List.not_mem_nil, or_false] at other
    rcases other with rfl | rfl | rfl | rfl <;> rfl

end EntitySchema.Json.Token
