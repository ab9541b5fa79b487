import EntitySchema.Proofs.Text.Numeral
import EntitySchema.Sql.Dialect
import Mathlib.Data.List.Basic

/-!
The tokens of SQL text. Names stand in double quotes and texts in apostrophes, a quote inside is
written twice, and a backslash has no meaning. A minus sign belongs to the number after it. Text
outside quotes that is none of these, such as a comment or a semicolon, has no tokens at all, and
neither has text that ends inside quotes. A token that is written and then read comes back.
-/

namespace EntitySchema.Sql

open Text.Numeral

inductive Token where
  | word (s : String)
  | name (s : String)
  | text (s : String)
  /-- A number as it is written, with its sign. -/
  | number (s : String)
  | placeholder (mark : Char) (index : Nat)
  | symbol (s : String)
deriving DecidableEq, Repr

namespace Token

def isGap (c : Char) : Bool := c = ' ' || c = '\n' || c = '\r' || c = '\t'

def isLetter (c : Char) : Bool := ('A' ≤ c && c ≤ 'Z') || ('a' ≤ c && c ≤ 'z') || c = '_'

def isWordChar (c : Char) : Bool := isLetter c || isDigit c

def isOperator (c : Char) : Bool := c = '=' || c = '<' || c = '>' || c = '!'

/-- The characters that are tokens on their own. -/
def isMark (c : Char) : Bool := c = '(' || c = ')' || c = ',' || c = '*'

/-- What the characters before the next one belong to; characters read so far are in reverse. -/
inductive Mode where
  | gap
  | word (read : List Char)
  | minus
  | number (read : List Char) (pointed : Bool)
  | placeholder (mark : Char) (read : List Char)
  | operator (read : List Char)
  /-- Inside the quotes of a name or a text, or behind a quote that may have closed them. -/
  | quoted (ofName : Bool) (read : List Char) (closed : Bool)

def quoteMark (ofName : Bool) : Char := if ofName then '"' else '\''

namespace Mode

/-- The mode after a character that goes on with the same token. -/
def extend? : Mode → Char → Option Mode
  | .gap, _ => none
  | .word read, c => if isWordChar c then some (.word (c :: read)) else none
  | .minus, c => if isDigit c then some (.number [c, '-'] false) else none
  | .number read pointed, c =>
    if isDigit c then some (.number (c :: read) pointed)
    else if c = '.' && !pointed then some (.number (c :: read) true)
    else none
  | .placeholder mark read, c => if isDigit c then some (.placeholder mark (c :: read)) else none
  | .operator read, c => if isOperator c then some (.operator (c :: read)) else none
  | .quoted ofName read false, c =>
    some (if c = quoteMark ofName then .quoted ofName read true
      else .quoted ofName (c :: read) false)
  | .quoted ofName read true, c =>
    if c = quoteMark ofName then some (.quoted ofName (c :: read) false) else none

/-- What has been read, if it may end here. -/
def finish? : Mode → Option (List Token)
  | .gap => some []
  | .word read => some [.word (String.ofList read.reverse)]
  | .minus => none
  | .number read _ => some [.number (String.ofList read.reverse)]
  | .placeholder mark read =>
    if read.isEmpty then none else some [.placeholder mark (value read.reverse)]
  | .operator read => some [.symbol (String.ofList read.reverse)]
  | .quoted true read true => some [.name (String.ofList read.reverse)]
  | .quoted false read true => some [.text (String.ofList read.reverse)]
  | .quoted _ _ false => none

/-- A character that does not go on with a token may stand right behind it. -/
def endsBefore : Mode → Char → Bool
  | .gap, _ => true
  | .operator _, _ => true
  | _, c => isGap c || isMark c || isOperator c

/-- The tokens that a character is, and the mode after it, where a token begins. -/
def begin? (c : Char) : Option (List Token × Mode) :=
  if isGap c then some ([], .gap)
  else if isMark c then some ([.symbol (String.ofList [c])], .gap)
  else if isLetter c then some ([], .word [c])
  else if isDigit c then some ([], .number [c] false)
  else if isOperator c then some ([], .operator [c])
  else if c = '-' then some ([], .minus)
  else if c = '$' ∨ c = '?' then some ([], .placeholder c [])
  else if c = quoteMark true then some ([], .quoted true [] false)
  else if c = quoteMark false then some ([], .quoted false [] false)
  else none

end Mode

/-- The tokens read so far, and the mode. -/
structure Lexer where
  done : List Token
  mode : Mode

namespace Lexer

def step (l : Lexer) (c : Char) : Option Lexer :=
  match l.mode.extend? c with
  | some m => some ⟨l.done, m⟩
  | none =>
    if l.mode.endsBefore c then do
      let ended ← l.mode.finish?
      let (begun, m) ← Mode.begin? c
      some ⟨l.done ++ ended ++ begun, m⟩
    else none

def run (l : Lexer) (cs : List Char) : Option Lexer := cs.foldlM step l

def finish? (l : Lexer) : Option (List Token) := l.mode.finish?.map (l.done ++ ·)

/-- All tokens, once further characters have been read. -/
def read? (l : Lexer) (cs : List Char) : Option (List Token) := (l.run cs).bind finish?

theorem run_append (l : Lexer) (first second : List Char) :
    l.run (first ++ second) = (l.run first).bind fun m => m.run second := by
  rw [run, List.foldlM_append]
  rfl

theorem run_cons (l : Lexer) (c : Char) (cs : List Char) :
    l.run (c :: cs) = (l.step c).bind fun m => m.run cs := by
  rw [run, List.foldlM_cons]
  rfl

end Lexer

def tokens? (s : String) : Option (List Token) := Lexer.read? ⟨[], .gap⟩ s.toList

/-! Writing tokens. -/

def spelling : Token → List Char
  | .word s => s.toList
  | .name s => (quoteName s).toList
  | .text s => (quoteText s).toList
  | .number s => s.toList
  | .placeholder mark index => mark :: digits index
  | .symbol s => s.toList

/-- Digits, with a point and places behind them or without. -/
def IsMagnitude (cs : List Char) : Prop :=
  ∃ whole fraction, cs = whole ++ fraction ∧ whole ≠ [] ∧ (∀ c ∈ whole, isDigit c = true) ∧
    (fraction = [] ∨ ∃ places, fraction = '.' :: places ∧ ∀ c ∈ places, isDigit c = true)

def IsNumber (cs : List Char) : Prop :=
  IsMagnitude cs ∨ ∃ magnitude, cs = '-' :: magnitude ∧ IsMagnitude magnitude

def isMarkToken : Token → Bool
  | .symbol s => s.toList.length = 1 && s.toList.all isMark
  | _ => false

def isWord (s : String) : Bool := s.toList.head?.any isLetter && s.toList.all isWordChar

/-- The token has a form in which it is read back. -/
def Proper : Token → Prop
  | .word s => isWord s = true
  | .name _ => True
  | .text _ => True
  | .number s => IsNumber s.toList
  | .placeholder mark _ => mark = '$' ∨ mark = '?'
  | .symbol s => isMarkToken (.symbol s) = true ∨ (s.toList ≠ [] ∧ s.toList.all isOperator = true)

@[simp]
theorem proper_name (s : String) : (Token.name s).Proper := trivial

@[simp]
theorem proper_text (s : String) : (Token.text s).Proper := trivial

@[simp]
theorem isMarkToken_open : isMarkToken (.symbol "(") = true := by decide

@[simp]
theorem isMarkToken_close : isMarkToken (.symbol ")") = true := by decide

@[simp]
theorem isMarkToken_comma : isMarkToken (.symbol ",") = true := by decide

@[simp]
theorem isMarkToken_star : isMarkToken (.symbol "*") = true := by decide

@[simp]
theorem isMarkToken_word (s : String) : isMarkToken (.word s) = false := rfl

@[simp]
theorem isMarkToken_name (s : String) : isMarkToken (.name s) = false := rfl

@[simp]
theorem isMarkToken_number (s : String) : isMarkToken (.number s) = false := rfl

@[simp]
theorem isMarkToken_text (s : String) : isMarkToken (.text s) = false := rfl

theorem proper_mark {s : String} (mark : isMarkToken (.symbol s) = true) :
    (Token.symbol s).Proper :=
  .inl mark

/-! Reading what was written. -/

theorem ne_of_class {p : Char → Bool} {c d : Char} (inside : p c = true) (outside : p d = false) :
    c ≠ d := by
  intro same
  subst same
  rw [inside] at outside
  cases outside

theorem isGap_of_class {p : Char → Bool} {c : Char} (inside : p c = true)
    (outside : ([' ', '\n', '\r', '\t'].all fun d => !p d) = true) : isGap c = false := by
  have other : ∀ d ∈ [' ', '\n', '\r', '\t'], c ≠ d := fun d member =>
    ne_of_class inside (by simpa using List.all_eq_true.mp outside d member)
  simp only [List.mem_cons, List.not_mem_nil, or_false, forall_eq_or_imp, forall_eq] at other
  simp [isGap, other]

theorem isMark_of_class {p : Char → Bool} {c : Char} (inside : p c = true)
    (outside : (['(', ')', ',', '*'].all fun d => !p d) = true) : isMark c = false := by
  have other : ∀ d ∈ ['(', ')', ',', '*'], c ≠ d := fun d member =>
    ne_of_class inside (by simpa using List.all_eq_true.mp outside d member)
  simp only [List.mem_cons, List.not_mem_nil, or_false, forall_eq_or_imp, forall_eq] at other
  simp [isMark, other]

namespace Mode

theorem begin?_letter {c : Char} (letter : isLetter c = true) :
    begin? c = some ([], .word [c]) := by
  have gap := isGap_of_class letter (by decide)
  have mark := isMark_of_class letter (by decide)
  simp [begin?, gap, mark, letter]

theorem begin?_digit {c : Char} (digit : isDigit c = true) :
    begin? c = some ([], .number [c] false) := by
  have gap := isGap_of_class digit (by decide)
  have mark := isMark_of_class digit (by decide)
  have letter : isLetter c = false := by
    cases letter : isLetter c with
    | false => rfl
    | true =>
      simp only [isDigit, digit?] at digit
      simp only [isLetter, Bool.or_eq_true, Bool.and_eq_true, decide_eq_true_eq] at letter
      split at digit
      · next range =>
        rcases letter with (upper | lower) | rfl
        · exact absurd (Char.le_trans upper.1 range.2) (by decide)
        · exact absurd (Char.le_trans lower.1 range.2) (by decide)
        · exact absurd range.2 (by decide)
      · cases digit
  simp [begin?, gap, mark, letter, digit]

theorem begin?_operator {c : Char} (operator : isOperator c = true) :
    begin? c = some ([], .operator [c]) := by
  simp only [isOperator, Bool.or_eq_true, decide_eq_true_eq] at operator
  rcases operator with ((rfl | rfl) | rfl) | rfl <;> rfl

theorem begin?_mark {c : Char} (mark : isMark c = true) :
    begin? c = some ([.symbol (String.ofList [c])], .gap) := by
  simp only [isMark, Bool.or_eq_true, decide_eq_true_eq] at mark
  rcases mark with ((rfl | rfl) | rfl) | rfl <;> rfl

/-- A blank or a mark goes on with no token that may end. -/
theorem extend?_of_finish? {m : Mode} {ended : List Token} {c : Char}
    (finished : m.finish? = some ended) (joint : isGap c = true ∨ isMark c = true) :
    m.extend? c = none := by
  have word : isWordChar c = false := by
    rcases joint with gap | mark
    · simp only [isGap, Bool.or_eq_true, decide_eq_true_eq] at gap
      rcases gap with ((rfl | rfl) | rfl) | rfl <;> decide
    · simp only [isMark, Bool.or_eq_true, decide_eq_true_eq] at mark
      rcases mark with ((rfl | rfl) | rfl) | rfl <;> decide
  have digit : isDigit c = false := by
    rw [isWordChar, Bool.or_eq_false_iff] at word
    exact word.2
  have others : c ≠ '.' ∧ isOperator c = false ∧ c ≠ '"' ∧ c ≠ '\'' := by
    rcases joint with gap | mark
    · simp only [isGap, Bool.or_eq_true, decide_eq_true_eq] at gap
      rcases gap with ((rfl | rfl) | rfl) | rfl <;> decide
    · simp only [isMark, Bool.or_eq_true, decide_eq_true_eq] at mark
      rcases mark with ((rfl | rfl) | rfl) | rfl <;> decide
  obtain ⟨point, operator, name, text⟩ := others
  cases m with
  | quoted ofName read closed =>
    cases closed with
    | false => simp [finish?] at finished
    | true => cases ofName <;> simp [extend?, quoteMark, name, text]
  | _ => simp_all [extend?]

theorem endsBefore_joint (m : Mode) {c : Char} (joint : isGap c = true ∨ isMark c = true) :
    m.endsBefore c = true := by
  have either : (isGap c || isMark c || isOperator c) = true := by
    rw [Bool.or_eq_true, Bool.or_eq_true]
    exact .inl joint
  cases m <;> first | rfl | exact either

end Mode

namespace Lexer

theorem step_extend {l : Lexer} {c : Char} {m : Mode} (goesOn : l.mode.extend? c = some m) :
    l.step c = some ⟨l.done, m⟩ := by
  rw [step, goesOn]

/-- A character that begins something new lets the token before it end. -/
theorem step_end {l : Lexer} {c : Char} {ended : List Token} (stops : l.mode.extend? c = none)
    (may : l.mode.endsBefore c = true) (finished : l.mode.finish? = some ended) :
    l.step c = (Mode.begin? c).map fun begun => ⟨l.done ++ ended ++ begun.1, begun.2⟩ := by
  rw [step, stops]
  simp only [may, finished, ↓reduceIte]
  cases Mode.begin? c <;> rfl

theorem step_gap {done begun : List Token} {c : Char} {m : Mode}
    (begins : Mode.begin? c = some (begun, m)) :
    step ⟨done, .gap⟩ c = some ⟨done ++ begun, m⟩ := by
  rw [step_end rfl rfl (show Mode.gap.finish? = some [] from rfl), begins, Option.map_some, List.append_nil]

/-- Before a blank or a mark, a token that may end has ended. -/
theorem step_joint {l : Lexer} {done : List Token} {c : Char} (finished : l.finish? = some done)
    (joint : isGap c = true ∨ isMark c = true) : l.step c = step ⟨done, .gap⟩ c := by
  obtain ⟨ended, mode, rfl⟩ := Option.map_eq_some_iff.mp finished
  rw [step_end (Mode.extend?_of_finish? mode joint) (Mode.endsBefore_joint _ joint) mode,
    step_end rfl rfl (show Mode.gap.finish? = some [] from rfl), List.append_nil]

theorem run_extend {p : Char → Bool} (mode : List Char → Mode) (done : List Token)
    (goesOn : ∀ read c, p c = true → (mode read).extend? c = some (mode (c :: read)))
    (read cs : List Char) (all : ∀ c ∈ cs, p c = true) :
    run ⟨done, mode read⟩ cs = some ⟨done, mode (cs.reverse ++ read)⟩ := by
  induction cs generalizing read with
  | nil => rfl
  | cons c rest ih =>
    have first : step ⟨done, mode read⟩ c = some ⟨done, mode (c :: read)⟩ :=
      step_extend (goesOn read c (all c (.head _)))
    rw [run_cons, first, Option.bind_some, ih _ fun d member => all d (.tail _ member)]
    simp

theorem run_quoted (done : List Token) (ofName : Bool) (read cs : List Char) :
    run ⟨done, .quoted ofName read false⟩
        ((cs.flatMap fun c => if c = quoteMark ofName then [quoteMark ofName, quoteMark ofName]
          else [c]) ++ [quoteMark ofName]) =
      some ⟨done, .quoted ofName (cs.reverse ++ read) true⟩ := by
  induction cs generalizing read with
  | nil => simp [run, step, Mode.extend?]
  | cons c rest ih =>
    by_cases quote : c = quoteMark ofName
    · rw [List.flatMap_cons, if_pos quote, List.append_assoc, List.cons_append, List.cons_append,
        List.nil_append, run_cons, step_extend (m := .quoted ofName read true) (by simp [Mode.extend?]),
        Option.bind_some, run_cons,
        step_extend (m := .quoted ofName (quoteMark ofName :: read) false) (by simp [Mode.extend?]),
        Option.bind_some, ih, quote]
      simp
    · rw [List.flatMap_cons, if_neg quote, List.append_assoc, List.cons_append, List.nil_append,
        run_cons, step_extend (m := .quoted ofName (c :: read) false) (by simp [Mode.extend?, quote]),
        Option.bind_some, ih]
      simp

/-- A name or a text in quotes is read in full, whatever characters it has. -/
theorem run_quote (done : List Token) (ofName : Bool) (s : String) :
    run ⟨done, .gap⟩ (quoted (quoteMark ofName) s).toList =
      some ⟨done, .quoted ofName s.toList.reverse true⟩ := by
  have begins : Mode.begin? (quoteMark ofName) = some ([], .quoted ofName [] false) := by
    cases ofName <;> rfl
  rw [quoted, String.toList_ofList, List.cons_append, run_cons, step_gap begins, Option.bind_some,
    run_quoted, List.append_nil, List.append_nil]

theorem run_magnitude (l : Lexer) (done : List Token) (read : List Char)
    (begins : ∀ c, isDigit c = true → l.step c = some ⟨done, .number (c :: read) false⟩)
    {cs : List Char} (magnitude : IsMagnitude cs) :
    ∃ pointed, l.run cs = some ⟨done, .number (cs.reverse ++ read) pointed⟩ := by
  obtain ⟨whole, fraction, rfl, nonempty, digits, places⟩ := magnitude
  have first : l.run whole = some ⟨done, .number (whole.reverse ++ read) false⟩ := by
    obtain ⟨digit, rest, rfl⟩ := List.exists_cons_of_ne_nil nonempty
    rw [run_cons, begins digit (digits digit (.head _)), Option.bind_some,
      run_extend (fun read => .number read false) done
        (fun read c digit => by simp [Mode.extend?, digit]) _ rest
        fun c member => digits c (.tail _ member)]
    simp
  rw [run_append, first, Option.bind_some]
  rcases places with rfl | ⟨places, rfl, digits⟩
  · exact ⟨false, by simp [run]⟩
  · refine ⟨true, ?_⟩
    rw [run_cons, step_extend (m := .number ('.' :: (whole.reverse ++ read)) true)
      (by simp [Mode.extend?, show isDigit '.' = false by decide]), Option.bind_some,
      run_extend (fun read => .number read true) done
        (fun read c digit => by simp [Mode.extend?, digit]) _ places digits]
    simp

theorem run_number (done : List Token) (cs : List Char) (number : IsNumber cs) :
    ∃ pointed, run ⟨done, .gap⟩ cs = some ⟨done, .number cs.reverse pointed⟩ := by
  rcases number with magnitude | ⟨magnitude, rfl, proper⟩
  · have digits := run_magnitude ⟨done, .gap⟩ done []
      (fun c digit => by rw [step_gap (Mode.begin?_digit digit), List.append_nil]) magnitude
    simpa using digits
  · obtain ⟨pointed, digits⟩ := run_magnitude ⟨done, .minus⟩ done ['-']
      (fun c digit => step_extend (by simp [Mode.extend?, digit])) proper
    refine ⟨pointed, ?_⟩
    rw [run_cons, step_gap (show Mode.begin? '-' = some ([], .minus) from rfl), Option.bind_some, List.append_nil, digits,
      List.reverse_cons]

theorem run_symbol (done : List Token) (c : Char) (cs : List Char)
    (operators : ∀ d ∈ c :: cs, isOperator d = true) :
    run ⟨done, .gap⟩ (c :: cs) = some ⟨done, .operator (c :: cs).reverse⟩ := by
  rw [run_cons, step_gap (Mode.begin?_operator (operators c (.head _))), Option.bind_some, List.append_nil,
    run_extend .operator done (fun read d operator => by simp [Mode.extend?, operator])
      _ cs fun d member => operators d (.tail _ member)]
  simp

theorem run_word (done : List Token) (c : Char) (cs : List Char) (letter : isLetter c = true)
    (others : ∀ d ∈ cs, isWordChar d = true) :
    run ⟨done, .gap⟩ (c :: cs) = some ⟨done, .word (c :: cs).reverse⟩ := by
  rw [run_cons, step_gap (Mode.begin?_letter letter), Option.bind_some, List.append_nil,
    run_extend .word done (fun read d word => by simp [Mode.extend?, word]) _ cs others]
  simp

theorem run_placeholder (done : List Token) (mark : Char) (known : mark = '$' ∨ mark = '?')
    (index : Nat) :
    run ⟨done, .gap⟩ (mark :: digits index) =
      some ⟨done, .placeholder mark (digits index).reverse⟩ := by
  have begins : Mode.begin? mark = some ([], .placeholder mark []) := by
    rcases known with rfl | rfl <;> rfl
  rw [run_cons, step_gap begins, Option.bind_some, List.append_nil,
    run_extend (.placeholder mark) done
      (fun read c digit => by simp [Mode.extend?, digit]) _ _ (isDigit_of_mem_digits index)]
  simp

theorem run_mark (done : List Token) {c : Char} (mark : isMark c = true) :
    run ⟨done, .gap⟩ [c] = some ⟨done ++ [.symbol (String.ofList [c])], .gap⟩ := by
  rw [run_cons, step_gap (Mode.begin?_mark mark)]
  rfl

end Lexer

theorem exists_mark {s : String} (mark : isMarkToken (.symbol s) = true) :
    ∃ c, s = String.ofList [c] ∧ isMark c = true := by
  simp only [isMarkToken, Bool.and_eq_true, decide_eq_true_eq] at mark
  obtain ⟨c, single⟩ := List.length_eq_one_iff.mp mark.1
  refine ⟨c, ?_, ?_⟩
  · rw [← single, String.ofList_toList]
  · simpa [single] using mark.2

/-- A proper token that is written is read back, wherever a token may begin. -/
theorem run_spelling (done : List Token) (t : Token) (proper : t.Proper) :
    ∃ l, Lexer.run ⟨done, .gap⟩ t.spelling = some l ∧ l.finish? = some (done ++ [t]) := by
  cases t with
  | word s =>
    rw [Proper, isWord, Bool.and_eq_true] at proper
    obtain ⟨first, all⟩ := proper
    cases chars : s.toList with
    | nil => simp [chars] at first
    | cons c cs =>
      rw [chars] at first all
      have word := Lexer.run_word done c cs (by simpa using first)
        fun d member => List.all_eq_true.mp all d (.tail _ member)
      refine ⟨_, by rw [spelling, chars, word], ?_⟩
      simp [Lexer.finish?, Mode.finish?, ← chars]
  | name s =>
    refine ⟨_, Lexer.run_quote done true s, ?_⟩
    simp [Lexer.finish?, Mode.finish?]
  | text s =>
    refine ⟨_, Lexer.run_quote done false s, ?_⟩
    simp [Lexer.finish?, Mode.finish?]
  | number s =>
    obtain ⟨pointed, number⟩ := Lexer.run_number done s.toList proper
    refine ⟨_, number, ?_⟩
    simp [Lexer.finish?, Mode.finish?]
  | placeholder mark index =>
    refine ⟨_, Lexer.run_placeholder done mark proper index, ?_⟩
    simp [Lexer.finish?, Mode.finish?, digits_ne_nil, value_digits]
  | symbol s =>
    rcases proper with mark | ⟨nonempty, operators⟩
    · obtain ⟨c, rfl, single⟩ := exists_mark mark
      refine ⟨_, by rw [spelling, String.toList_ofList, Lexer.run_mark done single], ?_⟩
      simp [Lexer.finish?, Mode.finish?]
    · obtain ⟨c, cs, chars⟩ := List.exists_cons_of_ne_nil nonempty
      rw [chars, List.all_eq_true] at operators
      refine ⟨_, by rw [spelling, chars, Lexer.run_symbol done c cs operators], ?_⟩
      simp [Lexer.finish?, Mode.finish?, ← chars]

end Token

end EntitySchema.Sql
