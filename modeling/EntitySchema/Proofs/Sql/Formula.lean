import EntitySchema.Proofs.Sql.Token
import EntitySchema.Proofs.Sql.Tree

/-!
Predicates as SQL reads them. A formula is read from tokens one by one: NOT binds tighter than AND,
AND binds tighter than OR, and parentheses open a level of their own. What is said of one column is
an atom.
-/

namespace EntitySchema.Sql

inductive Atom where
  | present (column : String) (isSet : Bool)
  | compare (column operator : String) (operand : Token)
  | member (column : String) (negated : Bool) (operands : List Token)
  | pattern (column operator : String) (operand : Token) (escape : Option String)
deriving DecidableEq

inductive Formula (α : Type) where
  | atom (a : α)
  | not (f : Formula α)
  | pair (c : Connective) (f g : Formula α)
deriving DecidableEq

namespace Token

/-- The token can stand for a value. -/
def isOperand : Token → Bool
  | .word s => s = "NULL" || s = "TRUE" || s = "FALSE"
  | .text _ => true
  | .number _ => true
  | .placeholder _ _ => true
  | _ => false

/-- The token ends an atom that stands before it. -/
def closes (t : Token) : Bool := t = .word "AND" || t = .word "OR" || t = .symbol ")"

end Token

namespace Atom

/-- Operands with commas between them, up to a closing parenthesis at the end. -/
def operands? : List Token → Option (List Token)
  | [x, .symbol ")"] => if x.isOperand then some [x] else none
  | x :: .symbol "," :: rest => if x.isOperand then (operands? rest).map (x :: ·) else none
  | _ => none

def ofTokens? : List Token → Option Atom
  | [.name column, .word "IS", .word "NULL"] => some (.present column false)
  | [.name column, .word "IS", .word "NOT", .word "NULL"] => some (.present column true)
  | .name column :: .word "IN" :: .symbol "(" :: rest => (operands? rest).map (.member column false)
  | .name column :: .word "NOT" :: .word "IN" :: .symbol "(" :: rest =>
    (operands? rest).map (.member column true)
  | [.name column, .symbol operator, x] =>
    if x.isOperand then some (.compare column operator x) else none
  | [.name column, .word operator, x] =>
    if (operator = "LIKE" || operator = "ILIKE") && x.isOperand then
      some (.pattern column operator x none)
    else none
  | [.name column, .word operator, x, .word "ESCAPE", .text escape] =>
    if (operator = "LIKE" || operator = "ILIKE") && x.isOperand then
      some (.pattern column operator x (some escape))
    else none
  | _ => none

end Atom

namespace Formula

variable {α β : Type}

def atoms : Formula α → List α
  | .atom a => [a]
  | .not f => atoms f
  | .pair _ f g => atoms f ++ atoms g

def map (h : α → β) : Formula α → Formula β
  | .atom a => .atom (h a)
  | .not f => .not (map h f)
  | .pair c f g => .pair c (map h f) (map h g)

def value : Formula Truth → Truth
  | .atom t => t
  | .not f => (value f).not
  | .pair c f g => c.apply (value f) (value g)

/-- Adds a formula behind others, if there are any. -/
def combine (c : Connective) : Option (Formula α) → Formula α → Formula α
  | none, f => f
  | some e, f => .pair c e f

def negated : Nat → Formula α → Formula α
  | 0, f => f
  | n + 1, f => negated n (.not f)

/-- What has been read of one level of parentheses: the alternatives before the last OR, the factors
behind it, and the negations before the next operand. -/
structure Level where
  alternatives : Option (Formula Atom)
  factors : Option (Formula Atom)
  negations : Nat

namespace Level

def empty : Level := ⟨none, none, 0⟩

def negate (l : Level) : Level := { l with negations := l.negations + 1 }

def take (l : Level) (f : Formula Atom) : Level where
  alternatives := l.alternatives
  factors := some (combine .and l.factors (negated l.negations f))
  negations := 0

def split? (l : Level) : Option Level :=
  l.factors.map fun f => ⟨some (combine .or l.alternatives f), none, 0⟩

def finish? (l : Level) : Option (Formula Atom) := l.factors.map (combine .or l.alternatives)

end Level

/-- Whether an operand comes next, is being read or has been read; its tokens are in reverse, and it
may have parentheses of its own. -/
inductive Phase where
  | before
  | within (read : List Token) (depth : Nat)
  | behind

structure Parser where
  level : Level
  outer : List Level
  phase : Phase

namespace Parser

def connect (p : Parser) : Token → Option Parser
  | .word "AND" => some { p with phase := .before }
  | .word "OR" => p.level.split?.map fun l => { p with level := l, phase := .before }
  | .symbol ")" =>
    match p.outer with
    | [] => none
    | parent :: rest => p.level.finish?.map fun f => ⟨parent.take f, rest, .behind⟩
  | _ => none

def start (p : Parser) : Token → Option Parser
  | .word "NOT" => some { p with level := p.level.negate }
  | .symbol "(" => some ⟨.empty, p.level :: p.outer, .before⟩
  | .name column => some { p with phase := .within [.name column] 0 }
  | _ => none

def settle? (p : Parser) : Option Parser :=
  match p.phase with
  | .before => none
  | .within read 0 =>
    (Atom.ofTokens? read.reverse).map fun a => { p with level := p.level.take (.atom a), phase := .behind }
  | .within _ (_ + 1) => none
  | .behind => some p

def depthAfter (depth : Nat) (t : Token) : Nat :=
  if t = .symbol "(" then depth + 1 else if t = .symbol ")" then depth - 1 else depth

def step (p : Parser) (t : Token) : Option Parser :=
  match p.phase with
  | .before => p.start t
  | .within read depth =>
    if depth = 0 && t.closes then p.settle?.bind fun q => q.connect t
    else some { p with phase := .within (t :: read) (depthAfter depth t) }
  | .behind => p.connect t

def run (p : Parser) (ts : List Token) : Option Parser := ts.foldlM step p

/-- The formula, if all parentheses are closed. -/
def finish? (p : Parser) : Option (Formula Atom) :=
  p.settle?.bind fun q => if q.outer.isEmpty then q.level.finish? else none

theorem run_append (p : Parser) (first second : List Token) :
    p.run (first ++ second) = (p.run first).bind fun q => q.run second := by
  rw [run, List.foldlM_append]
  rfl

theorem run_cons (p : Parser) (t : Token) (ts : List Token) :
    p.run (t :: ts) = (p.step t).bind fun q => q.run ts := by
  rw [run, List.foldlM_cons]
  rfl

end Parser

def parse? (ts : List Token) : Option (Formula Atom) :=
  (Parser.run ⟨.empty, [], .before⟩ ts).bind Parser.finish?

/-! Reading operands and chains of operands. -/

/-- Wherever an operand is due, the tokens are read as this formula. -/
def IsOperand (ts : List Token) (f : Formula Atom) : Prop :=
  ∀ level outer, ∃ p, Parser.run ⟨level, outer, .before⟩ ts = some p ∧
    p.settle? = some ⟨level.take f, outer, .behind⟩

/-- Behind an opening parenthesis, the tokens are read as this formula. -/
def IsWhole (ts : List Token) (f : Formula Atom) : Prop :=
  ∀ outer, ∃ p level, Parser.run ⟨.empty, outer, .before⟩ ts = some p ∧
    p.settle? = some ⟨level, outer, .behind⟩ ∧ level.finish? = some f

theorem IsOperand.whole {ts : List Token} {f : Formula Atom} (operand : IsOperand ts f) :
    IsWhole ts f := by
  intro outer
  obtain ⟨p, reads, settled⟩ := operand .empty outer
  exact ⟨p, _, reads, settled, rfl⟩

theorem IsWhole.parse {ts : List Token} {f : Formula Atom} (whole : IsWhole ts f) :
    parse? ts = some f := by
  obtain ⟨p, level, reads, settled, finished⟩ := whole []
  rw [parse?, reads, Option.bind_some, Parser.finish?, settled, Option.bind_some]
  exact finished

theorem IsOperand.not {ts : List Token} {f : Formula Atom} (operand : IsOperand ts f) :
    IsOperand (.word "NOT" :: ts) (.not f) := fun level outer => operand level.negate outer

theorem Parser.step_closes {p q : Parser} {t : Token} (settled : p.settle? = some q)
    (closes : t.closes = true) : p.step t = q.connect t := by
  obtain ⟨level, outer, phase⟩ := p
  cases phase with
  | before => cases settled
  | within read depth =>
    cases depth with
    | zero => simp only [step, closes, settled, decide_true, Bool.and_true, if_true, Option.bind_some]
    | succ depth => cases settled
  | behind =>
    cases settled
    rfl

theorem IsWhole.parenthesised {ts : List Token} {f : Formula Atom} (whole : IsWhole ts f) :
    IsOperand (.symbol "(" :: ts ++ [.symbol ")"]) f := by
  intro level outer
  obtain ⟨p, inner, reads, settled, finished⟩ := whole (level :: outer)
  refine ⟨⟨level.take f, outer, .behind⟩, ?_, rfl⟩
  have opened : Parser.step ⟨level, outer, .before⟩ (.symbol "(") =
      some ⟨.empty, level :: outer, .before⟩ := rfl
  have closed : p.step (.symbol ")") = some ⟨level.take f, outer, .behind⟩ := by
    rw [Parser.step_closes settled (by decide), Parser.connect, finished]
    rfl
  rw [List.cons_append, Parser.run_cons, opened, Option.bind_some, Parser.run_append, reads,
    Option.bind_some, Parser.run_cons, closed]
  rfl

namespace Level

/-- The level behind a connective, with what stands before it, or at the start. -/
def waiting (c : Connective) : Option (Formula Atom) → Level
  | none => empty
  | some f =>
    match c with
    | .and => ⟨none, some f, 0⟩
    | .or => ⟨some f, none, 0⟩

theorem finish?_take_waiting (c : Connective) (before : Option (Formula Atom)) (f : Formula Atom) :
    ((waiting c before).take f).finish? = some (combine c before f) := by
  cases before <;> cases c <;> rfl

theorem connect_take_waiting (c : Connective) (before : Option (Formula Atom)) (f : Formula Atom)
    (outer : List Level) :
    Parser.connect ⟨(waiting c before).take f, outer, .behind⟩ (.word c.word) =
      some ⟨waiting c (some (combine c before f)), outer, .before⟩ := by
  cases before <;> cases c <;> rfl

end Level

/-- Operands with the same connective between each two. -/
def joined (c : Connective) : List (List Token) → List Token
  | [] => []
  | [ts] => ts
  | ts :: rest => ts ++ .word c.word :: joined c rest

theorem joined_cons_cons (c : Connective) (first second : List Token) (rest : List (List Token)) :
    joined c (first :: second :: rest) = first ++ .word c.word :: joined c (second :: rest) :=
  rfl

/-- A chain of operands, from the first one that is due. -/
theorem run_joined (c : Connective) (before : Option (Formula Atom)) (outer : List Level)
    (first : List Token × Formula Atom) (rest : List (List Token × Formula Atom))
    (operands : ∀ x ∈ first :: rest, IsOperand x.1 x.2) :
    ∃ p level, Parser.run ⟨.waiting c before, outer, .before⟩
        (joined c ((first :: rest).map Prod.fst)) = some p ∧
      p.settle? = some ⟨level, outer, .behind⟩ ∧
      level.finish? = some ((rest.map Prod.snd).foldl (.pair c) (combine c before first.2)) := by
  induction rest generalizing before first with
  | nil =>
    obtain ⟨p, reads, settled⟩ := operands first (.head _) (.waiting c before) outer
    exact ⟨p, _, reads, settled, Level.finish?_take_waiting c before first.2⟩
  | cons second rest ih =>
    obtain ⟨p, reads, settled⟩ := operands first (.head _) (.waiting c before) outer
    obtain ⟨q, level, goesOn, ends, finished⟩ := ih (some (combine c before first.2)) second
      fun x member => operands x (.tail _ member)
    refine ⟨q, level, ?_, ends, finished⟩
    have closes : (Token.word c.word).closes = true := by cases c <;> decide
    rw [List.map_cons, List.map_cons, joined_cons_cons, Parser.run_append, reads, Option.bind_some,
      Parser.run_cons, Parser.step_closes settled closes, Level.connect_take_waiting,
      Option.bind_some]
    exact goesOn

theorem whole_joined (c : Connective) (first : List Token × Formula Atom)
    (rest : List (List Token × Formula Atom))
    (operands : ∀ x ∈ first :: rest, IsOperand x.1 x.2) :
    IsWhole (joined c ((first :: rest).map Prod.fst))
      ((rest.map Prod.snd).foldl (.pair c) first.2) :=
  fun outer => run_joined c none outer first rest operands

example : (Token.tokens? "\"a\" = 1 OR \"b\" = 2 AND NOT \"c\" = 3").bind parse? =
    some (.pair .or (.atom (.compare "a" "=" (.number "1")))
      (.pair .and (.atom (.compare "b" "=" (.number "2")))
        (.not (.atom (.compare "c" "=" (.number "3")))))) := by
  rfl

/-! Reading atoms. -/

theorem Parser.settle?_within (level : Level) (outer : List Level) (read : List Token) :
    settle? ⟨level, outer, .within read 0⟩ =
      (Atom.ofTokens? read.reverse).map fun a => ⟨level.take (.atom a), outer, .behind⟩ :=
  rfl

/-- The token neither ends an atom nor has to do with parentheses. -/
def isPlain (t : Token) : Bool := !t.closes && t ≠ .symbol "("

theorem Parser.run_plain (level : Level) (outer : List Level) (read : List Token) (depth : Nat)
    {ts : List Token} (plain : ∀ t ∈ ts, isPlain t = true) :
    Parser.run ⟨level, outer, .within read depth⟩ ts =
      some ⟨level, outer, .within (ts.reverse ++ read) depth⟩ := by
  induction ts generalizing read with
  | nil => rfl
  | cons t rest ih =>
    have first := plain t (.head _)
    simp only [isPlain, Bool.and_eq_true, Bool.not_eq_true', decide_eq_true_eq] at first
    obtain ⟨closes, opens⟩ := first
    have close : t ≠ .symbol ")" := by
      intro same
      subst same
      exact absurd closes (by decide)
    have goesOn : Parser.step ⟨level, outer, .within read depth⟩ t =
        some ⟨level, outer, .within (t :: read) depth⟩ := by
      simp [step, closes, depthAfter, opens, close]
    rw [run_cons, goesOn, Option.bind_some, ih _ fun u member => plain u (.tail _ member)]
    simp

/-- Tokens that are an atom, without parentheses. -/
theorem operand_plain {column : String} (ts : List Token) {a : Atom}
    (plain : ∀ t ∈ ts, isPlain t = true) (known : Atom.ofTokens? (.name column :: ts) = some a) :
    IsOperand (.name column :: ts) (.atom a) := by
  intro level outer
  refine ⟨⟨level, outer, .within (ts.reverse ++ [.name column]) 0⟩, ?_, ?_⟩
  · exact Parser.run_plain level outer [.name column] 0 plain
  · rw [Parser.settle?_within, List.reverse_append, List.reverse_reverse]
    exact congrArg (Option.map _) known

/-- Tokens that are an atom with a list in parentheses at the end. -/
theorem operand_listed (column : String) (front : List Token) {list : List Token} {a : Atom}
    (plain : ∀ t ∈ front, isPlain t = true) (listed : ∀ t ∈ list, isPlain t = true)
    (known : Atom.ofTokens? (.name column :: front ++ .symbol "(" :: list ++ [.symbol ")"]) = some a) :
    IsOperand (.name column :: front ++ .symbol "(" :: list ++ [.symbol ")"]) (.atom a) := by
  intro level outer
  have opened (read : List Token) : Parser.step ⟨level, outer, .within read 0⟩ (.symbol "(") =
      some ⟨level, outer, .within (.symbol "(" :: read) 1⟩ := rfl
  have closed (read : List Token) : Parser.step ⟨level, outer, .within read 1⟩ (.symbol ")") =
      some ⟨level, outer, .within (.symbol ")" :: read) 0⟩ := rfl
  refine ⟨⟨level, outer, .within (.symbol ")" :: (list.reverse ++
    .symbol "(" :: (front.reverse ++ [.name column]))) 0⟩, ?_, ?_⟩
  · have begun : Parser.step ⟨level, outer, .before⟩ (.name column) =
        some ⟨level, outer, .within [.name column] 0⟩ := rfl
    rw [List.append_assoc, List.cons_append, Parser.run_cons, begun, Option.bind_some,
      Parser.run_append, Parser.run_plain level outer _ 0 plain, Option.bind_some, List.cons_append,
      Parser.run_cons, opened, Option.bind_some, Parser.run_append,
      Parser.run_plain level outer _ 1 listed, Option.bind_some, Parser.run_cons, closed]
    rfl
  · rw [Parser.settle?_within]
    have forwards : (Token.symbol ")" :: (list.reverse ++
        .symbol "(" :: (front.reverse ++ [.name column]))).reverse =
        .name column :: front ++ .symbol "(" :: list ++ [.symbol ")"] := by simp
    rw [forwards, known, Option.map_some]

theorem isPlain_operand {t : Token} (operand : t.isOperand = true) : isPlain t = true := by
  cases t with
  | word s =>
    simp only [Token.isOperand, Bool.or_eq_true, decide_eq_true_eq] at operand
    rcases operand with (rfl | rfl) | rfl <;> decide
  | name s => cases operand
  | symbol s => cases operand
  | text s => simp [isPlain, Token.closes]
  | number s => simp [isPlain, Token.closes]
  | placeholder mark index => simp [isPlain, Token.closes]

end Formula

end EntitySchema.Sql
