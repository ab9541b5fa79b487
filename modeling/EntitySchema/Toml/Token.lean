import EntitySchema.Text.Hex

/-!
The tokens of TOML text. Quoted texts come in four forms: in quotes with escapes or in apostrophes
without, on one line or, between tripled marks, on several.
-/

namespace EntitySchema.Toml

inductive Token where
  /-- A run of blanks, or a comment. -/
  | blank (written : List Char)
  | newline
  /-- One of the characters `=`, `,`, `[`, `]` and the braces. -/
  | mark (c : Char)
  /-- A text, and whether it may have several lines. -/
  | text (s : String) (long : Bool)
  /-- A run of other characters. -/
  | word (cs : List Char)

namespace Token

def isBlank (c : Char) : Bool := c = ' ' || c = '\t'

def isMark (c : Char) : Bool :=
  c = '=' || c = ',' || c = '[' || c = ']' || c.toNat = 123 || c.toNat = 125

def isQuote (c : Char) : Bool := c = '"' || c = '\''

/-- Characters that texts and comments hold as they are: all but the control characters other than
the tabulator. -/
def isPlain (c : Char) : Bool := c = '\t' || (32 ≤ c.toNat && c.toNat ≠ 127)

def isWord (c : Char) : Bool :=
  !(isBlank c || isMark c || isQuote c || c = '\n' || c = '\r' || c = '#')

/-- The characters of a text on one line up to its closing mark, and those after the mark. -/
def cut? (quote : Char) : List Char → Option (List Char × List Char)
  | [] => none
  | '\\' :: c :: rest =>
    if quote = '"' then (cut? quote rest).map fun (body, after) => ('\\' :: c :: body, after)
    else if c = quote then some (['\\'], rest)
    else (cut? quote rest).map fun (body, after) => ('\\' :: c :: body, after)
  | c :: rest =>
    if c = quote then some ([], rest)
    else (cut? quote rest).map fun (body, after) => (c :: body, after)

/-- The characters of a text on several lines up to its three closing marks, and those after them.
Up to two marks directly in front of the closing ones belong to the text. -/
def cutLong? (quote : Char) : List Char → Option (List Char × List Char)
  | [] => none
  | c :: rest =>
    if c = quote ∧ rest.take 2 = [quote, quote] then
      let own := ((rest.drop 2).take 2).takeWhile (· == quote)
      some (own, rest.drop (2 + own.length))
    else if c = '\\' ∧ quote = '"' then
      match rest with
      | [] => none
      | d :: more => (cutLong? quote more).map fun (body, after) => ('\\' :: d :: body, after)
    else (cutLong? quote rest).map fun (body, after) => (c :: body, after)

/-- The character after a backslash that stands for one character. -/
def escaped? (c : Char) : Option Char :=
  if c = '"' ∨ c = '\\' then some c
  else if c = 'n' then some '\n'
  else if c = 'r' then some '\r'
  else if c = 't' then some '\t'
  else if c = 'b' then some (Char.ofNat 8)
  else if c = 'f' then some (Char.ofNat 12)
  else none

/-- The character whose code is written by hexadecimal digits. -/
def coded? (cs : List Char) : Option Char :=
  (Text.Hex.number? cs).bind fun n => if n.isValidChar then some (Char.ofNat n) else none

/-- A backslash in front of these characters joins the line with the next one. -/
def endsLine (cs : List Char) : Bool :=
  let rest := cs.dropWhile isBlank
  rest.head? = some '\n' || rest.take 2 = ['\r', '\n']

/-- What a text in apostrophes holds. Both forms of a line end count as one character. -/
def verbatim? (long : Bool) : List Char → Option (List Char)
  | [] => some []
  | '\r' :: '\n' :: rest => if long then (verbatim? long rest).map ('\n' :: ·) else none
  | c :: rest => if isPlain c || (long && c = '\n') then (verbatim? long rest).map (c :: ·) else none

/-- What a text in quotes holds; after a joined line, blanks and line ends are passed over. -/
def unescape? (long : Bool) : (joining : Bool) → List Char → Option (List Char)
  | _, [] => some []
  | _, '\\' :: 'u' :: a :: b :: c :: d :: rest => do
    let code ← coded? [a, b, c, d]
    (unescape? long false rest).map (code :: ·)
  | _, '\\' :: 'U' :: a :: b :: c :: d :: e :: f :: g :: h :: rest => do
    let code ← coded? [a, b, c, d, e, f, g, h]
    (unescape? long false rest).map (code :: ·)
  | joining, '\r' :: '\n' :: rest =>
    if !long then none
    else if joining then unescape? long true rest
    else (unescape? long false rest).map ('\n' :: ·)
  | _, '\\' :: c :: rest =>
    if long && endsLine (c :: rest) then unescape? long true (c :: rest)
    else do
      let e ← escaped? c
      (unescape? long false rest).map (e :: ·)
  | joining, c :: rest =>
    if joining && (isBlank c || c = '\n') then unescape? long true rest
    else if c ≠ '\\' && (isPlain c || (long && c = '\n')) then
      (unescape? long false rest).map (c :: ·)
    else none

/-- The text token of a body. -/
def ofBody? (quote : Char) (long : Bool) (body : List Char) : Option Token :=
  let held := if quote = '"' then unescape? long false body else verbatim? long body
  held.map fun cs => .text (String.ofList cs) long

/-- Drops the line end in front. -/
def dropNewline : List Char → List Char
  | '\n' :: rest => rest
  | '\r' :: '\n' :: rest => rest
  | cs => cs

/-- The text that starts after one mark. -/
def text? (quote : Char) (cs : List Char) : Option (Token × List Char) :=
  if cs.take 2 = [quote, quote] then do
    let (body, after) ← cutLong? quote (dropNewline (cs.drop 2))
    (ofBody? quote true body).map (·, after)
  else do
    let (body, after) ← cut? quote cs
    (ofBody? quote false body).map (·, after)

/-- The first token and the characters after it. -/
def next? : List Char → Option (Token × List Char)
  | [] => none
  | '\n' :: rest => some (.newline, rest)
  | '\r' :: '\n' :: rest => some (.newline, rest)
  | '\r' :: _ => none
  | '#' :: rest => some (.blank ('#' :: rest.takeWhile isPlain), rest.dropWhile isPlain)
  | c :: rest =>
    if isMark c then some (.mark c, rest)
    else if isQuote c then text? c rest
    else if isBlank c then some (.blank (c :: rest.takeWhile isBlank), rest.dropWhile isBlank)
    else some (.word (c :: rest.takeWhile isWord), rest.dropWhile isWord)

/-- The tokens of a text that has at most as many tokens as the first argument says. -/
def lexWithin : Nat → List Char → Option (List Token)
  | _, [] => some []
  | 0, _ => none
  | fuel + 1, cs => do
    let (t, rest) ← next? cs
    (lexWithin fuel rest).map (t :: ·)

/-- The tokens of a text. No token is empty, so there are at most as many as characters. -/
def lex (cs : List Char) : Option (List Token) := lexWithin cs.length cs

end Token

end EntitySchema.Toml
