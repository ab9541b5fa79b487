import EntitySchema.Toml.Scalar
import EntitySchema.Toml.Token

/-!
Reading TOML documents, version 1.0. Arrays and tables between brackets are read by descent; the
lines of the document then build its tables one by one.
-/

namespace EntitySchema.Toml

/-- Brackets and parts of a key nest at most this deep. -/
def maxDepth : Nat := 79

/-- The tokens after the blanks in front. -/
def skip : List Token → List Token
  | .blank _ :: rest => skip rest
  | ts => ts

/-- The tokens after the blanks and line ends in front. -/
def skipLines : List Token → List Token
  | .blank _ :: rest => skipLines rest
  | .newline :: rest => skipLines rest
  | ts => ts

/-- A part of a dotted key. -/
inductive KeyPart where
  | dot
  | name (cs : List Char)

def isKeyChar (c : Char) : Bool :=
  ('a' ≤ c && c ≤ 'z') || ('A' ≤ c && c ≤ 'Z') || ('0' ≤ c && c ≤ '9') || c == '_' || c == '-'

/-- The names and dots of a bare word. -/
def wordParts (cs : List Char) : List KeyPart :=
  cs.foldr
    (fun c parts =>
      if c = '.' then .dot :: parts
      else match parts with
        | .name n :: rest => .name (c :: n) :: rest
        | _ => .name [c] :: parts)
    []

/-- The parts of a key and the tokens after it. -/
def keyParts : List Token → List KeyPart × List Token
  | .blank _ :: rest => keyParts rest
  | .text s false :: rest => let (parts, after) := keyParts rest; (.name s.toList :: parts, after)
  | .word cs :: rest =>
    if cs.all (fun c => isKeyChar c || c == '.') then
      let (parts, after) := keyParts rest
      (wordParts cs ++ parts, after)
    else ([], .word cs :: rest)
  | ts => ([], ts)

/-- Names with single dots between them. -/
def names? : List KeyPart → Option (List String)
  | [.name n] => some [String.ofList n]
  | .name n :: .dot :: rest => (names? rest).map (String.ofList n :: ·)
  | _ => none

/-- A dotted key and the tokens after it. -/
def key? (ts : List Token) : Option (List String × List Token) :=
  let (parts, rest) := keyParts ts
  (names? parts).bind fun key => if key.length ≤ maxDepth then some (key, rest) else none

/-- A bare word, together with the time of day that follows a date after one blank. -/
def bare? (cs : List Char) : List Token → Option (Toml × List Token)
  | .blank [' '] :: .word time :: rest =>
    if isDate cs then (moment? (cs ++ ' ' :: time)).map (·, rest)
    else (scalar? cs).map (·, .blank [' '] :: .word time :: rest)
  | rest => (scalar? cs).map (·, rest)

mutual

/-- A value and the tokens after it. The first argument bounds the calls and the second the brackets
that may still open. -/
def value? : Nat → Nat → List Token → Option (Toml × List Token)
  | fuel + 1, depth, ts =>
    match skip ts with
    | .text s _ :: rest => some (.text s, rest)
    | .word cs :: rest => bare? cs rest
    | .mark c :: rest =>
      match depth with
      | 0 => none
      | depth + 1 =>
        if c = '[' then (items? fuel depth rest).map fun (items, after) => (.array items, after)
        else if c.toNat = 123 then
          (firstPair? fuel depth rest).map fun (entries, after) => (.table .braced entries, after)
        else none
    | _ => none
  | 0, _, _ => none

/-- The rest of an array and the tokens after it. -/
def items? : Nat → Nat → List Token → Option (List Toml × List Token)
  | fuel + 1, depth, ts =>
    match skipLines ts with
    | .mark ']' :: rest => some ([], rest)
    | found => do
      let (v, rest) ← value? fuel depth found
      match skipLines rest with
      | .mark ']' :: after => some ([v], after)
      | .mark ',' :: after =>
        let (items, after) ← items? fuel depth after
        some (v :: items, after)
      | _ => none
  | 0, _, _ => none

/-- A table after its opening brace and the tokens after it. -/
def firstPair? : Nat → Nat → List Token → Option (KeyMap Toml × List Token)
  | fuel + 1, depth, ts =>
    match skip ts with
    | .mark c :: rest => if c.toNat = 125 then some (.empty, rest) else none
    | _ => pairs? fuel depth .empty ts
  | 0, _, _ => none

/-- One more pair of a table between braces, and the rest of it. -/
def pairs? : Nat → Nat → KeyMap Toml → List Token → Option (KeyMap Toml × List Token)
  | fuel + 1, depth, entries, ts => do
    let (key, rest) ← key? ts
    match rest with
    | .mark '=' :: rest =>
      let (v, rest) ← value? fuel depth rest
      let next ← putPair entries key v
      match skip rest with
      | .mark ',' :: after => pairs? fuel depth next after
      | .mark c :: after => if c.toNat = 125 then some (next, after) else none
      | _ => none
    | _ => none
  | 0, _, _, _ => none

end

/-- The tables read so far, and the header that the next pairs belong to. -/
structure Draft where
  root : KeyMap Toml
  header : List String

namespace Draft

def empty : Draft := ⟨.empty, []⟩

def declare (d : Draft) (header : List String) : Option Draft :=
  (Toml.declare d.root header).map (⟨·, header⟩)

def declareNext (d : Draft) (header : List String) : Option Draft :=
  (Toml.declareNext d.root header).map (⟨·, header⟩)

def put (d : Draft) (key : List String) (v : Toml) : Option Draft :=
  (alterHeaded (fun _ entries => putPair entries key v) d.header d.root).map (⟨·, d.header⟩)

end Draft

/-- The tokens after the end of the line. -/
def endLine? (ts : List Token) : Option (List Token) :=
  match skip ts with
  | [] => some []
  | .newline :: rest => some rest
  | _ => none

/-- A header or a pair, with the end of its line. -/
def line? (fuel : Nat) (d : Draft) : List Token → Option (Draft × List Token)
  | .mark '[' :: .mark '[' :: rest => do
    match ← key? rest with
    | (key, .mark ']' :: .mark ']' :: after) =>
      let next ← d.declareNext key
      (endLine? after).map (next, ·)
    | _ => none
  | .mark '[' :: rest => do
    match ← key? rest with
    | (key, .mark ']' :: after) =>
      let next ← d.declare key
      (endLine? after).map (next, ·)
    | _ => none
  | ts => do
    match ← key? ts with
    | (key, .mark '=' :: rest) =>
      let (v, after) ← value? fuel maxDepth rest
      let next ← d.put key v
      (endLine? after).map (next, ·)
    | _ => none

/-- The lines of a document of at most as many lines as the first argument says. -/
def lines? (fuel : Nat) : Nat → Draft → List Token → Option Draft
  | 0, _, _ => none
  | count + 1, d, ts =>
    match skipLines ts with
    | [] => some d
    | found => do
      let (next, rest) ← line? fuel d found
      lines? fuel count next rest

/-- Reads a document, which may begin with a byte order mark. Every second call of the descent takes
a token off, and so does every line. -/
def parse? (s : String) : Option (KeyMap Toml) := do
  let cs := match s.toList with
    | '\uFEFF' :: rest => rest
    | cs => cs
  let ts ← Token.lex cs
  let d ← lines? (2 * ts.length + 2) (ts.length + 1) .empty ts
  some d.root

end EntitySchema.Toml
