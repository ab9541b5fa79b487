import EntitySchema.Json.Reader
import EntitySchema.Proofs.Json.Token
import EntitySchema.Proofs.Json.Arrangement

/-!
Reading what was printed. The text of a document is cut into its tokens, and these drive the reader
through the document part by part, to any depth, so that it ends with the document itself, the
members of its objects by name. Whatever else a reader is given, it only ever holds documents whose
members are sorted by name.
-/

namespace EntitySchema.Json

/-- Every float in the document is read back from its text. -/
inductive Legible : Json → Prop where
  | null : Legible .null
  | bool (b : Bool) : Legible (.bool b)
  | integer (i : Int) (fits : WordSized i) : Legible (.number (.integer i fits))
  | float {x : Number.FiniteBinary .double}
    (read : JsonNumber.ofChars? (floatLayout.chars x) = some (.float x)) : Legible (.number (.float x))
  | text (s : String) : Legible (.text s)
  | array {items : List Json} (inner : ∀ j ∈ items, Legible j) : Legible (.array items)
  | object {fields : List (String × Json)} (inner : ∀ e ∈ fields, Legible e.2) :
    Legible (.object fields)

mutual

def tokens : Json → List Token
  | .null => [.null]
  | .bool b => [.bool b]
  | .number n => [.number n]
  | .text s => [.text s]
  | .array [] => [.openArray, .closeArray]
  | .array (j :: rest) => .openArray :: j.tokens ++ itemsTokens rest
  | .object [] => [.openObject, .closeObject]
  | .object ((name, j) :: rest) =>
    .openObject :: .text name :: .colon :: j.tokens ++ fieldsTokens rest

/-- The tokens behind an item, up to the end of the array. -/
def itemsTokens : List Json → List Token
  | [] => [.closeArray]
  | j :: rest => .comma :: j.tokens ++ itemsTokens rest

/-- The tokens behind a field, up to the end of the object. -/
def fieldsTokens : List (String × Json) → List Token
  | [] => [.closeObject]
  | (name, j) :: rest => .comma :: .text name :: .colon :: j.tokens ++ fieldsTokens rest

end

theorem itemsTokens_cons (j : Json) (rest : List Json) :
    itemsTokens (j :: rest) = .comma :: (j.tokens ++ itemsTokens rest) := rfl

theorem fieldsTokens_cons (name : String) (j : Json) (rest : List (String × Json)) :
    fieldsTokens ((name, j) :: rest) =
      .comma :: .text name :: .colon :: (j.tokens ++ fieldsTokens rest) := rfl

/-! The text of a document is cut into its tokens. -/

/-- The characters are cut into the tokens if a word that they end with is over. -/
def Spells (cs : List Char) (ts : List Token) : Prop :=
  ∀ rest, Token.Boundary rest →
    Token.lexFrom .gap (cs ++ rest) = (Token.lexFrom .gap rest).map (ts ++ ·)

namespace Spells

variable {cs ds : List Char} {ts us : List Token}

theorem nil : Spells [] [] := fun _ _ => Option.map_id'.symm

theorem mark {c : Char} {t : Token} (mark : Token.stepGap c = some ([t], .gap))
    (behind : Spells cs ts) : Spells (c :: cs) (t :: ts) := by
  intro rest boundary
  rw [List.cons_append, Token.lexFrom_mark mark, behind rest boundary, Option.map_map]
  rfl

theorem quoted (s : String) (behind : Spells cs ts) : Spells (quotedChars s ++ cs) (.text s :: ts) := by
  intro rest boundary
  rw [List.append_assoc, Token.lexFrom_quoted, behind rest boundary, Option.map_map]
  rfl

theorem word (nonempty : cs ≠ []) (inner : ∀ c ∈ cs, Token.endsWord c = false) {t : Token}
    (word : Token.ofWord? cs = some t) : Spells cs [t] :=
  fun _ boundary => Token.lexFrom_word nonempty inner word boundary

theorem name (nonempty : cs ≠ []) (inner : cs.all (fun c => !Token.endsWord c) = true) {t : Token}
    (word : Token.ofWord? cs = some t) : Spells cs [t] :=
  .word nonempty (fun c member => by simpa using List.all_eq_true.mp inner c member) word

theorem append {c : Char} (front : Spells cs ts) (behind : Spells (c :: ds) us)
    (ends : Token.endsWord c = true) : Spells (cs ++ c :: ds) (ts ++ us) := by
  intro rest boundary
  have ended : Token.Boundary (c :: ds ++ rest) := by simpa [Token.Boundary] using ends
  rw [List.append_assoc, front _ ended, behind rest boundary, Option.map_map]
  congr 1
  funext later
  exact (List.append_assoc ts us later).symm

theorem number {n : JsonNumber} (read : JsonNumber.ofChars? n.chars = some n) :
    Spells n.chars [.number n] := by
  refine word ?_ (fun c member => Token.endsWord_of_isPart (n.isPart_of_mem_chars c member))
    (Token.ofWord?_number read)
  intro none
  rw [none] at read
  cases read

end Spells

/-- An item, or what is behind it, is over where a comma or the end of the array stands. -/
theorem Spells.items {items : List Json} (each : ∀ j ∈ items, Spells j.chars j.tokens)
    {cs : List Char} {ts : List Token} (front : Spells cs ts) :
    Spells (cs ++ (itemsChars items ++ [']'])) (ts ++ itemsTokens items) := by
  -- each item in turn is the front of what is behind it
  induction items generalizing cs ts with
  | nil => exact front.append (mark rfl nil) rfl
  | cons j rest ih =>
    have behind := ih (fun k member => each k (.tail _ member)) (each j (.head _))
    rw [itemsChars_cons, itemsTokens_cons, List.cons_append, List.append_assoc]
    exact front.append (mark rfl behind) rfl

theorem Spells.fields {fields : List (String × Json)}
    (each : ∀ e ∈ fields, Spells e.2.chars e.2.tokens) {cs : List Char} {ts : List Token}
    (front : Spells cs ts) :
    Spells (cs ++ (fieldsChars fields ++ [Char.ofNat 125])) (ts ++ fieldsTokens fields) := by
  induction fields generalizing cs ts with
  | nil => exact front.append (mark rfl nil) rfl
  | cons e rest ih =>
    obtain ⟨name, j⟩ := e
    have behind := ih (fun e member => each e (.tail _ member)) (each _ (.head _))
    have named := (mark (c := ':') rfl behind).quoted name
    rw [fieldsChars_cons, fieldsTokens_cons, List.cons_append, List.append_assoc, List.cons_append,
      List.append_assoc]
    exact front.append (mark rfl named) rfl

namespace Machine

theorem run_cons (m : Machine) (t : Token) (ts : List Token) :
    m.run (t :: ts) = (m.step t).bind fun next => next.run ts := rfl

theorem run_of_step {m n : Machine} {t : Token} (steps : m.step t = some n)
    (ts : List Token) : m.run (t :: ts) = n.run ts := by
  rw [run_cons, steps, Option.bind_some]

/-- A value may begin. -/
def Opens (m : Machine) : Prop := ∀ t, t ≠ .closeArray → m.step t = open? m.stack t

theorem Opens.run {m n : Machine} (opens : m.Opens) {t : Token} (other : t ≠ .closeArray)
    (opened : open? m.stack t = some n) (ts : List Token) : m.run (t :: ts) = n.run ts :=
  run_of_step ((opens t other).trans opened) ts

end Machine

/-! Whatever is read is in order. -/

/-- The fields of an object that is still open. -/
structure OrderedFields (fields : KeyMap Json) : Prop where
  sorted : fields.Sorted
  inner : ∀ e ∈ fields.entries, e.2.Ordered

theorem orderedFields_empty : OrderedFields .empty := ⟨KeyMap.sorted_empty, nofun⟩

theorem OrderedFields.insert {fields : KeyMap Json} (ordered : OrderedFields fields) (name : String)
    {j : Json} (value : j.Ordered) : OrderedFields (fields.insert name j) where
  sorted := ordered.sorted.insert name j
  inner := by
    intro e member
    rcases KeyMap.mem_insertEntry member with rfl | before
    · exact value
    · exact ordered.inner e before

theorem OrderedFields.object {fields : KeyMap Json} (ordered : OrderedFields fields) :
    (Json.object fields.entries).Ordered :=
  .object ordered.sorted ordered.inner

def Frame.Ordered : Frame → Prop
  | .array items => ∀ j ∈ items, j.Ordered
  | .object fields _ => OrderedFields fields

def Expect.Ordered : Expect → Prop
  | .colon _ fields => OrderedFields fields
  | .separator j => j.Ordered
  | _ => True

namespace Machine

/-- All that has been read is in order. -/
structure Ordered (m : Machine) : Prop where
  stack : ∀ f ∈ m.stack, f.Ordered
  expect : m.expect.Ordered

section Step

variable {stack : List Frame} {t : Token} {n : Machine}

theorem ordered_finish (below : ∀ f ∈ stack, f.Ordered) {j : Json} (value : j.Ordered) :
    (finish stack j).Ordered := ⟨below, value⟩

theorem ordered_push {f : Frame} {e : Expect} (frame : f.Ordered) (expect : e.Ordered)
    (below : ∀ f ∈ stack, f.Ordered) : Ordered ⟨f :: stack, e⟩ :=
  ⟨List.forall_mem_cons.mpr ⟨frame, below⟩, expect⟩

theorem ordered_open? (below : ∀ f ∈ stack, f.Ordered) (opened : open? stack t = some n) :
    n.Ordered := by
  cases t <;> simp only [open?, Option.some.injEq, reduceCtorEq] at opened <;> subst opened
  case openArray => exact ordered_push (f := .array []) nofun trivial below
  case openObject => exact ordered_push (f := .object .empty "") orderedFields_empty trivial below
  case text s => exact ordered_finish below (.text s)
  case null => exact ordered_finish below .null
  case bool b => exact ordered_finish below (.bool b)
  case number k => exact ordered_finish below (.number k)

theorem ordered_close? {j : Json} (value : j.Ordered) (frames : ∀ f ∈ stack, f.Ordered)
    (closed : close? j stack t = some n) : n.Ordered := by
  unfold close? at closed
  split at closed
  · cases closed
    obtain ⟨items, below⟩ := List.forall_mem_cons.mp frames
    exact ordered_push (f := .array _) (List.forall_mem_cons.mpr ⟨value, items⟩) trivial below
  · cases closed
    obtain ⟨items, below⟩ := List.forall_mem_cons.mp frames
    refine ordered_finish below (.array fun k member => ?_)
    rcases List.mem_cons.mp (List.mem_reverse.mp member) with rfl | before
    · exact value
    · exact items k before
  · cases closed
    obtain ⟨fields, below⟩ := List.forall_mem_cons.mp frames
    exact ordered_push (f := .object _ "") (fields.insert _ value) trivial below
  · cases closed
    obtain ⟨fields, below⟩ := List.forall_mem_cons.mp frames
    exact ordered_finish below (fields.insert _ value).object
  · cases closed

theorem Ordered.step {m : Machine} (ordered : m.Ordered) (steps : m.step t = some n) :
    n.Ordered := by
  obtain ⟨stack, expect⟩ := m
  obtain ⟨frames, value⟩ := ordered
  -- one case for each row of the machine's table
  unfold Machine.step at steps
  dsimp only at frames value steps
  split at steps
  case h_1 => exact ordered_open? frames steps
  case h_3 => exact ordered_open? frames steps
  case h_8 => exact ordered_close? value frames steps
  all_goals cases steps
  case h_2 => exact ordered_finish (List.forall_mem_cons.mp frames).2 (.array nofun)
  case h_4 => exact ordered_finish (List.forall_mem_cons.mp frames).2 orderedFields_empty.object
  case h_5 =>
    obtain ⟨fields, below⟩ := List.forall_mem_cons.mp frames
    exact ⟨below, fields⟩
  case h_6 =>
    obtain ⟨fields, below⟩ := List.forall_mem_cons.mp frames
    exact ⟨below, fields⟩
  case h_7 => exact ordered_push (f := .object _ _) value trivial frames

theorem Ordered.run {m : Machine} (ordered : m.Ordered) {ts : List Token}
    (runs : m.run ts = some n) : n.Ordered := by
  induction ts generalizing m with
  | nil =>
    cases runs
    exact ordered
  | cons t ts ih =>
    obtain ⟨next, steps, rest⟩ := Option.bind_eq_some_iff.mp runs
    exact ih (ordered.step steps) rest

end Step

end Machine

end EntitySchema.Json
