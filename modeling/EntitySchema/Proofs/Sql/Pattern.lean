import EntitySchema.Proofs.Sql.Matching
import Mathlib.Data.List.Infix

/-!
Patterns find text. A pattern is read as wildcards and characters that stand for themselves; the
matcher tries every part of a text for the wildcard of any length. The characters of an escaped text
all stand for themselves, so a pattern of one with `%` around it is matched by the texts that have it
at that place.
-/

namespace EntitySchema.Sql

variable {α : Type}

/-- What a piece of a pattern stands for: any text, any character, or a character. -/
inductive Wild where
  | text
  | char
  | exact (c : Char)
deriving DecidableEq, Repr

def Truth.ofBool (b : Bool) : Truth := if b then .yes else .no

theorem Truth.not_ofBool (b : Bool) : (ofBool b).not = ofBool !b := by cases b <;> rfl

namespace Wild

def ofChar (p : Char) : Wild := if p = '%' then text else if p = '_' then char else exact p

/-- The pieces of a pattern. The character behind the escape stands for itself, and there has to be
one. -/
def ofPattern? (escape : Option Char) : List Char → Option (List Wild)
  | [] => some []
  | p :: rest =>
    if escape == some p then
      match rest with
      | [] => none
      | q :: rest => (ofPattern? escape rest).map (.exact q :: ·)
    else (ofPattern? escape rest).map (ofChar p :: ·)

/-- Whether a text matches the pieces, with these characters alike. -/
def fits (alike : Char → Char → Bool) : List Wild → List Char → Bool
  | [], u => u.isEmpty
  | .text :: rest, u => u.tails.any (fits alike rest)
  | .char :: _, [] => false
  | .char :: rest, _ :: u => fits alike rest u
  | .exact _ :: _, [] => false
  | .exact c :: rest, x :: u => alike c x && fits alike rest u

/-- Whether a text matches a pattern. -/
def like (escape : Option Char) (alike : Char → Char → Bool) (pattern u : String) : Bool :=
  (ofPattern? escape pattern.toList).any fun pieces => fits alike pieces u.toList

/-- The escape of a pattern test. ILIKE has a backslash if none is named, and LIKE has none. -/
def escape (operator : String) (named : Option String) : Option Char :=
  match named with
  | some e => e.toList.head?
  | none => if operator = "ILIKE" then some '\\' else none

/-! Escaped texts. -/

theorem ofPattern?_plain {escape : Option Char} {p : Char} (plain : escape ≠ some p)
    (pattern : List Char) :
    ofPattern? escape (p :: pattern) = (ofPattern? escape pattern).map (ofChar p :: ·) := by
  rw [ofPattern?.eq_def]
  exact if_neg (by simpa using plain)

theorem ofPattern?_escaped (t pattern : List Char) :
    ofPattern? (some '\\') (t.flatMap
        (fun c => if c = '\\' ∨ c = '%' ∨ c = '_' then ['\\', c] else [c]) ++ pattern) =
      (ofPattern? (some '\\') pattern).map (t.map exact ++ ·) := by
  induction t with
  | nil => simp
  | cons c rest ih =>
    rw [List.flatMap_cons, List.append_assoc]
    split
    · next special =>
      have read (others : List Char) : ofPattern? (some '\\') ('\\' :: c :: others) =
          (ofPattern? (some '\\') others).map (exact c :: ·) := rfl
      rw [List.cons_append, List.cons_append, List.nil_append, read, ih, Option.map_map]
      rfl
    · next plain =>
      simp only [not_or] at plain
      have own : ofChar c = exact c := by rw [ofChar, if_neg plain.2.1, if_neg plain.2.2]
      rw [List.cons_append, List.nil_append, ofPattern?_plain (by simpa using Ne.symm plain.1), own,
        ih, Option.map_map]
      rfl

variable {alike : Char → Char → Bool} {rest : List Wild} {u : List Char}

theorem fits_text : fits alike (.text :: rest) u = true ↔
    ∃ front back, front ++ back = u ∧ fits alike rest back = true := by
  rw [fits, List.any_eq_true]
  simp only [List.mem_tails, List.IsSuffix]
  constructor
  · intro given
    obtain ⟨back, ⟨front, rfl⟩, found⟩ := given
    exact ⟨front, back, rfl, found⟩
  · intro given
    obtain ⟨front, back, rfl, found⟩ := given
    exact ⟨back, ⟨front, rfl⟩, found⟩

theorem fits_exact (t : List Char) : fits alike (t.map exact ++ rest) u = true ↔
    ∃ part back, part ++ back = u ∧ List.Forall₂ (fun x y => alike x y = true) t part ∧
      fits alike rest back = true := by
  induction t generalizing u with
  | nil => simp
  | cons c others ih =>
    cases u with
    | nil => simp [fits]
    | cons x u =>
      rw [List.map_cons, List.cons_append, fits, Bool.and_eq_true, ih]
      constructor
      · intro given
        obtain ⟨first, part, back, rfl, same, found⟩ := given
        exact ⟨x :: part, back, rfl, .cons first same, found⟩
      · intro given
        obtain ⟨part, back, whole, same, found⟩ := given
        cases same with
        | cons first same =>
          obtain ⟨rfl, rfl⟩ := List.cons.inj whole
          exact ⟨first, _, back, rfl, same, found⟩

theorem fits_nothing : fits alike [] u = true ↔ u = [] :=
  List.isEmpty_iff

theorem fits_anything : fits alike [.text] u = true :=
  fits_text.mpr ⟨u, [], List.append_nil u, rfl⟩

end Wild

namespace Place

/-- The part lies at this place of the text. -/
def Holds : Place → List Char → List Char → Prop
  | .anywhere, part, u => part <:+: u
  | .start, part, u => part <+: u
  | .finish, part, u => part <:+ u

/-- The text has a part at this place whose characters are those of `t` or alike. -/
def Finds (place : Place) (alike : Char → Char → Bool) (t u : String) : Prop :=
  ∃ part, List.Forall₂ (fun x y => alike x y = true) t.toList part ∧ place.Holds part u.toList

/-- The pieces of the pattern that finds a text at this place. -/
def pieces (place : Place) (t : List Char) : List Wild :=
  match place with
  | .anywhere => .text :: (t.map .exact ++ [.text])
  | .start => t.map .exact ++ [.text]
  | .finish => .text :: (t.map .exact ++ [])

theorem ofPattern?_likePattern (place : Place) (t : String) :
    Wild.ofPattern? (some '\\') (likePattern place t).toList = some (place.pieces t.toList) := by
  have any (pattern : List Char) : Wild.ofPattern? (some '\\') ('%' :: pattern) =
      (Wild.ofPattern? (some '\\') pattern).map (.text :: ·) :=
    Wild.ofPattern?_plain (by decide) pattern
  have escaped (pattern : List Char) :
      Wild.ofPattern? (some '\\') ((escapeLike t).toList ++ pattern) =
        (Wild.ofPattern? (some '\\') pattern).map (t.toList.map .exact ++ ·) := by
    rw [escapeLike, String.toList_ofList]
    exact Wild.ofPattern?_escaped t.toList pattern
  have percent : "%".toList = ['%'] := rfl
  cases place with
  | anywhere =>
    rw [likePattern, String.toList_append, String.toList_append, percent, List.append_assoc,
      List.singleton_append, any, escaped]
    rfl
  | start =>
    rw [likePattern, String.toList_append, percent, escaped]
    rfl
  | finish =>
    rw [likePattern, String.toList_append, percent, List.singleton_append, any,
      ← List.append_nil (escapeLike t).toList, escaped]
    rfl

/-- The pattern of a text is matched by the texts that have it. -/
theorem like_iff (place : Place) (alike : Char → Char → Bool) (t u : String) :
    Wild.like (some '\\') alike (likePattern place t) u = true ↔ place.Finds alike t u := by
  rw [Wild.like, ofPattern?_likePattern, Option.any_some, Finds]
  cases place with
  | anywhere =>
    simp only [pieces, Holds, Wild.fits_text, Wild.fits_exact, Wild.fits_anything, and_true]
    constructor
    · intro given
      obtain ⟨front, _, whole, part, back, rfl, same⟩ := given
      exact ⟨part, same, front, back, by rw [List.append_assoc, whole]⟩
    · intro given
      obtain ⟨part, same, front, back, whole⟩ := given
      exact ⟨front, part ++ back, by rw [← List.append_assoc, whole], part, back, rfl, same⟩
  | start =>
    simp only [pieces, Holds, Wild.fits_exact, Wild.fits_anything, and_true]
    constructor
    · intro given
      obtain ⟨part, back, whole, same⟩ := given
      exact ⟨part, same, back, whole⟩
    · intro given
      obtain ⟨part, same, back, whole⟩ := given
      exact ⟨part, back, whole, same⟩
  | finish =>
    simp only [pieces, Holds, Wild.fits_text, Wild.fits_exact, Wild.fits_nothing]
    constructor
    · intro given
      obtain ⟨front, _, whole, part, _, rfl, same, rfl⟩ := given
      exact ⟨part, same, front, by rw [← whole, List.append_nil]⟩
    · intro given
      obtain ⟨part, same, front, whole⟩ := given
      exact ⟨front, part, whole, part, [], List.append_nil part, same, rfl⟩

example : Wild.like (some '\\') (· == ·) (likePattern .start "5%_\\") "5%_\\ off" = true := by cbv

example : Wild.like (some '\\') (· == ·) (likePattern .anywhere "5%") "50" = false := by cbv

end Place

/-- Texts in the database match patterns, with these characters alike. -/
structure Database.MatchesTexts (db : Database α) (alike : Char → Char → Bool) (text : String → α) :
    Prop where
  read : ∀ s, db.read (.text s) = text s
  pattern : ∀ operator named u s, db.pattern operator named (text u) (text s) =
    Truth.ofBool (Wild.like (Wild.escape operator named) alike s u)

/-- A database of literals in which texts match patterns. -/
def Database.ofTexts (alike : Char → Char → Bool) : Database Token where
  __ := ofLiterals
  pattern operator named x y :=
    match x, y with
    | .text u, .text s => .ofBool (Wild.like (Wild.escape operator named) alike s u)
    | _, _ => .unknown

theorem Database.matchesTexts_ofTexts (alike : Char → Char → Bool) :
    (ofTexts alike).MatchesTexts alike .text where
  read _ := rfl
  pattern _ _ _ _ := rfl

namespace Compiler

variable {c : Compiler} {field : String} {place : Place} {negated : Bool} {t : String}

/-- A condition that asks whether a field has the text at a place, or does not. -/
def finding (field : String) (place : Place) (negated : Bool) (t : String) : SearchNode :=
  .leaf ⟨field, .pattern place negated, [.text t]⟩

theorem accepts_finding : c.Accepts ⟨field, .pattern place negated, [.text t]⟩ ↔
    ∃ column, c.resolve field = .ok column ∧ column.category = .string := by
  constructor
  · intro given
    obtain ⟨test, ok, _⟩ := given
    obtain ⟨column, resolved, tested⟩ := condition_tested ok
    cases tested with
    | pattern text => exact ⟨column, resolved, text⟩
  · intro given
    obtain ⟨column, resolved, text⟩ := given
    exact ⟨_, (Tested.pattern text).condition resolved, List.forall_mem_singleton.mpr ⟨_, rfl⟩⟩

/-- A pattern that is accepted is matched with the text of the field. -/
theorem finding_tells {s : Statement}
    (ok : c.compileFilter (finding field place negated t) = .ok (some s)) :
    s.params = [.text (likePattern place t)] ∧
      ∀ (α : Type) (db : Database α) (alike : Char → Char → Bool) (text : String → α) (row : Row α)
        (u : String), db.MatchesTexts alike text → row field = text u →
        s.Tells c.dialect db row
          (.ofBool (Wild.like (some '\\') alike (likePattern place t) u ^^ negated)) := by
  obtain ⟨test, tested, _⟩ := exists_leaf_iff.mp ⟨s, ok⟩
  obtain ⟨column, resolved, how⟩ := condition_tested tested
  obtain ⟨params, tells⟩ := leaf_tells tested ok
  cases how with
  | pattern category =>
    refine ⟨params, fun α db alike text row u matched here => ?_⟩
    obtain ⟨_, rfl⟩ := resolve_eq_ok resolved
    have escape : Wild.escape c.dialect.like c.dialect.escape? = some '\\' := by
      cases c.dialect <;> rfl
    have bound : db.value c.dialect (.text (likePattern place t)) = text (likePattern place t) :=
      matched.read _
    have told := tells α db row
    rw [Test.truthAt, here, bound, matched.pattern, escape] at told
    cases negated with
    | false => rwa [Bool.xor_false]
    | true => rwa [Bool.xor_true, ← Truth.not_ofBool]

/-- A text at a place can be sought in a column of text. The pattern finds the texts that have it at
that place, whatever characters are alike, and the negated test is true of the others. -/
theorem patterns_find_text (c : Compiler) (field : String) (place : Place) (t : String) :
    (∀ negated, (∃ s, c.compileFilter (finding field place negated t) = .ok (some s)) ↔
      ∃ column, c.resolve field = .ok column ∧ column.category = .string) ∧
    (∀ alike u, Wild.like (some '\\') alike (likePattern place t) u = true ↔
      place.Finds alike t u) ∧
    ∀ s n, c.compileFilter (finding field place false t) = .ok (some s) →
      c.compileFilter (finding field place true t) = .ok (some n) →
      s.params = [.text (likePattern place t)] ∧ n.params = [.text (likePattern place t)] ∧
      ∀ (α : Type) (db : Database α) (alike : Char → Char → Bool) (text : String → α) (row : Row α)
        (u : String), db.MatchesTexts alike text → row field = text u → ∃ found : Bool,
          s.Tells c.dialect db row (.ofBool found) ∧ n.Tells c.dialect db row (.ofBool !found) ∧
          (found = true ↔ place.Finds alike t u) := by
  refine ⟨fun negated => exists_leaf_iff.trans accepts_finding,
    fun alike u => place.like_iff alike t u, ?_⟩
  intro s n positive negative
  obtain ⟨params, tells⟩ := finding_tells positive
  obtain ⟨params', tells'⟩ := finding_tells negative
  refine ⟨params, params', fun α db alike text row u matched here => ?_⟩
  have found := tells α db alike text row u matched here
  have missing := tells' α db alike text row u matched here
  rw [Bool.xor_false] at found
  rw [Bool.xor_true] at missing
  exact ⟨_, found, missing, place.like_iff alike t u⟩

/-! Notes with `50%` in their body. -/

def bodyWith : Statement where
  parameterized := "\"body\" LIKE ?1 ESCAPE '\\'"
  params := [.text "%50\\%%"]
  sql := "\"body\" LIKE '%50\\%%' ESCAPE '\\'"

def bodyWithout : Statement where
  parameterized := "NOT (\"body\" LIKE ?1 ESCAPE '\\')"
  params := [.text "%50\\%%"]
  sql := "NOT (\"body\" LIKE '%50\\%%' ESCAPE '\\')"

unseal Text.Numeral.digits in
theorem patterns_find_text_bodies :
    notes.compileFilter (finding "body" .anywhere false "50%") = .ok (some bodyWith) ∧
    notes.compileFilter (finding "body" .anywhere true "50%") = .ok (some bodyWithout) ∧
    (Database.ofTexts (· == ·)).MatchesTexts (· == ·) .text ∧
    ∃ found : Bool,
      bodyWith.Tells .sqlite (Database.ofTexts (· == ·)) (fun _ => .text "500") (.ofBool found) ∧
      bodyWithout.Tells .sqlite (Database.ofTexts (· == ·)) (fun _ => .text "500")
        (.ofBool !found) ∧
      (found = true ↔ Place.anywhere.Finds (· == ·) "50%" "500") :=
  have matched := Database.matchesTexts_ofTexts (· == ·)
  ⟨rfl, rfl, matched, ((patterns_find_text notes "body" .anywhere "50%").2.2 bodyWith bodyWithout rfl
    rfl).2.2 Token (Database.ofTexts (· == ·)) (· == ·) .text (fun _ => .text "500") "500" matched rfl⟩

end Compiler

end EntitySchema.Sql
