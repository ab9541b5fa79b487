import EntitySchema.Proofs.Sql.Clause

/-!
What the dialects spell differently: placeholders, truth values, patterns whatever the letter case, and
an offset without a limit. Predicates that come from one filter are spelled alike otherwise.
-/

namespace EntitySchema.Sql

namespace Token

/-- A token in PostgreSQL, and the one that stands for it in SQLite. -/
inductive Respelling : Token → Token → Prop
  | same (t : Token) : Respelling t t
  | placeholder (index : Nat) : Respelling (.placeholder '$' index) (.placeholder '?' index)
  | yes : Respelling (.word "TRUE") (.number "1")
  | no : Respelling (.word "FALSE") (.number "0")

/-- The tokens of a statement in PostgreSQL, and those in SQLite. They correspond one to one, but that
SQLite names the escape of a pattern, and puts a limit in front of an offset that has none. -/
inductive Respelled (unlimited : Prop) : List Token → List Token → Prop
  | nil : Respelled unlimited [] []
  | cons {t u : Token} {ts us : List Token} (first : Respelling t u)
      (rest : Respelled unlimited ts us) : Respelled unlimited (t :: ts) (u :: us)
  | like {t u : Token} {ts us : List Token} (pattern : Respelling t u)
      (rest : Respelled unlimited ts us) :
      Respelled unlimited (.word "ILIKE" :: t :: ts)
        (.word "LIKE" :: u :: .word "ESCAPE" :: .text "\\" :: us)
  | offset {ts us : List Token} (free : unlimited) (rest : Respelled unlimited ts us) :
      Respelled unlimited (.word "OFFSET" :: ts)
        (.word "LIMIT" :: .number "-1" :: .word "OFFSET" :: us)

/-- A text is never spelled in another way. -/
theorem Respelled.text_mem {unlimited : Prop} {ts us : List Token}
    (respelled : Respelled unlimited ts us) {s : String} (member : .text s ∈ ts) : .text s ∈ us := by
  induction respelled with
  | nil => exact member
  | cons first _ ih =>
    rcases List.mem_cons.mp member with rfl | later
    · cases first
      exact .head _
    · exact .tail _ (ih later)
  | like pattern _ ih =>
    simp only [List.mem_cons, reduceCtorEq, false_or] at member
    rcases member with rfl | later
    · cases pattern
      simp
    · simp [ih later]
  | offset _ _ ih =>
    simp only [List.mem_cons, reduceCtorEq, false_or] at member
    simp [ih member]

end Token

theorem Dialect.respelling_literal (v : Value) :
    (Dialect.postgres.literalToken v).Respelling (Dialect.sqlite.literalToken v) := by
  cases v with
  | bool b =>
    cases b with
    | true => exact .yes
    | false => exact .no
  | _ => exact .same _

/-- The dialects have literals for the same values. -/
theorem Dialect.literal_agree (v : Value) :
    Outcome.Agree (fun _ _ => True) (Dialect.postgres.literal v) (Dialect.sqlite.literal v) := by
  cases v with
  | float x =>
    unfold literal
    dsimp only
    split_ifs
    · exact .ok trivial
    · exact .error _
  | _ => exact .ok trivial

namespace Item

/-- The items of a statement in both dialects. -/
inductive Respelled (unlimited : Prop) : List Item → List Item → Prop
  | nil : Respelled unlimited [] []
  | blank {is js : List Item} (rest : Respelled unlimited is js) :
      Respelled unlimited (.blank :: is) (.blank :: js)
  | token {t u : Token} {is js : List Item} (first : t.Respelling u) (rest : Respelled unlimited is js) :
      Respelled unlimited (.token t :: is) (.token u :: js)
  | slot (v : Value) {is js : List Item} (rest : Respelled unlimited is js) :
      Respelled unlimited (.slot v :: is) (.slot v :: js)
  | like (v : Value) {is js : List Item} (rest : Respelled unlimited is js) :
      Respelled unlimited (.word "ILIKE" :: .blank :: .slot v :: is)
        (.word "LIKE" :: .blank :: .slot v :: (Dialect.escapeItems .sqlite ++ js))
  | offset (free : unlimited) {is js : List Item} (rest : Respelled unlimited is js) :
      Respelled unlimited (.blank :: .word "OFFSET" :: is)
        ([.blank, .word "LIMIT", .blank, .token (.number "-1"), .blank, .word "OFFSET"] ++ js)

variable {unlimited : Prop} {is js : List Item}

@[refl]
theorem Respelled.refl (is : List Item) : Respelled unlimited is is := by
  induction is with
  | nil => exact .nil
  | cons item rest ih =>
    cases item with
    | blank => exact .blank ih
    | token t => exact .token (.same t) ih
    | slot v => exact .slot v ih

theorem Respelled.append {front back : List Item} (first : Respelled unlimited is js)
    (second : Respelled unlimited front back) : Respelled unlimited (is ++ front) (js ++ back) := by
  induction first with
  | nil => exact second
  | blank _ ih => exact .blank ih
  | token one _ ih => exact .token one ih
  | slot v _ ih => exact .slot v ih
  | like v _ ih =>
    simp only [List.cons_append, List.append_assoc]
    exact .like v ih
  | offset free _ ih => exact .offset free ih

theorem Respelled.join (separator : List Item) {iss jss : List (List Item)}
    (each : List.Forall₂ (Respelled unlimited) iss jss) :
    Respelled unlimited (join separator iss) (join separator jss) := by
  induction each with
  | nil => exact .nil
  | cons first others ih =>
    cases others with
    | nil => exact first
    | cons second others => exact (first.append (.refl separator)).append ih

theorem Respelled.params (respelled : Respelled unlimited is js) : params is = params js := by
  induction respelled with
  | nil => rfl
  | blank _ ih => exact ih
  | token _ _ ih => exact ih
  | slot v _ ih => rw [Item.params, Item.params, ih]
  | like v _ ih => simpa [Item.params, Dialect.escapeItems] using ih
  | offset _ _ ih => exact ih

/-- Items that are spelled alike are tokens that are, if the slots are filled alike. -/
theorem Respelled.tokens {fill other : Nat → Token}
    (fills : ∀ index, (fill index).Respelling (other index)) (respelled : Respelled unlimited is js) (index : Nat) :
    Token.Respelled unlimited (tokens fill index is) (tokens other index js) := by
  induction respelled generalizing index with
  | nil => exact .nil
  | blank _ ih => exact ih index
  | token one _ ih => exact .cons one (ih index)
  | slot v _ ih => exact .cons (fills index) (ih _)
  | like v _ ih => exact .like (fills index) (ih _)
  | offset free _ ih => exact .offset free (ih index)

end Item

variable {unlimited : Prop}

theorem Test.respelled (t : Test) :
    Item.Respelled unlimited (t.items .postgres) (t.items .sqlite) := by
  have atoms : Item.Respelled unlimited (t.atomItems .postgres) (t.atomItems .sqlite) := by
    cases t with
    | pattern column negated like => exact .token (.same _) (.blank (.like _ .nil))
    | _ => exact .refl _
  rw [items, items]
  split_ifs
  · exact ((Item.Respelled.refl _).append atoms).append (.refl _)
  · exact atoms

/-- Clauses in both dialects that are spelled alike. -/
structure Clause.Respelled (unlimited : Prop) (k l : Clause) : Prop where
  items : Item.Respelled unlimited k.items l.items
  compound : k.compound = l.compound
  left : Item.Tidy false k.items
  right : Item.Tidy false l.items

namespace Clause

theorem Respelled.nested {k l : Clause} (respelled : Respelled unlimited k l) :
    Item.Respelled unlimited k.nested l.nested := by
  rw [Clause.nested, Clause.nested, respelled.compound]
  split_ifs
  · exact ((Item.Respelled.refl _).append respelled.items).append (.refl _)
  · exact respelled.items

theorem respelled_join (c : Connective) {ks ls : List Clause}
    (each : List.Forall₂ (Respelled unlimited) ks ls) :
    Option.Rel (Respelled unlimited) (join c ks) (join c ls) := by
  have left : ∀ k ∈ ks, Item.Tidy false k.items := fun k member =>
    (Outcome.exists_of_mem_sources each member).elim fun _ found => found.2.left
  have right : ∀ l ∈ ls, Item.Tidy false l.items := fun l member =>
    (Outcome.exists_of_mem_results each member).elim fun _ found => found.2.right
  cases each with
  | nil => exact .none
  | cons first others =>
    cases others with
    | nil => exact .some first
    | cons second others =>
      refine .some ⟨?_, rfl, tidy_join left rfl, tidy_join right rfl⟩
      apply Item.Respelled.join
      rw [List.forall₂_map_left_iff, List.forall₂_map_right_iff]
      exact ((others.cons second).cons first).imp fun _ _ => Respelled.nested

end Clause

/-- Predicates in both dialects that are spelled alike. -/
def Predicate.Respelled (unlimited : Prop) (p q : Predicate) : Prop :=
  ∃ k l, p.Reads k ∧ q.Reads l ∧ Clause.Respelled unlimited k l

theorem Predicate.respelled_join (c : Connective) {ps qs : List Predicate}
    (each : List.Forall₂ (Respelled unlimited) ps qs) :
    Option.Rel (Respelled unlimited) (join c.separator ps) (join c.separator qs) := by
  have clauses : ∃ ks ls, List.Forall₂ Reads ps ks ∧ List.Forall₂ Reads qs ls ∧
      List.Forall₂ (Clause.Respelled unlimited) ks ls := by
    induction each with
    | nil => exact ⟨[], [], .nil, .nil, .nil⟩
    | cons first others ih =>
      obtain ⟨k, l, one, two, same⟩ := first
      obtain ⟨ks, ls, left, right, all⟩ := ih
      exact ⟨k :: ks, l :: ls, .cons one left, .cons two right, .cons same all⟩
  obtain ⟨ks, ls, left, right, all⟩ := clauses
  have one := reads_join c left
  have two := reads_join c right
  have joined := Clause.respelled_join c all
  generalize join c.separator ps = p, join c.separator qs = q, Clause.join c ks = k,
    Clause.join c ls = l at one two joined ⊢
  cases joined with
  | none =>
    cases one
    cases two
    exact .none
  | some same =>
    cases one with
    | some one =>
      cases two with
      | some two => exact .some ⟨_, _, one, two, same⟩

namespace Compiler

/-- A filter is accepted in both dialects or fails in both with the same error, and its predicates are
spelled alike. -/
theorem predicate?_agree (unlimited : Prop) (e : Entity) (node : SearchNode) :
    Outcome.Agree (Option.Rel (Predicate.Respelled unlimited)) (predicate? ⟨e, .postgres⟩ node)
      (predicate? ⟨e, .sqlite⟩ node) := by
  induction node using Tree.inductionOn with
  | leaf cond =>
    rw [predicate?, predicate?]
    refine (Outcome.Agree.refl (condition ⟨e, .postgres⟩ cond)).map fun t u same => ?_
    obtain ⟨rfl, _⟩ := same
    refine .some ⟨⟨t.items .postgres, false⟩, ⟨t.items .sqlite, false⟩, ⟨?_, rfl⟩, ⟨?_, rfl⟩, ?_⟩
    · exact t.writes_items .postgres _ _ Buffer.reads_empty
    · exact t.writes_items .sqlite _ _ Buffer.reads_empty
    · exact ⟨t.respelled, rfl, t.tidy_items .postgres, t.tidy_items .sqlite⟩
  | group c children ih =>
    rw [predicate?_group, predicate?_group]
    have each : Outcome.Agree (List.Forall₂ (Predicate.Respelled unlimited))
        (predicates ⟨e, .postgres⟩ children) (predicates ⟨e, .sqlite⟩ children) := by
      induction children with
      | nil =>
        rw [predicates, predicates]
        exact .ok .nil
      | cons node rest later =>
        rw [predicates, predicates]
        refine (ih node (.head _)).bind fun p q first => ?_
        refine (later fun node member => ih node (.tail _ member)).bind fun ps qs others => ?_
        refine .ok (List.rel_append ?_ others)
        cases first with
        | none => exact .nil
        | some same => exact .cons same .nil
    exact each.map fun ps qs => Predicate.respelled_join c

end Compiler

end EntitySchema.Sql
