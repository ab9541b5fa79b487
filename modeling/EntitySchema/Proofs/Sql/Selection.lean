import EntitySchema.Proofs.Sql.Checking
import EntitySchema.Proofs.Sql.Clause

/-!
Selections as items. In front of the filter and behind it nothing depends on a value, so the filter
stands between two fixed texts.
-/

namespace EntitySchema.Sql

open Text.Numeral

namespace Compiler

/-- The columns of a selection, as they are written. -/
def columnText (fields : List String) : String := if fields.isEmpty then "*" else nameList fields

def columnItems (fields : List String) : List Item :=
  if fields.isEmpty then [.symbol "*"] else Item.join Item.comma (fields.map fun n => [.name n])

def selectItems (c : Compiler) (fields : List String) : List Item :=
  [.word "SELECT", .blank] ++ columnItems fields ++
    [.blank, .word "FROM", .blank, .name c.entity.tableName]

def orderText (order : List OrderBy) : String :=
  if order.isEmpty then ""
  else " ORDER BY " ++ ", ".intercalate
    (order.map fun o => quoteName o.field ++ " " ++ o.direction.keyword)

def orderItems (order : List OrderBy) : List Item :=
  if order.isEmpty then []
  else [.blank, .word "ORDER", .blank, .word "BY", .blank] ++ Item.join Item.comma
    (order.map fun o => [.name o.field, .blank, .word o.direction.keyword])

def limitItems (n : UInt64) : List Item :=
  [.blank, .word "LIMIT", .blank, .token (.number (Text.Numeral.ofNat n.toNat))]

def offsetItems (n : UInt64) : List Item :=
  [.blank, .word "OFFSET", .blank, .token (.number (Text.Numeral.ofNat n.toNat))]

def unboundedItems : Dialect → List Item
  | .postgres => []
  | .sqlite => [.blank, .word "LIMIT", .blank, .token (.number "-1")]

def pagingItems (d : Dialect) (limit offset : Option UInt64) : List Item :=
  match limit, offset with
  | none, none => []
  | none, some n => unboundedItems d ++ offsetItems n
  | some n, none => limitItems n
  | some n, some m => limitItems n ++ offsetItems m

/-- What stands behind the filter. -/
def tailItems (c : Compiler) (g : SearchGraph) : List Item :=
  orderItems g.order ++ pagingItems c.dialect g.limit g.offset

theorem projection_eq_ok {c : Compiler} {fields : List String} {columns : String}
    (ok : c.projection fields = .ok columns) :
    columns = columnText fields ∧ ∀ f ∈ fields, ∃ column, c.resolve f = .ok column := by
  rw [projection] at ok
  rw [columnText]
  split at ok
  · next none =>
    cases ok
    rw [if_pos none]
    rw [List.isEmpty_iff] at none
    exact ⟨rfl, by simp [none]⟩
  · next some =>
    obtain ⟨resolved, each, rfl⟩ := Outcome.map_eq_ok.mp ok
    refine ⟨(if_neg some).symm, fun f member => ?_⟩
    obtain ⟨column, _, found⟩ :=
      Outcome.exists_of_mem_sources (Outcome.mapM_eq_ok.mp each) member
    exact ⟨column, found⟩

theorem columnText_spells (fields : List String) :
    Item.Spells (columnText fields) (columnItems fields) := by
  rw [columnText, columnItems]
  split
  · exact Item.spells_symbol "*"
  · exact Item.spells_names fields

/-- Adds the order once its fields have been resolved. -/
def writeOrder (b : Buffer) (order : List OrderBy) : Buffer :=
  if order.isEmpty then b else b.push (orderText order)

/-- Whether an order is accepted has nothing to do with what stands before it. -/
theorem orderClause_eq_ok {c : Compiler} {b ordered : Buffer} {order : List OrderBy}
    (ok : c.orderClause b order = .ok ordered) :
    (∀ other, c.orderClause other order = .ok (writeOrder other order)) ∧
      ∀ o ∈ order, ∃ column, c.resolve o.field = .ok column := by
  simp only [orderClause, writeOrder] at ok ⊢
  split at ok
  · next none =>
    rw [List.isEmpty_iff] at none
    simp [none]
  · next some =>
    obtain ⟨terms, each, done⟩ := Outcome.bind_eq_ok.mp ok
    have resolved : List.Forall₂ (fun o term => (∃ column, c.resolve o.field = .ok column) ∧
        term = quoteName o.field ++ " " ++ o.direction.keyword) order terms := by
      refine (Outcome.mapM_eq_ok.mp each).imp fun o term found => ?_
      obtain ⟨column, known, same⟩ := Outcome.bind_eq_ok.mp found
      cases same
      rw [(resolve_eq_ok known).2]
      exact ⟨⟨column, known⟩, rfl⟩
    have texts := Outcome.eq_map_of_results (resolved.imp fun _ _ found => found.2)
    refine ⟨fun other => ?_, fun o member => ?_⟩
    · rw [if_neg some, if_neg some, orderText, if_neg some, ← texts]
      exact Outcome.bind_eq_ok.mpr ⟨terms, each, rfl⟩
    · obtain ⟨term, _, known, _⟩ := Outcome.exists_of_mem_sources resolved member
      exact known

/-- A selection that is accepted has its filter between the columns and the order. -/
theorem select_eq_ok {c : Compiler} {fields : List String} {g : SearchGraph} {s : Statement} :
    c.select fields g = .ok s ↔
      c.projection fields = .ok (columnText fields) ∧
      (∀ b, c.orderClause b g.order = .ok (writeOrder b g.order)) ∧
      ∃ filtered, c.whereClause
          (Buffer.empty.push ("SELECT " ++ columnText fields ++ " FROM " ++ c.table)) g.filter =
            .ok filtered ∧
        (pagingClause c.dialect (writeOrder filtered g.order) g.limit g.offset).finish c.dialect =
          .ok s := by
  simp only [select, Outcome.bind_eq_ok]
  constructor
  · intro given
    obtain ⟨columns, projected, filtered, found, ordered, sorted, done⟩ := given
    obtain ⟨rfl, _⟩ := projection_eq_ok projected
    obtain ⟨always, _⟩ := orderClause_eq_ok sorted
    rw [always filtered, Except.ok.injEq] at sorted
    rw [← sorted] at done
    exact ⟨projected, always, filtered, found, done⟩
  · intro given
    obtain ⟨projected, always, filtered, found, done⟩ := given
    exact ⟨_, projected, filtered, found, _, always filtered, done⟩

variable {b : Buffer} {is : List Item}

theorem writeOrder_reads (reads : b.Reads is) (order : List OrderBy) :
    (writeOrder b order).Reads (is ++ orderItems order) := by
  rw [writeOrder, orderItems]
  split
  · rw [List.append_nil]
    exact reads
  · next some =>
    have terms : List.Forall₂ Item.Spells
        (order.map fun o => quoteName o.field ++ " " ++ o.direction.keyword)
        (order.map fun o => [.name o.field, .blank, .word o.direction.keyword]) := by
      rw [List.forall₂_map_left_iff, List.forall₂_map_right_iff, List.forall₂_same]
      exact fun o _ => ((Item.spells_name o.field).append Item.spells_blank).append
        (Item.spells_word o.direction.keyword)
    have keyword : Item.Spells " ORDER BY "
        [.blank, .word "ORDER", .blank, .word "BY", .blank] := ⟨rfl, fun _ _ => rfl⟩
    rw [orderText, if_neg some]
    exact reads.push (keyword.append (Item.spells_intercalate Item.spells_comma terms))

theorem limit_spells (n : UInt64) :
    Item.Spells (" LIMIT " ++ Text.Numeral.ofNat n.toNat) (limitItems n) := by
  have keyword : Item.Spells " LIMIT " [.blank, .word "LIMIT", .blank] := ⟨rfl, fun _ _ => rfl⟩
  exact keyword.append (Item.spells_number _)

theorem offset_spells (n : UInt64) :
    Item.Spells (" OFFSET " ++ Text.Numeral.ofNat n.toNat) (offsetItems n) := by
  have keyword : Item.Spells " OFFSET " [.blank, .word "OFFSET", .blank] := ⟨rfl, fun _ _ => rfl⟩
  exact keyword.append (Item.spells_number _)

theorem unbounded_spells (d : Dialect) : Item.Spells d.unboundedLimit (unboundedItems d) := by
  cases d <;> exact ⟨rfl, fun _ _ => rfl⟩

theorem pagingClause_reads (d : Dialect) (reads : b.Reads is) (limit offset : Option UInt64) :
    (pagingClause d b limit offset).Reads (is ++ pagingItems d limit offset) := by
  rcases limit with _ | n <;> rcases offset with _ | m
  · rw [pagingItems, List.append_nil]
    exact reads
  · rw [pagingItems, ← List.append_assoc]
    exact (reads.push (unbounded_spells d)).push (offset_spells m)
  · exact reads.push (limit_spells n)
  · rw [pagingItems, ← List.append_assoc]
    exact (reads.push (limit_spells n)).push (offset_spells m)

theorem select_spells (c : Compiler) (fields : List String) :
    Item.Spells ("SELECT " ++ columnText fields ++ " FROM " ++ c.table) (c.selectItems fields) := by
  have keyword : Item.Spells "SELECT " [.word "SELECT", .blank] := ⟨rfl, fun _ _ => rfl⟩
  have source : Item.Spells " FROM " [.blank, .word "FROM", .blank] := ⟨rfl, fun _ _ => rfl⟩
  have all := ((keyword.append (columnText_spells fields)).append source).append
    (Item.spells_name c.entity.tableName)
  rw [List.append_assoc] at all
  exact all

theorem params_tailItems (c : Compiler) (g : SearchGraph) : Item.params (c.tailItems g) = [] := by
  have order : Item.params (orderItems g.order) = [] := by
    rw [orderItems]
    split
    · rfl
    · rw [Item.params_append, Item.params_join rfl, List.flatMap_map]
      simp [Item.params]
  have paging : Item.params (pagingItems c.dialect g.limit g.offset) = [] := by
    rcases g.limit with _ | n <;> rcases g.offset with _ | m <;> cases c.dialect <;> rfl
  rw [tailItems, Item.params_append, order, paging]
  rfl

theorem tidy_selectItems (c : Compiler) (fields : List String) :
    Item.Tidy false (c.selectItems fields) := by
  have columns : Item.Tidy false (columnItems fields) := by
    rw [columnItems]
    split
    · simp [Token.proper_mark]
    · exact Item.tidy_list (by simp)
  simp +decide [selectItems, columns, Token.Proper]

theorem tidy_orderItems (order : List OrderBy) : Item.Tidy true (orderItems order) := by
  rw [orderItems]
  split
  · trivial
  · have terms : Item.Tidy false (Item.join Item.comma
        (order.map fun o => [.name o.field, .blank, .word o.direction.keyword])) := by
      apply Item.tidy_list
      intro is member
      obtain ⟨o, _, rfl⟩ := List.mem_map.mp member
      cases o.direction <;> simp +decide [Token.Proper]
    simp +decide [terms, Token.Proper]

theorem tidy_pagingItems (d : Dialect) (limit offset : Option UInt64) :
    Item.Tidy true (pagingItems d limit offset) := by
  have limited (n : UInt64) : Item.Tidy true (limitItems n) := by
    simp +decide [limitItems, proper_number, show (Token.word "LIMIT").Proper from rfl]
  have skipped (n : UInt64) : Item.Tidy true (offsetItems n) := by
    simp +decide [offsetItems, proper_number, show (Token.word "OFFSET").Proper from rfl]
  have unbounded : Item.Tidy true (unboundedItems d) := by
    have minus : (Token.number "-1").Proper :=
      .inr ⟨['1'], rfl, isMagnitude_digit (by decide)⟩
    cases d <;> simp +decide [unboundedItems, minus, show (Token.word "LIMIT").Proper from rfl]
  rcases limit with _ | n <;> rcases offset with _ | m
  · trivial
  · exact unbounded.append (skipped m)
  · exact limited n
  · exact (limited n).append (skipped m)

theorem tidy_tailItems (c : Compiler) (g : SearchGraph) : Item.Tidy true (c.tailItems g) :=
  (tidy_orderItems g.order).append (tidy_pagingItems c.dialect g.limit g.offset)

/-- No part of a selection but its filter has the word that begins a filter. -/
theorem where_notMem (c : Compiler) (fields : List String) (g : SearchGraph) :
    .word "WHERE" ∉ c.selectItems fields ++ c.tailItems g := by
  have columns : .word "WHERE" ∉ columnItems fields := by
    intro member
    rw [columnItems] at member
    split at member
    · simp at member
    · rcases Item.mem_join member with between | ⟨is, inside, found⟩
      · simp [Item.comma] at between
      · obtain ⟨f, _, rfl⟩ := List.mem_map.mp inside
        simp at found
  have order : .word "WHERE" ∉ orderItems g.order := by
    intro member
    rw [orderItems] at member
    split at member
    · cases member
    · rcases List.mem_append.mp member with keyword | terms
      · simp at keyword
      · rcases Item.mem_join terms with between | ⟨is, inside, found⟩
        · simp [Item.comma] at between
        · obtain ⟨o, _, rfl⟩ := List.mem_map.mp inside
          cases direction : o.direction <;> simp [direction, Direction.keyword] at found
  have paging : .word "WHERE" ∉ pagingItems c.dialect g.limit g.offset := by
    rcases g.limit with _ | n <;> rcases g.offset with _ | m <;> cases c.dialect <;>
      simp [pagingItems, limitItems, offsetItems, unboundedItems]
  simp [selectItems, tailItems, columns, order, paging]

end Compiler

end EntitySchema.Sql
