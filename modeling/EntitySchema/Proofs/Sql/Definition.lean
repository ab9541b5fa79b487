import EntitySchema.Proofs.Sql.Command

/-!
The definition of a table as SQL reads it. All of it is one list of definitions, and what is read of it
here are the groups of columns behind the word that makes them unique.
-/

namespace EntitySchema.Sql

open Token

/-- The names in the parentheses with which these tokens begin. -/
def groupBehind : List Token → List String
  | .symbol "(" :: rest => match Command.names? rest with
    | some (names, _) => names
    | none => []
  | _ => []

/-- The groups behind each word for uniqueness; a word without a group counts as an empty one. -/
def uniqueGroups : List Token → List (List String)
  | [] => []
  | .word "UNIQUE" :: rest => groupBehind rest :: uniqueGroups rest
  | _ :: rest => uniqueGroups rest

theorem uniqueGroups_append {front : List Token} (none : .word "UNIQUE" ∉ front)
    (rest : List Token) : uniqueGroups (front ++ rest) = uniqueGroups rest := by
  induction front with
  | nil => rfl
  | cons t others ih =>
    rw [List.mem_cons, not_or] at none
    rw [List.cons_append, uniqueGroups, ih none.2]
    exact fun here => none.1 here.symm

namespace Item

/-- Wherever the items stand, they declare these groups. -/
def Declares (is : List Item) (groups : List (List String)) : Prop :=
  ∀ fill index rest,
    uniqueGroups (tokens fill index is ++ rest) = groups ++ uniqueGroups rest

theorem Declares.append {is js : List Item} {first second : List (List String)}
    (left : Declares is first) (right : Declares js second) :
    Declares (is ++ js) (first ++ second) := by
  intro fill index rest
  rw [tokens_append, List.append_assoc, left, right, List.append_assoc]

theorem declares_of_notMem {is : List Item} (none : params is = [])
    (silent : .word "UNIQUE" ∉ is) : Declares is [] := by
  intro fill index rest
  apply uniqueGroups_append
  intro member
  rcases mem_tokens member with here | ⟨filled, _⟩
  · exact silent here
  · exact filled none

theorem declares_join {iss : List (List Item)} {groups : List (List (List String))}
    (each : List.Forall₂ Declares iss groups) : Declares (join comma iss) groups.flatten := by
  have between : Declares comma [] := declares_of_notMem rfl (by simp [comma])
  induction each with
  | nil => exact declares_of_notMem rfl List.not_mem_nil
  | @cons is gs iss gss first others ih =>
    cases others with
    | nil =>
      rw [List.flatten_cons, List.flatten_nil, List.append_nil]
      exact first
    | cons second others =>
      rw [join_cons_cons, List.flatten_cons]
      have front := first.append between
      rw [List.append_nil] at front
      exact front.append ih

end Item

namespace Compiler

/-- A list of names in parentheses. -/
def groupItems (names : List String) : List Item :=
  [.symbol "("] ++ Item.join Item.comma (names.map fun n => [.name n]) ++ [.symbol ")"]

def uniqueItems (group : List String) : List Item :=
  [.word "UNIQUE", .blank] ++ groupItems group

def primaryItems (names : List String) : List Item :=
  [.word "PRIMARY", .blank, .word "KEY", .blank] ++ groupItems names

theorem groupItems_spells (names : List String) :
    Item.Spells ("(" ++ nameList names ++ ")") (groupItems names) :=
  ((Item.spells_symbol "(").append (Item.spells_names names)).append (Item.spells_symbol ")")

theorem tidy_groupItems (names : List String) : Item.Tidy false (groupItems names) := by
  have listed : Item.Tidy false (Item.join Item.comma (names.map fun n => [.name n])) :=
    Item.tidy_list (by simp)
  simp [groupItems, listed, Token.proper_mark]

theorem declares_groupItems (names : List String) : Item.Declares (groupItems names) [] := by
  apply Item.declares_of_notMem
  · simp [groupItems, Item.params, Command.params_names]
  · intro member
    simp only [groupItems, List.mem_append, List.mem_singleton] at member
    rcases member with (opening | inside) | closing
    · cases opening
    · rcases Item.mem_join inside with between | ⟨is, listed, found⟩
      · simp [Item.comma] at between
      · obtain ⟨n, _, rfl⟩ := List.mem_map.mp listed
        simp at found
    · cases closing

theorem groupBehind_groupItems {names : List String} (nonempty : names ≠ []) (fill : Nat → Token)
    (index : Nat) (rest : List Token) :
    groupBehind (Item.tokens fill index (groupItems names) ++ rest) = names := by
  have tokens : Item.tokens fill index (groupItems names) ++ rest =
      .symbol "(" :: (listed (names.map .name) ++ .symbol ")" :: rest) := by
    simp [groupItems, Item.tokens, Command.tokens_names]
  rw [tokens, groupBehind, Command.names?_listed nonempty]

theorem declares_uniqueItems {group : List String} (nonempty : group ≠ []) :
    Item.Declares (uniqueItems group) [group] := by
  intro fill index rest
  have tokens : Item.tokens fill index (uniqueItems group) ++ rest =
      .word "UNIQUE" :: (Item.tokens fill index (groupItems group) ++ rest) := rfl
  rw [tokens, uniqueGroups, groupBehind_groupItems nonempty, declares_groupItems group]
  rfl

/-- The name of the type is made of whole tokens, none of which is the word for uniqueness. -/
def Legible (sqlType : String) : Prop :=
  ∃ is, Item.Spells sqlType is ∧ Item.Tidy false is ∧ .word "UNIQUE" ∉ is

/-- The items of one column. -/
def definitionItems (d : Dialect) (column : Column) (type : List Item) : List Item :=
  [.name column.name, .blank] ++ type ++
    (if column.nullable then [] else [.blank, .word "NOT", .blank, .word "NULL"]) ++
    match column.default with
    | some v => [.blank, .word "DEFAULT", .blank, .token (d.literalToken v)]
    | none => []

/-- A column is defined unless its default has no literal. -/
theorem columnDefinition_eq_ok {c : Compiler} {column : Column} {text : String} :
    c.columnDefinition column = .ok text ↔
      (∀ v, column.default = some v → ∃ literal, c.dialect.literal v = .ok literal) ∧
      text = quoteName column.name ++ " " ++ column.sqlType ++
        (if column.nullable then "" else " NOT NULL") ++
        match column.default with
        | some v => " DEFAULT " ++ c.dialect.literalText v
        | none => "" := by
  unfold columnDefinition
  cases column.default with
  | none =>
    constructor
    · intro same
      exact ⟨nofun, (Except.ok.inj same).symm⟩
    · rintro ⟨_, rfl⟩
      rfl
  | some v =>
    simp only [Outcome.bind_eq_ok, Outcome.map_eq_ok, Option.some.injEq, forall_eq']
    constructor
    · rintro ⟨_, ⟨literal, written, rfl⟩, same⟩
      rw [Dialect.literalText_of_ok written]
      exact ⟨⟨literal, written⟩, (Except.ok.inj same).symm⟩
    · rintro ⟨⟨literal, written⟩, rfl⟩
      exact ⟨_, ⟨literal, written, rfl⟩, by rw [Dialect.literalText_of_ok written]⟩

theorem columnDefinition_spells {c : Compiler} {column : Column} {text : String} {type : List Item}
    (ok : c.columnDefinition column = .ok text) (typed : Item.Spells column.sqlType type) :
    Item.Spells text (definitionItems c.dialect column type) := by
  rw [columnDefinition_eq_ok] at ok
  obtain ⟨written, rfl⟩ := ok
  have name := ((Item.spells_name column.name).append Item.spells_blank).append typed
  have null : Item.Spells (if column.nullable then "" else " NOT NULL")
      (if column.nullable then [] else [.blank, .word "NOT", .blank, .word "NULL"]) := by
    split <;> exact ⟨rfl, fun _ _ => rfl⟩
  refine (name.append null).append ?_
  cases held : column.default with
  | none => exact ⟨rfl, fun _ _ => rfl⟩
  | some v =>
    obtain ⟨literal, written⟩ := written v held
    have keyword : Item.Spells " DEFAULT " [.blank, .word "DEFAULT", .blank] := ⟨rfl, fun _ _ => rfl⟩
    have token := Item.spells_token (c.dialect.literalToken v)
    rw [← (Dialect.literal_token written).1, ← Dialect.literalText_of_ok written] at token
    exact keyword.append token

theorem tidy_definitionItems {c : Compiler} {column : Column} {text : String} {type : List Item}
    (ok : c.columnDefinition column = .ok text) (tidy : Item.Tidy false type) :
    Item.Tidy false (definitionItems c.dialect column type) := by
  have name : Item.Tidy false ([.name column.name, .blank] ++ type) := by
    simpa using tidy
  have null : Item.Tidy true
      (if column.nullable then [] else [.blank, .word "NOT", .blank, .word "NULL"]) := by
    split
    · trivial
    · simp +decide [Token.Proper]
  refine (name.append null).append ?_
  cases held : column.default with
  | none => trivial
  | some v =>
    rw [columnDefinition_eq_ok] at ok
    obtain ⟨literal, written⟩ := ok.1 v held
    have proper := (Dialect.literal_token written).2
    simp +decide [proper, show (Token.word "DEFAULT").Proper from rfl]

theorem declares_definitionItems {d : Dialect} {column : Column} {type : List Item}
    (none : Item.params type = []) (silent : .word "UNIQUE" ∉ type) :
    Item.Declares (definitionItems d column type) [] := by
  have literal (v : Value) : d.literalToken v ≠ .word "UNIQUE" := by
    cases v with
    | bool b => cases d <;> cases b <;> simp [Dialect.literalToken]
    | _ => simp [Dialect.literalToken]
  apply Item.declares_of_notMem
  · rw [definitionItems]
    cases column.nullable <;> cases column.default <;> simp [Item.params, none]
  · rw [definitionItems]
    cases column.nullable <;> cases column.default <;> simp [silent, (literal _).symm]

/-- The text of a table, given those of its columns. -/
def tableText (c : Compiler) (columns : List String) : String :=
  "CREATE TABLE IF NOT EXISTS " ++ c.table ++ " (" ++ ", ".intercalate (columns ++
    ("PRIMARY KEY (" ++ nameList c.entity.keyColumns ++ ")") ::
      c.entity.uniqueKeys.map fun group => "UNIQUE (" ++ nameList group ++ ")") ++ ")"

/-- The items of a table, given those of its columns. -/
def tableItems (c : Compiler) (columns : List (List Item)) : List Item :=
  [.word "CREATE", .blank, .word "TABLE", .blank, .word "IF", .blank, .word "NOT", .blank,
    .word "EXISTS", .blank, .name c.entity.tableName, .blank, .symbol "("] ++
  Item.join Item.comma (columns ++ primaryItems c.entity.keyColumns ::
    c.entity.uniqueKeys.map uniqueItems) ++ [.symbol ")"]

theorem exists_definitionItems {c : Compiler} {columns : List Column} {texts : List String}
    (each : List.Forall₂ (fun column text => c.columnDefinition column = .ok text) columns texts)
    (legible : ∀ column ∈ columns, Legible column.sqlType) :
    ∃ iss, List.Forall₂ Item.Spells texts iss ∧
      ∀ is ∈ iss, Item.Tidy false is ∧ Item.Declares is [] := by
  have items : ∀ text ∈ texts, ∃ is, Item.Spells text is ∧ Item.Tidy false is ∧ Item.Declares is [] := by
    intro text member
    obtain ⟨column, inside, ok⟩ := Outcome.exists_of_mem_results each member
    obtain ⟨type, spells, tidy, silent⟩ := legible column inside
    exact ⟨_, columnDefinition_spells ok spells, tidy_definitionItems ok tidy,
      declares_definitionItems spells.1 silent⟩
  obtain ⟨iss, all⟩ := Outcome.exists_results items
  refine ⟨iss, all.imp fun _ _ => And.left, fun is member => ?_⟩
  obtain ⟨_, _, known⟩ := Outcome.exists_of_mem_results all member
  exact known.2

theorem tableText_spells {c : Compiler} {texts : List String} {iss : List (List Item)}
    (spells : List.Forall₂ Item.Spells texts iss) :
    Item.Spells (c.tableText texts) (c.tableItems iss) := by
  have head : Item.Spells ("CREATE TABLE IF NOT EXISTS " ++ c.table ++ " (")
      [.word "CREATE", .blank, .word "TABLE", .blank, .word "IF", .blank, .word "NOT", .blank,
        .word "EXISTS", .blank, .name c.entity.tableName, .blank, .symbol "("] := by
    have keyword : Item.Spells "CREATE TABLE IF NOT EXISTS " [.word "CREATE", .blank, .word "TABLE",
      .blank, .word "IF", .blank, .word "NOT", .blank, .word "EXISTS", .blank] := ⟨rfl, fun _ _ => rfl⟩
    exact (keyword.append (Item.spells_name _)).append ⟨rfl, fun _ _ => rfl⟩
  have primary : Item.Spells ("PRIMARY KEY (" ++ nameList c.entity.keyColumns ++ ")")
      (primaryItems c.entity.keyColumns) := by
    have keyword : Item.Spells "PRIMARY KEY " [.word "PRIMARY", .blank, .word "KEY", .blank] :=
      ⟨rfl, fun _ _ => rfl⟩
    have all := keyword.append (groupItems_spells c.entity.keyColumns)
    rwa [← String.append_assoc, ← String.append_assoc] at all
  have uniques : List.Forall₂ Item.Spells
      (c.entity.uniqueKeys.map fun group => "UNIQUE (" ++ nameList group ++ ")")
      (c.entity.uniqueKeys.map uniqueItems) := by
    rw [List.forall₂_map_left_iff, List.forall₂_map_right_iff, List.forall₂_same]
    intro group _
    have keyword : Item.Spells "UNIQUE " [.word "UNIQUE", .blank] := ⟨rfl, fun _ _ => rfl⟩
    have all := keyword.append (groupItems_spells group)
    rwa [← String.append_assoc, ← String.append_assoc] at all
  have definitions := Item.spells_intercalate Item.spells_comma
    (List.rel_append spells (.cons primary uniques))
  exact (head.append definitions).append (Item.spells_symbol ")")

theorem createTable_eq_ok {c : Compiler} {s : Statement} : c.createTable = .ok s ↔
    ∃ texts, List.Forall₂ (fun column text => c.columnDefinition column = .ok text)
      c.entity.columns texts ∧
        (Buffer.empty.push (c.tableText texts)).finish c.dialect = .ok s := by
  simp only [← Outcome.mapM_eq_ok]
  exact Outcome.bind_eq_ok

/-- A table has no parameters, so both its texts are that of its items. -/
theorem createTable_spells {c : Compiler} {s : Statement} (ok : c.createTable = .ok s)
    (legible : ∀ column ∈ c.entity.columns, Legible column.sqlType) :
    ∃ iss, Item.Spells s.sql (c.tableItems iss) ∧ s = ⟨s.sql, [], s.sql⟩ ∧
      ∀ is ∈ iss, Item.Tidy false is ∧ Item.Declares is [] := by
  obtain ⟨texts, each, done⟩ := createTable_eq_ok.mp ok
  obtain ⟨iss, spells, known⟩ := exists_definitionItems each legible
  have whole := tableText_spells (c := c) spells
  rw [(Buffer.reads_empty.push whole).finish whole] at done
  cases done
  exact ⟨iss, whole, rfl, known⟩

theorem tidy_tableItems {c : Compiler} {iss : List (List Item)}
    (tidy : ∀ is ∈ iss, Item.Tidy false is) : Item.Tidy false (c.tableItems iss) := by
  have definitions : Item.Tidy false (Item.join Item.comma
      (iss ++ primaryItems c.entity.keyColumns :: c.entity.uniqueKeys.map uniqueItems)) := by
    apply Item.tidy_list
    intro is member
    rcases List.mem_append.mp member with column | other
    · exact tidy is column
    · rcases List.mem_cons.mp other with rfl | unique
      · have group := tidy_groupItems c.entity.keyColumns
        simp +decide [primaryItems, group, Token.Proper]
      · obtain ⟨g, _, rfl⟩ := List.mem_map.mp unique
        have group := tidy_groupItems g
        simp +decide [uniqueItems, group, Token.Proper]
  simp +decide [tableItems, definitions, Token.Proper]

theorem declares_tableItems {c : Compiler} {iss : List (List Item)}
    (silent : ∀ is ∈ iss, Item.Declares is []) (nonempty : ∀ g ∈ c.entity.uniqueKeys, g ≠ []) :
    Item.Declares (c.tableItems iss) c.entity.uniqueKeys := by
  have primary : Item.Declares (primaryItems c.entity.keyColumns) [] :=
    (Item.declares_of_notMem rfl (by simp)).append (declares_groupItems _)
  have columns : List.Forall₂ Item.Declares iss (iss.map fun _ => []) := by
    rw [List.forall₂_map_right_iff, List.forall₂_same]
    exact silent
  have uniques : List.Forall₂ Item.Declares (c.entity.uniqueKeys.map uniqueItems)
      (c.entity.uniqueKeys.map fun g => [g]) := by
    rw [List.forall₂_map_left_iff, List.forall₂_map_right_iff, List.forall₂_same]
    exact fun g member => declares_uniqueItems (nonempty g member)
  have definitions := Item.declares_join (List.rel_append columns (.cons primary uniques))
  have head : Item.Declares [.word "CREATE", .blank, .word "TABLE", .blank, .word "IF", .blank,
      .word "NOT", .blank, .word "EXISTS", .blank, .name c.entity.tableName, .blank, .symbol "("] [] :=
    Item.declares_of_notMem rfl (by simp)
  have foot : Item.Declares [.symbol ")"] [] := Item.declares_of_notMem rfl (by simp)
  have all := (head.append definitions).append foot
  have same : [] ++ ((iss.map fun _ => []) ++ [] :: c.entity.uniqueKeys.map fun g => [g]).flatten ++ [] =
      c.entity.uniqueKeys := by
    simp [← List.flatMap_def]
  rwa [same] at all

/-- A table is defined with one clause for each of its unique groups, and no other one. -/
theorem createTable_uniques {c : Compiler} {s : Statement} (ok : c.createTable = .ok s)
    (legible : ∀ column ∈ c.entity.columns, Legible column.sqlType)
    (nonempty : ∀ g ∈ c.entity.uniqueKeys, g ≠ []) :
    s.parameterized = s.sql ∧
      ∃ ts, tokens? s.sql = some ts ∧ uniqueGroups ts = c.entity.uniqueKeys := by
  obtain ⟨iss, spells, same, known⟩ := createTable_spells ok legible
  have read := Item.tokens?_write (Statement.fills_placeholders c.dialect)
    (tidy_tableItems (c := c) fun is member => (known is member).1)
  rw [spells.2] at read
  refine ⟨by rw [same], _, read, ?_⟩
  have declares := declares_tableItems (fun is member => (known is member).2) nonempty
    (Statement.placeholders c.dialect) 0 []
  simpa [uniqueGroups] using declares

/-- A table can be defined unless one of the defaults is a float that is not finite. -/
theorem exists_createTable {c : Compiler} : (∃ s, c.createTable = .ok s) ↔
    ∀ column ∈ c.entity.columns, ∀ x, column.default = some (.float x) → x.isFinite = true := by
  constructor
  · rintro ⟨s, ok⟩ column member x held
    obtain ⟨texts, each, _⟩ := createTable_eq_ok.mp ok
    obtain ⟨text, _, defined⟩ := Outcome.exists_of_mem_sources each member
    obtain ⟨literal, written⟩ := (columnDefinition_eq_ok.mp defined).1 _ held
    by_contra infinite
    rw [Bool.not_eq_true] at infinite
    rw [Dialect.literal_eq_error.mpr ⟨x, rfl, infinite, rfl⟩] at written
    cases written
  · intro finite
    have defined : ∀ column ∈ c.entity.columns, ∃ text, c.columnDefinition column = .ok text := by
      intro column member
      refine ⟨_, columnDefinition_eq_ok.mpr ⟨fun v held => ?_, rfl⟩⟩
      cases written : c.dialect.literal v with
      | ok literal => exact ⟨literal, rfl⟩
      | error e =>
        obtain ⟨x, rfl, infinite, _⟩ := Dialect.literal_eq_error.mp written
        rw [finite column member x held] at infinite
        cases infinite
    obtain ⟨texts, each⟩ := Outcome.exists_results defined
    obtain ⟨s, done⟩ := Buffer.exists_finish (d := c.dialect) (b := Buffer.empty.push (c.tableText texts))
      fun x bound => by cases bound
    exact ⟨s, createTable_eq_ok.mpr ⟨texts, each, done⟩⟩

end Compiler

/-! The types of both dialects. -/

open Compiler Text.Numeral

theorem legible_words (words : List String)
    (plain : (words.all fun w => isWord w && w != "UNIQUE") = true) :
    Legible (" ".intercalate words) := by
  have each : ∀ w ∈ words, isWord w = true ∧ w ≠ "UNIQUE" := by simpa using plain
  refine ⟨Item.join [.blank] (words.map fun w => [.word w]), ?_, ?_, ?_⟩
  · apply Item.spells_intercalate Item.spells_blank
    rw [List.forall₂_map_right_iff, List.forall₂_same]
    exact fun w _ => Item.spells_word w
  · refine Item.tidy_join (by simp) (by simp) fun is member => ?_
    obtain ⟨w, inside, rfl⟩ := List.mem_map.mp member
    exact ⟨(each w inside).1, rfl, trivial⟩
  · intro member
    rcases Item.mem_join member with between | ⟨is, inside, found⟩
    · simp at between
    · obtain ⟨w, known, rfl⟩ := List.mem_map.mp inside
      cases List.mem_singleton.mp found
      exact (each _ known).2 rfl

/-- A type with numbers in parentheses. -/
theorem Compiler.Legible.sized {base : String} (legible : Legible base) {numbers : List String}
    (proper : ∀ n ∈ numbers, (Token.number n).Proper) :
    Legible (base ++ "(" ++ ",".intercalate numbers ++ ")") := by
  obtain ⟨is, spells, tidy, silent⟩ := legible
  have listed : Item.Spells (",".intercalate numbers)
      (Item.join [.symbol ","] (numbers.map fun n => [.token (.number n)])) := by
    apply Item.spells_intercalate (Item.spells_symbol ",")
    rw [List.forall₂_map_right_iff, List.forall₂_same]
    exact fun n _ => Item.spells_number n
  have apart : Item.Tidy false
      (Item.join [.symbol ","] (numbers.map fun n => [.token (.number n)])) := by
    refine Item.tidy_join (by simp [Token.proper_mark]) (by simp) fun is member => ?_
    obtain ⟨n, inside, rfl⟩ := List.mem_map.mp member
    exact ⟨proper n inside, rfl, trivial⟩
  refine ⟨_, ((spells.append (Item.spells_symbol "(")).append listed).append (Item.spells_symbol ")"),
    ?_, ?_⟩
  · rw [List.append_assoc, List.append_assoc]
    refine tidy.append ?_
    simp [apart, Token.proper_mark]
  · simp only [List.mem_append, silent, false_or, not_or]
    refine ⟨⟨by simp, fun member => ?_⟩, by simp⟩
    rcases Item.mem_join member with between | ⟨is, inside, found⟩
    · simp at between
    · obtain ⟨n, _, rfl⟩ := List.mem_map.mp inside
      simp at found

theorem legible_varying : Legible "character varying" :=
  legible_words ["character", "varying"] (by decide)

theorem legible_character (n : String) (proper : (Token.number n).Proper) :
    Legible ("character(" ++ n ++ ")") := by
  have base : Legible "character" := legible_words ["character"] (by decide)
  have all := base.sized (List.forall_mem_singleton.mpr proper)
  rwa [String.intercalate_singleton] at all

theorem legible_varying_sized (n : String) (proper : (Token.number n).Proper) :
    Legible ("character varying(" ++ n ++ ")") := by
  have all := legible_varying.sized (List.forall_mem_singleton.mpr proper)
  rwa [String.intercalate_singleton] at all

theorem legible_numeric (precision scale : Nat) :
    Legible ("numeric(" ++ ofNat precision ++ "," ++ ofNat scale ++ ")") := by
  have base : Legible "numeric" := legible_words ["numeric"] (by decide)
  have proper : ∀ n ∈ [ofNat precision, ofNat scale], (Token.number n).Proper := by
    rw [List.forall_mem_cons, List.forall_mem_singleton]
    exact ⟨proper_number precision, proper_number scale⟩
  have all := base.sized proper
  rwa [String.intercalate_cons_cons, String.intercalate_singleton, ← String.append_assoc,
    ← String.append_assoc] at all

theorem legible_postgresType {f : Field} {sqlType : String} (ok : postgresType f = .ok sqlType) :
    Legible sqlType := by
  have fixed (n : String) (digits : (!n.toList.isEmpty && n.toList.all isDigit) = true) :
      (Token.number n).Proper := by
    rw [Bool.and_eq_true, Bool.not_eq_true', List.isEmpty_eq_false_iff] at digits
    exact .inl (isMagnitude_of_digits digits.1 (List.all_eq_true.mp digits.2))
  unfold postgresType at ok
  generalize f.dataType = t at ok
  cases t with
  | email | phone | string | secret | url | enumString =>
    dsimp only at ok
    split at ok
    · split_ifs at ok with bounded
      · cases ok
        exact legible_varying_sized _ (proper_number _)
      · cases ok
        exact legible_varying
    · cases ok
      exact legible_varying
  | ulid =>
    cases ok
    exact legible_varying_sized "26" (fixed "26" (by decide))
  | countryCode =>
    cases ok
    exact legible_character "2" (fixed "2" (by decide))
  | currencyCode =>
    cases ok
    exact legible_character "3" (fixed "3" (by decide))
  | integer | enumNumber =>
    obtain ⟨wide, _, chosen⟩ := Outcome.bind_eq_ok.mp ok
    split_ifs at chosen
    · cases chosen
      exact legible_words ["bigint"] (by decide)
    · cases chosen
      exact legible_words ["integer"] (by decide)
  | float =>
    obtain ⟨option, _, rest⟩ := Outcome.bind_eq_ok.mp ok
    cases option with
    | none =>
      cases rest
      exact legible_words ["double", "precision"] (by decide)
    | some precision =>
      obtain ⟨scale, _, done⟩ := Outcome.bind_eq_ok.mp rest
      cases done
      exact legible_numeric _ _
  | uuid =>
    cases ok
    exact legible_words ["uuid"] (by decide)
  | boolean =>
    cases ok
    exact legible_words ["boolean"] (by decide)
  | date =>
    cases ok
    exact legible_words ["date"] (by decide)
  | time =>
    cases ok
    exact legible_words ["time", "without", "time", "zone"] (by decide)
  | dateTime =>
    cases ok
    exact legible_words ["timestamp", "with", "time", "zone"] (by decide)
  | localizedText =>
    cases ok
    exact legible_words ["jsonb"] (by decide)

theorem legible_sqliteType {f : Field} {sqlType : String} (ok : sqliteType f = .ok sqlType) :
    Legible sqlType := by
  have word (w : String) (plain : (isWord w && w != "UNIQUE") = true) : Legible w :=
    legible_words [w] (by rwa [List.all_cons, List.all_nil, Bool.and_true])
  unfold sqliteType at ok
  generalize f.dataType = t at ok
  cases t with
  | integer | enumNumber =>
    obtain ⟨wide, _, rfl⟩ := Outcome.map_eq_ok.mp ok
    exact word "INTEGER" (by decide)
  | float =>
    obtain ⟨precision, _, rfl⟩ := Outcome.map_eq_ok.mp ok
    cases precision with
    | none => exact word "REAL" (by decide)
    | some n => exact word "NUMERIC" (by decide)
  | email | phone | string | secret | url | ulid | uuid | boolean | date | time | dateTime | enumString
  | localizedText | countryCode | currencyCode =>
    cases ok
    exact word _ (by decide)

/-- The column types of both dialects are legible. -/
theorem Dialect.legible_columnType {d : Dialect} {f : Field} {sqlType : String}
    (ok : d.columnType f = .ok sqlType) : Legible sqlType := by
  cases d with
  | postgres => exact legible_postgresType ok
  | sqlite => exact legible_sqliteType ok

end EntitySchema.Sql
