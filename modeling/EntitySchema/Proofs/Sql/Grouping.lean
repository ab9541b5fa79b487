import EntitySchema.Proofs.Sql.Matching

/-!
Conjunctions and disjunctions of filters. A member without a statement matches every row, and so does
a group of such members. A conjunction means what its members mean. A disjunction leaves members
without a statement out, so it means less than its members if there are others as well.
-/

namespace EntitySchema.Sql

variable {α : Type}

theorem Truth.any_yes {ts : List Truth} : ts.foldr Truth.or .no = .yes ↔ ∃ t ∈ ts, t = .yes := by
  have or_eq_yes (x y : Truth) : x.or y = .yes ↔ x = .yes ∨ y = .yes := by
    cases x <;> cases y <;> decide
  induction ts with
  | nil => simp
  | cons t rest ih =>
    rw [List.foldr_cons, or_eq_yes, List.exists_mem_cons_iff]
    exact or_congr_right ih

namespace Tree

variable {ts : List (Tree Truth)}

theorem told_all : (Tree.all ts).told = .yes ↔ ∀ t ∈ ts, t.told = .yes := by
  have kept : ((ts.filterMap pruned).map value).foldr Truth.and .yes = .yes ↔
      ∀ t ∈ ts, t.told = .yes := by
    rw [Truth.all_yes]
    constructor
    · intro all t member
      rw [told]
      cases found : t.pruned with
      | none => rfl
      | some u => exact all _ (List.mem_map_of_mem (List.mem_filterMap.mpr ⟨t, member, found⟩))
    · intro all x inside
      obtain ⟨u, kept, rfl⟩ := List.mem_map.mp inside
      obtain ⟨t, member, found⟩ := List.mem_filterMap.mp kept
      have own := all t member
      rwa [told, found] at own
  rw [← kept, told, show Tree.all ts = group .and ts from rfl, pruned_group]
  split
  · next empty => rw [empty]; rfl
  · rw [Option.map_some, value_group]
    rfl

theorem told_any : (Tree.any ts).told = .yes ↔
    (∀ t ∈ ts, t.pruned = none) ∨ ∃ t ∈ ts, t.pruned ≠ none ∧ t.told = .yes := by
  rw [told, show Tree.any ts = group .or ts from rfl, pruned_group]
  split
  · next empty => exact iff_of_true rfl (.inl (List.filterMap_eq_nil_iff.mp empty))
  · next some =>
    rw [List.filterMap_eq_nil_iff] at some
    rw [or_iff_right some, Option.map_some, Option.getD_some, value_group]
    refine Truth.any_yes.trans ?_
    constructor
    · intro given
      obtain ⟨_, inside, yes⟩ := given
      obtain ⟨u, kept, rfl⟩ := List.mem_map.mp inside
      obtain ⟨t, member, found⟩ := List.mem_filterMap.mp kept
      refine ⟨t, member, by simp [found], ?_⟩
      rw [told, found]
      exact yes
    · intro given
      obtain ⟨t, member, left, yes⟩ := given
      obtain ⟨u, found⟩ := Option.ne_none_iff_exists'.mp left
      rw [told, found] at yes
      exact ⟨_, List.mem_map_of_mem (List.mem_filterMap.mpr ⟨t, member, found⟩), yes⟩

end Tree

namespace Compiler

variable {c : Compiler} {children : List SearchNode}

/-- Each filter is accepted, with this result and this truth at the row. -/
def Answers (c : Compiler) (db : Database α) (row : Row α) (nodes : List SearchNode)
    (answers : List (Option Statement × Truth)) : Prop :=
  List.Forall₂ (fun node a => c.compileFilter node = .ok a.1 ∧ c.Tells a.1 db row a.2) nodes answers

theorem exists_group_iff (k : Connective) :
    (∃ r, c.compileFilter (Tree.group k children) = .ok r) ↔
      ∀ node ∈ children, ∃ r, c.compileFilter node = .ok r := by
  simp only [exists_compileFilter_iff, Tree.leaves_group, List.mem_flatMap]
  constructor
  · exact fun all node member cond leaf => all cond ⟨node, member, leaf⟩
  · exact fun all cond ⟨node, member, leaf⟩ => all node member cond leaf

/-- The answers of a group's members, with the tests behind them. -/
theorem group_answers {k : Connective} {r : Option Statement}
    (ok : c.compileFilter (Tree.group k children) = .ok r) (db : Database α) (row : Row α) :
    ∃ members : List (Option Statement × Tree Truth),
      c.Answers db row children (members.map fun m => (m.1, m.2.told)) ∧
      (∀ m ∈ members, m.1 = none ↔ m.2.pruned = none) ∧
      (r = none ↔ ∀ m ∈ members, m.1 = none) ∧
      c.Tells r db row (Tree.group k (members.map Prod.snd)).told := by
  have parts : ∀ node ∈ children, ∃ x : Option Statement × Tree (Condition × Test),
      c.compileFilter node = .ok x.1 ∧ c.Checks node x.2 := by
    intro node member
    obtain ⟨s, own⟩ := (exists_group_iff k).mp ⟨r, ok⟩ node member
    obtain ⟨checked, checks, _⟩ := compileFilter_checks own
    exact ⟨(s, checked), own, checks⟩
  obtain ⟨xs, each⟩ := Outcome.exists_results parts
  let truths (checked : Tree (Condition × Test)) : Tree Truth :=
    checked.map fun x => x.2.truthAt c.dialect db row
  have none_iff : ∀ x ∈ xs, x.1 = none ↔ (truths x.2).pruned = none := by
    intro x member
    obtain ⟨node, _, own, checks⟩ := Outcome.exists_of_mem_results each member
    rw [compileFilter_eq_none own, checks.leaves, List.map_eq_nil_iff, Tree.pruned_map,
      Option.map_eq_none_iff, Tree.pruned_eq_none_iff]
  refine ⟨xs.map fun x => (x.1, truths x.2), ?_, ?_, ?_, ?_⟩
  · rw [Answers, List.map_map, List.forall₂_map_right_iff]
    exact each.imp fun node x both => ⟨both.1, compileFilter_tells both.2 both.1 db row⟩
  · rw [List.forall_mem_map]
    exact none_iff
  · rw [compileFilter_eq_none ok, Tree.leaves_group, List.flatMap_eq_nil_iff, List.forall_mem_map]
    constructor
    · intro all x member
      obtain ⟨node, inside, own, _⟩ := Outcome.exists_of_mem_results each member
      exact (compileFilter_eq_none own).mpr (all node inside)
    · intro all node member
      obtain ⟨x, inside, own, _⟩ := Outcome.exists_of_mem_sources each member
      exact (compileFilter_eq_none own).mp (all x inside)
  · have checks : c.Checks (Tree.group k children) (Tree.group k (xs.map Prod.snd)) := by
      apply Checks.group
      rw [List.forall₂_map_right_iff]
      exact each.imp fun _ _ both => both.2
    have told := compileFilter_tells checks ok db row
    rw [Tree.map_group, List.map_map] at told
    rw [List.map_map]
    exact told

/-- A group is accepted if its members are. A conjunction is true of a row if all its members are. A
disjunction is true of a row if one of those members is that have a statement, or if none has one; it
is true where one of its members is if each has a statement. -/
theorem groups_compose (c : Compiler) (children : List SearchNode) :
    (∀ k, (∃ r, c.compileFilter (Tree.group k children) = .ok r) ↔
      ∀ node ∈ children, ∃ r, c.compileFilter node = .ok r) ∧
    ∀ (α : Type) (db : Database α) (row : Row α),
      (∀ r, c.compileFilter (.all children) = .ok r → ∃ truth answers,
        c.Tells r db row truth ∧ c.Answers db row children answers ∧
        (r = none ↔ ∀ a ∈ answers, a.1 = none) ∧
        (truth = .yes ↔ ∀ a ∈ answers, a.2 = .yes)) ∧
      ∀ r, c.compileFilter (.any children) = .ok r → ∃ truth answers,
        c.Tells r db row truth ∧ c.Answers db row children answers ∧
        (r = none ↔ ∀ a ∈ answers, a.1 = none) ∧
        (truth = .yes ↔
          (∀ a ∈ answers, a.1 = none) ∨ ∃ a ∈ answers, a.1 ≠ none ∧ a.2 = .yes) ∧
        (children ≠ [] → (∀ a ∈ answers, a.1 ≠ none) →
          (truth = .yes ↔ ∃ a ∈ answers, a.2 = .yes)) := by
  refine ⟨fun k => exists_group_iff k, fun α db row => ⟨fun r ok => ?_, fun r ok => ?_⟩⟩
  · obtain ⟨members, answers, _, none, tells⟩ := group_answers (k := .and) ok db row
    refine ⟨_, _, tells, answers, ?_, ?_⟩
    · rw [none, List.forall_mem_map]
    · rw [List.forall_mem_map]
      refine Tree.told_all.trans ?_
      rw [List.forall_mem_map]
  · obtain ⟨members, answers, blank, none, tells⟩ := group_answers (k := .or) ok db row
    have told : (Tree.group .or (members.map Prod.snd)).told = .yes ↔
        (∀ m ∈ members, m.1 = Option.none) ∨ ∃ m ∈ members, m.1 ≠ Option.none ∧ m.2.told = .yes := by
      refine Tree.told_any.trans ?_
      rw [List.forall_mem_map]
      simp only [List.mem_map, exists_exists_and_eq_and]
      exact or_congr (forall₂_congr fun m member => (blank m member).symm)
        (exists_congr fun m => and_congr_right fun member =>
          and_congr_left' (not_congr (blank m member).symm))
    refine ⟨_, _, tells, answers, ?_, ?_, fun nonempty full => ?_⟩
    · rw [none, List.forall_mem_map]
    · rw [told, List.forall_mem_map]
      simp only [List.mem_map, exists_exists_and_eq_and]
    · rw [List.forall_mem_map] at full
      have present : members ≠ [] := by
        intro gone
        rw [gone, Answers, List.map_nil, List.forall₂_nil_right_iff] at answers
        exact nonempty answers
      obtain ⟨first, inside⟩ := List.exists_mem_of_ne_nil _ present
      rw [told, or_iff_right fun all => full first inside (all first inside)]
      simp only [List.mem_map, exists_exists_and_eq_and]
      exact exists_congr fun m => and_congr_right fun member => and_iff_right (full m member)

/-! Notes with one of two ids. -/

def noteWith (id : String) : SearchNode := .leaf ⟨"id", .compare .equals, [.text id]⟩

def noteTest (id : String) : Statement where
  parameterized := "\"id\" = ?1"
  params := [.text id]
  sql := "\"id\" = '" ++ id ++ "'"

unseal Text.Numeral.digits in
theorem groups_compose_notes :
    notes.compileFilter (.all [.any [], noteWith "a"]) = .ok (some (noteTest "a")) ∧
    (∃ truth answers, (noteTest "a").Tells .sqlite Database.ofLiterals (fun _ => .text "b") truth ∧
      notes.Answers Database.ofLiterals (fun _ => .text "b") [.any [], noteWith "a"] answers ∧
      (truth = .yes ↔ ∀ a ∈ answers, a.2 = .yes)) ∧
    ∃ s, notes.compileFilter (.any [noteWith "a", noteWith "b"]) = .ok (some s) ∧
      ∃ truth answers, s.Tells .sqlite Database.ofLiterals (fun _ => .text "b") truth ∧
        notes.Answers Database.ofLiterals (fun _ => .text "b") [noteWith "a", noteWith "b"] answers ∧
        (truth = .yes ↔ ∃ a ∈ answers, a.2 = .yes) := by
  have known {id : String} {r : Option Statement} (ok : notes.compileFilter (noteWith id) = .ok r) :
      r ≠ none := fun gone => by cases (compileFilter_eq_none ok).mp gone
  refine ⟨rfl, ?_, _, rfl, ?_⟩
  · obtain ⟨truth, answers, tells, each, _, law⟩ := ((groups_compose notes [.any [], noteWith "a"]).2
      Token Database.ofLiterals fun _ => .text "b").1 (some (noteTest "a")) rfl
    exact ⟨truth, answers, tells, each, law⟩
  · obtain ⟨truth, answers, tells, each, _, _, law⟩ :=
      ((groups_compose notes [noteWith "a", noteWith "b"]).2 Token Database.ofLiterals
        fun _ => .text "b").2 _ rfl
    refine ⟨truth, answers, tells, each, law (List.cons_ne_nil _ _) fun a member => ?_⟩
    obtain ⟨node, inside, ok, _⟩ := Outcome.exists_of_mem_results each member
    rcases List.mem_pair.mp inside with rfl | rfl
    · exact known ok
    · exact known ok

unseal Text.Numeral.digits in
/-- A group of everything and a note is not true of another note. -/
theorem disjunction_drops_member :
    notes.compileFilter (.all []) = .ok none ∧
    notes.compileFilter (.any [.all [], noteWith "a"]) = .ok (some (noteTest "a")) ∧
    (noteTest "a").Tells .sqlite Database.ofLiterals (fun _ => .text "b") .no := by
  refine ⟨rfl, rfl, fun text member => ?_⟩
  rcases List.mem_pair.mp member with rfl | rfl <;> exact ⟨_, rfl, rfl⟩

end Compiler

end EntitySchema.Sql
