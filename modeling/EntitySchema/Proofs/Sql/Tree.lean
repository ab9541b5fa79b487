import EntitySchema.Sql.Search
import Mathlib.Data.List.Basic

/-!
Search trees and their truth. Truth in SQL has three values, as a comparison with null is neither
true nor false. A tree is pruned of the groups that have no leaf; what is left is a conjunction or
disjunction of its parts.
-/

namespace EntitySchema.Sql

inductive Truth where
  | yes
  | no
  | unknown
deriving DecidableEq, Repr

namespace Truth

def not : Truth → Truth
  | .yes => .no
  | .no => .yes
  | .unknown => .unknown

def and : Truth → Truth → Truth
  | .no, _ => .no
  | _, .no => .no
  | .yes, .yes => .yes
  | _, _ => .unknown

def or : Truth → Truth → Truth
  | .yes, _ => .yes
  | _, .yes => .yes
  | .no, .no => .no
  | _, _ => .unknown

theorem not_not (t : Truth) : t.not.not = t := by cases t <;> rfl

end Truth

inductive Connective where
  | and
  | or
deriving DecidableEq, Repr

namespace Connective

def apply : Connective → Truth → Truth → Truth
  | .and => Truth.and
  | .or => Truth.or

def unit : Connective → Truth
  | .and => .yes
  | .or => .no

def word : Connective → String
  | .and => "AND"
  | .or => "OR"

theorem apply_unit (c : Connective) (t : Truth) : c.apply t c.unit = t := by
  cases c <;> cases t <;> rfl

theorem apply_assoc (c : Connective) (x y z : Truth) :
    c.apply (c.apply x y) z = c.apply x (c.apply y z) := by
  cases c <;> cases x <;> cases y <;> cases z <;> rfl

end Connective

namespace Tree

variable {α β γ : Type}

def group : Connective → List (Tree α) → Tree α
  | .and => .all
  | .or => .any

/-- To prove something of all trees, prove it of leaves, and of groups whose members have it. -/
theorem inductionOn {P : Tree α → Prop} (leaf : ∀ a, P (.leaf a))
    (group : ∀ c children, (∀ t ∈ children, P t) → P (group c children)) (t : Tree α) : P t := by
  refine @Tree.rec α P (fun children => ∀ t ∈ children, P t) leaf
    (group .and) (group .or) ?_ ?_ t
  · intro t member
    cases member
  · intro first rest one others t member
    rcases List.mem_cons.mp member with rfl | later
    · exact one
    · exact others t later

mutual

/-- The result of a tree from the results of its leaves and groups. -/
def fold (leaf : α → β) (group : Connective → List β → β) : Tree α → β
  | .leaf a => leaf a
  | .all children => group .and (foldEach leaf group children)
  | .any children => group .or (foldEach leaf group children)

def foldEach (leaf : α → β) (group : Connective → List β → β) : List (Tree α) → List β
  | [] => []
  | t :: rest => fold leaf group t :: foldEach leaf group rest

end

theorem foldEach_eq_map (leaf : α → β) (group : Connective → List β → β)
    (children : List (Tree α)) : foldEach leaf group children = children.map (fold leaf group) := by
  induction children with
  | nil => rfl
  | cons t rest ih => rw [foldEach, ih, List.map_cons]

theorem fold_group (leaf : α → β) (combine : Connective → List β → β) (c : Connective)
    (children : List (Tree α)) :
    fold leaf combine (group c children) = combine c (children.map (fold leaf combine)) := by
  cases c <;> rw [group, fold, foldEach_eq_map]

def leaves : Tree α → List α := fold (fun a => [a]) fun _ => List.flatten

def map (f : α → β) : Tree α → Tree β := fold (fun a => .leaf (f a)) group

/-- The tree without groups that have no leaf below them, if anything is left. -/
def pruned : Tree α → Option (Tree α) :=
  fold (fun a => some (.leaf a)) fun c children =>
    match children.filterMap id with
    | [] => none
    | kept => some (group c kept)

/-- A conjunction or disjunction of the truth of its leaves. -/
def value : Tree Truth → Truth := fold id fun c ts => ts.foldr c.apply c.unit

@[simp]
theorem leaves_leaf (a : α) : leaves (.leaf a) = [a] := rfl

@[simp]
theorem leaves_group (c : Connective) (children : List (Tree α)) :
    leaves (group c children) = children.flatMap leaves := by
  rw [leaves, fold_group, List.flatMap_def]

@[simp]
theorem map_leaf (f : α → β) (a : α) : map f (.leaf a) = .leaf (f a) := rfl

@[simp]
theorem map_group (f : α → β) (c : Connective) (children : List (Tree α)) :
    map f (group c children) = group c (children.map (map f)) := by
  rw [map, fold_group]

@[simp]
theorem value_leaf (t : Truth) : value (.leaf t) = t := rfl

@[simp]
theorem value_group (c : Connective) (children : List (Tree Truth)) :
    value (group c children) = (children.map value).foldr c.apply c.unit := by
  rw [value, fold_group]

@[simp]
theorem pruned_leaf (a : α) : pruned (.leaf a) = some (.leaf a) := rfl

theorem pruned_group (c : Connective) (children : List (Tree α)) :
    pruned (group c children) =
      if children.filterMap pruned = [] then none
      else some (group c (children.filterMap pruned)) := by
  have kept : (children.map pruned).filterMap id = children.filterMap pruned := by
    rw [List.filterMap_map, Function.id_comp]
  rw [pruned, fold_group, ← pruned]
  simp only [kept]
  cases children.filterMap pruned <;> rfl

theorem leaves_map (f : α → β) (t : Tree α) : (t.map f).leaves = t.leaves.map f := by
  induction t using inductionOn with
  | leaf a => rfl
  | group c children ih =>
    rw [map_group, leaves_group, leaves_group, List.map_flatMap, List.flatMap_map]
    exact List.flatMap_congr ih

theorem map_map (f : α → β) (g : β → γ) (t : Tree α) : (t.map f).map g = t.map (g ∘ f) := by
  induction t using inductionOn with
  | leaf a => rfl
  | group c children ih =>
    rw [map_group, map_group, map_group, List.map_map]
    congr 1
    exact List.map_congr_left ih

theorem map_congr {f g : α → β} (t : Tree α) (same : ∀ a ∈ t.leaves, f a = g a) :
    t.map f = t.map g := by
  induction t using inductionOn with
  | leaf a => rw [map_leaf, map_leaf, same a (.head _)]
  | group c children ih =>
    rw [map_group, map_group]
    congr 1
    refine List.map_congr_left fun t member => ih t member fun a leaf => same a ?_
    rw [leaves_group]
    exact List.mem_flatMap.mpr ⟨t, member, leaf⟩

theorem group_inj {c k : Connective} {first second : List (Tree α)}
    (same : group c first = group k second) : c = k ∧ first = second := by
  cases c <;> cases k <;> cases same <;> exact ⟨rfl, rfl⟩

theorem leaf_or_group (t : Tree α) : (∃ a, t = .leaf a) ∨ ∃ c children, t = group c children := by
  cases t with
  | leaf a => exact .inl ⟨a, rfl⟩
  | all children => exact .inr ⟨.and, children, rfl⟩
  | any children => exact .inr ⟨.or, children, rfl⟩

theorem leaf_ne_group (a : α) (c : Connective) (children : List (Tree α)) :
    Tree.leaf a ≠ group c children := by
  cases c <;> exact fun same => by cases same

/-- Two trees with a common image have one shape: they are the halves of a tree of pairs. -/
theorem exists_zip {f : α → γ} {g : β → γ} (a : Tree α) (b : Tree β) (same : a.map f = b.map g) :
    ∃ t : Tree (α × β), t.map Prod.fst = a ∧ t.map Prod.snd = b ∧
      ∀ x ∈ t.leaves, f x.1 = g x.2 := by
  induction a using inductionOn generalizing b with
  | leaf x =>
    rcases b.leaf_or_group with ⟨y, rfl⟩ | ⟨c, children, rfl⟩
    · rw [map_leaf, map_leaf, Tree.leaf.injEq] at same
      exact ⟨.leaf (x, y), rfl, rfl, by simpa using same⟩
    · rw [map_leaf, map_group] at same
      exact absurd same (leaf_ne_group _ _ _)
  | group c children ih =>
    rcases b.leaf_or_group with ⟨y, rfl⟩ | ⟨k, others, rfl⟩
    · rw [map_leaf, map_group] at same
      exact absurd same.symm (leaf_ne_group _ _ _)
    · rw [map_group, map_group] at same
      obtain ⟨rfl, each⟩ := group_inj same
      -- the members are zipped one by one, which is an induction of its own
      have pairs : ∃ ts : List (Tree (α × β)), ts.map (map Prod.fst) = children ∧
          ts.map (map Prod.snd) = others ∧ ∀ t ∈ ts, ∀ x ∈ t.leaves, f x.1 = g x.2 := by
        clear same
        induction children generalizing others with
        | nil =>
          rw [List.map_nil, eq_comm, List.map_eq_nil_iff] at each
          exact ⟨[], rfl, each.symm, by simp⟩
        | cons a rest later =>
          obtain ⟨b, bs, rfl⟩ : ∃ b bs, others = b :: bs := by
            cases others with
            | nil => cases each
            | cons b bs => exact ⟨b, bs, rfl⟩
          rw [List.map_cons, List.map_cons, List.cons.injEq] at each
          obtain ⟨t, first, second, leaves⟩ := ih a (.head _) b each.1
          obtain ⟨ts, firsts, seconds, all⟩ :=
            later (fun t member => ih t (.tail _ member)) bs each.2
          refine ⟨t :: ts, by rw [List.map_cons, first, firsts],
            by rw [List.map_cons, second, seconds], fun u member => ?_⟩
          rcases List.mem_cons.mp member with rfl | inside
          · exact leaves
          · exact all u inside
      obtain ⟨ts, firsts, seconds, all⟩ := pairs
      refine ⟨group c ts, by rw [map_group, firsts], by rw [map_group, seconds], fun x member => ?_⟩
      rw [leaves_group, List.mem_flatMap] at member
      obtain ⟨t, inside, leaf⟩ := member
      exact all t inside x leaf

/-- Pruning keeps all leaves, and leaves nothing exactly where there are none. -/
theorem leaves_pruned (t : Tree α) : (t.pruned.elim [] leaves) = t.leaves := by
  induction t using inductionOn with
  | leaf a => rfl
  | group c children ih =>
    have each : (children.filterMap pruned).flatMap leaves = children.flatMap leaves := by
      induction children with
      | nil => rfl
      | cons t rest later =>
        have first := ih t (.head _)
        have others := later fun t member => ih t (.tail _ member)
        rw [List.flatMap_cons, ← others, ← first, List.filterMap_cons]
        cases t.pruned with
        | none => rfl
        | some kept => rw [List.flatMap_cons, Option.elim_some]
    rw [pruned_group, leaves_group, ← each]
    split
    · next none => rw [none]; rfl
    · rw [Option.elim_some, leaves_group]

theorem pruned_map (f : α → β) (t : Tree α) : (t.map f).pruned = t.pruned.map (map f) := by
  induction t using inductionOn with
  | leaf a => rfl
  | group c children ih =>
    have each : (children.map (map f)).filterMap pruned =
        (children.filterMap pruned).map (map f) := by
      rw [List.filterMap_map, List.map_filterMap]
      exact List.filterMap_congr ih
    rw [map_group, pruned_group, pruned_group, each]
    by_cases none : children.filterMap pruned = []
    · rw [if_pos none, none, List.map_nil, if_pos rfl, Option.map_none]
    · rw [if_neg none, if_neg (by simpa using none), Option.map_some, map_group]

theorem pruned_eq_none_iff (t : Tree α) : t.pruned = none ↔ t.leaves = [] := by
  constructor
  · intro none
    rw [← leaves_pruned, none, Option.elim_none]
  · induction t using inductionOn with
    | leaf a =>
      intro none
      cases none
    | group c children ih =>
      intro none
      rw [leaves_group, List.flatMap_eq_nil_iff] at none
      rw [pruned_group, if_pos (List.filterMap_eq_nil_iff.mpr fun t member =>
        ih t member (none t member))]

end Tree

end EntitySchema.Sql
