import EntitySchema.Sql.Operator
import EntitySchema.Value.Basic

/-!
Search requests: conditions on fields composed into trees of conjunctions and disjunctions, with
ordering and paging.
-/

namespace EntitySchema.Sql

structure Condition where
  field : String
  operator : Operator
  values : List Value

/-- Leaves under conjunctions and disjunctions of any depth. -/
inductive Tree (α : Type) where
  | leaf (a : α)
  | all (children : List (Tree α))
  | any (children : List (Tree α))

abbrev SearchNode := Tree Condition

inductive Direction where
  | ascending
  | descending
deriving DecidableEq, Repr

def Direction.keyword : Direction → String
  | .ascending => "ASC"
  | .descending => "DESC"

structure OrderBy where
  field : String
  direction : Direction
deriving DecidableEq

structure SearchGraph where
  filter : Option SearchNode
  order : List OrderBy
  limit : Option UInt64
  offset : Option UInt64

/-- The request for everything. -/
def SearchGraph.empty : SearchGraph := ⟨none, [], none, none⟩

end EntitySchema.Sql
