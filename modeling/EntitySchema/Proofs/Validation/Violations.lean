import EntitySchema.Proofs.KeyMap
import EntitySchema.Validation.Violations

/-!
What is found at a path after violations have been added. Violations at different paths can be added in
any order.
-/

namespace EntitySchema.Validation.Violations

theorem get?_append (vs : Violations) (path : String) (found : List Violation) (other : String) :
    (vs.append path found).get? other =
      if other = path then some ((vs.get? path).getD [] ++ found) else vs.get? other :=
  KeyMap.get?_insert _ _ _ _

theorem get?_addAll (vs : Violations) (path : String) (found : List Violation) (other : String) :
    (vs.addAll path found).get? other =
      if other = path ∧ found ≠ [] then some ((vs.get? path).getD [] ++ found) else vs.get? other := by
  unfold addAll
  induction found generalizing vs with
  | nil => rw [List.foldl_nil, if_neg (by simp)]
  | cons v rest ih =>
    rw [List.foldl_cons, ih, add, get?_append, get?_append, if_pos rfl]
    by_cases same : other = path
    · subst same
      cases rest with
      | nil => simp
      | cons w rest => simp
    · rw [if_neg (by simp [same]), if_neg same, if_neg (by simp [same])]

/-- The paths are in order. -/
def Sorted (vs : Violations) : Prop := vs.paths.Sorted

theorem sorted_empty : empty.Sorted := KeyMap.sorted_empty

theorem Sorted.addAll {vs : Violations} (sorted : vs.Sorted) (path : String) (found : List Violation) :
    (vs.addAll path found).Sorted := by
  unfold Violations.addAll
  induction found generalizing vs with
  | nil => exact sorted
  | cons v rest ih => exact ih (KeyMap.Sorted.insert sorted _ _)

/-- Violations are what is found at their paths. -/
theorem Sorted.ext {vs ws : Violations} (left : vs.Sorted) (right : ws.Sorted)
    (same : ∀ path, vs.get? path = ws.get? path) : vs = ws := by
  have paths : vs.paths = ws.paths := KeyMap.Sorted.ext left right same
  cases vs
  cases ws
  exact congrArg mk paths

theorem Sorted.addAll_comm {vs : Violations} (sorted : vs.Sorted) {path other : String}
    (apart : path ≠ other) (first second : List Violation) :
    (vs.addAll path first).addAll other second = (vs.addAll other second).addAll path first := by
  apply ((sorted.addAll _ _).addAll _ _).ext ((sorted.addAll _ _).addAll _ _)
  intro p
  simp only [get?_addAll]
  by_cases here : p = path
  · subst here
    simp [apart]
  · by_cases there : p = other
    · subst there
      simp [Ne.symm apart]
    · simp [here, there]

end EntitySchema.Validation.Violations
