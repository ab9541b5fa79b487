import EntitySchema.Sql.Entity
import Mathlib.Data.Finset.Dedup
import Mathlib.Data.List.Sort
import Mathlib.Data.String.Basic

/-!
Unique groups in normal form. A group in normal form is told by its columns; among groups of one joined
name the first is kept, and a joined name tells its columns only where no column has a bar in it.
-/

namespace EntitySchema.Sql.Entity

/-! One group. -/

theorem mem_dropRepeats {n : String} {names : List String} : n ∈ dropRepeats names ↔ n ∈ names := by
  fun_induction dropRepeats names with
  | case1 b rest ih =>
    refine ih.trans (List.mem_cons.trans (or_iff_right_of_imp ?_)).symm
    rintro rfl
    exact .head _
  | case2 a b rest different ih => rw [List.mem_cons, ih, ← List.mem_cons]
  | case3 short => rfl

theorem pairwise_dropRepeats {names : List String} (sorted : names.Pairwise (· ≤ ·)) :
    (dropRepeats names).Pairwise (· < ·) := by
  fun_induction dropRepeats names with
  | case1 b rest ih => exact ih sorted.of_cons
  | case2 a b rest different ih =>
    obtain ⟨least, later⟩ := List.pairwise_cons.mp sorted
    refine List.pairwise_cons.mpr ⟨fun n member => ?_, ih later⟩
    have before : a < b := lt_of_le_of_ne (least b (.head _)) different
    rcases List.mem_cons.mp (mem_dropRepeats.mp member) with rfl | behind
    · exact before
    · exact before.trans_le ((List.pairwise_cons.mp later).1 n behind)
  | case3 short single =>
    match short with
    | [] => exact .nil
    | [n] => exact List.pairwise_singleton _ _
    | a :: b :: rest => exact absurd rfl (single a b rest)

theorem mem_normalGroup {n : String} {g : List String} : n ∈ normalGroup g ↔ n ∈ g := by
  rw [normalGroup, mem_dropRepeats, List.mem_mergeSort]

theorem pairwise_normalGroup (g : List String) : (normalGroup g).Pairwise (· < ·) :=
  pairwise_dropRepeats (List.pairwise_mergeSort' (· ≤ ·) g)

theorem toFinset_normalGroup (g : List String) : (normalGroup g).toFinset = g.toFinset := by
  ext n
  rw [List.mem_toFinset, List.mem_toFinset, mem_normalGroup]

theorem normalGroup_eq_nil {g : List String} : normalGroup g = [] ↔ g = [] := by
  simp only [List.eq_nil_iff_forall_not_mem, mem_normalGroup]

/-- Groups in normal form are equal if they have the same columns. -/
theorem eq_of_toFinset_eq {g h : List String} (first : g.Pairwise (· < ·))
    (second : h.Pairwise (· < ·)) (same : g.toFinset = h.toFinset) : g = h := by
  have alike : g.Perm h := by
    refine (List.perm_ext_iff_of_nodup (first.imp ne_of_lt) (second.imp ne_of_lt)).mpr fun n => ?_
    rw [← List.mem_toFinset, same, List.mem_toFinset]
  exact alike.eq_of_pairwise (fun a b _ _ less more => absurd less (not_lt.mpr more.le)) first second

theorem normalGroup_eq_iff {g h : List String} :
    normalGroup g = normalGroup h ↔ g.toFinset = h.toFinset := by
  rw [← toFinset_normalGroup g, ← toFinset_normalGroup h]
  exact ⟨congrArg _, eq_of_toFinset_eq (pairwise_normalGroup g) (pairwise_normalGroup h)⟩

theorem normalGroup_of_sorted {g : List String} (sorted : g.Pairwise (· < ·)) : normalGroup g = g :=
  eq_of_toFinset_eq (pairwise_normalGroup g) sorted (toFinset_normalGroup g)

/-- Columns without a bar are told by their joined name. -/
theorem groupKey_inj {g h : List String} (first : g ≠ []) (second : h ≠ [])
    (left : ∀ n ∈ g, '|' ∉ n.toList) (right : ∀ n ∈ h, '|' ∉ n.toList)
    (same : groupKey g = groupKey h) : g = h := by
  have split {g : List String} (nonempty : g ≠ []) (plain : ∀ n ∈ g, '|' ∉ n.toList) :
      (groupKey g).toList.splitOn '|' = g.map String.toList := by
    rw [groupKey, String.toList_intercalate]
    apply List.splitOn_intercalate
    · exact List.forall_mem_map.mpr plain
    · rwa [Ne, List.map_eq_nil_iff]
  have chars := split first left
  rw [same, split second right] at chars
  exact (List.map_injective_iff.mpr (fun _ _ => String.toList_injective) chars).symm

/-! The groups that are kept. -/

theorem distinctGroups_sublist (seen : List String) (groups : List (List String)) :
    (distinctGroups seen groups).Sublist groups := by
  fun_induction distinctGroups seen groups with
  | case1 seen => exact .slnil
  | case2 seen g rest known ih => exact ih.cons g
  | case3 seen g rest fresh ih => exact ih.cons_cons g

/-- No kept group has the name of another one, or one that was seen before. -/
theorem keys_distinctGroups (seen : List String) (groups : List (List String)) :
    ((distinctGroups seen groups).map groupKey).Nodup ∧
      ∀ g ∈ distinctGroups seen groups, groupKey g ∉ seen := by
  fun_induction distinctGroups seen groups with
  | case1 seen => exact ⟨List.nodup_nil, List.forall_mem_nil _⟩
  | case2 seen g rest known ih => exact ih
  | case3 seen g rest fresh ih =>
    obtain ⟨distinct, unseen⟩ := ih
    constructor
    · rw [List.map_cons, List.nodup_cons]
      refine ⟨fun repeated => ?_, distinct⟩
      obtain ⟨other, member, same⟩ := List.mem_map.mp repeated
      exact unseen other member (same ▸ .head _)
    · rw [List.forall_mem_cons]
      refine ⟨fun known => fresh (List.contains_iff_mem.mpr known), fun other member known => ?_⟩
      exact unseen other member (.tail _ known)

theorem exists_mem_distinctGroups {seen : List String} {groups : List (List String)} {g : List String}
    (member : g ∈ groups) (unseen : groupKey g ∉ seen) :
    ∃ kept ∈ distinctGroups seen groups, groupKey kept = groupKey g := by
  fun_induction distinctGroups seen groups with
  | case1 seen => cases member
  | case2 seen first rest known ih =>
    rcases List.mem_cons.mp member with rfl | later
    · exact absurd (List.contains_iff_mem.mp known) unseen
    · exact ih later unseen
  | case3 seen first rest fresh ih =>
    by_cases same : groupKey g = groupKey first
    · exact ⟨first, .head _, same.symm⟩
    · have later : g ∈ rest := (List.mem_cons.mp member).resolve_left fun here => same (here ▸ rfl)
      obtain ⟨kept, inside, named⟩ := ih later fun known => (List.mem_cons.mp known).elim same unseen
      exact ⟨kept, .tail _ inside, named⟩

variable {groups : List (List String)} {g : List String}

/-- A kept group is a declared one in normal form, and not empty. -/
theorem exists_of_mem_normalGroups (member : g ∈ normalGroups groups) :
    g ≠ [] ∧ ∃ declared ∈ groups, g = normalGroup declared := by
  have inside := (distinctGroups_sublist _ _).subset member
  rw [List.mem_filter, List.mem_map] at inside
  obtain ⟨⟨declared, source, rfl⟩, nonempty⟩ := inside
  exact ⟨by simpa using nonempty, declared, source, rfl⟩

/-- Each declared group has a kept one of its joined name. -/
theorem exists_mem_normalGroups (declared : g ∈ groups) (nonempty : g ≠ []) :
    ∃ kept ∈ normalGroups groups, groupKey kept = groupKey (normalGroup g) := by
  apply exists_mem_distinctGroups _ List.not_mem_nil
  rw [List.mem_filter]
  refine ⟨List.mem_map_of_mem declared, ?_⟩
  rw [Bool.not_eq_true', List.isEmpty_eq_false_iff]
  exact fun none => nonempty (normalGroup_eq_nil.mp none)

theorem nodup_keys_normalGroups (groups : List (List String)) :
    ((normalGroups groups).map groupKey).Nodup :=
  (keys_distinctGroups _ _).1

end EntitySchema.Sql.Entity
