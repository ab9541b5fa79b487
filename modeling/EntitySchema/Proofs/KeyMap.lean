import EntitySchema.KeyMap
import EntitySchema.Proofs.Outcome
import Mathlib.Data.String.Basic
import Mathlib.Data.List.Nodup
import Mathlib.Data.List.Perm.Basic
import Mathlib.Data.List.Sort

/-!
Look-up in maps. What an operation does to the value under a key needs no order of the keys; with the
order, a map is what is found under its keys.
-/

namespace EntitySchema.KeyMap

variable {α : Type}

theorem get?_eq_some_of_mem {m : KeyMap α} (distinct : m.keys.Nodup) {key : String} {a : α}
    (member : (key, a) ∈ m.entries) : m.get? key = some a := by
  unfold get?
  unfold keys at distinct
  generalize m.entries = entries at distinct member
  induction entries with
  | nil => cases member
  | cons e rest ih =>
    obtain ⟨k, b⟩ := e
    rw [List.map_cons, List.nodup_cons] at distinct
    rcases List.mem_cons.mp member with same | later
    · cases same
      rw [List.lookup_cons_self]
    · have other : key ≠ k := by
        intro same
        exact distinct.1 (List.mem_map.mpr ⟨(key, a), later, same⟩)
      rw [List.lookup_cons, beq_false_of_ne other]
      exact ih distinct.2 later

theorem get?_eq_some_iff {m : KeyMap α} (distinct : m.keys.Nodup) {key : String} {a : α} :
    m.get? key = some a ↔ (key, a) ∈ m.entries :=
  ⟨Outcome.mem_of_lookup, get?_eq_some_of_mem distinct⟩

theorem get?_eq_none_iff {m : KeyMap α} {key : String} : m.get? key = none ↔ key ∉ m.keys := by
  unfold get? keys
  rw [List.lookup_eq_none_iff]
  simp only [List.mem_map, not_exists, not_and, bne_iff_ne]
  exact forall₂_congr fun e _ => ne_comm

theorem contains_iff_mem_keys {m : KeyMap α} {key : String} : m.contains key = true ↔ key ∈ m.keys := by
  rw [contains, Option.isSome_iff_ne_none, Ne, get?_eq_none_iff, not_not]

theorem get?_insert (m : KeyMap α) (key other : String) (a : α) :
    (m.insert key a).get? other = if other = key then some a else m.get? other := by
  unfold get? insert
  dsimp only
  generalize m.entries = entries
  induction entries with
  | nil =>
    by_cases same : other = key
    · simp [insertEntry, same]
    · simp [insertEntry, List.lookup_cons, beq_false_of_ne same, same]
  | cons e rest ih =>
    obtain ⟨k, b⟩ := e
    rw [insertEntry]
    by_cases before : key < k
    · rw [if_pos before]
      by_cases same : other = key
      · simp [same]
      · rw [List.lookup_cons, beq_false_of_ne same, if_neg same]
    · rw [if_neg before]
      by_cases equal : key = k
      · subst equal
        rw [if_pos rfl]
        by_cases same : other = key
        · simp [same]
        · rw [List.lookup_cons, List.lookup_cons, beq_false_of_ne same, if_neg same]
      · -- the entry goes in further behind, and a look-up passes by this one in the same way
        rw [if_neg equal, List.lookup_cons, List.lookup_cons, ih]
        by_cases here : other = k
        · have different : other ≠ key := fun same => equal (same.symm.trans here)
          rw [here, beq_self_eq_true]
          simp only [if_neg (here ▸ different)]
        · rw [beq_false_of_ne here]

theorem get?_erase (m : KeyMap α) (key other : String) :
    (m.erase key).get? other = if other = key then none else m.get? other := by
  unfold get? erase
  dsimp only
  generalize m.entries = entries
  induction entries with
  | nil => simp
  | cons e rest ih =>
    obtain ⟨k, b⟩ := e
    by_cases gone : k = key
    · rw [List.filter_cons_of_neg (by simpa using gone), ih, List.lookup_cons]
      by_cases same : other = key
      · rw [if_pos same, if_pos same]
      · rw [if_neg same, if_neg same, beq_false_of_ne (fun h => same (h.trans gone))]
    · rw [List.filter_cons_of_pos (by simpa using gone), List.lookup_cons, List.lookup_cons, ih]
      by_cases here : other = k
      · rw [here, beq_self_eq_true]
        simp only [if_neg gone]
      · rw [beq_false_of_ne here]

theorem erase_of_get?_eq_none {m : KeyMap α} {key : String} (none : m.get? key = none) :
    m.erase key = m := by
  have other : ∀ e ∈ m.entries, (e.1 != key) = true := by
    intro e member
    have absent := get?_eq_none_iff.mp none
    rw [bne_iff_ne]
    rintro rfl
    exact absent (List.mem_map_of_mem member)
  rw [erase, List.filter_eq_self.mpr other]

theorem insertAll_append (m : KeyMap α) (first second : List (String × α)) :
    m.insertAll (first ++ second) = (m.insertAll first).insertAll second :=
  List.foldl_append

/-- Of entries that are inserted in turn, the last one of a key is found under it. -/
theorem get?_insertAll (m : KeyMap α) (entries : List (String × α)) (key : String) :
    (m.insertAll entries).get? key = (entries.reverse.lookup key).or (m.get? key) := by
  unfold insertAll
  induction entries generalizing m with
  | nil => rfl
  | cons e rest ih =>
    obtain ⟨k, b⟩ := e
    rw [List.foldl_cons, ih, List.reverse_cons, List.lookup_append, get?_insert, List.lookup_cons]
    cases List.lookup key rest.reverse with
    | some a => rfl
    | none =>
      by_cases same : key = k
      · rw [if_pos same, same, beq_self_eq_true]
        rfl
      · rw [if_neg same, beq_false_of_ne same]
        rfl

theorem get?_ofList (entries : List (String × α)) (key : String) :
    (ofList entries).get? key = entries.reverse.lookup key := by
  rw [ofList, get?_insertAll]
  exact Option.or_none

/-- Entries with different keys are all found. -/
theorem get?_ofList_eq_some_iff {entries : List (String × α)}
    (distinct : (entries.map Prod.fst).Nodup) {key : String} {a : α} :
    (ofList entries).get? key = some a ↔ (key, a) ∈ entries := by
  have reversed : (KeyMap.mk entries.reverse).keys.Nodup := by
    rw [keys, List.map_reverse]
    exact List.nodup_reverse.mpr distinct
  rw [get?_ofList, ← List.mem_reverse]
  exact get?_eq_some_iff (m := ⟨entries.reverse⟩) reversed

theorem get?_insertNew (m : KeyMap α) (key other : String) (a : α) :
    (m.insertNew key a).get? other = (m.get? other).or (if other = key then some a else none) := by
  unfold insertNew
  by_cases present : m.contains key
  · rw [if_pos present]
    split_ifs with same
    · rw [Option.or_of_isSome (same ▸ present)]
    · exact Option.or_none.symm
  · have absent : m.get? key = none := Option.not_isSome_iff_eq_none.mp present
    rw [if_neg present, get?_insert]
    split_ifs with same
    · rw [same, absent, Option.none_or]
    · exact Option.or_none.symm

/-- Of entries that are added in turn, the first one of a key is found under it, unless the key was
there before. -/
theorem get?_foldl_insertNew (m : KeyMap α) (entries : List (String × α)) (key : String) :
    (entries.foldl (fun m e => m.insertNew e.1 e.2) m).get? key =
      (m.get? key).or (entries.lookup key) := by
  induction entries generalizing m with
  | nil => exact Option.or_none.symm
  | cons e rest ih =>
    obtain ⟨k, b⟩ := e
    rw [List.foldl_cons, ih, get?_insertNew, Option.or_assoc, List.lookup_cons]
    by_cases same : key = k
    · rw [if_pos same, same, beq_self_eq_true, Option.some_or]
    · rw [if_neg same, beq_false_of_ne same, Option.none_or]

def eraseAll (m : KeyMap α) (keys : List String) : KeyMap α := keys.foldl erase m

theorem get?_eraseAll (m : KeyMap α) (keys : List String) (other : String) :
    (m.eraseAll keys).get? other = if other ∈ keys then none else m.get? other := by
  unfold eraseAll
  induction keys generalizing m with
  | nil => rw [if_neg List.not_mem_nil, List.foldl_nil]
  | cons key rest ih =>
    rw [List.foldl_cons, ih, get?_erase]
    by_cases later : other ∈ rest
    · rw [if_pos later, if_pos (.tail _ later)]
    · rw [if_neg later]
      simp only [List.mem_cons, later, or_false]

theorem eraseAll_eq_filter (m : KeyMap α) (keys : List String) :
    m.eraseAll keys = m.filter fun key _ => key ∉ keys := by
  unfold eraseAll filter
  induction keys generalizing m with
  | nil => simp
  | cons key rest ih =>
    rw [List.foldl_cons, ih, erase]
    dsimp only
    rw [List.filter_filter]
    congr 1
    refine List.filter_congr fun e _ => ?_
    rw [Bool.eq_iff_iff]
    simp [and_comm]

/-! The order of the keys. -/

theorem eq_empty_of_isEmpty {m : KeyMap α} (none : m.isEmpty) : m = .empty := by
  cases m with
  | mk entries => exact congrArg KeyMap.mk (List.isEmpty_iff.mp none)

theorem sorted_empty : (empty : KeyMap α).Sorted := List.Pairwise.nil

theorem Sorted.nodup {m : KeyMap α} (sorted : m.Sorted) : m.keys.Nodup := by
  unfold keys
  rw [List.Nodup, List.pairwise_map]
  exact sorted.imp fun less => ne_of_lt less

theorem mem_insertEntry {key : String} {a : α} {entries : List (String × α)} {e : String × α}
    (member : e ∈ insertEntry key a entries) : e = (key, a) ∨ e ∈ entries := by
  induction entries with
  | nil => exact .inl (List.mem_singleton.mp member)
  | cons first rest ih =>
    obtain ⟨k, b⟩ := first
    rw [insertEntry] at member
    split_ifs at member
    · exact List.mem_cons.mp member
    · exact (List.mem_cons.mp member).imp id (List.mem_cons_of_mem _)
    · rcases List.mem_cons.mp member with here | later
      · exact .inr (here ▸ .head _)
      · exact (ih later).imp id (List.mem_cons_of_mem _)

theorem Sorted.insert {m : KeyMap α} (sorted : m.Sorted) (key : String) (a : α) :
    (m.insert key a).Sorted := by
  unfold Sorted KeyMap.insert at *
  dsimp only
  generalize m.entries = entries at sorted
  induction entries with
  | nil => exact List.pairwise_singleton _ _
  | cons first rest ih =>
    obtain ⟨k, b⟩ := first
    obtain ⟨least, others⟩ := List.pairwise_cons.mp sorted
    rw [insertEntry]
    split_ifs with before equal
    · refine List.pairwise_cons.mpr ⟨?_, sorted⟩
      intro e member
      rcases List.mem_cons.mp member with rfl | later
      · exact before
      · exact before.trans (least e later)
    · subst equal
      exact List.pairwise_cons.mpr ⟨least, others⟩
    · refine List.pairwise_cons.mpr ⟨?_, ih others⟩
      intro e member
      rcases mem_insertEntry member with rfl | later
      · exact lt_of_le_of_ne (not_lt.mp before) (Ne.symm equal)
      · exact least e later

/-- A value that is replaced leaves the keys as they are. -/
theorem Sorted.keys_insert {m : KeyMap α} (sorted : m.Sorted) {key : String} (present : key ∈ m.keys)
    (a : α) : (m.insert key a).keys = m.keys := by
  unfold Sorted KeyMap.insert keys at *
  dsimp only
  generalize m.entries = entries at sorted present
  induction entries with
  | nil => cases present
  | cons first rest ih =>
    obtain ⟨k, b⟩ := first
    obtain ⟨least, others⟩ := List.pairwise_cons.mp sorted
    rw [insertEntry]
    by_cases equal : key = k
    · subst equal
      rw [if_neg (lt_irrefl key), if_pos rfl, List.map_cons, List.map_cons]
    · have later : key ∈ rest.map Prod.fst := (List.mem_cons.mp present).resolve_left equal
      have behind : k < key := by
        obtain ⟨e, member, rfl⟩ := List.mem_map.mp later
        exact least e member
      rw [if_neg behind.not_gt, if_neg equal, List.map_cons, List.map_cons, ih others later]

/-- A key that is not there yet joins the others. -/
theorem keys_insert_perm {m : KeyMap α} {key : String} (fresh : key ∉ m.keys) (a : α) :
    (m.insert key a).keys.Perm (key :: m.keys) := by
  unfold KeyMap.insert keys at *
  dsimp only
  generalize m.entries = entries at fresh
  induction entries with
  | nil => exact .refl _
  | cons first rest ih =>
    obtain ⟨k, b⟩ := first
    rw [List.map_cons, List.mem_cons, not_or] at fresh
    rw [insertEntry]
    by_cases before : key < k
    · rw [if_pos before]
      exact .refl _
    · rw [if_neg before, if_neg fresh.1, List.map_cons, List.map_cons]
      exact ((ih fresh.2).cons k).trans (.swap key k _)

theorem Sorted.insertAll {m : KeyMap α} (sorted : m.Sorted) (entries : List (String × α)) :
    (m.insertAll entries).Sorted := by
  unfold KeyMap.insertAll
  induction entries generalizing m with
  | nil => exact sorted
  | cons e rest ih => exact ih (sorted.insert e.1 e.2)

theorem Sorted.foldl_insertNew {m : KeyMap α} (sorted : m.Sorted) (entries : List (String × α)) :
    (entries.foldl (fun m e => m.insertNew e.1 e.2) m).Sorted := by
  induction entries generalizing m with
  | nil => exact sorted
  | cons e rest ih =>
    have next : (m.insertNew e.1 e.2).Sorted := by
      unfold insertNew
      split_ifs
      · exact sorted
      · exact sorted.insert e.1 e.2
    exact ih next

theorem Sorted.erase {m : KeyMap α} (sorted : m.Sorted) (key : String) : (m.erase key).Sorted :=
  List.Pairwise.filter _ sorted

theorem Sorted.eraseAll {m : KeyMap α} (sorted : m.Sorted) (keys : List String) :
    (m.eraseAll keys).Sorted := by
  unfold KeyMap.eraseAll
  induction keys generalizing m with
  | nil => exact sorted
  | cons key rest ih => exact ih (sorted.erase key)

theorem sorted_ofList (entries : List (String × α)) : (ofList entries).Sorted :=
  sorted_empty.insertAll entries

/-- A map is what is found under its keys. -/
theorem Sorted.ext {m n : KeyMap α} (left : m.Sorted) (right : n.Sorted)
    (same : ∀ key, m.get? key = n.get? key) : m = n := by
  have alike : ∀ e, e ∈ m.entries ↔ e ∈ n.entries := by
    intro e
    rw [← get?_eq_some_iff left.nodup, ← get?_eq_some_iff right.nodup, same]
  have permuted : m.entries.Perm n.entries :=
    (List.perm_ext_iff_of_nodup left.nodup.of_map right.nodup.of_map).mpr alike
  have equal : m.entries = n.entries :=
    permuted.eq_of_pairwise (fun a b _ _ less more => absurd less (not_lt.mpr more.le)) left right
  cases m
  cases n
  exact congrArg KeyMap.mk equal

/-- The maps have the same set of keys. -/
def SameKeys (m n : KeyMap α) : Prop := ∀ key, m.contains key = n.contains key

theorem Sorted.keys_eq_iff {m n : KeyMap α} (left : m.Sorted) (right : n.Sorted) :
    m.keys = n.keys ↔ m.SameKeys n := by
  constructor
  · intro same key
    rw [Bool.eq_iff_iff, contains_iff_mem_keys, contains_iff_mem_keys, same]
  · intro same
    apply List.Pairwise.eq_of_mem_iff (List.pairwise_map.mpr left) (List.pairwise_map.mpr right)
    intro key
    have here := Bool.eq_iff_iff.mp (same key)
    rwa [contains_iff_mem_keys, contains_iff_mem_keys] at here

/-- Entries with different keys are all kept. -/
theorem ofList_perm {entries : List (String × α)} (distinct : (entries.map Prod.fst).Nodup) :
    (ofList entries).entries.Perm entries := by
  apply (List.perm_ext_iff_of_nodup (sorted_ofList entries).nodup.of_map distinct.of_map).mpr
  intro e
  rw [← get?_eq_some_iff (sorted_ofList entries).nodup, get?_ofList_eq_some_iff distinct]

theorem ofList_entries {m : KeyMap α} (sorted : m.Sorted) : ofList m.entries = m := by
  apply (sorted_ofList m.entries).ext sorted
  intro key
  ext a
  rw [get?_ofList_eq_some_iff sorted.nodup, get?_eq_some_iff sorted.nodup]

theorem get?_map {β : Type} (g : α → β) (m : KeyMap α) (key : String) :
    (m.map g).get? key = (m.get? key).map g := by
  unfold get? map
  dsimp only
  induction m.entries with
  | nil => rfl
  | cons e rest ih =>
    rw [List.map_cons, List.lookup_cons, List.lookup_cons, ih]
    cases key == e.1 <;> rfl

theorem Sorted.map {β : Type} {m : KeyMap α} (sorted : m.Sorted) (g : α → β) : (m.map g).Sorted :=
  List.pairwise_map.mpr sorted

theorem Sorted.filter {m : KeyMap α} (sorted : m.Sorted) (keep : String → α → Bool) :
    (m.filter keep).Sorted :=
  List.Pairwise.filter _ sorted

theorem Sorted.get?_filter {m : KeyMap α} (sorted : m.Sorted) (keep : String → α → Bool)
    (key : String) : (m.filter keep).get? key = (m.get? key).filter (keep key) := by
  ext a
  rw [Option.filter_eq_some_iff, get?_eq_some_iff (sorted.filter keep).nodup,
    get?_eq_some_iff sorted.nodup]
  exact List.mem_filter

theorem Sorted.lookup_reverse {m : KeyMap α} (sorted : m.Sorted) (key : String) :
    m.entries.reverse.lookup key = m.get? key := by
  rw [← get?_ofList, ofList_entries sorted]

end EntitySchema.KeyMap
