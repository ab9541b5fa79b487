import EntitySchema.Model.Registry
import EntitySchema.Proofs.KeyMap
import EntitySchema.Proofs.Text.Blank

/-!
What is found in a registry. An item that was accepted is found under its trimmed name from then on,
and under no other name; a name that has blanks at its ends finds nothing.
-/

namespace EntitySchema.Registry

variable {α : Type}

theorem mem_names {r : Registry α} {n : String} : n ∈ r.names ↔ ∃ item, r.get? n = some item := by
  rw [names, ← KeyMap.contains_iff_mem_keys, KeyMap.contains, Option.isSome_iff_exists]
  rfl

variable [Named α] {r next : Registry α} {item other : α} {items : List α} {n : String}

/-- The name under which an item is registered. -/
def keyOf (item : α) : String := Text.trim (Named.name item)

theorem register_eq_ok : r.register item = .ok next ↔
    keyOf item ≠ "" ∧ r.get? (keyOf item) = none ∧ next = ⟨r.items.insert (keyOf item) item⟩ := by
  unfold register
  dsimp only
  rw [← keyOf]
  split_ifs with blank taken
  · exact iff_of_false nofun fun given => given.1 (String.isEmpty_iff.mp blank)
  · exact iff_of_false nofun fun given => Option.isSome_iff_ne_none.mp taken given.2.1
  · have named := mt String.isEmpty_iff.mpr blank
    have free : r.get? (keyOf item) = none := not_not.mp (mt Option.isSome_iff_ne_none.mpr taken)
    rw [Except.ok.injEq, and_iff_right named, and_iff_right free]
    exact eq_comm

theorem get?_of_register (ok : r.register item = .ok next) (n : String) :
    next.get? n = if n = keyOf item then some item else r.get? n := by
  obtain ⟨_, _, rfl⟩ := register_eq_ok.mp ok
  exact KeyMap.get?_insert r.items (keyOf item) n item

/-- What is registered stays, and is not replaced. -/
theorem get?_register_of_some (ok : r.register item = .ok next) (found : r.get? n = some other) :
    next.get? n = some other := by
  rw [get?_of_register ok, if_neg, found]
  rintro rfl
  rw [(register_eq_ok.mp ok).2.1] at found
  cases found

/-- Every item is found under its own key only. -/
def Filed (r : Registry α) : Prop := ∀ n item, r.get? n = some item → keyOf item = n

theorem filed_empty : (empty : Registry α).Filed := nofun

theorem Filed.register (filed : r.Filed) (ok : r.register item = .ok next) : next.Filed := by
  intro n found here
  rw [get?_of_register ok] at here
  split_ifs at here with own
  · cases here
    exact own.symm
  · exact filed n found here

theorem Filed.trim_eq (filed : r.Filed) (found : r.get? n = some item) : Text.trim n = n := by
  rw [← filed n item found]
  exact Text.trim_trim _

theorem Filed.get?_eq_none (filed : r.Filed) (blanks : Text.trim n ≠ n) : r.get? n = none := by
  rw [Option.eq_none_iff_forall_not_mem]
  intro item found
  exact blanks (filed.trim_eq found)

/-! Items that are registered in turn. -/

theorem registerAll_cons : r.registerAll (item :: items) = .ok next ↔
    ∃ middle, r.register item = .ok middle ∧ middle.registerAll items = .ok next := by
  unfold registerAll
  rw [List.foldlM_cons, Outcome.bind_eq_ok]

theorem registerAll_of_some (ok : r.registerAll items = .ok next) (found : r.get? n = some other) :
    next.get? n = some other := by
  induction items generalizing r with
  | nil =>
    cases ok
    exact found
  | cons item rest ih =>
    obtain ⟨middle, first, others⟩ := registerAll_cons.mp ok
    exact ih others (get?_register_of_some first found)

theorem Filed.registerAll (filed : r.Filed) (ok : r.registerAll items = .ok next) : next.Filed := by
  induction items generalizing r with
  | nil =>
    cases ok
    exact filed
  | cons item rest ih =>
    obtain ⟨middle, first, others⟩ := registerAll_cons.mp ok
    exact ih (filed.register first) others

/-- Everything that was accepted is found. -/
theorem get?_of_mem_registerAll (ok : r.registerAll items = .ok next) (member : item ∈ items) :
    next.get? (keyOf item) = some item := by
  induction items generalizing r with
  | nil => cases member
  | cons first rest ih =>
    obtain ⟨middle, here, others⟩ := registerAll_cons.mp ok
    rcases List.mem_cons.mp member with rfl | later
    · apply registerAll_of_some others
      rw [get?_of_register here, if_pos rfl]
    · exact ih others later

end EntitySchema.Registry
