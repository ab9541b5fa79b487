import EntitySchema.Proofs.Model.Registry

/-!
Calls that register items one after the other, carried out in place. A registry only grows: a call adds
one name and an item under it, or finds that it cannot and leaves the registry as it is. What is found
under a name is the first item that was offered under it.
-/

namespace EntitySchema.Registry

/-- Work on a registry that may fail half-way, and then leaves what it has done so far. -/
abbrev Work (α : Type) := ExceptT RegistryError (StateM (Registry α))

variable {α : Type} [Named α] {r next : Registry α} {item other : α} {n : String}
  {outcome : Except RegistryError α}

/-- Registers an item in place and hands it back. -/
def enter (item : α) : Work α α := do
  let name := Text.trim (Named.name item)
  if name.isEmpty then throw .emptyName
  if (← get).contains name then throw (.alreadyRegistered name)
  modify fun r => ⟨r.items.insert name item⟩
  return item

/-- What a call is answered with. -/
def answer (r : Registry α) (item : α) : Except RegistryError α := ((enter item).run r).1

/-- The registry that a call leaves behind. -/
def after (r : Registry α) (item : α) : Registry α := ((enter item).run r).2

def run (r : Registry α) (items : List α) : Registry α := items.foldl after r

/-- The items that are handed back by calls in turn. -/
def accepted : Registry α → List α → List α
  | _, [] => []
  | r, item :: rest => (r.answer item).toOption.toList ++ (r.after item).accepted rest

/-! What one call does. -/

theorem run_enter (r : Registry α) (item : α) : (enter item).run r =
    if (keyOf item).isEmpty then (.error .emptyName, r)
    else if r.contains (keyOf item) then (.error (.alreadyRegistered (keyOf item)), r)
    else (.ok item, ⟨r.items.insert (keyOf item) item⟩) := by
  unfold enter
  rw [← keyOf]
  dsimp only
  split_ifs with blank taken
  · rfl
  · change (if r.contains (keyOf item) = true then _ else _ : Work α α).run r = _
    rw [if_pos taken]
    rfl
  · change (if r.contains (keyOf item) = true then _ else _ : Work α α).run r = _
    rw [if_neg taken]
    rfl

/-- Work in place does what registering an item does to a registry of its own. -/
theorem register_eq (r : Registry α) (item : α) :
    r.register item = (r.answer item).map fun _ => r.after item := by
  unfold answer after register
  rw [run_enter, ← keyOf]
  dsimp only
  split_ifs <;> rfl

/-- An item is refused for a blank name or for a name that is taken, and nothing changes, or it is
registered and handed back. -/
theorem call_cases (r : Registry α) (item : α) :
    (keyOf item = "" ∧ r.answer item = .error .emptyName ∧ r.after item = r) ∨
    (keyOf item ≠ "" ∧ keyOf item ∈ r.names ∧
      r.answer item = .error (.alreadyRegistered (keyOf item)) ∧ r.after item = r) ∨
    (r.answer item = .ok item ∧ r.register item = .ok (r.after item)) := by
  rw [register_eq]
  unfold answer after
  rw [run_enter]
  split_ifs with blank taken
  · exact .inl ⟨String.isEmpty_iff.mp blank, rfl, rfl⟩
  · exact .inr (.inl ⟨mt String.isEmpty_iff.mpr blank, KeyMap.contains_iff_mem_keys.mp taken, rfl, rfl⟩)
  · exact .inr (.inr ⟨rfl, rfl⟩)

/-- An item that is registered brings a new name. -/
theorem names_of_register (ok : r.register item = .ok next) :
    keyOf item ∉ r.names ∧ next.names.Perm (keyOf item :: r.names) := by
  obtain ⟨_, free, rfl⟩ := register_eq_ok.mp ok
  have fresh : keyOf item ∉ r.names := KeyMap.get?_eq_none_iff.mp free
  exact ⟨fresh, KeyMap.keys_insert_perm fresh item⟩

theorem names_after (r : Registry α) (item : α) :
    (r.after item).names.Perm (r.names ++ (r.answer item).toOption.toList.map keyOf) := by
  rcases r.call_cases item with ⟨_, failed, same⟩ | ⟨_, _, failed, same⟩ | ⟨done, ok⟩
  · rw [failed, same]
    exact .of_eq (List.append_nil _).symm
  · rw [failed, same]
    exact .of_eq (List.append_nil _).symm
  · rw [done]
    exact (names_of_register ok).2.trans (List.perm_append_singleton _ _).symm

theorem sorted_after (sorted : r.items.Sorted) (item : α) : (r.after item).items.Sorted := by
  rcases r.call_cases item with ⟨_, _, same⟩ | ⟨_, _, _, same⟩ | ⟨_, ok⟩
  · rw [same]
    exact sorted
  · rw [same]
    exact sorted
  · rw [(register_eq_ok.mp ok).2.2]
    exact sorted.insert _ item

/-- A name has what it had, or else the item if that is its name. -/
theorem get?_after (r : Registry α) (item : α) (named : n ≠ "") :
    (r.after item).get? n = (r.get? n).or (if keyOf item = n then some item else none) := by
  rcases r.call_cases item with ⟨blank, _, same⟩ | ⟨_, listed, _, same⟩ | ⟨_, ok⟩
  · rw [same, if_neg (blank ▸ Ne.symm named), Option.or_none]
  · rw [same]
    by_cases own : keyOf item = n
    · obtain ⟨found, here⟩ := mem_names.mp (own ▸ listed)
      rw [here, Option.some_or]
    · rw [if_neg own, Option.or_none]
  · rw [get?_of_register ok]
    by_cases own : keyOf item = n
    · have free : r.get? n = none := own ▸ (register_eq_ok.mp ok).2.1
      rw [if_pos own.symm, if_pos own, free, Option.none_or]
    · rw [if_neg (Ne.symm own), if_neg own, Option.or_none]

/-- No item is added under the empty name. -/
theorem get?_empty_after (none : r.get? "" = none) (item : α) : (r.after item).get? "" = .none := by
  rcases r.call_cases item with ⟨_, _, same⟩ | ⟨_, _, _, same⟩ | ⟨_, ok⟩
  · rw [same]
    exact none
  · rw [same]
    exact none
  · rw [get?_of_register ok, if_neg (Ne.symm (register_eq_ok.mp ok).1)]
    exact none

theorem get?_after_of_some (found : r.get? n = some other) (item : α) :
    (r.after item).get? n = some other := by
  rcases r.call_cases item with ⟨_, _, same⟩ | ⟨_, _, _, same⟩ | ⟨_, ok⟩
  · rw [same]
    exact found
  · rw [same]
    exact found
  · exact get?_register_of_some ok found

/-! What calls do in turn. -/

theorem run_cons (r : Registry α) (item : α) (rest : List α) :
    r.run (item :: rest) = (r.after item).run rest :=
  List.foldl_cons

theorem names_run (r : Registry α) (items : List α) :
    (r.run items).names.Perm (r.names ++ (r.accepted items).map keyOf) := by
  induction items generalizing r with
  | nil => exact .of_eq (List.append_nil _).symm
  | cons item rest ih =>
    rw [accepted, List.map_append, ← List.append_assoc, run_cons]
    exact (ih (r.after item)).trans ((r.names_after item).append_right _)

theorem sorted_run (sorted : r.items.Sorted) (items : List α) : (r.run items).items.Sorted := by
  induction items generalizing r with
  | nil => exact sorted
  | cons item rest ih =>
    rw [run_cons]
    exact ih (sorted_after sorted item)

theorem get?_run (r : Registry α) (items : List α) (named : n ≠ "") :
    (r.run items).get? n = (r.get? n).or (items.find? fun item => keyOf item = n) := by
  induction items generalizing r with
  | nil => exact Option.or_none.symm
  | cons item rest ih =>
    rw [run_cons, ih, get?_after r item named, Option.or_assoc, List.find?_cons]
    by_cases own : keyOf item = n <;> simp [own]

theorem get?_empty_run (none : r.get? "" = none) (items : List α) : (r.run items).get? "" = .none := by
  induction items generalizing r with
  | nil => exact none
  | cons item rest ih =>
    rw [run_cons]
    exact ih (get?_empty_after none item)

theorem run_append (r : Registry α) (items later : List α) :
    r.run (items ++ later) = (r.run items).run later :=
  List.foldl_append

/-- What is found in a registry stays there, whatever is registered later. -/
theorem get?_run_of_some (found : r.get? n = some item) (later : List α) :
    (r.run later).get? n = some item := by
  induction later generalizing r with
  | nil => exact found
  | cons other rest ih =>
    rw [run_cons]
    exact ih (get?_after_of_some found other)

/-- What a registry shows of the calls that have led to it. -/
structure Shows (r : Registry α) (calls : List α) : Prop where
  sorted : r.names.Pairwise (· < ·)
  names : r.names.Perm ((empty.accepted calls).map keyOf)
  size : r.size = r.names.length
  contains : ∀ n, r.contains n = true ↔ n ∈ r.names
  first : ∀ n item, r.get? n = some item ↔
    n ≠ "" ∧ calls.find? (fun item => keyOf item = n) = some item

/-- A call either adds one name or is refused for its name, and then changes nothing. -/
structure Appends (r : Registry α) (item : α) : Prop where
  blank : r.answer item = .error .emptyName ↔
    ∀ c ∈ (Named.name item).toList, Text.isBlank c = true
  taken : ∀ n, r.answer item = .error (.alreadyRegistered n) ↔ keyOf item = n ∧ n ∈ r.names
  refused : ∀ e, r.answer item = .error e → r.after item = r
  added : ∀ done, r.answer item = .ok done →
    done = item ∧ keyOf item ∉ r.names ∧ (r.after item).names.Perm (keyOf item :: r.names)
  registered : r.register item = (r.answer item).map fun _ => r.after item

theorem shows_run (calls : List α) : (empty.run calls).Shows calls where
  sorted := List.pairwise_map.mpr (sorted_run (r := empty) KeyMap.sorted_empty calls)
  names := names_run empty calls
  size := (List.length_map _).symm
  contains n := KeyMap.contains_iff_mem_keys
  first n item := by
    by_cases named : n = ""
    · simp [named, get?_empty_run (r := (empty : Registry α)) rfl calls]
    · rw [get?_run empty calls named, and_iff_right named]
      rfl

theorem appends (none : r.get? "" = none) (item : α) : r.Appends item := by
  have nameless : "" ∉ r.names := KeyMap.get?_eq_none_iff.mp none
  have blank : keyOf item = "" ↔ ∀ c ∈ (Named.name item).toList, Text.isBlank c = true :=
    Text.trim_eq_empty_iff
  have registered := register_eq r item
  rcases r.call_cases item with ⟨empty, failed, same⟩ | ⟨named, listed, failed, same⟩ | ⟨done, ok⟩
  · refine ⟨iff_of_true failed (blank.mp empty), ?_, fun _ _ => same, ?_, registered⟩
    · intro n
      rw [failed]
      refine iff_of_false nofun ?_
      rintro ⟨rfl, listed⟩
      exact nameless (empty ▸ listed)
    · rw [failed]
      exact nofun
  · refine ⟨?_, ?_, fun _ _ => same, ?_, registered⟩
    · rw [failed]
      exact iff_of_false nofun fun empty => named (blank.mpr empty)
    · intro n
      rw [failed, Except.error.injEq, RegistryError.alreadyRegistered.injEq]
      exact ⟨fun own => ⟨own, own ▸ listed⟩, And.left⟩
    · rw [failed]
      exact nofun
  · have named := (register_eq_ok.mp ok).1
    obtain ⟨fresh, joined⟩ := names_of_register ok
    refine ⟨?_, ?_, ?_, ?_, registered⟩
    · rw [done]
      exact iff_of_false nofun fun empty => named (blank.mpr empty)
    · intro n
      rw [done]
      refine iff_of_false nofun ?_
      rintro ⟨rfl, listed⟩
      exact fresh listed
    · rw [done]
      exact nofun
    · intro other same
      cases done.symm.trans same
      exact ⟨rfl, fresh, joined⟩

/-- A registry is only added to. In every state that calls lead to, the names in order are those of the
items that were accepted, an item is the first that was offered under its name and stays for good, and
the next call adds one name or changes nothing. -/
theorem run_append_only (calls : List α) :
    (empty.run calls).Shows calls ∧
    (∀ later n item, (empty.run calls).get? n = some item →
      (empty.run (calls ++ later)).get? n = some item) ∧
    ∀ item, (empty.run calls).Appends item := by
  refine ⟨shows_run calls, ?_, ?_⟩
  · intro later n item found
    rw [run_append]
    exact get?_run_of_some found later
  · intro item
    exact appends (get?_empty_run rfl calls) item

def notesCalls : List Schema :=
  [⟨" Note ", "first", "", [], []⟩, ⟨"Note", "second", "", [], []⟩, ⟨"\t", "third", "", [], []⟩]

/-- The first of two notes stays when a memo joins it. A name of blanks and a third note are refused. -/
theorem run_append_only_notes :
    ((empty.run notesCalls).get? "Note").map Schema.label = some "first" ∧
    ((empty.run (notesCalls ++ [⟨"Memo", "", "", [], []⟩])).get? "Note").map Schema.label =
      some "first" ∧
    (empty.run notesCalls).answer ⟨" \n", "", "", [], []⟩ = .error .emptyName ∧
    (empty.run notesCalls).answer ⟨"Note\n", "", "", [], []⟩ =
      .error (.alreadyRegistered "Note") := by
  obtain ⟨shown, stays, next⟩ := run_append_only notesCalls
  have found : (empty.run notesCalls).get? "Note" = some ⟨" Note ", "first", "", [], []⟩ :=
    (shown.first _ _).mpr ⟨by decide, rfl⟩
  have listed : "Note" ∈ (empty.run notesCalls).names := mem_names.mpr ⟨_, found⟩
  have blanks : ∀ c ∈ " \n".toList, Text.isBlank c = true := List.all_eq_true.mp rfl
  refine ⟨?_, ?_, (next _).blank.mpr blanks, ((next _).taken "Note").mpr ⟨by decide, listed⟩⟩
  · rw [found]
    rfl
  · rw [stays _ _ _ found]
    rfl

end EntitySchema.Registry
