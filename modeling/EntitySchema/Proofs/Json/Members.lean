import EntitySchema.Proofs.Json.Reading

/-!
Records, lists and texts by name, read from the document that they were written as, in any order of
the members. What a record decoder reads depends only on what stands under each name.
-/

namespace EntitySchema.Json

variable {α β : Type}

/-- The members of a record that has some of them. -/
def present (members : List (String × Option Json)) : List (String × Json) :=
  members.filterMap fun e => e.2.map fun j => (e.1, j)

theorem keys_present_sublist (members : List (String × Option Json)) :
    ((present members).map Prod.fst).Sublist (members.map Prod.fst) := by
  induction members with
  | nil => exact .slnil
  | cons e rest ih =>
    obtain ⟨name, content⟩ := e
    cases content with
    | none => exact ih.cons name
    | some j => exact ih.cons_cons name

theorem lookup_present {members : List (String × Option Json)}
    (distinct : (members.map Prod.fst).Nodup) (name : String) :
    (present members).lookup name = (members.lookup name).join := by
  induction members with
  | nil => rfl
  | cons e rest ih =>
    obtain ⟨key, content⟩ := e
    rw [List.map_cons, List.nodup_cons] at distinct
    have later := ih distinct.2
    by_cases same : name = key
    · subst same
      have absent : rest.lookup name = none := KeyMap.get?_eq_none_iff (m := ⟨rest⟩).mpr distinct.1
      rw [List.lookup_cons_self]
      cases content with
      | some j => exact List.lookup_cons_self
      | none => exact later.trans (by rw [absent, Option.join_none, Option.join_some])
    · rw [List.lookup_cons, beq_false_of_ne same]
      cases content with
      | some j =>
        refine Eq.trans ?_ later
        rw [present, List.filterMap_cons, Option.map_some, List.lookup_cons, beq_false_of_ne same]
        rfl
      | none => exact later

section Record

variable (o : MemberOrder)

/-- What a record decoder is given of members that are met in this order. -/
def met (members : List (String × Option Json)) : Members :=
  ⟨o.arrange (arrangedFields o (present members)), false⟩

theorem members?_present (names : List String) (members : List (String × Option Json)) :
    members? names ((Json.object (present members)).arranged o) = some (met o members) := rfl

variable {members : List (String × Option Json)} {name : String}

theorem lookup_met (distinct : (members.map Prod.fst).Nodup) (name : String) :
    (met o members).fields.lookup name = (members.lookup name).join.map (arranged o) := by
  have keys : ((present members).map Prod.fst).Nodup := (keys_present_sublist members).nodup distinct
  rw [← keys_arrangedFields o] at keys
  rw [met, o.lookup_arrange keys, lookup_arrangedFields, lookup_present distinct]

theorem required_met (distinct : (members.map Prod.fst).Nodup) {j : Json}
    (found : members.lookup name = some (some j)) {decode : Json → Option α} {a : α}
    (read : decode (j.arranged o) = some a) : (met o members).required name decode = some a := by
  rw [Members.required, lookup_met o distinct, found, Option.join_some, Option.map_some,
    Option.bind_some, read]

theorem optional_met (distinct : (members.map Prod.fst).Nodup) {content : Option Json}
    (found : members.lookup name = some content) {absent a : α} {decode : Json → Option α}
    (read : content.elim (some absent) (fun j => decode (j.arranged o)) = some a) :
    (met o members).optional name absent decode = some a := by
  rw [Members.optional, lookup_met o distinct, found, Option.join_some]
  cases content with
  | none => exact read
  | some j => exact read

end Record

/-! Lists, texts by name, whole numbers and what may be null. -/

theorem listOf_array (o : MemberOrder) {encode : α → Json} {decode : Json → Option β} {f : α → β}
    {xs : List α} (each : ∀ x ∈ xs, decode ((encode x).arranged o) = some (f x)) :
    listOf decode ((Json.array (xs.map encode)).arranged o) = some (xs.map f) := by
  rw [arranged_array, List.map_map, listOf, array?, Option.bind_some, List.mapM_map]
  induction xs with
  | nil => rfl
  | cons x rest ih =>
    rw [List.mapM_cons, ih fun y member => each y (.tail _ member), Function.comp_apply,
      Function.comp_apply, each x (.head _)]
    rfl

theorem listOf_texts (o : MemberOrder) (names : List String) :
    listOf text? ((Json.array (names.map .text)).arranged o) = some names := by
  have read : listOf text? ((Json.array (names.map .text)).arranged o) = some (names.map id) :=
    listOf_array o fun _ _ => rfl
  rwa [List.map_id] at read

theorem mapOf_texts (o : MemberOrder) {m : KeyMap String} (sorted : m.Sorted) :
    mapOf text? ((Json.object (m.entries.map fun e => (e.1, .text e.2))).arranged o) = some m := by
  have document : (Json.object (m.entries.map fun e => (e.1, .text e.2))).Ordered := by
    refine .object (List.pairwise_map.mpr sorted) fun e member => ?_
    obtain ⟨entry, _, rfl⟩ := List.mem_map.mp member
    exact .text entry.2
  have each : (m.entries.map fun e => (e.1, Json.text e.2)).mapM
      (fun e => (text? e.2).map fun a => (e.1, a)) = some m.entries := by
    rw [List.mapM_map]
    exact List.mapM_pure.trans (congrArg some (List.map_id m.entries))
  rw [arranged_of_ordered o document, mapOf, each, Option.map_some, KeyMap.ofList_entries sorted]

theorem nullable_of_ne {decode : Json → Option α} {j : Json} (other : j ≠ .null) :
    nullable decode j = (decode j).map some := by
  cases j <;> first | rfl | exact absurd rfl other

/-- What is read where null is not, is not null. -/
theorem nullable_of_some {decode : Json → Option α} {j : Json} {a : α} (refuses : decode .null = none)
    (read : decode j = some a) : nullable decode j = some (some a) := by
  have other : j ≠ .null := by
    rintro rfl
    rw [refuses] at read
    cases read
  rw [nullable_of_ne other, read, Option.map_some]

theorem natural_eq {n : Nat} (word : n ≤ 18446744073709551615) :
    ∃ fits, natural n = .number (.integer n fits) := by
  have fits : WordSized n := by
    unfold WordSized
    omega
  exact ⟨fits, by rw [natural, integer?, dif_pos fits, Option.getD_some]⟩

theorem natural?_natural (o : MemberOrder) {n most : Nat} (le : n ≤ most)
    (word : n ≤ 18446744073709551615) : ((natural n).arranged o).natural? most = some n := by
  obtain ⟨fits, written⟩ := natural_eq word
  rw [written, arranged_of_ordered o (.number _), natural?, if_pos (by omega), Int.toNat_natCast]

end EntitySchema.Json
