import EntitySchema.Json.Decoding
import EntitySchema.Proofs.KeyMap

/-!
Documents up to the order of the members of their objects. A reader meets the members as they are
written or sorted by name. Both orders keep what is found under a name, and both leave a document
alone whose members are sorted already.
-/

namespace EntitySchema.Json

/-- What is done to a list item by item is done to each of its items. -/
theorem eq_map_of_cons {α β : Type} {f : α → β} {g : List α → List β} (nil : g [] = [])
    (cons : ∀ x rest, g (x :: rest) = f x :: g rest) (xs : List α) : g xs = xs.map f := by
  induction xs with
  | nil => exact nil
  | cons x rest ih => rw [cons, ih, List.map_cons]

/-- To prove something of all documents, prove it of scalars, and of arrays and objects whose parts
have it. -/
theorem inductionOn {P : Json → Prop} (null : P .null) (bool : ∀ b, P (.bool b))
    (number : ∀ n, P (.number n)) (text : ∀ s, P (.text s))
    (array : ∀ items, (∀ j ∈ items, P j) → P (.array items))
    (object : ∀ fields, (∀ e ∈ fields, P e.2) → P (.object fields)) (j : Json) : P j := by
  refine @Json.rec P (fun items => ∀ j ∈ items, P j) (fun fields => ∀ e ∈ fields, P e.2)
    (fun e => P e.2) null bool number text array object ?_ ?_ ?_ ?_ (fun _ _ one => one) j
  · exact List.forall_mem_nil _
  · exact fun _ _ one others => List.forall_mem_cons.mpr ⟨one, others⟩
  · exact List.forall_mem_nil _
  · exact fun _ _ one others => List.forall_mem_cons.mpr ⟨one, others⟩

/-- The members of every object are sorted by name, each name once. -/
inductive Ordered : Json → Prop where
  | null : Ordered .null
  | bool (b : Bool) : Ordered (.bool b)
  | number (n : JsonNumber) : Ordered (.number n)
  | text (s : String) : Ordered (.text s)
  | array {items : List Json} (inner : ∀ j ∈ items, Ordered j) : Ordered (.array items)
  | object {fields : List (String × Json)} (sorted : (KeyMap.mk fields).Sorted)
    (inner : ∀ e ∈ fields, Ordered e.2) : Ordered (.object fields)

/-- An order in which a reader meets the members of an object. Sorted members stay in place. -/
structure MemberOrder where
  arrange : List (String × Json) → List (String × Json)
  perm : ∀ fields, (fields.map Prod.fst).Nodup → (arrange fields).Perm fields
  sorted : ∀ fields, (KeyMap.mk fields).Sorted → arrange fields = fields

namespace MemberOrder

/-- The members as they are written. -/
def written : MemberOrder where
  arrange := id
  perm := fun fields _ => .refl fields
  sorted := fun _ _ => rfl

variable (o : MemberOrder)

/-- A name has the same member in every order. -/
theorem lookup_arrange {fields : List (String × Json)} (distinct : (fields.map Prod.fst).Nodup)
    (name : String) : (o.arrange fields).lookup name = fields.lookup name := by
  have permuted := o.perm fields distinct
  have distinct' : (KeyMap.mk (o.arrange fields)).keys.Nodup :=
    (permuted.map Prod.fst).nodup_iff.mpr distinct
  ext j
  calc (o.arrange fields).lookup name = some j
      ↔ (name, j) ∈ o.arrange fields := KeyMap.get?_eq_some_iff distinct'
    _ ↔ (name, j) ∈ fields := permuted.mem_iff
    _ ↔ fields.lookup name = some j := (KeyMap.get?_eq_some_iff (m := ⟨fields⟩) distinct).symm

theorem arrange_singleton (e : String × Json) : o.arrange [e] = [e] :=
  o.sorted [e] (List.pairwise_singleton _ e)

end MemberOrder

mutual

/-- The document as it is met by a reader that takes members in this order. -/
def arranged (o : MemberOrder) : Json → Json
  | .array items => .array (arrangedItems o items)
  | .object fields => .object (o.arrange (arrangedFields o fields))
  | j => j

def arrangedItems (o : MemberOrder) : List Json → List Json
  | [] => []
  | j :: rest => arranged o j :: arrangedItems o rest

def arrangedFields (o : MemberOrder) : List (String × Json) → List (String × Json)
  | [] => []
  | (name, j) :: rest => (name, arranged o j) :: arrangedFields o rest

end

section Arranged

variable (o : MemberOrder)

theorem arrangedItems_eq (items : List Json) : arrangedItems o items = items.map (arranged o) :=
  eq_map_of_cons rfl (fun _ _ => rfl) items

theorem arrangedFields_eq (fields : List (String × Json)) :
    arrangedFields o fields = fields.map fun e => (e.1, e.2.arranged o) :=
  eq_map_of_cons rfl (fun _ _ => rfl) fields

theorem keys_arrangedFields (fields : List (String × Json)) :
    (arrangedFields o fields).map Prod.fst = fields.map Prod.fst := by
  rw [arrangedFields_eq, List.map_map]
  rfl

theorem lookup_arrangedFields (fields : List (String × Json)) (name : String) :
    (arrangedFields o fields).lookup name = (fields.lookup name).map (arranged o) := by
  rw [arrangedFields_eq]
  induction fields with
  | nil => rfl
  | cons e rest ih =>
    rw [List.map_cons, List.lookup_cons, List.lookup_cons, ih]
    split <;> rfl

theorem arrangedFields_eq_self {fields : List (String × Json)}
    (each : ∀ e ∈ fields, e.2.arranged o = e.2) : arrangedFields o fields = fields := by
  rw [arrangedFields_eq]
  refine (List.map_congr_left fun e member => ?_).trans (List.map_id fields)
  rw [each e member, id]

theorem arranged_array (items : List Json) :
    (Json.array items).arranged o = .array (items.map (arranged o)) :=
  congrArg Json.array (arrangedItems_eq o items)

theorem arranged_object (fields : List (String × Json)) :
    (Json.object fields).arranged o = .object (o.arrange (arrangedFields o fields)) :=
  rfl

theorem arranged_alternative (name : String) (content : Json) :
    (alternative name content).arranged o = alternative name (content.arranged o) := by
  rw [alternative, arranged_object, arrangedFields_eq, List.map_singleton, o.arrange_singleton,
    alternative]

theorem arranged_of_ordered {j : Json} (ordered : j.Ordered) : j.arranged o = j := by
  induction ordered with
  | null => rfl
  | bool b => rfl
  | number n => rfl
  | text s => rfl
  | array _ ih =>
    rw [arranged_array, List.map_congr_left ih, List.map_id']
  | @object fields sorted _ ih =>
    rw [arranged_object, arrangedFields_eq_self o ih, o.sorted fields sorted]

end Arranged

end EntitySchema.Json
