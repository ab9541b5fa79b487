import EntitySchema.Proofs.Calendar.Reading
import EntitySchema.Proofs.Json.Exact
import EntitySchema.Proofs.Value.Canonical

/-!
Values in the text of a document, read without rounding. The document shows a value to any depth:
an integer is the number itself, a finite float is a number that is rounded to it, and instants and
decimals are texts that are read back as them.
-/

namespace EntitySchema

open Number Calendar

/-- The number is finite, and `q` is rounded to it; the two zeros are the same. -/
def Number.IsNearest (q : ℚ) (x : Binary64) : Prop :=
  x.isFinite = true ∧ (Binary.ofRat .double q).same x = true

theorem Number.isNearest_written (tie : Tie) (x : FiniteBinary .double) :
    IsNearest (Shortest.written tie x) (.finite x) :=
  ⟨rfl, Shortest.same_written tie x⟩

namespace Value

/-- The first value is the second one or is somewhere in it. -/
inductive Within : Value → Value → Prop
  | self (v : Value) : Within v v
  | item {u v : Value} {items : List Value} : v ∈ items → Within u v → Within u (.list items)
  | entry {u v : Value} {name : String} {entries : KeyMap Value} :
      (name, v) ∈ entries.entries → Within u v → Within u (.map entries)

mutual

/-- The document shows the value; nothing is said about floats that are not finite. -/
def Shown : Value → ExactJson → Prop
  | .null, .null => True
  | .bool b, .bool c => b = c
  | .int i, .number q => q = i.toInt
  | .uint u, .number q => q = u.toNat
  | .float x, j => x.isFinite = true →
    ∃ q, j = .number q ∧ rational? (encode (.float x)).render.toList = some q ∧ IsNearest q x
  | .text s, .text t => s = t
  | .list items, .array js => ShownItems items js
  | .map ⟨entries⟩, .object fields => ShownEntries entries fields
  | .timestamp t, .text s => t.Named s
  | .decimal d, .text s => rational? s.toList = some d.toRat
  | _, _ => False

def ShownItems : List Value → List ExactJson → Prop
  | [], [] => True
  | v :: items, j :: js => Shown v j ∧ ShownItems items js
  | _, _ => False

def ShownEntries : List (String × Value) → List (String × ExactJson) → Prop
  | [], [] => True
  | (key, v) :: entries, (name, j) :: fields => key = name ∧ Shown v j ∧ ShownEntries entries fields
  | _, _ => False

end

theorem shownItems_map {items : List Value} {f : Value → Json} (each : ∀ v ∈ items, v.Shown (f v).exact) :
    ShownItems items (Json.exactItems (items.map f)) := by
  induction items with
  | nil => trivial
  | cons v items ih =>
    obtain ⟨one, others⟩ := List.forall_mem_cons.mp each
    exact ⟨one, ih others⟩

theorem shownEntries_map {entries : List (String × Value)} {f : Value → Json}
    (each : ∀ e ∈ entries, e.2.Shown (f e.2).exact) :
    ShownEntries entries (Json.exactFields (entries.map fun e => (e.1, f e.2))) := by
  induction entries with
  | nil => trivial
  | cons e entries ih =>
    obtain ⟨one, others⟩ := List.forall_mem_cons.mp each
    exact ⟨rfl, one, ih others⟩

/-- The document of a value shows it, to any depth. -/
theorem shown_toJson (zone : Timestamp.Zone) (v : Value) : v.Shown (v.toJson zone).exact := by
  induction v using inductionOn with
  | null => trivial
  | bool b => rfl
  | int i =>
    obtain ⟨fits, written⟩ := toJson_int zone i
    rw [written]
    rfl
  | uint u =>
    obtain ⟨fits, written⟩ := toJson_uint zone u
    rw [written]
    exact Int.cast_natCast u.toNat
  | float x =>
    intro finite
    cases x with
    | finite x =>
      refine ⟨_, rfl, ?_, isNearest_written .even x⟩
      rw [Json.render, String.toList_ofList]
      exact rational?_floatChars Json.floatLayout x
    | nan => cases finite
    | infinite negative => cases finite
  | text s => rfl
  | list items each =>
    rw [toJson, toItems_eq]
    exact shownItems_map each
  | map entries each =>
    rw [toJson, toFields_eq]
    exact shownEntries_map each
  | timestamp t =>
    rw [toJson, Json.exact, Shown]
    exact t.named_chars zone
  | decimal d =>
    rw [toJson, Json.exact, Shown, Decimal.text, String.toList_ofList]
    exact rational?_decimalChars d

/-- The text of the document is read as one that shows the value. -/
theorem exists_shown (v : Value) : ∃ j, ExactJson.read? v.encode.render = some j ∧ v.Shown j :=
  ⟨_, ExactJson.read?_render v.encode, shown_toJson .letter v⟩

end Value

end EntitySchema
