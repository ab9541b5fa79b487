import EntitySchema.Value.Json
import EntitySchema.Proofs.Json.Arrangement

/-!
The canonical form of a value: what is left of it after it has been written as a document and read
back. Signed and unsigned integers share the numbers that both hold, and a document has no instants,
no decimals and no floats that are not finite.
-/

namespace EntitySchema.Value

open Calendar

/-- To prove something of all values, prove it of scalars, and of lists and maps whose parts have
it. -/
theorem inductionOn {P : Value → Prop} (null : P .null) (bool : ∀ b, P (.bool b)) (int : ∀ i, P (.int i))
    (uint : ∀ u, P (.uint u)) (float : ∀ x, P (.float x)) (text : ∀ s, P (.text s))
    (list : ∀ items, (∀ v ∈ items, P v) → P (.list items))
    (map : ∀ entries, (∀ e ∈ entries, P e.2) → P (.map ⟨entries⟩))
    (timestamp : ∀ t, P (.timestamp t)) (decimal : ∀ d, P (.decimal d)) (v : Value) : P v := by
  refine @Value.rec P (fun items => ∀ v ∈ items, P v) (fun m => ∀ e ∈ m.entries, P e.2)
    (fun entries => ∀ e ∈ entries, P e.2) (fun e => P e.2) null bool int uint float text list
    (fun m => map m.entries) timestamp decimal ?_ ?_ (fun _ each => each) ?_ ?_
    (fun _ _ one => one) v
  · exact List.forall_mem_nil _
  · exact fun _ _ one others => List.forall_mem_cons.mpr ⟨one, others⟩
  · exact List.forall_mem_nil _
  · exact fun _ _ one others => List.forall_mem_cons.mpr ⟨one, others⟩

/-- The entries of every map in the value are in key order. -/
inductive Ordered : Value → Prop where
  | null : Ordered .null
  | bool (b : Bool) : Ordered (.bool b)
  | int (i : Int64) : Ordered (.int i)
  | uint (u : UInt64) : Ordered (.uint u)
  | float (x : Number.Binary64) : Ordered (.float x)
  | text (s : String) : Ordered (.text s)
  | list {items : List Value} (inner : ∀ v ∈ items, Ordered v) : Ordered (.list items)
  | map {m : Record} (sorted : m.Sorted) (inner : ∀ e ∈ m.entries, Ordered e.2) : Ordered (.map m)
  | timestamp (t : Timestamp) : Ordered (.timestamp t)
  | decimal (d : Number.Decimal) : Ordered (.decimal d)

mutual

/-- An unsigned integer that a signed word holds is signed, a float that is not finite is null, and
decimals and instants are their texts. -/
def canonical (zone : Timestamp.Zone) : Value → Value
  | .uint u => if u.toNat ≤ Int64.maxValue.toInt then .int (Int64.ofInt u.toNat) else .uint u
  | .float x => if x.isFinite then .float x else .null
  | .decimal d => .text d.text
  | .timestamp t => .text (String.ofList (t.chars zone))
  | .list items => .list (canonicalItems zone items)
  | .map ⟨entries⟩ => .map ⟨canonicalEntries zone entries⟩
  | v => v

def canonicalItems (zone : Timestamp.Zone) : List Value → List Value
  | [] => []
  | v :: rest => canonical zone v :: canonicalItems zone rest

def canonicalEntries (zone : Timestamp.Zone) : List (String × Value) → List (String × Value)
  | [] => []
  | (key, v) :: rest => (key, canonical zone v) :: canonicalEntries zone rest

end

/-! What is done to the parts of lists and maps is done to each of them. -/

section Parts

variable (zone : Timestamp.Zone)

theorem canonicalItems_eq (items : List Value) :
    canonicalItems zone items = items.map (canonical zone) :=
  Json.eq_map_of_cons rfl (fun _ _ => rfl) items

theorem canonicalEntries_eq (entries : List (String × Value)) :
    canonicalEntries zone entries = entries.map fun e => (e.1, e.2.canonical zone) :=
  Json.eq_map_of_cons rfl (fun _ _ => rfl) entries

theorem toItems_eq (items : List Value) : toItems zone items = items.map (toJson zone) :=
  Json.eq_map_of_cons rfl (fun _ _ => rfl) items

theorem toFields_eq (entries : List (String × Value)) :
    toFields zone entries = entries.map fun e => (e.1, e.2.toJson zone) :=
  Json.eq_map_of_cons rfl (fun _ _ => rfl) entries

theorem ofItems_eq (items : List Json) : ofItems items = items.map ofJson :=
  Json.eq_map_of_cons rfl (fun _ _ => rfl) items

theorem ofFields_eq (fields : List (String × Json)) :
    ofFields fields = fields.map fun e => (e.1, ofJson e.2) :=
  Json.eq_map_of_cons rfl (fun _ _ => rfl) fields

theorem canonical_uint (u : UInt64) : (Value.uint u).canonical zone =
    if u.toNat ≤ Int64.maxValue.toInt then .int (Int64.ofInt u.toNat) else .uint u :=
  rfl

theorem canonical_list (items : List Value) :
    (Value.list items).canonical zone = .list (items.map (canonical zone)) :=
  congrArg Value.list (canonicalItems_eq zone items)

theorem canonical_map (entries : List (String × Value)) : (Value.map ⟨entries⟩).canonical zone =
    .map ⟨entries.map fun e => (e.1, e.2.canonical zone)⟩ :=
  congrArg (fun parts => Value.map ⟨parts⟩) (canonicalEntries_eq zone entries)

theorem toJson_signed (i : Int64) :
    (Value.int i).toJson zone = (Json.integer? i.toInt).getD .null :=
  rfl

theorem toJson_unsigned (u : UInt64) : (Value.uint u).toJson zone = Json.natural u.toNat :=
  rfl

theorem toJson_list (items : List Value) :
    (Value.list items).toJson zone = .array (items.map (toJson zone)) :=
  congrArg Json.array (toItems_eq zone items)

theorem toJson_map (entries : List (String × Value)) : (Value.map ⟨entries⟩).toJson zone =
    .object (entries.map fun e => (e.1, e.2.toJson zone)) :=
  congrArg Json.object (toFields_eq zone entries)

theorem ofJson_array (items : List Json) : ofJson (.array items) = .list (items.map ofJson) :=
  congrArg Value.list (ofItems_eq items)

theorem ofJson_object (fields : List (String × Json)) :
    ofJson (.object fields) = .map (KeyMap.ofList (fields.map fun e => (e.1, ofJson e.2))) :=
  congrArg (fun parts => Value.map (KeyMap.ofList parts)) (ofFields_eq fields)

end Parts

theorem ofJson_integer {i : Int} (fits : WordSized i) :
    ofJson (.number (.integer i fits)) = ofInteger i :=
  rfl


/-! Reading without being told the kind. -/

theorem decodeScalar?_integer (i : Int) (fits : WordSized i) :
    decodeScalar? (.number (.integer i fits)) = some (ofInteger i) := by
  rw [ofInteger]
  by_cases small : i ≤ Int64.maxValue.toInt
  · simp [decodeScalar?, decodeNull?, decodeBool?, decodeInt?, small]
  · have positive : 0 ≤ i := by
      have zero : (0 : Int) ≤ Int64.maxValue.toInt := by decide
      omega
    simp [decodeScalar?, decodeNull?, decodeBool?, decodeInt?, decodeUInt?, small, positive]

/-- Both readings of a document give one value. -/
theorem decode?_eq (j : Json) : decode? j = some (ofJson j) := by
  induction j using Json.inductionOn with
  | null => rfl
  | bool b => rfl
  | number n =>
    cases n with
    | integer i fits => exact decodeScalar?_integer i fits
    | float x => rfl
  | text s => rfl
  | array items ih =>
    have each : decodeItems? items = some (ofItems items) := by
      induction items with
      | nil => rfl
      | cons j rest others =>
        rw [decodeItems?, ih j (.head _), others fun k member => ih k (.tail _ member)]
        rfl
    rw [decode?, each]
    rfl
  | object fields ih =>
    have each : decodeFields? fields = some (ofFields fields) := by
      induction fields with
      | nil => rfl
      | cons e rest others =>
        rw [decodeFields?, ih e (.head _), others fun other member => ih other (.tail _ member)]
        rfl
    rw [decode?, each]
    rfl

section Document

variable (zone : Timestamp.Zone)

theorem toJson_ofInteger {i : Int} (fits : WordSized i) :
    (ofInteger i).toJson zone = .number (.integer i fits) := by
  have bounds := fits
  unfold WordSized at bounds
  rw [ofInteger]
  split
  · next small =>
    have word : (Int64.ofInt i).toInt = i := by
      have most : Int64.maxValue.toInt = 9223372036854775807 := by decide
      exact Int64.toInt_ofInt_of_le (by omega) (by omega)
    rw [toJson_signed, Json.integer?, word, dif_pos fits, Option.getD_some]
  · next large =>
    have most : Int64.maxValue.toInt = 9223372036854775807 := by decide
    have word : ((UInt64.ofNat i.toNat).toNat : Int) = i := by
      have size : UInt64.size = 18446744073709551616 := rfl
      rw [UInt64.toNat_ofNat_of_lt' (by omega)]
      omega
    rw [toJson_unsigned, Json.natural, Json.integer?, word, dif_pos fits, Option.getD_some]

theorem toJson_ofJson {j : Json} (ordered : j.Ordered) : (ofJson j).toJson zone = j := by
  induction ordered with
  | null => rfl
  | bool b => rfl
  | number n =>
    cases n with
    | integer i fits => exact toJson_ofInteger zone fits
    | float x => rfl
  | text s => rfl
  | @array items _ ih =>
    rw [ofJson_array, toJson_list, List.map_map]
    exact congrArg Json.array ((List.map_congr_left ih).trans (List.map_id items))
  | @object fields sorted _ ih =>
    have sorted' : (KeyMap.mk (fields.map fun e => (e.1, ofJson e.2))).Sorted := by
      rw [KeyMap.Sorted, List.pairwise_map]
      exact sorted
    rw [ofJson_object, KeyMap.ofList_entries sorted', toJson_map, List.map_map]
    refine congrArg Json.object ((List.map_congr_left fun e member => ?_).trans (List.map_id fields))
    rw [Function.comp_apply, ih e member, id]

/-! From a value to its document and back. -/

theorem toJson_int (i : Int64) : ∃ fits, (Value.int i).toJson zone = .number (.integer i.toInt fits) := by
  have fits : WordSized i.toInt := by
    have least := i.le_toInt
    have most := i.toInt_lt
    unfold WordSized
    omega
  exact ⟨fits, by rw [toJson_signed, Json.integer?, dif_pos fits, Option.getD_some]⟩

theorem toJson_uint (u : UInt64) :
    ∃ fits, (Value.uint u).toJson zone = .number (.integer u.toNat fits) := by
  have fits : WordSized u.toNat := by
    have most := u.toNat_lt
    unfold WordSized
    omega
  exact ⟨fits, by rw [toJson_unsigned, Json.natural, Json.integer?, dif_pos fits, Option.getD_some]⟩

theorem ofJson_toJson {v : Value} (ordered : v.Ordered) :
    ofJson (v.toJson zone) = v.canonical zone := by
  induction ordered with
  | null => rfl
  | bool b => rfl
  | int i =>
    obtain ⟨fits, written⟩ := toJson_int zone i
    rw [written, ofJson_integer, ofInteger, if_pos i.toInt_le, Int64.ofInt_toInt]
    rfl
  | uint u =>
    obtain ⟨fits, written⟩ := toJson_uint zone u
    rw [written, ofJson_integer, ofInteger, canonical_uint, Int.toNat_natCast, UInt64.ofNat_toNat]
  | float x => cases x <;> rfl
  | text s => rfl
  | @list items _ ih =>
    rw [toJson_list, ofJson_array, List.map_map, canonical_list]
    exact congrArg Value.list (List.map_congr_left ih)
  | @map m sorted _ ih =>
    obtain ⟨entries⟩ := m
    have sorted' : (KeyMap.mk (entries.map fun e => (e.1, e.2.canonical zone))).Sorted := by
      rw [KeyMap.Sorted, List.pairwise_map]
      exact sorted
    rw [toJson_map, ofJson_object, List.map_map, canonical_map, ← KeyMap.ofList_entries sorted']
    refine congrArg (fun parts => Value.map (KeyMap.ofList parts))
      (List.map_congr_left fun e member => ?_)
    exact congrArg (e.1, ·) (ih e member)
  | timestamp t => rfl
  | decimal d => rfl

theorem ordered_toJson {v : Value} (ordered : v.Ordered) : (v.toJson zone).Ordered := by
  induction ordered with
  | null => exact .null
  | bool b => exact .bool b
  | int i =>
    obtain ⟨fits, written⟩ := toJson_int zone i
    exact written ▸ .number _
  | uint u =>
    obtain ⟨fits, written⟩ := toJson_uint zone u
    exact written ▸ .number _
  | float x => cases x <;> constructor
  | text s => exact .text s
  | list _ ih =>
    rw [toJson_list]
    refine .array fun j member => ?_
    obtain ⟨v, inside, rfl⟩ := List.mem_map.mp member
    exact ih v inside
  | @map m sorted _ ih =>
    obtain ⟨entries⟩ := m
    rw [toJson_map]
    refine .object (List.pairwise_map.mpr sorted) fun e member => ?_
    obtain ⟨entry, inside, rfl⟩ := List.mem_map.mp member
    exact ih entry inside
  | timestamp t => exact .text _
  | decimal d => exact .text _

/-- The canonical form has the document of the value. -/
theorem toJson_canonical {v : Value} (ordered : v.Ordered) (other : Timestamp.Zone) :
    (v.canonical zone).toJson other = v.toJson zone := by
  rw [← ofJson_toJson zone ordered, toJson_ofJson other (ordered_toJson zone ordered)]

end Document

end EntitySchema.Value
