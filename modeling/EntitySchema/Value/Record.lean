import EntitySchema.Value.Json

/-!
Rows of an entity: reading a row from a document, and lifting a nested map into its row.
-/

namespace EntitySchema.Record

/-- The row of a JSON object; any other document is none. -/
def ofJson? (j : Json) : Option Record := (Value.ofJson j).record?

def encode (r : Record) : Json := (Value.map r).encode

/-- Lifts the map under `key` into the row itself and says whether there was one. Entries that the
row already has stay as they are. -/
def flatten (r : Record) (key : String) : Record × Bool :=
  match r.get? key with
  | some (.map inner) =>
    (inner.entries.foldl (fun row e => row.insertNew e.1 e.2) (r.erase key), true)
  | _ => (r, false)

end EntitySchema.Record
