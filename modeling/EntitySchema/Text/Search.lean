/-!
Finding one text inside another.
-/

namespace EntitySchema.Text

/-- The characters of `needle` stand next to each other somewhere in the list. -/
def occursIn (needle : List Char) : List Char → Bool
  | [] => needle.isEmpty
  | c :: rest => needle.isPrefixOf (c :: rest) || occursIn needle rest

def contains (s needle : String) : Bool := occursIn needle.toList s.toList

end EntitySchema.Text
