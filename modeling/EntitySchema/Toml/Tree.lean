import EntitySchema.KeyMap
import EntitySchema.Number.Binary

/-!
TOML documents as trees, and what headers and pairs add to them. A table remembers how it came
about, since that decides what may still be added to it.
-/

namespace EntitySchema

/-- How a table came about. -/
inductive Toml.Origin where
  /-- By a header of its own. -/
  | declared
  /-- By the header of a table inside it. -/
  | implied
  /-- By a dotted key. -/
  | dotted
  /-- Between braces, as a value. -/
  | braced
deriving DecidableEq

inductive Toml where
  | text (s : String)
  | integer (i : Int64)
  | float (x : Number.Binary64)
  | bool (b : Bool)
  /-- A date, a time of day or both, as written. -/
  | moment (written : String)
  | array (items : List Toml)
  | table (origin : Toml.Origin) (entries : KeyMap Toml)
  /-- Tables that headers of one name add one by one. -/
  | tables (earlier : List (KeyMap Toml)) (last : KeyMap Toml)

namespace Toml

/-- Changes the table at the end of a path. Tables that are missing on the way come about as `made`,
and those whose origin is `passable` can be passed. -/
def alterAt (made : Origin) (passable : Origin → Bool)
    (change : Origin → KeyMap Toml → Option (KeyMap Toml)) :
    List String → Origin → KeyMap Toml → Option (KeyMap Toml)
  | [], origin, entries => change origin entries
  | key :: path, _, entries =>
    match entries.get? key with
    | none =>
      (alterAt made passable change path made .empty).map fun inner =>
        entries.insert key (.table made inner)
    | some (.table origin inner) =>
      if passable origin then
        (alterAt made passable change path origin inner).map fun changed =>
          entries.insert key (.table origin changed)
      else none
    | some (.tables earlier last) =>
      (alterAt made passable change path .declared last).map fun changed =>
        entries.insert key (.tables earlier changed)
    | some _ => none

/-- Changes the table that a header names. -/
def alterHeaded (change : Origin → KeyMap Toml → Option (KeyMap Toml)) (path : List String)
    (entries : KeyMap Toml) : Option (KeyMap Toml) :=
  alterAt .implied (· != .braced) change path .declared entries

/-- Adds a pair under a dotted key. The pair goes into a table that dotted keys brought about, or
into the given table if the key has one part. -/
def putPair (entries : KeyMap Toml) (key : List String) (v : Toml) : Option (KeyMap Toml) :=
  key.getLast?.bind fun last =>
    alterAt .dotted (fun origin => origin == .dotted || origin == .implied)
      (fun origin inner =>
        if (key.length == 1 || origin == .dotted) && !inner.contains last then
          some (inner.insert last v)
        else none)
      key.dropLast .declared entries

/-- Opens the table of a header, which must not have one yet. -/
def declare (entries : KeyMap Toml) (path : List String) : Option (KeyMap Toml) :=
  path.getLast?.bind fun last =>
    alterHeaded
      (fun _ inner =>
        match inner.get? last with
        | none => some (inner.insert last (.table .declared .empty))
        | some (.table .implied given) => some (inner.insert last (.table .declared given))
        | some _ => none)
      path.dropLast entries

/-- Opens one more table of the header's array. -/
def declareNext (entries : KeyMap Toml) (path : List String) : Option (KeyMap Toml) :=
  path.getLast?.bind fun last =>
    alterHeaded
      (fun _ inner =>
        match inner.get? last with
        | none => some (inner.insert last (.tables [] .empty))
        | some (.tables earlier latest) => some (inner.insert last (.tables (earlier ++ [latest]) .empty))
        | some _ => none)
      path.dropLast entries

end Toml

end EntitySchema
