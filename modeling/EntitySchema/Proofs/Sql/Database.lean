import EntitySchema.Proofs.Sql.Formula

/-!
What commands do to a table. A row satisfies a formula when it makes it true, and neither false nor
unknown; a command touches the rows that satisfy its formula, and no others.
-/

namespace EntitySchema.Sql

/-- A database with values of its own: how it reads operands, and how it compares. -/
structure Database (α : Type) where
  isNull : α → Bool
  read : Token → α
  equal : α → α → Truth
  order : String → α → α → Truth
  pattern : String → Option String → α → α → Truth

abbrev Row (α : Type) := String → α

variable {α : Type}

def Atom.truth (db : Database α) (row : Row α) : Atom → Truth
  | .present column isSet => if db.isNull (row column) = isSet then .no else .yes
  | .compare column operator x =>
    if operator = "=" then db.equal (row column) (db.read x)
    else if operator = "!=" then (db.equal (row column) (db.read x)).not
    else db.order operator (row column) (db.read x)
  | .member column negated xs =>
    let found := (xs.map fun x => db.equal (row column) (db.read x)).foldr Truth.or .no
    if negated then found.not else found
  | .pattern column operator x escape => db.pattern operator escape (row column) (db.read x)

def Formula.truth (db : Database α) (row : Row α) (f : Formula Atom) : Truth :=
  (f.map (Atom.truth db row)).value

inductive Command where
  | insert (table : String) (columns : List String) (tuples : List (List Token))
  | update (table : String) (assignments : List (String × Token)) (filter : Formula Atom)
  | delete (table : String) (filter : Formula Atom)
deriving DecidableEq

/-- The row after assignments to some of its columns. -/
def Row.assign (db : Database α) (row : Row α) (assignments : List (String × Token)) : Row α :=
  fun column => ((assignments.lookup column).map db.read).getD (row column)

/-- The rows of a table after a command. New rows start with the defaults of the columns. -/
def Command.run (db : Database α) (defaults : Row α) (rows : List (Row α)) : Command → List (Row α)
  | .insert _ columns tuples =>
    rows ++ tuples.map fun tuple => defaults.assign db (columns.zip tuple)
  | .update _ assignments filter => rows.map fun row =>
      if filter.truth db row = .yes then row.assign db assignments else row
  | .delete _ filter => rows.filter fun row => filter.truth db row ≠ .yes

theorem Row.assign_of_notMem (db : Database α) (row : Row α) {assignments : List (String × Token)}
    {column : String} (other : column ∉ assignments.map Prod.fst) :
    row.assign db assignments column = row column := by
  have unknown : assignments.lookup column = none := by
    rw [List.lookup_eq_none_iff]
    intro pair member
    have different : column ≠ pair.1 := by
      intro same
      exact other (same ▸ List.mem_map_of_mem member)
    simpa using different
  rw [assign, unknown]
  rfl

/-- The formula is true of no row but those with this operand in the column. -/
def Formula.KeepsTo (f : Formula Atom) (column : String) (x : Token) : Prop :=
  ∀ (α : Type) (db : Database α) (row : Row α), f.truth db row = .yes →
    db.equal (row column) (db.read x) = .yes

/-- Whatever is in the table, the command leaves the rows alone that have something else in the
column. -/
def Command.Spares (cmd : Command) (column : String) (x : Token) : Prop :=
  ∀ (α : Type) (db : Database α) (defaults : Row α) (rows : List (Row α)),
    (cmd.run db defaults rows).filter (fun row => db.equal (row column) (db.read x) ≠ .yes) =
      rows.filter fun row => db.equal (row column) (db.read x) ≠ .yes

theorem Formula.KeepsTo.update_spares {f : Formula Atom} {column : String} {x : Token}
    (keeps : f.KeepsTo column x) (table : String) {assignments : List (String × Token)}
    (other : column ∉ assignments.map Prod.fst) :
    (Command.update table assignments f).Spares column x := by
  intro α db defaults rows
  induction rows with
  | nil => rfl
  | cons row rest ih =>
    rw [Command.run] at ih ⊢
    rw [List.map_cons]
    by_cases chosen : f.truth db row = .yes
    · have own := keeps α db row chosen
      have still := row.assign_of_notMem db other
      rw [if_pos chosen, List.filter_cons_of_neg (by simp [still, own]),
        List.filter_cons_of_neg (by simp [own])]
      exact ih
    · rw [if_neg chosen, List.filter_cons, List.filter_cons, ih]

theorem Formula.KeepsTo.delete_spares {f : Formula Atom} {column : String} {x : Token}
    (keeps : f.KeepsTo column x) (table : String) : (Command.delete table f).Spares column x := by
  intro α db defaults rows
  rw [Command.run, List.filter_filter]
  apply List.filter_congr
  intro row _
  by_cases chosen : f.truth db row = .yes
  · simp [keeps α db row chosen]
  · simp [chosen]

end EntitySchema.Sql
