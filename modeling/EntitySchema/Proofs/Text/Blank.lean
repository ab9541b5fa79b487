import EntitySchema.Text.Blank
import Mathlib.Data.List.DropRight

/-!
Trimming leaves no blank at either end, and a text without blanks at its ends as it is.
-/

namespace EntitySchema.Text

theorem head_skipBlanks (cs : List Char) : ∀ c ∈ (skipBlanks cs).head?, isBlank c = false := by
  induction cs with
  | nil => simp [skipBlanks]
  | cons c rest ih =>
    unfold skipBlanks
    cases blank : isBlank c with
    | true =>
      rw [List.dropWhile_cons_of_pos blank]
      exact ih
    | false =>
      rw [List.dropWhile_cons_of_neg (by simp [blank])]
      simpa using blank

theorem skipBlanks_of_head {cs : List Char} (front : ∀ c ∈ cs.head?, isBlank c = false) :
    skipBlanks cs = cs := by
  cases cs with
  | nil => rfl
  | cons c rest => exact List.dropWhile_cons_of_neg (by simp [front c rfl])

theorem trimChars_of_ends {cs : List Char} (front : ∀ c ∈ cs.head?, isBlank c = false)
    (back : ∀ c ∈ cs.getLast?, isBlank c = false) : trimChars cs = cs := by
  have behind : ∀ c ∈ cs.reverse.head?, isBlank c = false := by
    rw [List.head?_reverse]
    exact back
  rw [trimChars, skipBlanks_of_head front, skipBlanks_of_head behind, List.reverse_reverse]

theorem trimChars_of_solid {cs : List Char} (solid : ∀ c ∈ cs, isBlank c = false) :
    trimChars cs = cs :=
  trimChars_of_ends (fun c first => solid c (List.mem_of_mem_head? first)) fun c last =>
    solid c (List.mem_of_getLast? last)

theorem head_trimChars (cs : List Char) : ∀ c ∈ (trimChars cs).head?, isBlank c = false := by
  have front : trimChars cs <+: skipBlanks cs := List.rdropWhile_prefix isBlank _
  obtain ⟨dropped, whole⟩ := front
  intro c first
  apply head_skipBlanks cs
  cases trimmed : trimChars cs with
  | nil =>
    rw [trimmed] at first
    cases first
  | cons d rest =>
    rw [trimmed] at first whole
    rw [← whole]
    exact first

theorem last_trimChars (cs : List Char) : ∀ c ∈ (trimChars cs).getLast?, isBlank c = false := by
  rw [trimChars, List.getLast?_reverse]
  exact head_skipBlanks _

theorem trimChars_trimChars (cs : List Char) : trimChars (trimChars cs) = trimChars cs :=
  trimChars_of_ends (head_trimChars cs) (last_trimChars cs)

theorem toList_trim (s : String) : (trim s).toList = trimChars s.toList := String.toList_ofList

theorem trim_trim (s : String) : trim (trim s) = trim s := by
  rw [trim, toList_trim, trimChars_trimChars]
  rfl

theorem trim_eq_self {s : String} (front : ∀ c ∈ s.toList.head?, isBlank c = false)
    (back : ∀ c ∈ s.toList.getLast?, isBlank c = false) : trim s = s := by
  rw [trim, trimChars_of_ends front back, String.ofList_toList]

theorem ends_of_trim_eq_self {s : String} (trimmed : trim s = s) :
    (∀ c ∈ s.toList.head?, isBlank c = false) ∧ ∀ c ∈ s.toList.getLast?, isBlank c = false := by
  rw [← trimmed, toList_trim]
  exact ⟨head_trimChars _, last_trimChars _⟩

/-! Trimming a text in front of which another stands. -/

variable {front back : List Char}

theorem skipBlanks_ne_nil (mark : ∃ c ∈ front, isBlank c = false) : skipBlanks front ≠ [] := by
  obtain ⟨c, inside, found⟩ := mark
  intro none
  rw [skipBlanks, List.dropWhile_eq_nil_iff] at none
  rw [none c inside] at found
  cases found

theorem trimChars_ne_nil (mark : ∃ c ∈ front, isBlank c = false) : trimChars front ≠ [] := by
  obtain ⟨c, rest, same⟩ := List.exists_cons_of_ne_nil (skipBlanks_ne_nil mark)
  have found : isBlank c = false := head_skipBlanks front c (by rw [same]; rfl)
  intro none
  have behind : skipBlanks (skipBlanks front).reverse ≠ [] :=
    skipBlanks_ne_nil ⟨c, by simp [same], found⟩
  exact behind (List.reverse_eq_nil_iff.mp none)

theorem trimChars_eq_nil (blank : ∀ c ∈ front, isBlank c = true) : trimChars front = [] := by
  have none : skipBlanks front = [] := List.dropWhile_eq_nil_iff.mpr blank
  rw [trimChars, none]
  rfl

theorem trim_eq_empty_iff {s : String} : trim s = "" ↔ ∀ c ∈ s.toList, isBlank c = true := by
  rw [← String.toList_inj, toList_trim]
  constructor
  · intro none
    by_contra solid
    push Not at solid
    refine trimChars_ne_nil ?_ none
    obtain ⟨c, member, mark⟩ := solid
    exact ⟨c, member, eq_false_of_ne_true mark⟩
  · exact trimChars_eq_nil

theorem skipBlanks_append_of_mark (mark : ∃ c ∈ front, isBlank c = false) :
    skipBlanks (front ++ back) = skipBlanks front ++ back := by
  have some := skipBlanks_ne_nil mark
  rw [skipBlanks, List.dropWhile_append, if_neg (by simpa [skipBlanks] using some)]
  rfl

theorem trimChars_append_of_blank (blank : ∀ c ∈ front, isBlank c = true) :
    trimChars (front ++ back) = trimChars back := by
  have same : skipBlanks (front ++ back) = skipBlanks back := List.dropWhile_append_of_pos blank
  rw [trimChars, same, trimChars]

/-- Trimming takes nothing from between two texts that are not blank. -/
theorem trimChars_append_of_marks (first : ∃ c ∈ front, isBlank c = false)
    (second : ∃ c ∈ back, isBlank c = false) :
    trimChars (front ++ back) = skipBlanks front ++ back.rdropWhile isBlank := by
  have behind : ∃ c ∈ back.reverse, isBlank c = false := by simpa using second
  rw [trimChars, skipBlanks_append_of_mark first, List.reverse_append,
    skipBlanks_append_of_mark behind, List.reverse_append, List.reverse_reverse]
  rfl

end EntitySchema.Text
