import EntitySchema.Proofs.Text.Blank
import EntitySchema.Text.Case

/-!
Lower case and blanks. A character that is not blank has a lower case without blanks, so that a text in
lower case is blank only if the text is, and has no blanks at its ends if the text has none.
-/

namespace EntitySchema.Text

namespace Case

/-- The code points of the blank characters. -/
def blankPoints : List Nat :=
  [0x09, 0x0A, 0x0B, 0x0C, 0x0D, 0x20, 0x85, 0xA0, 0x1680, 0x2000, 0x2001, 0x2002, 0x2003, 0x2004,
   0x2005, 0x2006, 0x2007, 0x2008, 0x2009, 0x200A, 0x2028, 0x2029, 0x202F, 0x205F, 0x3000]

theorem mem_blankPoints {c : Char} (blank : isBlank c = true) : c.toNat ∈ blankPoints := by
  simp only [isBlank, Bool.or_eq_true, Bool.and_eq_true, decide_eq_true_eq, beq_iff_eq] at blank
  simp only [blankPoints, List.mem_cons]
  omega

/-- No letter has a blank for its lower case. -/
theorem runs_not_blank : ∀ r ∈ runs, ∀ n ∈ blankPoints, r.contains (n - r.shift).toNat = false := by
  decide +kernel

theorem toNat_ofNat (n : Nat) : (Char.ofNat n).toNat = if n.isValidChar then n else 0 := by
  by_cases valid : n.isValidChar
  · have same : Char.ofNat n = Char.ofNatAux n valid := dif_pos valid
    rw [if_pos valid, same]
    rfl
  · have same : Char.ofNat n = '\x00' := dif_neg valid
    rw [if_neg valid, same]
    rfl

theorem zero_notMem_blankPoints : 0 ∉ blankPoints := by decide

theorem isBlank_ofNat_shift {r : Run} (run : r ∈ runs) {n : Nat} (inside : r.contains n = true) :
    isBlank (Char.ofNat (n + r.shift).toNat) = false := by
  rw [← Bool.not_eq_true]
  intro blank
  have point := mem_blankPoints blank
  rw [toNat_ofNat] at point
  split_ifs at point with valid
  · have positive : (n + r.shift).toNat ≠ 0 := fun zero => zero_notMem_blankPoints (zero ▸ point)
    have back : (((n + r.shift).toNat : Int) - r.shift).toNat = n := by omega
    have outside := runs_not_blank r run _ point
    rw [back, inside] at outside
    cases outside
  · exact zero_notMem_blankPoints point

theorem isBlank_asciiLowerChar {c : Char} (mark : isBlank c = false) :
    isBlank (asciiLowerChar c) = false := by
  unfold asciiLowerChar
  split_ifs with capital
  · rw [← Bool.not_eq_true]
    intro blank
    have point := mem_blankPoints blank
    have bounds : 65 ≤ c.toNat ∧ c.toNat ≤ 90 := capital
    have small : (Char.ofNat (c.toNat + 32)).toNat = c.toNat + 32 := by
      rw [toNat_ofNat, if_pos (.inl (by omega))]
    rw [small] at point
    have outside : ∀ n ∈ blankPoints, n < 97 ∨ 122 < n := by decide
    have := outside _ point
    omega
  · exact mark

theorem lowerChar_ne_nil (c : Char) : lowerChar c ≠ [] := by
  unfold lowerChar
  split_ifs
  · nofun
  · nofun
  · split <;> nofun

theorem isBlank_of_mem_lowerChar {c d : Char} (mark : isBlank c = false) (lowered : d ∈ lowerChar c) :
    isBlank d = false := by
  unfold lowerChar at lowered
  split_ifs at lowered with ascii dotted
  · rw [List.mem_singleton.mp lowered]
    exact isBlank_asciiLowerChar mark
  · rcases List.mem_pair.mp lowered with rfl | rfl <;> decide
  · split at lowered
    · next r found =>
      rw [List.mem_singleton.mp lowered]
      have inside : r.contains c.toNat = true := List.find?_some (p := fun run => Run.contains run c.toNat) found
      exact isBlank_ofNat_shift (List.mem_of_find?_eq_some found) inside
    · rwa [List.mem_singleton.mp lowered]

/-- Each character stands for one or more in the lower case, which are not blank if it is not. -/
theorem exists_lowerFrom_cons (before : List Char) (c : Char) (rest : List Char) :
    ∃ lowered, lowerFrom before (c :: rest) = lowered ++ lowerFrom (c :: before) rest ∧ lowered ≠ [] ∧
      (isBlank c = false → ∀ d ∈ lowered, isBlank d = false) := by
  refine ⟨_, rfl, ?_, fun mark d inside => ?_⟩
  · split_ifs
    · nofun
    · nofun
    · exact lowerChar_ne_nil c
  · split_ifs at inside
    · rw [List.mem_singleton.mp inside]
      rfl
    · rw [List.mem_singleton.mp inside]
      rfl
    · exact isBlank_of_mem_lowerChar mark inside

theorem lowerFrom_ne_nil (before : List Char) {cs : List Char} (some : cs ≠ []) :
    lowerFrom before cs ≠ [] := by
  obtain ⟨c, rest, rfl⟩ := List.exists_cons_of_ne_nil some
  obtain ⟨lowered, same, nonempty, _⟩ := exists_lowerFrom_cons before c rest
  rw [same]
  exact List.append_ne_nil_of_left_ne_nil nonempty _

theorem exists_mark_lowerFrom (before : List Char) {cs : List Char} {c : Char} (inside : c ∈ cs)
    (mark : isBlank c = false) : ∃ d ∈ lowerFrom before cs, isBlank d = false := by
  induction cs generalizing before with
  | nil => cases inside
  | cons first rest ih =>
    obtain ⟨lowered, same, nonempty, marks⟩ := exists_lowerFrom_cons before first rest
    rw [same]
    rcases List.mem_cons.mp inside with rfl | later
    · obtain ⟨d, here⟩ := List.exists_mem_of_ne_nil _ nonempty
      exact ⟨d, List.mem_append_left _ here, marks mark d here⟩
    · obtain ⟨d, there, found⟩ := ih (first :: before) later
      exact ⟨d, List.mem_append_right _ there, found⟩

theorem head_lowerFrom (before : List Char) {cs : List Char}
    (front : ∀ c ∈ cs.head?, isBlank c = false) :
    ∀ d ∈ (lowerFrom before cs).head?, isBlank d = false := by
  cases cs with
  | nil => nofun
  | cons c rest =>
    obtain ⟨lowered, same, nonempty, marks⟩ := exists_lowerFrom_cons before c rest
    intro d first
    rw [same, List.head?_append_of_ne_nil _ nonempty] at first
    exact marks (front c rfl) d (List.mem_of_head? first)

theorem last_lowerFrom (before : List Char) {cs : List Char}
    (back : ∀ c ∈ cs.getLast?, isBlank c = false) :
    ∀ d ∈ (lowerFrom before cs).getLast?, isBlank d = false := by
  induction cs generalizing before with
  | nil => nofun
  | cons c rest ih =>
    obtain ⟨lowered, same, nonempty, marks⟩ := exists_lowerFrom_cons before c rest
    intro d last
    rw [same] at last
    cases rest with
    | nil =>
      rw [lowerFrom, List.append_nil] at last
      exact marks (back c rfl) d (List.mem_of_getLast? last)
    | cons next more =>
      rw [List.getLast?_append_of_ne_nil _ (lowerFrom_ne_nil _ (List.cons_ne_nil next more))] at last
      rw [List.getLast?_cons_cons] at back
      exact ih (c :: before) back d last

end Case

theorem toList_lower (s : String) : (lower s).toList = Case.lowerFrom [] s.toList := String.toList_ofList

/-- A text that is not blank is not blank in lower case. -/
theorem exists_mark_lower {s : String} (mark : ∃ c ∈ s.toList, isBlank c = false) :
    ∃ c ∈ (lower s).toList, isBlank c = false := by
  obtain ⟨c, inside, found⟩ := mark
  rw [toList_lower]
  exact Case.exists_mark_lowerFrom [] inside found

end EntitySchema.Text
