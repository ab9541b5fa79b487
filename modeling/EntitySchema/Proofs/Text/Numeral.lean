import EntitySchema.Text.Numeral
import Mathlib.Tactic.SplitIfs

/-!
Numerals are read back: the digits that are written are digits, there is at least one, and their
value is the number.
-/

namespace EntitySchema.Text

section

variable {α : Type} {p : α → Bool} {cs rest : List α} (inside : ∀ c ∈ cs, p c = true)
  (stops : ∀ c ∈ rest.head?, p c = false)

include inside stops

/-- What is taken while a condition holds ends where the condition fails. -/
theorem takeWhile_append_of_stops : (cs ++ rest).takeWhile p = cs := by
  rw [List.takeWhile_append_of_pos inside]
  cases rest with
  | nil => exact List.append_nil cs
  | cons c rest => rw [List.takeWhile_cons_of_neg (by simp [stops c rfl]), List.append_nil]

theorem dropWhile_append_of_stops : (cs ++ rest).dropWhile p = rest := by
  rw [List.dropWhile_append_of_pos inside]
  cases rest with
  | nil => rfl
  | cons c rest => exact List.dropWhile_cons_of_neg (by simp [stops c rfl])

end

namespace Numeral

theorem digit?_digitChar (d : Nat) (small : d < 10) : digit? (digitChar d) = some d := by
  revert small d
  decide

theorem isDigit_digitChar (d : Nat) (small : d < 10) : isDigit (digitChar d) = true := by
  rw [isDigit, digit?_digitChar d small, Option.isSome_some]

theorem exists_digitChar {c : Char} (digit : isDigit c = true) : ∃ d, d < 10 ∧ c = digitChar d := by
  unfold isDigit digit? at digit
  split_ifs at digit with range
  · obtain ⟨low, high⟩ := range
    change 48 ≤ c.toNat at low
    change c.toNat ≤ 57 at high
    refine ⟨c.toNat - 48, by omega, ?_⟩
    rw [digitChar, Nat.add_sub_cancel' low, Char.ofNat_toNat]
  · cases digit

theorem digits_ne_nil (n : Nat) : digits n ≠ [] := by
  unfold digits
  split <;> simp

theorem isDigit_of_mem_digits (n : Nat) : ∀ c ∈ digits n, isDigit c = true := by
  induction n using digits.induct with
  | case1 n small =>
    intro c member
    rw [digits, if_pos small, List.mem_singleton] at member
    rw [member]
    exact isDigit_digitChar n small
  | case2 n large ih =>
    intro c member
    rw [digits, if_neg large, List.mem_append, List.mem_singleton] at member
    rcases member with front | last
    · exact ih c front
    · rw [last]
      exact isDigit_digitChar _ (Nat.mod_lt n (by decide))

theorem value_append_singleton (cs : List Char) (c : Char) :
    value (cs ++ [c]) = 10 * value cs + (digit? c).getD 0 := by
  simp [value, List.foldl_append]

theorem value_digits (n : Nat) : value (digits n) = n := by
  induction n using digits.induct with
  | case1 n small =>
    rw [digits, if_pos small]
    simp [value, digit?_digitChar n small]
  | case2 n large ih =>
    rw [digits, if_neg large, value_append_singleton, ih,
      digit?_digitChar _ (Nat.mod_lt n (by decide)), Option.getD_some]
    omega

theorem isDigit_zero : isDigit '0' = true := by decide

theorem isDigit_of_mem_zeros (k : Nat) : ∀ c ∈ List.replicate k '0', isDigit c = true :=
  fun _ member => List.eq_of_mem_replicate member ▸ isDigit_zero

theorem isDigit_of_mem_padded (width n : Nat) : ∀ c ∈ padded width n, isDigit c = true :=
  List.forall_mem_append.mpr ⟨isDigit_of_mem_zeros _, isDigit_of_mem_digits n⟩

theorem length_padded (width n : Nat) : width ≤ (padded width n).length := by
  simp only [padded, List.length_append, List.length_replicate]
  omega

end Numeral

end EntitySchema.Text
