import EntitySchema.Proofs.Text.Numeral
import Mathlib.Data.Char
import Mathlib.Data.List.Induction
import Mathlib.Order.Compare
import Mathlib.Tactic.Ring

/-!
Texts in order. Texts are compared character by character from the front, so pieces of one width are
compared in turn, and numerals of one width are in the order of their numbers.
-/

namespace EntitySchema.Text

/-- What is compared first decides, unless it is the same. -/
theorem then_eq_compare {α β : Type} [LinearOrder α] [LinearOrder β] {a b : α} {m n : β}
    {next : Ordering} (before : a < b → m < n) (behind : b < a → n < m)
    (same : a = b → next = compare m n) : (compare a b).then next = compare m n := by
  rcases lt_trichotomy a b with less | equal | more
  · rw [compare_lt_iff_lt.mpr less, compare_lt_iff_lt.mpr (before less)]
    rfl
  · rw [compare_eq_iff_eq.mpr equal, same equal]
    rfl
  · rw [compare_gt_iff_gt.mpr more, compare_gt_iff_gt.mpr (behind more)]
    rfl

theorem compare_add_left (k m n : Nat) : compare (k + m) (k + n) = compare m n := by
  rw [← cmp_eq_compare, cmp_add_left, cmp_eq_compare]

theorem compare_mul_right {k : Nat} (positive : 0 < k) (m n : Nat) :
    compare (m * k) (n * k) = compare m n := by
  rw [← cmp_eq_compare, cmp_mul_pos_right positive, cmp_eq_compare]

theorem compare_eq_compareOfLessAndEq (cs ds : List Char) :
    compare cs ds = compareOfLessAndEq cs ds := by
  induction cs generalizing ds with
  | nil =>
    cases ds with
    | nil => rfl
    | cons d ds => rw [List.compare_nil_cons, compareOfLessAndEq, if_pos (List.nil_lt_cons d ds)]
  | cons c cs ih =>
    cases ds with
    | nil =>
      rw [List.compare_cons_nil, compareOfLessAndEq, if_neg (List.not_lt_nil _),
        if_neg (List.cons_ne_nil c cs)]
    | cons d ds =>
      rw [List.compare_cons_cons, ih]
      rcases lt_trichotomy c d with before | rfl | behind
      · rw [compare_lt_iff_lt.mpr before]
        simp [compareOfLessAndEq, List.cons_lt_cons_iff, before]
      · rw [compare_eq_iff_eq.mpr rfl]
        simp [compareOfLessAndEq]
      · rw [compare_gt_iff_gt.mpr behind]
        simp [compareOfLessAndEq, List.cons_lt_cons_iff, behind.not_gt, behind.ne']

/-- Texts are compared like their lists of characters. -/
theorem compare_toList (s t : String) : compare s t = compare s.toList t.toList := by
  rw [compare_eq_compareOfLessAndEq]
  change compareOfLessAndEq s t = _
  simp only [compareOfLessAndEq, String.toList_inj]
  rfl

/-- A character that both texts have in front does not matter. -/
theorem compare_cons_self (c : Char) (cs ds : List Char) :
    compare (c :: cs) (c :: ds) = compare cs ds := by
  rw [List.compare_cons_cons, Std.ReflOrd.compare_self, Ordering.eq_then]

/-- Pieces of one length are compared in turn. -/
theorem compare_append {cs ds : List Char} (same : cs.length = ds.length) (front back : List Char) :
    compare (cs ++ front) (ds ++ back) = (compare cs ds).then (compare front back) := by
  induction cs generalizing ds with
  | nil =>
    rw [List.eq_nil_of_length_eq_zero same.symm]
    rfl
  | cons c cs ih =>
    cases ds with
    | nil => cases same
    | cons d ds =>
      rw [List.cons_append, List.cons_append, List.compare_cons_cons, List.compare_cons_cons,
        ih (Nat.succ.inj same), Ordering.then_assoc]

/-- Pieces of any length with a mark behind them are compared like the pieces, if the mark comes before
all characters in them but the first. -/
theorem compare_before_mark {mark c d : Char} {cs ds : List Char} (left : ∀ x ∈ cs, mark < x)
    (right : ∀ x ∈ ds, mark < x) (front back : List Char) :
    compare (c :: cs ++ mark :: front) (d :: ds ++ mark :: back) =
      (compare (c :: cs) (d :: ds)).then (compare front back) := by
  rw [List.cons_append, List.cons_append, List.compare_cons_cons, List.compare_cons_cons,
    Ordering.then_assoc]
  congr 1
  induction cs generalizing ds with
  | nil =>
    cases ds with
    | nil =>
      rw [List.nil_append, List.nil_append, compare_cons_self]
      rfl
    | cons y ys =>
      rw [List.nil_append, List.cons_append, List.compare_cons_cons,
        compare_lt_iff_lt.mpr (right y (.head _))]
      rfl
  | cons x xs ih =>
    cases ds with
    | nil =>
      rw [List.nil_append, List.cons_append, List.compare_cons_cons,
        compare_gt_iff_gt.mpr (left x (.head _))]
      rfl
    | cons y ys =>
      have rest := ih (fun z member => left z (.tail _ member)) fun z member => right z (.tail _ member)
      rw [List.cons_append, List.cons_append, List.compare_cons_cons, List.compare_cons_cons, rest,
        Ordering.then_assoc]

namespace Numeral

theorem compare_digitChar {m n : Nat} (left : m < 10) (right : n < 10) :
    compare (digitChar m) (digitChar n) = compare m n := by
  revert right
  revert n
  revert left
  revert m
  decide

theorem digits_of_large {n : Nat} (large : 10 ≤ n) :
    digits n = digits (n / 10) ++ [digitChar (n % 10)] := by
  rw [digits, if_neg (Nat.not_lt.mpr large)]

/-- The last digit of a numeral and the numeral before it. -/
theorem padded_succ {width : Nat} (some : 0 < width) (n : Nat) :
    padded (width + 1) n = padded width (n / 10) ++ [digitChar (n % 10)] := by
  rcases Nat.lt_or_ge n 10 with small | large
  · have front : padded width (n / 10) = List.replicate width '0' := by
      rw [Nat.div_eq_of_lt small, padded, digits, if_pos (by decide), List.length_singleton]
      change List.replicate (width - 1) '0' ++ List.replicate 1 '0' = _
      rw [List.replicate_append_replicate, Nat.sub_add_cancel some]
    rw [front, padded, digits, if_pos small, Nat.mod_eq_of_lt small]
    rfl
  · rw [padded, digits_of_large large, List.length_append, List.length_singleton,
      Nat.add_sub_add_right, padded, List.append_assoc]

theorem padded_one {n : Nat} (small : n < 10) : padded 1 n = [digitChar n] := by
  rw [padded, digits, if_pos small]
  rfl

theorem length_padded_eq {width n : Nat} (some : 0 < width) (fits : n < 10 ^ width) :
    (padded width n).length = width := by
  replace some : 1 ≤ width := some
  induction width, some using Nat.le_induction generalizing n with
  | base =>
    rw [padded_one fits]
    rfl
  | succ width some ih =>
    rw [padded_succ some, List.length_append, ih (by omega), List.length_singleton]

/-- Numbers are compared by their quotients first. -/
theorem compare_divMod (base m n : Nat) :
    (compare (m / base) (n / base)).then (compare (m % base) (n % base)) = compare m n := by
  apply then_eq_compare
  · exact Nat.lt_of_div_lt_div
  · exact Nat.lt_of_div_lt_div
  · intro same
    have left := Nat.div_add_mod m base
    have right := Nat.div_add_mod n base
    rw [same] at left
    calc
      compare (m % base) (n % base) =
          compare (base * (n / base) + m % base) (base * (n / base) + n % base) :=
        (compare_add_left _ _ _).symm
      _ = compare m n := by rw [left, right]

/-- Numerals of one width are in the order of their numbers. -/
theorem compare_padded {width m n : Nat} (some : 0 < width) (left : m < 10 ^ width)
    (right : n < 10 ^ width) : compare (padded width m) (padded width n) = compare m n := by
  replace some : 1 ≤ width := some
  induction width, some using Nat.le_induction generalizing m n with
  | base =>
    rw [padded_one left, padded_one right, List.compare_cons_cons, compare_digitChar left right]
    exact Ordering.then_eq
  | succ width some ih =>
    have front : m / 10 < 10 ^ width := by omega
    have back : n / 10 < 10 ^ width := by omega
    have last : compare [digitChar (m % 10)] [digitChar (n % 10)] = compare (m % 10) (n % 10) := by
      rw [List.compare_cons_cons,
        compare_digitChar (Nat.mod_lt m (by decide)) (Nat.mod_lt n (by decide))]
      exact Ordering.then_eq
    rw [padded_succ some, padded_succ some, compare_append, ih front back, last]
    · exact compare_divMod 10 m n
    · rw [length_padded_eq some front, length_padded_eq some back]

/-- A numeral is that of its front and that of its back. -/
theorem padded_add {front back : Nat} (some : 0 < front) (others : 0 < back) (n : Nat) :
    padded (front + back) n = padded front (n / 10 ^ back) ++ padded back (n % 10 ^ back) := by
  replace others : 1 ≤ back := others
  induction back, others using Nat.le_induction generalizing n with
  | base =>
    have last : n % 10 ^ 1 < 10 := Nat.mod_lt n (by decide)
    rw [padded_one last]
    exact padded_succ some n
  | succ back others ih =>
    have front : n / 10 / 10 ^ back = n / 10 ^ (back + 1) := by
      rw [Nat.div_div_eq_div_mul, Nat.pow_succ']
    have middle : n % 10 ^ (back + 1) / 10 = n / 10 % 10 ^ back := by
      rw [Nat.pow_succ', Nat.mod_mul_right_div_self]
    have last : n % 10 ^ (back + 1) % 10 = n % 10 := by
      rw [Nat.pow_succ', Nat.mod_mul_right_mod]
    rw [← Nat.add_assoc, padded_succ (by omega), ih, padded_succ others, front, middle, last,
      List.append_assoc]

/-- A numeral is compared with one of more digits as if zeros stood behind it, unless they are what the
other one ends in. -/
theorem compare_padded_longer {width more m n : Nat} (some : 0 < width) (others : 0 < more)
    (left : m < 10 ^ width) (right : n < 10 ^ (width + more)) (goesOn : n % 10 ^ more ≠ 0) :
    compare (padded width m) (padded (width + more) n) = compare (m * 10 ^ more) n := by
  have front : n / 10 ^ more < 10 ^ width := by
    rw [Nat.div_lt_iff_lt_mul (Nat.pow_pos (by decide)), ← Nat.pow_add]
    exact right
  have same : (padded width m).length = (padded width (n / 10 ^ more)).length := by
    rw [length_padded_eq some left, length_padded_eq some front]
  have rest : compare [] (padded more (n % 10 ^ more)) = .lt := by
    have long := length_padded more (n % 10 ^ more)
    cases digits : padded more (n % 10 ^ more) with
    | nil =>
      rw [digits, List.length_nil] at long
      exact absurd others (Nat.not_lt.mpr long)
    | cons c cs => rfl
  have parts := Nat.div_add_mod' n (10 ^ more)
  rw [padded_add some others, ← List.append_nil (padded width m), compare_append same,
    compare_padded some left front, rest]
  apply then_eq_compare
  · intro before
    have reached := (Nat.le_div_iff_mul_le (Nat.pow_pos (by decide))).mp before
    exact lt_of_lt_of_le (Nat.mul_lt_mul_of_pos_right (Nat.lt_succ_self m) (Nat.pow_pos (by decide)))
      reached
  · intro behind
    exact (Nat.div_lt_iff_lt_mul (Nat.pow_pos (by decide))).mp behind
  · intro equal
    rw [← equal] at parts
    exact (compare_lt_iff_lt.mpr (by omega)).symm

theorem value_padded (width n : Nat) : value (padded width n) = n := by
  have zeros (k : Nat) : (List.replicate k '0').foldl (fun n c => 10 * n + (digit? c).getD 0) 0 = 0 := by
    induction k with
    | zero => rfl
    | succ k ih => exact ih
  rw [padded, value, List.foldl_append, zeros]
  exact value_digits n

theorem digit?_le (c : Char) : (digit? c).getD 0 ≤ 9 := by
  unfold digit?
  split_ifs with range
  · have high : c.toNat ≤ 57 := range.2
    rw [Option.getD_some]
    omega
  · exact Nat.zero_le 9

theorem value_lt (cs : List Char) : value cs < 10 ^ cs.length := by
  induction cs using List.reverseRecOn with
  | nil => decide
  | append_singleton front c ih =>
    have last := digit?_le c
    rw [value_append_singleton, List.length_append, List.length_singleton, Nat.pow_succ]
    omega

theorem hyphen_lt_of_isDigit {c : Char} (digit : isDigit c = true) : '-' < c := by
  obtain ⟨d, small, rfl⟩ := exists_digitChar digit
  revert d
  decide

end Numeral

end EntitySchema.Text
