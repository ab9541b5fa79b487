import EntitySchema.Number.BinaryText
import EntitySchema.Proofs.Json.Numeral
import EntitySchema.Proofs.Number.Shortest
import EntitySchema.Proofs.Text.Order

/-!
The exact values of numerals. A numeral is read as a rational number, without rounding, and whatever
layout a number is written in, the value that is read is that of its digits.
-/

namespace EntitySchema

namespace Text.Numeral

theorem spanDigits_append {cs rest : List Char} (digits : ∀ c ∈ cs, isDigit c = true)
    (stops : ∀ c ∈ rest.head?, isDigit c = false) : spanDigits (cs ++ rest) = (cs, rest) := by
  rw [spanDigits, List.span_eq_takeWhile_dropWhile, takeWhile_append_of_stops digits stops,
    dropWhile_append_of_stops digits stops]

theorem value_append (cs ds : List Char) : value (cs ++ ds) = value cs * 10 ^ ds.length + value ds := by
  induction ds using List.reverseRecOn with
  | nil => simp [value]
  | append_singleton ds d ih =>
    rw [← List.append_assoc, value_append_singleton, value_append_singleton, ih, List.length_append,
      List.length_singleton, Nat.pow_succ]
    ring

theorem value_zeros (n : Nat) : value (List.replicate n '0') = 0 := by
  induction n with
  | zero => rfl
  | succ n ih =>
    rw [List.replicate_succ', value_append_singleton, ih]
    rfl

theorem nat?_digits (n : Nat) : nat? (digits n) = some n := by
  have proper : (!(digits n).isEmpty && (digits n).all isDigit) = true := by
    rw [Bool.and_eq_true, List.all_eq_true, Bool.not_eq_true', List.isEmpty_eq_false_iff]
    exact ⟨digits_ne_nil n, isDigit_of_mem_digits n⟩
  rw [nat?, if_pos proper, value_digits]

end Text.Numeral

namespace Number

open Text.Numeral

/-- The digits behind a point, if there is one, and the characters after them. -/
def spanPlaces : List Char → List Char × List Char
  | '.' :: cs => spanDigits cs
  | cs => ([], cs)

/-- The exact value of a numeral without a sign: digits without a leading zero, a point with digits
behind it or none, and an exponent or none. -/
def magnitude? (cs : List Char) : Option ℚ :=
  let (whole, rest) := spanDigits cs
  let (fraction, after) := spanPlaces rest
  if whole.isEmpty ∨ (1 < whole.length ∧ whole.head? = some '0') then none
  else if rest.head? = some '.' ∧ fraction.isEmpty then none
  else (Binary.exponent? after).map fun (e : Int) =>
    (value (whole ++ fraction) : ℚ) * 10 ^ (e - fraction.length)

/-- The exact value of a numeral, with or without a minus sign. -/
def rational? : List Char → Option ℚ
  | '-' :: cs => (magnitude? cs).map fun q => -q
  | cs => magnitude? cs

/-- Digits that may stand before a point. -/
structure Leading (whole : List Char) : Prop where
  nonempty : whole ≠ []
  digits : ∀ c ∈ whole, isDigit c = true
  nonzero : 1 < whole.length → whole.head? ≠ some '0'

/-- Digits behind a point, or nothing. -/
def places : List Char → List Char
  | [] => []
  | c :: cs => '.' :: c :: cs

/-- Characters behind which a numeral without an exponent is over. -/
def Over (after : List Char) : Prop := ∀ c ∈ after.head?, isDigit c = false ∧ c ≠ '.'

section

variable {whole fraction after : List Char}

theorem spanPlaces_places (digits : ∀ c ∈ fraction, isDigit c = true) (ended : Over after) :
    spanPlaces (places fraction ++ after) = (fraction, after) := by
  cases fraction with
  | nil =>
    cases after with
    | nil => rfl
    | cons c after =>
      have other := (ended c rfl).2
      rw [places, List.nil_append, spanPlaces]
      simp [other]
  | cons c fraction => exact spanDigits_append digits fun d first => (ended d first).1

theorem spanDigits_places (leading : Leading whole) (ended : Over after) :
    spanDigits (whole ++ (places fraction ++ after)) = (whole, places fraction ++ after) := by
  apply spanDigits_append leading.digits
  intro c first
  cases fraction with
  | nil => exact (ended c first).1
  | cons d fraction =>
    cases first
    rfl

theorem magnitude?_eq (leading : Leading whole) (digits : ∀ c ∈ fraction, isDigit c = true)
    (ended : Over after) {e : Int} (exponent : Binary.exponent? after = some e) :
    magnitude? (whole ++ (places fraction ++ after)) =
      some ((value (whole ++ fraction) : ℚ) * 10 ^ (e - fraction.length)) := by
  have proper : ¬(whole.isEmpty = true ∨ 1 < whole.length ∧ whole.head? = some '0') := by
    rintro (empty | ⟨long, zero⟩)
    · exact leading.nonempty (List.isEmpty_iff.mp empty)
    · exact leading.nonzero long zero
  have pointed : ¬((places fraction ++ after).head? = some '.' ∧ fraction.isEmpty = true) := by
    rintro ⟨point, empty⟩
    rw [List.isEmpty_iff.mp empty] at point
    exact (ended '.' point).2 rfl
  rw [magnitude?, spanDigits_places leading ended]
  dsimp only
  rw [spanPlaces_places digits ended, if_neg proper]
  dsimp only
  rw [if_neg pointed, exponent, Option.map_some]

end

theorem over_nil : Over [] := nofun

theorem magnitude?_whole {whole : List Char} (leading : Leading whole) :
    magnitude? whole = some (value whole : ℚ) := by
  have read : magnitude? (whole ++ (places [] ++ [])) = _ :=
    magnitude?_eq leading (List.forall_mem_nil _) over_nil rfl
  simpa [places] using read

theorem magnitude?_pointed {whole fraction : List Char} (leading : Leading whole)
    (digits : ∀ c ∈ fraction, isDigit c = true) (some : fraction ≠ []) :
    magnitude? (whole ++ '.' :: fraction) =
      .some ((value (whole ++ fraction) : ℚ) * 10 ^ (-(fraction.length : Int))) := by
  obtain ⟨c, cs, rfl⟩ := List.exists_cons_of_ne_nil some
  have read : magnitude? (whole ++ (places (c :: cs) ++ [])) = _ :=
    magnitude?_eq leading digits over_nil rfl
  rwa [List.append_nil, zero_sub] at read

theorem leading_digits (n : Nat) : Leading (digits n) where
  nonempty := digits_ne_nil n
  digits := isDigit_of_mem_digits n
  nonzero := by
    intro long
    rcases Nat.eq_zero_or_pos n with rfl | positive
    · rw [digits, if_pos (by decide)] at long
      exact absurd long (by decide)
    · exact head?_digits_ne_zero positive

theorem leading_singleton {c : Char} (digit : isDigit c = true) : Leading [c] where
  nonempty := List.cons_ne_nil c []
  digits := by simpa using digit
  nonzero := fun long => absurd long (by simp)

theorem magnitude?_digits (n : Nat) : magnitude? (digits n) = some (n : ℚ) := by
  rw [magnitude?_whole (leading_digits n), value_digits]

/-- A sign stands in front of a numeral. -/
theorem rational?_signed {cs : List Char} {q : ℚ} (read : magnitude? cs = some q) (negative : Bool) :
    rational? (if negative then '-' :: cs else cs) = some (if negative then -q else q) := by
  cases negative with
  | true => simp [rational?, read]
  | false =>
    rw [if_neg Bool.false_ne_true, if_neg Bool.false_ne_true, ← read]
    unfold rational?
    split
    · cases read
    · rfl

theorem rational?_digits (n : Nat) : rational? (digits n) = some (n : ℚ) :=
  rational?_signed (magnitude?_digits n) false

theorem rational?_intChars (i : Int) : rational? (intChars i) = some (i : ℚ) := by
  have read := rational?_signed (magnitude?_digits i.natAbs) (decide (i < 0))
  simp only [decide_eq_true_eq] at read
  rw [intChars, read]
  congr 1
  split
  · have value : (i.natAbs : Int) = -i := by omega
    rw [← Int.cast_natCast, value, Int.cast_neg, neg_neg]
  · have value : (i.natAbs : Int) = i := by omega
    rw [← Int.cast_natCast, value]

/-- The digits that a numeral has before its last `places` ones. -/
theorem leading_take_padded (places n : Nat) :
    Leading ((padded (places + 1) n).take ((padded (places + 1) n).length - places)) where
  nonempty := by
    have long := length_padded (places + 1) n
    rw [Ne, List.take_eq_nil_iff, not_or]
    exact ⟨by omega, List.ne_nil_of_length_pos (by omega)⟩
  digits := fun c member => isDigit_of_mem_padded _ n c (List.mem_of_mem_take member)
  nonzero := by
    intro long
    rw [List.length_take, padded, List.length_append, List.length_replicate] at long
    -- a numeral that is longer than its width has no zeros in front
    have unpadded : padded (places + 1) n = digits n := by
      rw [padded, show places + 1 - (digits n).length = 0 by omega]
      rfl
    rw [List.head?_take, unpadded, if_neg (by omega)]
    exact (leading_digits n).nonzero (by omega)

/-- All places of a decimal are written, and at least one digit before them. -/
theorem rational?_decimalChars (d : Decimal) : rational? d.chars = some d.toRat := by
  have leading := leading_take_padded d.scale d.mantissa
  have digits := isDigit_of_mem_padded (d.scale + 1) d.mantissa
  have long := length_padded (d.scale + 1) d.mantissa
  have number := value_padded (d.scale + 1) d.mantissa
  rw [Decimal.chars, Decimal.toRat_eq]
  apply rational?_signed
  generalize padded (d.scale + 1) d.mantissa = ds at *
  split
  · next none =>
    rw [none, Nat.sub_zero, List.take_length] at leading
    rw [magnitude?_whole leading, number, none]
    simp
  · next some =>
    have places : (ds.drop (ds.length - d.scale)).length = d.scale := by
      rw [List.length_drop]
      omega
    rw [magnitude?_pointed leading fun c member => digits c (List.mem_of_mem_drop member)]
    · rw [List.take_append_drop, number, places, zpow_neg, zpow_natCast, ← div_eq_mul_inv]
      simp
    · exact List.ne_nil_of_length_pos (by omega)

/-! Floating-point numbers in every layout. -/

/-- The digits of a positive number. -/
structure Significant (ds : List Char) : Prop where
  nonempty : ds ≠ []
  proper : ∀ c ∈ ds, isDigit c = true
  nonzero : ds.head? ≠ some '0'

theorem significant_digits {n : Nat} (positive : 0 < n) : Significant (digits n) :=
  ⟨digits_ne_nil n, isDigit_of_mem_digits n, head?_digits_ne_zero positive⟩

theorem exponent?_signed (e : Int) :
    Binary.exponent? ('e' :: (if e < 0 then '-' else '+') :: digits e.natAbs) = some e := by
  have mark : 'e' = 'e' ∨ 'e' = 'E' := .inl rfl
  rw [Binary.exponent?, if_pos mark]
  split
  · rw [int?, nat?_digits]
    change some (-(e.natAbs : Int)) = some e
    congr 1
    omega
  · rw [int?, nat?_digits]
    change some (e.natAbs : Int) = some e
    congr 1
    omega

namespace Significant

variable {ds : List Char} (significant : Significant ds)

include significant

/-- All digits stand behind the point. -/
theorem behind (k : Nat) : magnitude? ('0' :: '.' :: List.replicate k '0' ++ ds) =
    some ((value ds : ℚ) * 10 ^ (-(k + ds.length : Int))) := by
  have read := magnitude?_pointed (leading_singleton isDigit_zero)
    (List.forall_mem_append.mpr ⟨isDigit_of_mem_zeros k, significant.proper⟩)
    (List.append_ne_nil_of_right_ne_nil _ significant.nonempty)
  have first : value ['0'] = 0 := rfl
  rw [value_append, value_append, value_zeros, first, Nat.zero_mul, Nat.zero_mul, Nat.zero_add,
    Nat.zero_add, List.length_append, List.length_replicate, Nat.cast_add] at read
  exact read

/-- The point stands among the digits. -/
theorem among {k : Nat} (some : 0 < k) (inside : k < ds.length) :
    magnitude? (ds.take k ++ '.' :: ds.drop k) =
      .some ((value ds : ℚ) * 10 ^ ((k : Int) - ds.length)) := by
  have leading : Leading (ds.take k) := by
    refine ⟨?_, fun c member => significant.proper c (List.mem_of_mem_take member), fun _ => ?_⟩
    · rw [Ne, List.take_eq_nil_iff, not_or]
      exact ⟨some.ne', significant.nonempty⟩
    · rw [List.head?_take, if_neg some.ne']
      exact significant.nonzero
  have places : -((ds.drop k).length : Int) = k - ds.length := by
    rw [List.length_drop]
    omega
  rw [magnitude?_pointed leading fun c member => significant.proper c (List.mem_of_mem_drop member)]
  · rw [List.take_append_drop, places]
  · exact List.ne_nil_of_length_pos (by rw [List.length_drop]; omega)

/-- All digits stand before the point, or there is none. -/
theorem before (k : Nat) (pointed : Bool) :
    magnitude? (ds ++ List.replicate k '0' ++ if pointed then ['.', '0'] else []) =
      some ((value ds : ℚ) * 10 ^ k) := by
  have leading : Leading (ds ++ List.replicate k '0') := by
    refine ⟨List.append_ne_nil_of_left_ne_nil significant.nonempty _,
      List.forall_mem_append.mpr ⟨significant.proper, isDigit_of_mem_zeros k⟩, fun _ => ?_⟩
    rw [List.head?_append_of_ne_nil _ significant.nonempty]
    exact significant.nonzero
  have size : value (ds ++ List.replicate k '0') = value ds * 10 ^ k := by
    rw [value_append, value_zeros, List.length_replicate, Nat.add_zero]
  cases pointed with
  | false =>
    rw [if_neg Bool.false_ne_true, List.append_nil, magnitude?_whole leading, size]
    push_cast
    rfl
  | true =>
    have tenfold : value (ds ++ List.replicate k '0' ++ ['0']) = value ds * 10 ^ k * 10 := by
      rw [value_append, size]
      rfl
    rw [if_pos rfl, magnitude?_pointed leading (by simpa using isDigit_zero) (List.cons_ne_nil _ _),
      tenfold]
    push_cast
    rw [List.length_singleton, Nat.cast_one, zpow_neg_one, mul_inv_cancel_right₀ (by norm_num)]

theorem positional (l : FloatLayout) (e : Int) :
    magnitude? (l.positionalChars ds (ds.length + e)) = some ((value ds : ℚ) * 10 ^ e) := by
  rw [FloatLayout.positionalChars]
  split
  · rw [significant.behind]
    congr 3
    omega
  · split
    · rw [significant.among (by omega) (by omega)]
      congr 3
      omega
    · rw [significant.before, ← zpow_natCast]
      congr 3
      omega

/-- One digit stands before the point. -/
theorem scientific (e : Int) : magnitude? (FloatLayout.scientificChars ds (ds.length + e - 1)) =
    some ((value ds : ℚ) * 10 ^ e) := by
  obtain ⟨c, cs, rfl⟩ := List.exists_cons_of_ne_nil significant.nonempty
  obtain ⟨digit, others⟩ := List.forall_mem_cons.mp significant.proper
  have places : ((c :: cs).length : Int) + e - 1 - cs.length = e := by
    rw [List.length_cons]
    omega
  generalize ((c :: cs).length : Int) + e - 1 = leading at *
  have written : FloatLayout.scientificChars (c :: cs) leading =
      [c] ++ (Number.places cs ++ 'e' :: (if leading < 0 then '-' else '+') ::
        digits leading.natAbs) := by
    cases cs <;> rfl
  have ended : Over ('e' :: (if leading < 0 then '-' else '+') :: digits leading.natAbs) := by
    intro d first
    cases first
    decide
  rw [written, magnitude?_eq (leading_singleton digit) others ended (exponent?_signed leading),
    places]
  rfl

end Significant

theorem magnitude?_zero (pointed : Bool) :
    magnitude? ('0' :: if pointed then ['.', '0'] else []) = some 0 := by
  have leading := leading_singleton isDigit_zero
  have none : value ['0'] = 0 ∧ value (['0'] ++ ['0']) = 0 := ⟨rfl, rfl⟩
  cases pointed with
  | false =>
    refine (magnitude?_whole leading).trans ?_
    rw [none.1, Nat.cast_zero]
  | true =>
    refine (magnitude?_pointed leading (by simpa using isDigit_zero) (List.cons_ne_nil _ _)).trans ?_
    rw [none.2, Nat.cast_zero, zero_mul]

/-- Whatever the layout, a number is read as the value of its digits. -/
theorem rational?_floatChars (l : FloatLayout) (x : FiniteBinary .double) :
    rational? (l.chars x) = some (Shortest.written l.tie x) := by
  apply rational?_signed
  rw [FloatLayout.magnitudeChars]
  cases zero : x.isZero with
  | true => exact magnitude?_zero l.wholePoint
  | false =>
    have some : 0 < x.significand := Nat.pos_of_ne_zero (by simpa [FiniteBinary.isZero] using zero)
    have includes := Shortest.includes_decimal l.tie x some
    have positive : 0 < (Shortest.decimal l.tie x).digits := by
      have size := includes.positive some
      rw [mul_pos_iff_of_pos_right (by positivity)] at size
      exact_mod_cast size
    have number := value_digits (Shortest.decimal l.tie x).digits
    have significant := significant_digits positive
    rw [if_neg Bool.false_ne_true, if_neg Bool.false_ne_true]
    dsimp only
    split
    · rw [significant.positional, number]
    · rw [significant.scientific, number]

end Number

end EntitySchema
