import EntitySchema.Validation.Format
import Mathlib

/-!
The addresses that the email format takes. They are described twice: as a pattern, built from classes of
characters by sequence and repetition, and as the parts of an address. The pattern does not say where a
domain is to be divided; the parts of an address do, and a text is an address in at most one way.
-/

namespace EntitySchema.Validation

open Computability

namespace Email

def IsLocalChar (c : Char) : Prop := c.isAlphanum ∨ c ∈ ['.', '_', '%', '+', '-']

def IsLabelChar (c : Char) : Prop := c.isAlphanum ∨ c = '-'

instance : DecidablePred IsLocalChar := fun _ => inferInstanceAs (Decidable (_ ∨ _))

instance : DecidablePred IsLabelChar := fun _ => inferInstanceAs (Decidable (_ ∨ _))

/-- A local part, and a domain of labels under a top label made of letters. -/
@[ext]
structure Address where
  localPart : List Char
  labels : List (List Char)
  top : List Char
  localPart_ne_nil : localPart ≠ []
  isLocalChar : ∀ c ∈ localPart, IsLocalChar c
  labels_ne_nil : labels ≠ []
  isLabel : ∀ l ∈ labels, l ≠ [] ∧ ∀ c ∈ l, IsLabelChar c
  two_le_length_top : 2 ≤ top.length
  isAlpha : ∀ c ∈ top, c.isAlpha

namespace Address

def parts (a : Address) : List (List Char) := a.labels ++ [a.top]

def domain (a : Address) : List Char := ['.'].intercalate a.parts

def chars (a : Address) : List Char := a.localPart ++ '@' :: a.domain

end Address

/-- The words of one character of a class. -/
def oneOf (p : Char → Prop) : Language Char := {w | ∃ c, p c ∧ w = [c]}

/-- The words of one or more characters of a class. -/
def word (p : Char → Prop) : Language Char := oneOf p * (oneOf p)∗

/-- The words of two letters or more. -/
def topLabel : Language Char := oneOf (·.isAlpha) * word (·.isAlpha)

/-- A local part, an at sign, labels divided by dots, and after a last dot a top label. -/
def pattern : Language Char :=
  word IsLocalChar * {['@']} * word IsLabelChar * ({['.']} * word IsLabelChar)∗ * {['.']} * topLabel

/-- What no address has: a blank, the end of a line or another control character, a character beyond ASCII,
a second at sign, or in its domain a dot at either end or two dots in a row. -/
def Flawed (cs : List Char) : Prop :=
  (∃ c ∈ cs, c.toNat ≤ 32 ∨ 128 ≤ c.toNat) ∨ 2 ≤ cs.count '@' ∨
    ∃ before domain, cs = before ++ '@' :: domain ∧
      (['.'] <+: domain ∨ ['.'] <:+ domain ∨ ['.', '.'] <:+: domain)

section Classes

theorem isLetter_eq_isAlpha (c : Char) : Format.isLetter c = c.isAlpha := by
  simp only [Format.isLetter, Format.isLower, Format.isUpper, Char.isAlpha, Char.isUpper, Char.isLower,
    Char.le_def, ge_iff_le, Bool.decide_and, Bool.or_comm]

theorem isDigit_eq (c : Char) : Format.isDigit c = c.isDigit := by
  simp only [Format.isDigit, Char.isDigit, Char.le_def, ge_iff_le]

theorem isLocalChar_iff (c : Char) : Format.isLocalChar c = true ↔ IsLocalChar c := by
  simp [Format.isLocalChar, IsLocalChar, isLetter_eq_isAlpha, isDigit_eq, Char.isAlphanum, or_assoc]

theorem isLabelChar_iff (c : Char) : Format.isLabelChar c = true ↔ IsLabelChar c := by
  simp [Format.isLabelChar, IsLabelChar, isLetter_eq_isAlpha, isDigit_eq, Char.isAlphanum]

theorem toNat_lt_of_isAlphanum {c : Char} (h : c.isAlphanum = true) : 32 < c.toNat ∧ c.toNat < 128 := by
  simp only [Char.isAlphanum, Char.isAlpha, Char.isUpper, Char.isLower, Char.isDigit, Bool.or_eq_true,
    Bool.and_eq_true, decide_eq_true_eq, ge_iff_le, UInt32.le_iff_toNat_le] at h
  have zero : '0'.val.toNat = 48 := rfl
  have nine : '9'.val.toNat = 57 := rfl
  have capitals : 'A'.val.toNat = 65 ∧ 'Z'.val.toNat = 90 := ⟨rfl, rfl⟩
  have small : 'a'.val.toNat = 97 ∧ 'z'.val.toNat = 122 := ⟨rfl, rfl⟩
  have same : c.toNat = c.val.toNat := rfl
  omega

theorem IsLocalChar.toNat_lt {c : Char} (h : IsLocalChar c) : 32 < c.toNat ∧ c.toNat < 128 := by
  obtain letter | mark := h
  · exact toNat_lt_of_isAlphanum letter
  · fin_cases mark <;> decide

theorem IsLabelChar.toNat_lt {c : Char} (h : IsLabelChar c) : 32 < c.toNat ∧ c.toNat < 128 := by
  obtain letter | rfl := h
  · exact toNat_lt_of_isAlphanum letter
  · decide

theorem IsLocalChar.ne_at {c : Char} (h : IsLocalChar c) : c ≠ '@' := by
  rintro rfl
  exact absurd h (by decide)

theorem IsLabelChar.ne_at {c : Char} (h : IsLabelChar c) : c ≠ '@' := by
  rintro rfl
  exact absurd h (by decide)

theorem IsLabelChar.ne_dot {c : Char} (h : IsLabelChar c) : c ≠ '.' := by
  rintro rfl
  exact absurd h (by decide)

theorem isLabelChar_of_isAlpha {c : Char} (h : c.isAlpha = true) : IsLabelChar c :=
  .inl (by rw [Char.isAlphanum, h, Bool.true_or])

end Classes

section Splitting

theorem splitAt_eq_splitOn (separator : Char) (cs : List Char) :
    Format.splitAt separator cs = cs.splitOn separator := by
  induction cs with
  | nil => rfl
  | cons c rest ih =>
    obtain ⟨part, parts, split⟩ := List.exists_cons_of_ne_nil (List.splitOnP_ne_nil (· == separator) rest)
    by_cases here : c = separator
    · simp [Format.splitAt, List.splitOn, List.splitOnP_cons_eq_if_modifyHead, here, ih]
    · simp [Format.splitAt, List.splitOn, List.splitOnP_cons_eq_if_modifyHead, here, ih, split]

theorem splitOn_append_cons (separator : Char) (front back : List Char) :
    (front ++ separator :: back).splitOn separator =
      front.splitOn separator ++ back.splitOn separator :=
  List.splitOnP_append_cons front back (beq_self_eq_true separator)

theorem splitOn_cons_self (separator : Char) (back : List Char) :
    (separator :: back).splitOn separator = [] :: back.splitOn separator :=
  splitOn_append_cons separator [] back

/-- A text that has no empty part neither starts nor ends with a separator, and has no two in a row. -/
theorem not_dotted {cs : List Char} (parts : [] ∉ cs.splitOn '.') :
    ¬ (['.'] <+: cs ∨ ['.'] <:+ cs ∨ ['.', '.'] <:+: cs) := by
  rintro (⟨back, rfl⟩ | ⟨front, rfl⟩ | ⟨front, back, rfl⟩)
  · exact parts (by simp [splitOn_cons_self])
  · exact parts (by simp [splitOn_append_cons])
  · exact parts (by simp [splitOn_append_cons, splitOn_cons_self])

theorem isDomain_iff (cs : List Char) : Format.isDomain cs = true ↔
    ∃ labels top, cs.splitOn '.' = labels ++ [top] ∧ labels ≠ [] ∧
      (∀ l ∈ labels ++ [top], l ≠ [] ∧ ∀ c ∈ l, IsLabelChar c) ∧
      2 ≤ top.length ∧ ∀ c ∈ top, c.isAlpha := by
  obtain ⟨labels, top, split⟩ :=
    (List.eq_nil_or_concat' (cs.splitOn '.')).resolve_left (List.splitOnP_ne_nil _ cs)
  have last : (labels ++ [top]).getLastD [] = top := by simp
  have several : 2 ≤ (labels ++ [top]).length ↔ labels ≠ [] := by
    rw [List.length_append, List.length_singleton, ← List.length_pos_iff]
    omega
  have labelled (l : List Char) : (!l.isEmpty && l.all Format.isLabelChar) = true ↔
      l ≠ [] ∧ ∀ c ∈ l, IsLabelChar c := by
    simp [isLabelChar_iff]
  have letters : top.all Format.isLetter = true ↔ ∀ c ∈ top, c.isAlpha := by
    simp [isLetter_eq_isAlpha]
  simp only [Format.isDomain, splitAt_eq_splitOn, split, last, Bool.and_eq_true, decide_eq_true_eq,
    several, List.all_eq_true, labelled, and_assoc, letters]
  constructor
  · exact fun h => ⟨labels, top, rfl, h⟩
  · rintro ⟨labels', top', same, h⟩
    obtain ⟨rfl, alike⟩ := List.append_inj' same rfl
    obtain rfl := List.singleton_inj.1 alike
    exact h

theorem intercalate_cons (c : Char) (first : List Char) (rest : List (List Char)) :
    [c].intercalate (first :: rest) = first ++ rest.flatMap (c :: ·) := by
  induction rest generalizing first with
  | nil => simp
  | cons second rest ih => simp [List.intercalate_cons_cons, ih]

end Splitting

namespace Address

variable (a b : Address)

theorem isLabelChar_of_mem_parts {l : List Char} (part : l ∈ a.parts) :
    l ≠ [] ∧ ∀ c ∈ l, IsLabelChar c := by
  obtain label | top := List.mem_append.1 part
  · exact a.isLabel l label
  · obtain rfl := List.mem_singleton.1 top
    exact ⟨List.ne_nil_of_length_pos (by have := a.two_le_length_top; omega),
      fun c inside => isLabelChar_of_isAlpha (a.isAlpha c inside)⟩

/-- The parts of a domain are found by its dots. -/
theorem splitOn_domain : a.domain.splitOn '.' = a.parts :=
  List.splitOn_intercalate '.'
    (fun _ part dot => ((a.isLabelChar_of_mem_parts part).2 _ dot).ne_dot rfl) (by simp [parts])

theorem mem_domain {c : Char} (inside : c ∈ a.domain) : c = '.' ∨ IsLabelChar c := by
  obtain ⟨first, rest, split⟩ := List.exists_cons_of_ne_nil (show a.parts ≠ [] by simp [parts])
  rw [domain, split, intercalate_cons, List.mem_append, List.mem_flatMap] at inside
  obtain inFirst | ⟨l, inRest, inLabel⟩ := inside
  · exact .inr ((a.isLabelChar_of_mem_parts (split ▸ List.mem_cons_self)).2 c inFirst)
  · obtain rfl | inLabel := List.mem_cons.1 inLabel
    · exact .inl rfl
    · exact .inr ((a.isLabelChar_of_mem_parts (split ▸ List.mem_cons_of_mem _ inRest)).2 c inLabel)

theorem at_notMem_localPart : '@' ∉ a.localPart := fun inside => (a.isLocalChar _ inside).ne_at rfl

theorem at_notMem_domain : '@' ∉ a.domain := fun inside =>
  (a.mem_domain inside).elim (by decide) fun label => label.ne_at rfl

theorem chars_eq_append_cons {before domain : List Char} (same : a.chars = before ++ '@' :: domain) :
    before = a.localPart ∧ domain = a.domain := by
  obtain ⟨front, -, back⟩ :=
    (List.append_cons_inj_of_notMem a.at_notMem_localPart a.at_notMem_domain).1 same
  exact ⟨front.symm, back.symm⟩

/-- A text is an address in at most one way. -/
theorem chars_inj (same : a.chars = b.chars) : a = b := by
  obtain ⟨front, back⟩ := a.chars_eq_append_cons same
  have split : a.labels ++ [a.top] = b.labels ++ [b.top] :=
    a.splitOn_domain.symm.trans ((congrArg (List.splitOn '.') back.symm).trans b.splitOn_domain)
  obtain ⟨labels, top⟩ := List.append_inj' split rfl
  exact Address.ext front.symm labels (List.singleton_inj.1 top)

theorem not_flawed : ¬ Flawed a.chars := by
  rintro (⟨c, inside, flaw⟩ | twice | ⟨before, domain, same, dotted⟩)
  · have plain : 32 < c.toNat ∧ c.toNat < 128 := by
      obtain front | rfl | back := by simpa [chars] using inside
      · exact (a.isLocalChar c front).toNat_lt
      · decide
      · exact (a.mem_domain back).elim (by rintro rfl; decide) IsLabelChar.toNat_lt
    omega
  · have once : a.chars.count '@' = 1 := by
      simp [chars, List.count_append, List.count_eq_zero_of_not_mem a.at_notMem_localPart,
        List.count_eq_zero_of_not_mem a.at_notMem_domain]
    omega
  · obtain ⟨-, rfl⟩ := a.chars_eq_append_cons same
    refine not_dotted ?_ dotted
    rw [splitOn_domain]
    exact fun part => (a.isLabelChar_of_mem_parts part).1 rfl

end Address

/-- The check finds the parts of an address, and the address only. -/
theorem isEmail_iff (cs : List Char) : Format.isEmail cs = true ↔ ∃ a : Address, a.chars = cs := by
  have localChars : ∀ c ∈ cs.takeWhile Format.isLocalChar, IsLocalChar c := fun c inside =>
    (isLocalChar_iff c).1 (List.all_eq_true.1 List.all_takeWhile c inside)
  constructor
  · intro accepted
    unfold Format.isEmail at accepted
    split at accepted
    · next domain rest =>
      obtain ⟨front, back⟩ := Bool.and_eq_true_iff.1 accepted
      obtain ⟨labels, top, split, several, parts, long, letters⟩ := (isDomain_iff domain).1 back
      refine ⟨⟨_, labels, top, by simpa using front, localChars, several,
        fun l label => parts l (List.mem_append_left _ label), long, letters⟩, ?_⟩
      rw [Address.chars, Address.domain, Address.parts, ← split, List.intercalate_splitOn, ← rest,
        List.takeWhile_append_dropWhile]
    · cases accepted
  · rintro ⟨a, rfl⟩
    have allowed : ∀ c ∈ a.localPart, Format.isLocalChar c = true := fun c inside =>
      (isLocalChar_iff c).2 (a.isLocalChar c inside)
    have front : a.chars.takeWhile Format.isLocalChar = a.localPart := by
      rw [Address.chars, List.takeWhile_append_of_pos allowed, List.takeWhile_cons_of_neg (by decide),
        List.append_nil]
    have rest : a.chars.dropWhile Format.isLocalChar = '@' :: a.domain := by
      rw [Address.chars, List.dropWhile_append_of_pos allowed, List.dropWhile_cons_of_neg (by decide)]
    have back : Format.isDomain a.domain = true :=
      (isDomain_iff _).2 ⟨a.labels, a.top, a.splitOn_domain, a.labels_ne_nil,
        fun _ part => a.isLabelChar_of_mem_parts part, a.two_le_length_top, a.isAlpha⟩
    simp [Format.isEmail, front, rest, back, a.localPart_ne_nil]

section Pattern

variable {p : Char → Prop} {w : List Char}

theorem mem_kstar_oneOf : w ∈ (oneOf p)∗ ↔ ∀ c ∈ w, p c := by
  rw [Language.mem_kstar]
  constructor
  · rintro ⟨words, rfl, all⟩ c inside
    obtain ⟨x, word, inWord⟩ := List.mem_flatten.1 inside
    obtain ⟨d, holds, rfl⟩ := all x word
    exact List.mem_singleton.1 inWord ▸ holds
  · intro all
    refine ⟨w.map ([·]), (List.flatMap_singleton' w).symm, fun x word => ?_⟩
    obtain ⟨c, inside, rfl⟩ := List.mem_map.1 word
    exact ⟨c, all c inside, rfl⟩

theorem mem_word : w ∈ word p ↔ w ≠ [] ∧ ∀ c ∈ w, p c := by
  rw [word, Language.mem_mul]
  constructor
  · rintro ⟨_, ⟨c, first, rfl⟩, rest, others, rfl⟩
    exact ⟨List.cons_ne_nil c rest, List.forall_mem_cons.2 ⟨first, mem_kstar_oneOf.1 others⟩⟩
  · rintro ⟨some, all⟩
    obtain ⟨c, rest, rfl⟩ := List.exists_cons_of_ne_nil some
    obtain ⟨first, others⟩ := List.forall_mem_cons.1 all
    exact ⟨[c], ⟨c, first, rfl⟩, rest, mem_kstar_oneOf.2 others, rfl⟩

theorem mem_topLabel : w ∈ topLabel ↔ 2 ≤ w.length ∧ ∀ c ∈ w, c.isAlpha := by
  rw [topLabel, Language.mem_mul]
  constructor
  · rintro ⟨_, ⟨c, first, rfl⟩, rest, others, rfl⟩
    obtain ⟨some, all⟩ := mem_word.1 others
    have := List.length_pos_of_ne_nil some
    exact ⟨by simp; omega, List.forall_mem_cons.2 ⟨first, all⟩⟩
  · rintro ⟨long, all⟩
    obtain ⟨c, rest, rfl⟩ := List.exists_cons_of_length_pos (by omega : 0 < w.length)
    obtain ⟨first, others⟩ := List.forall_mem_cons.1 all
    have some : rest ≠ [] := List.ne_nil_of_length_pos (by rw [List.length_cons] at long; omega)
    exact ⟨[c], ⟨c, first, rfl⟩, rest, mem_word.2 ⟨some, others⟩, rfl⟩

theorem mem_dotted {l : Language Char} :
    w ∈ ({['.']} * l)∗ ↔ ∃ words : List (List Char), w = words.flatMap ('.' :: ·) ∧ ∀ x ∈ words, x ∈ l := by
  rw [Language.mem_kstar]
  constructor
  · rintro ⟨pieces, rfl, all⟩
    have dotted : ∀ y ∈ pieces, ∃ x ∈ l, y = '.' :: x := by
      intro y piece
      obtain ⟨_, rfl, x, word, rfl⟩ := Language.mem_mul.1 (all y piece)
      exact ⟨x, word, rfl⟩
    clear all
    induction pieces with
    | nil => exact ⟨[], rfl, by simp⟩
    | cons y pieces ih =>
      obtain ⟨⟨x, word, rfl⟩, rest⟩ := List.forall_mem_cons.1 dotted
      obtain ⟨words, same, all⟩ := ih rest
      exact ⟨x :: words, by simp [same], List.forall_mem_cons.2 ⟨word, all⟩⟩
  · rintro ⟨words, rfl, all⟩
    refine ⟨words.map ('.' :: ·), rfl, fun x piece => ?_⟩
    obtain ⟨y, word, rfl⟩ := List.mem_map.1 piece
    exact Language.append_mem_mul (a := ['.']) (Set.mem_singleton _) (all y word)

theorem mem_pattern (cs : List Char) : cs ∈ pattern ↔ ∃ a : Address, a.chars = cs := by
  simp only [pattern, Language.mem_mul, mem_word, mem_dotted, mem_topLabel]
  constructor
  · rintro ⟨_, ⟨_, ⟨_, ⟨_, ⟨localPart, front, _, rfl, rfl⟩, first, label, rfl⟩, _, ⟨rest, rfl, labels⟩, rfl⟩,
      _, rfl, rfl⟩, top, last, rfl⟩
    refine ⟨⟨localPart, first :: rest, top, front.1, front.2, List.cons_ne_nil _ _,
      List.forall_mem_cons.2 ⟨label, labels⟩, last.1, last.2⟩, ?_⟩
    simp [Address.chars, Address.domain, Address.parts, intercalate_cons]
  · rintro ⟨a, rfl⟩
    obtain ⟨first, rest, split⟩ := List.exists_cons_of_ne_nil a.labels_ne_nil
    obtain ⟨label, labels⟩ := List.forall_mem_cons.1 (split ▸ a.isLabel)
    refine ⟨_, ⟨_, ⟨_, ⟨_, ⟨a.localPart, ⟨a.localPart_ne_nil, a.isLocalChar⟩, ['@'], rfl, rfl⟩,
      first, label, rfl⟩, _, ⟨rest, rfl, labels⟩, rfl⟩, ['.'], rfl, rfl⟩,
      a.top, ⟨a.two_le_length_top, a.isAlpha⟩, ?_⟩
    simp [Address.chars, Address.domain, Address.parts, intercalate_cons, split]

end Pattern

end Email

open Email

/-- The format takes a text if and only if the text is an address, which it is in one way at most; the
pattern describes the same texts. No flawed text is taken. -/
theorem matchesFormat_email_iff (s : String) :
    (matchesFormat .email s = true ↔ ∃! a : Address, a.chars = s.toList) ∧
      (matchesFormat .email s = true ↔ s.toList ∈ pattern) ∧
      (Flawed s.toList → matchesFormat .email s = false) := by
  have taken : matchesFormat .email s = true ↔ ∃ a : Address, a.chars = s.toList := isEmail_iff s.toList
  refine ⟨taken.trans ⟨?_, ExistsUnique.exists⟩, taken.trans (mem_pattern _).symm, fun flawed => ?_⟩
  · rintro ⟨a, same⟩
    exact ⟨a, same, fun b alike => b.chars_inj a (alike.trans same.symm)⟩
  · rw [Bool.eq_false_iff, ne_eq, taken]
    rintro ⟨a, same⟩
    exact a.not_flawed (same ▸ flawed)

theorem matchesFormat_email_domain :
    (∃! a : Address, a.chars = "ann.lee+news@mail.example.org".toList) ∧
      Flawed "ann@example..org\n".toList ∧ matchesFormat .email "ann@example..org\n" = false :=
  have flawed : Flawed "ann@example..org\n".toList :=
    .inr (.inr ⟨"ann".toList, "example..org\n".toList, rfl,
      .inr (.inr ⟨"example".toList, "org\n".toList, rfl⟩)⟩)
  ⟨(matchesFormat_email_iff "ann.lee+news@mail.example.org").1.1 (by decide), flawed,
    (matchesFormat_email_iff _).2.2 flawed⟩

end EntitySchema.Validation
