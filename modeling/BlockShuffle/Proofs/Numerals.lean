import Mathlib
import BlockShuffle.Layout

/-!
# Numbers in names

Paths are written with the digits of a number and are read with some latitude: a numeral may have zeros or a
plus in front (`number?_eq_some_iff`). Either way there is no mark among the digits, which is how names are
taken apart around them.

The two directions are not symmetric, which is why there are two predicates. Printing gives one text for a
number, `digits`; reading accepts every `IsNumeral` text, of which there are many for one number. A name made by
the library is therefore taken apart to the number it was made from, while a name found in a directory may be
taken for that of another file with the same number. What readers do about it is a matter of the names and is
treated in `Proofs/ShardNames`.

Digits are related to numbers through the digits of the library's naturals (`digitsValue_eq_ofDigits`), so the
induction over a numeral is made there and not here. A number too large for a word is no number at all, and
`number?` gives none.
-/

set_option autoImplicit false

namespace BlockShuffle

/-! ## Written -/

/-- The digits of a number, as names have them. -/
def digits (number : UInt32) : List Char := (toString number).toList

theorem digits_eq (number : UInt32) : digits number = Nat.toDigits 10 number.toNat :=
  Nat.toList_repr

theorem isDigit_of_mem_digits {number : UInt32} {c : Char} (h : c ∈ digits number) :
    c.isDigit = true := by
  rw [digits_eq] at h
  exact Nat.isDigit_of_mem_toDigits (by decide) (by decide) h

theorem not_mem_digits {number : UInt32} {c : Char} (h : c.isDigit = false) : c ∉ digits number := by
  intro hc
  rw [isDigit_of_mem_digits hc] at h
  cases h

theorem digits_ne_nil (number : UInt32) : digits number ≠ [] := by
  rw [digits_eq]
  exact Nat.toDigits_ne_nil

theorem digitsValue_digits (number : UInt32) :
    ShardFiles.digitsValue (digits number) = number.toNat := by
  rw [digits_eq]
  exact Nat.ofDigitChars_ten_toDigits

theorem digits_inj {number other : UInt32} (h : digits number = digits other) : number = other := by
  have hvalue := congrArg ShardFiles.digitsValue h
  rw [digitsValue_digits, digitsValue_digits] at hvalue
  exact UInt32.toNat_inj.mp hvalue

/-! ## Read -/

/-- What a digit counts. -/
def digitValue (digit : Char) : Nat := digit.toNat - '0'.toNat

/-- Decimal digits of a number, the ones last; any number of zeros may be in front. -/
structure IsDecimal (digits : List Char) (number : UInt32) : Prop where
  nonempty : digits ≠ []
  decimal : ∀ digit ∈ digits, digit.isDigit = true
  value : Nat.ofDigits 10 (digits.reverse.map digitValue) = number.toNat

/-- A number as names may have it: its digits, behind an optional plus. -/
def IsNumeral (text : List Char) (number : UInt32) : Prop :=
  IsDecimal text number ∨ ∃ digits, text = '+' :: digits ∧ IsDecimal digits number

theorem IsDecimal.not_mem {digits : List Char} {number : UInt32} (h : IsDecimal digits number) {c : Char}
    (hc : c.isDigit = false) : c ∉ digits := by
  intro hmem
  rw [h.decimal c hmem] at hc
  cases hc

/-- Marks other than the plus are in no numeral. -/
theorem IsNumeral.not_mem {text : List Char} {number : UInt32} (h : IsNumeral text number) {c : Char}
    (hc : c.isDigit = false) (hplus : c ≠ '+') : c ∉ text := by
  rcases h with h | ⟨digits, rfl, h⟩
  · exact h.not_mem hc
  · rw [List.mem_cons, not_or]
    exact ⟨hplus, h.not_mem hc⟩

/-- A numeral is decimal once a plus in front of it is gone. -/
theorem isNumeral_iff {text : List Char} {number : UInt32} :
    IsNumeral text number ↔ IsDecimal (if text.head? = some '+' then text.tail else text) number := by
  by_cases hplus : text.head? = some '+'
  · obtain ⟨digits, rfl⟩ := List.head?_eq_some_iff.mp hplus
    rw [if_pos hplus, List.tail_cons]
    constructor
    · rintro (h | ⟨_, ⟨⟩, h⟩)
      · exact absurd List.mem_cons_self (h.not_mem rfl)
      · exact h
    · exact fun h => Or.inr ⟨digits, rfl, h⟩
  · rw [if_neg hplus]
    constructor
    · rintro (h | ⟨_, rfl, -⟩)
      · exact h
      · exact absurd rfl hplus
    · exact Or.inl

theorem digitsValue_eq_ofDigits (digits : List Char) :
    ShardFiles.digitsValue digits = Nat.ofDigits 10 (digits.reverse.map digitValue) := by
  induction digits using List.reverseRecOn with
  | nil => rfl
  | append_singleton digits digit ih =>
    rw [List.reverse_append, List.reverse_singleton, List.singleton_append, List.map_cons, Nat.ofDigits_cons, ← ih,
      ShardFiles.digitsValue, List.foldl_append, Nat.add_comm]
    rfl

/-- **A text is read as a number if it is a numeral for it.** -/
theorem number?_eq_some_iff {text : List Char} {number : UInt32} :
    ShardFiles.number? text = some number ↔ IsNumeral text number := by
  have hnumber : number.toNat < UInt32.size := number.toNat_lt
  rw [isNumeral_iff, ShardFiles.number?]
  generalize (if text.head? = some '+' then text.tail else text) = digits
  have hform : (digits.isEmpty || !digits.all Char.isDigit) = true ↔
      ¬ (digits ≠ [] ∧ ∀ digit ∈ digits, digit.isDigit = true) := by
    rw [Bool.or_eq_true, List.isEmpty_iff, Bool.not_eq_true', ← Bool.not_eq_true, List.all_eq_true, not_and_or,
      ne_eq, not_not]
  constructor
  · intro h
    split_ifs at h with hdigits hsmall
    obtain ⟨hnonempty, hdecimal⟩ := not_not.mp (mt hform.mpr hdigits)
    refine ⟨hnonempty, hdecimal, ?_⟩
    rw [← digitsValue_eq_ofDigits, ← Option.some.inj h]
    exact (UInt32.toNat_ofNat_of_lt' hsmall).symm
  · rintro ⟨hnonempty, hdecimal, hvalue⟩
    rw [← digitsValue_eq_ofDigits] at hvalue
    rw [if_neg fun h => hform.mp h ⟨hnonempty, hdecimal⟩, hvalue, if_pos hnumber, UInt32.ofNat_toNat]

/-- What is written can be read. -/
theorem isNumeral_digits (number : UInt32) : IsNumeral (digits number) number := by
  refine Or.inl ⟨digits_ne_nil number, fun digit hdigit => isDigit_of_mem_digits hdigit, ?_⟩
  rw [← digitsValue_eq_ofDigits, digitsValue_digits]

end BlockShuffle
