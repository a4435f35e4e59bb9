import Mathlib.Data.List.TakeWhile

/-!
# Decimal numerals

The specification of a numeral (`numeral?`: the whole string is digits, and
there is at least one) beside the reader that programs have (`readDigits`: the
longest run of digits, and what is left).  Numbers are unbounded here.
-/

namespace DecimalNumerals

/-- The number written by a non-empty string of decimal digits. -/
def numeral? (chars : List Char) : Option Nat :=
  if chars ≠ [] ∧ chars.all Char.isDigit then some (Nat.ofDigitChars 10 chars 0) else none

/-- The value of the digits a string starts with, and the rest of it. -/
def readDigits (chars : List Char) : Nat × List Char :=
  (Nat.ofDigitChars 10 (chars.takeWhile Char.isDigit) 0, chars.dropWhile Char.isDigit)

theorem numeral?_eq_some {chars : List Char} {number : Nat} :
    numeral? chars = some number ↔
      chars ≠ [] ∧ (∀ char ∈ chars, char.isDigit = true) ∧
        Nat.ofDigitChars 10 chars 0 = number := by
  simp [numeral?, and_assoc]

theorem readDigits_of_digits {chars : List Char}
    (digits : ∀ char ∈ chars, char.isDigit = true) :
    readDigits chars = (Nat.ofDigitChars 10 chars 0, []) := by
  rw [readDigits, List.takeWhile_eq_self_iff.mpr digits, List.dropWhile_eq_nil_iff.mpr digits]

theorem readDigits_of_numeral {chars : List Char} {number : Nat}
    (written : numeral? chars = some number) : readDigits chars = (number, []) := by
  obtain ⟨_, digits, value⟩ := numeral?_eq_some.mp written
  rw [readDigits_of_digits digits, value]

theorem ne_of_numeral {chars : List Char} {number : Nat} {char other : Char}
    (written : numeral? chars = some number) (member : char ∈ chars)
    (apart : other.isDigit = false) : char ≠ other := by
  rintro rfl
  have digit := (numeral?_eq_some.mp written).2.1 char member
  simp [apart] at digit

end DecimalNumerals
