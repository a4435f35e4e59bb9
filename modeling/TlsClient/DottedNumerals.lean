import Mathlib.Algebra.GroupWithZero.Nat
import Mathlib.Data.List.Forall2
import Mathlib.Data.List.Induction
import TlsClient.DecimalNumerals

/-!
# Numerals separated by dots

The text of a list of numbers, as addresses and versions are written: `render` writes
them without leading zeros, and `parse` reads them.  Whether a leading zero is taken is
a parameter of the reader.
-/

namespace DecimalNumerals

theorem digitChar_of_isDigit {char : Char} (digit : char.isDigit = true) :
    char.toNat - 48 < 10 ∧ (char.toNat - 48).digitChar = char := by
  have range : 48 ≤ char.toNat ∧ char.toNat ≤ 57 := by
    simpa [Char.isDigit, UInt32.le_iff_toNat_le] using digit
  refine ⟨by omega, ?_⟩
  have known : ∀ code, 48 ≤ code → code ≤ 57 → (code - 48).digitChar = Char.ofNat code := by
    decide
  rw [known char.toNat range.1 range.2, Char.ofNat_toNat]

/-- A numeral without a leading zero is the one that its number is written with. -/
theorem toDigits_ofDigitChars {digits : List Char}
    (allDigits : ∀ char ∈ digits, char.isDigit = true) (lead : digits.head? ≠ some '0')
    (nonempty : digits ≠ []) :
    Nat.toDigits 10 (Nat.ofDigitChars 10 digits 0) = digits ∧
      0 < Nat.ofDigitChars 10 digits 0 := by
  induction digits using List.reverseRecOn with
  | nil => exact absurd rfl nonempty
  | append_singleton digits char ih =>
      obtain ⟨small, written⟩ := digitChar_of_isDigit (allDigits char (by simp))
      have value : Nat.ofDigitChars 10 (digits ++ [char]) 0 =
          10 * Nat.ofDigitChars 10 digits 0 + (char.toNat - 48) := by
        rw [Nat.ofDigitChars_append, Nat.ofDigitChars_cons, Nat.ofDigitChars_nil]
        rfl
      have last : Nat.toDigits 10 (char.toNat - 48) = [char] := by
        rw [Nat.toDigits_of_lt_base small, written]
      cases digits with
      | nil =>
          have notZero : char.toNat - 48 ≠ 0 := by
            intro zero
            rw [zero] at written
            exact lead (by simp [← written])
          rw [value, Nat.ofDigitChars_nil, Nat.mul_zero, Nat.zero_add]
          exact ⟨last, by omega⟩
      | cons first rest =>
          obtain ⟨same, positive⟩ := ih
            (fun other member => allDigits other (List.mem_append_left _ member))
            (by simpa using lead) (by simp)
          rw [value, ← Nat.toDigits_append_toDigits (by decide) positive small, same, last]
          exact ⟨rfl, by omega⟩

/-- The numeral is written as its number is, without a leading zero. -/
def Plain (digits : List Char) : Prop :=
  digits = ['0'] ∨ digits.head? ≠ some '0'

instance (digits : List Char) : Decidable (Plain digits) :=
  inferInstanceAs (Decidable (_ ∨ _))

theorem head_toDigits (number : Nat) (positive : 0 < number) :
    (Nat.toDigits 10 number).head? ≠ some '0' := by
  induction number using Nat.strongRecOn with
  | ind number ih =>
      rw [Nat.toDigits_eq_if (by decide)]
      split
      · rw [List.head?_cons, ne_eq, Option.some.injEq, Nat.digitChar_eq_zero]
        omega
      · rw [List.head?_append_of_ne_nil _ Nat.toDigits_ne_nil]
        exact ih (number / 10) (by omega) (by omega)

theorem plain_toDigits (number : Nat) : Plain (Nat.toDigits 10 number) := by
  rcases Nat.eq_zero_or_pos number with rfl | positive
  · exact Or.inl (Nat.toDigits_zero 10)
  · exact Or.inr (head_toDigits number positive)

theorem toDigits_eq_iff_plain {digits : List Char} {number : Nat}
    (written : numeral? digits = some number) :
    Nat.toDigits 10 number = digits ↔ Plain digits := by
  obtain ⟨nonempty, allDigits, rfl⟩ := numeral?_eq_some.mp written
  constructor
  · intro same
    rw [← same]
    exact plain_toDigits _
  · rintro (rfl | lead)
    · decide
    · exact (toDigits_ofDigitChars allDigits lead nonempty).1

section Dotted

/-- What a part of the text may be. -/
structure PartFormat where
  leadingZeros : Bool
  width : Nat
  bound : Nat

variable (format : PartFormat)

def readPart (digits : List Char) : Option Nat :=
  (numeral? digits).filter fun number =>
    (format.leadingZeros || decide (Plain digits)) && decide (digits.length ≤ format.width) &&
      decide (number < format.bound)

def readParts : List (List Char) → Option (List Nat)
  | [] => some []
  | digits :: parts =>
      (readPart format digits).bind fun number =>
        (readParts parts).map fun numbers => number :: numbers

/-- The `count` numbers of a text, if it is one. -/
def parse (count : Nat) (text : List Char) : Option (List Nat) :=
  if (text.splitOn '.').length = count then readParts format (text.splitOn '.') else none

def render (numbers : List Nat) : List Char :=
  ['.'].intercalate (numbers.map (Nat.toDigits 10))

variable {format}

theorem readPart_eq_some {digits : List Char} {number : Nat} :
    readPart format digits = some number ↔
      numeral? digits = some number ∧ (format.leadingZeros = true ∨ Plain digits) ∧
        digits.length ≤ format.width ∧ number < format.bound := by
  simp [readPart, Option.filter_eq_some_iff, and_assoc]

theorem readParts_eq_some {parts : List (List Char)} {numbers : List Nat} :
    readParts format parts = some numbers ↔
      List.Forall₂ (fun digits number => readPart format digits = some number) parts numbers := by
  induction parts generalizing numbers with
  | nil => simp [readParts, eq_comm]
  | cons digits parts ih =>
      simp only [readParts, Option.bind_eq_some_iff, Option.map_eq_some_iff,
        List.forall₂_cons_left_iff, ih]
      constructor
      · rintro ⟨number, read, rest, readRest, rfl⟩
        exact ⟨number, rest, read, readRest, rfl⟩
      · rintro ⟨number, rest, read, readRest, rfl⟩
        exact ⟨number, read, rest, readRest, rfl⟩

theorem readPart_toDigits {number : Nat} (width : 0 < format.width)
    (fits : format.bound ≤ 10 ^ format.width) (below : number < format.bound) :
    readPart format (Nat.toDigits 10 number) = some number := by
  have digits : ∀ char ∈ Nat.toDigits 10 number, char.isDigit = true :=
    fun char member => Nat.isDigit_of_mem_toDigits (by decide) (by decide) member
  refine readPart_eq_some.mpr ⟨?_, Or.inr (plain_toDigits number), ?_, below⟩
  · exact numeral?_eq_some.mpr
      ⟨Nat.toDigits_ne_nil, digits, Nat.ofDigitChars_ten_toDigits⟩
  · exact (Nat.length_toDigits_le_iff (by decide) width).mpr (by omega)

theorem splitOn_render {numbers : List Nat} (nonempty : numbers ≠ []) :
    (render numbers).splitOn '.' = numbers.map (Nat.toDigits 10) := by
  apply List.splitOn_intercalate
  · intro part member dot
    obtain ⟨number, _, rfl⟩ := List.mem_map.mp member
    have digit := Nat.isDigit_of_mem_toDigits (by decide) (by decide) dot
    exact absurd digit (by decide)
  · simpa using nonempty

/-- What is written is read back. -/
theorem parse_render {numbers : List Nat} (nonempty : numbers ≠ []) (width : 0 < format.width)
    (fits : format.bound ≤ 10 ^ format.width) (below : ∀ number ∈ numbers, number < format.bound) :
    parse format numbers.length (render numbers) = some numbers := by
  have length : (numbers.map (Nat.toDigits 10)).length = numbers.length := List.length_map _
  rw [parse, splitOn_render nonempty, if_pos length, readParts_eq_some, List.forall₂_map_left_iff,
    List.forall₂_same]
  exact fun number member => readPart_toDigits width fits (below number member)

theorem parse_eq_some {count : Nat} {text : List Char} {numbers : List Nat} :
    parse format count text = some numbers ↔
      (text.splitOn '.').length = count ∧
        List.Forall₂ (fun digits number => readPart format digits = some number)
          (text.splitOn '.') numbers := by
  rw [parse, Option.ite_none_right_eq_some, readParts_eq_some]

theorem toDigits_eq_parts_iff {parts : List (List Char)} {numbers : List Nat}
    (read : List.Forall₂ (fun digits number => readPart format digits = some number)
      parts numbers) :
    numbers.map (Nat.toDigits 10) = parts ↔ ∀ digits ∈ parts, Plain digits := by
  induction read with
  | nil => simp
  | cons head _ ih =>
      have written := (readPart_eq_some.mp head).1
      rw [List.map_cons, List.cons.injEq, toDigits_eq_iff_plain written, ih,
        List.forall_mem_cons]

/-- What is read is written back as it was exactly if it has no leading zero. -/
theorem render_eq_iff {count : Nat} {text : List Char} {numbers : List Nat}
    (parsed : parse format count text = some numbers) :
    render numbers = text ↔ ∀ digits ∈ text.splitOn '.', Plain digits := by
  obtain ⟨_, read⟩ := parse_eq_some.mp parsed
  rw [← toDigits_eq_parts_iff read]
  constructor
  · intro same
    have nonempty : numbers ≠ [] := by
      rintro rfl
      cases parts : text.splitOn '.' with
      | nil => exact List.splitOn_ne_nil _ _ parts
      | cons digits rest => simp [parts] at read
    rw [← splitOn_render nonempty, same]
  · intro same
    rw [render, same, List.intercalate_splitOn]

end Dotted

end DecimalNumerals
