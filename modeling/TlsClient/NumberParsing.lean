import TlsClient.CommandLine

/-!
# `convertStrToLong`

`strtoull` takes more than numerals: white space and a sign may stand before
the digits, a value beyond 64 bits is cut to the largest one, and a text
without digits leaves `*endptr` at its start.  The only test behind it is that
`*endptr` is at the end of the text.
-/

namespace TlsClient

open DecimalNumerals

/-- What `strtoull` takes from end to end: white space, a sign, digits. -/
def IsSubject (chars : List Char) : Prop :=
  ∃ blanks sign digits, chars = blanks ++ (sign ++ digits) ∧
    (∀ char ∈ blanks, isspace char = true) ∧
    (sign = [] ∨ sign = ['-'] ∨ sign = ['+']) ∧ ∃ number, numeral? digits = some number

/-- The value of a subject, in the 64 bits of `unsigned long long`. -/
def subjectValue (sign : List Char) (number : Nat) : Nat :=
  if 2 ^ 64 ≤ number then 2 ^ 64 - 1
  else if sign = ['-'] then (2 ^ 64 - number) % 2 ^ 64
  else number

theorem isspace_of_isDigit {char : Char} (digit : char.isDigit = true) :
    isspace char = false := by
  have range : 48 ≤ char.toNat ∧ char.toNat ≤ 57 := by
    simpa [Char.isDigit, UInt32.le_iff_toNat_le] using digit
  simp only [isspace, decide_eq_false_iff_not]
  omega

theorem readSign_signed {sign digits : List Char} {number : Nat}
    (signed : sign = [] ∨ sign = ['-'] ∨ sign = ['+'])
    (written : numeral? digits = some number) :
    readSign (sign ++ digits) = (decide (sign = ['-']), digits) := by
  rcases signed with rfl | rfl | rfl
  · have minus : ∀ rest, digits ≠ '-' :: rest := by
      rintro rest rfl
      exact ne_of_numeral written List.mem_cons_self (by decide : '-'.isDigit = false) rfl
    have plus : ∀ rest, digits ≠ '+' :: rest := by
      rintro rest rfl
      exact ne_of_numeral written List.mem_cons_self (by decide : '+'.isDigit = false) rfl
    rw [List.nil_append]
    unfold readSign
    split
    · exact absurd rfl (minus _)
    · exact absurd rfl (plus _)
    · rfl
  · rfl
  · rfl

theorem dropWhile_isspace_signed {sign digits : List Char} {number : Nat}
    (signed : sign = [] ∨ sign = ['-'] ∨ sign = ['+'])
    (written : numeral? digits = some number) :
    (sign ++ digits).dropWhile isspace = sign ++ digits := by
  rcases signed with rfl | rfl | rfl
  · cases digits with
    | nil => rfl
    | cons first rest =>
        have digit := (numeral?_eq_some.mp written).2.1 first (by simp)
        simp [isspace_of_isDigit digit]
  · rfl
  · rfl

theorem strtoull_of_subject {blanks sign digits : List Char} {number : Nat}
    (blank : ∀ char ∈ blanks, isspace char = true)
    (signed : sign = [] ∨ sign = ['-'] ∨ sign = ['+'])
    (written : numeral? digits = some number) :
    strtoull (blanks ++ (sign ++ digits)) = (subjectValue sign number, []) := by
  have nonempty := (numeral?_eq_some.mp written).1
  have nonzero : (0 : Nat) ≠ digits.length := fun zero =>
    nonempty (List.length_eq_zero_iff.mp zero.symm)
  simp only [strtoull, List.dropWhile_append_of_pos blank, dropWhile_isspace_signed signed written,
    readSign_signed signed written, readDigits_of_numeral written, List.length_nil]
  rw [if_neg nonzero]
  simp only [subjectValue, decide_eq_true_eq]
  split
  · rfl
  · split <;> rfl

theorem strtoull_of_numeral {chars : List Char} {number : Nat}
    (written : numeral? chars = some number) (fits : number < 2 ^ 64) :
    strtoull chars = (number, []) := by
  have read : strtoull ([] ++ ([] ++ chars)) = (subjectValue [] number, []) :=
    strtoull_of_subject (by simp) (Or.inl rfl) written
  simp only [List.nil_append] at read
  rw [read, subjectValue, if_neg (by omega)]
  rfl

theorem cStr_of_numeral {text : String} {number : Nat}
    (written : numeral? text.toList = some number) : cStr text = text.toList := by
  refine List.takeWhile_eq_self_iff.mpr fun char member => ?_
  simpa using ne_of_numeral written member (by decide)

theorem convertStrToLong_of_numeral {text : String} {number : Nat}
    (written : numeral? text.toList = some number) (fits : number < 2 ^ 32) :
    convertStrToLong text = (true, number) := by
  have read : strtoull (cStr text) = (number, []) := by
    rw [cStr_of_numeral written]
    exact strtoull_of_numeral written (by omega)
  have cast : number % 2 ^ 32 = number := Nat.mod_eq_of_lt fits
  simp only [convertStrToLong, read, cast, List.isEmpty_nil]

theorem readSign_cases (chars : List Char) :
    ∃ sign, (sign = [] ∨ sign = ['-'] ∨ sign = ['+']) ∧ chars = sign ++ (readSign chars).2 := by
  unfold readSign
  split
  · exact ⟨['-'], by simp⟩
  · exact ⟨['+'], by simp⟩
  · exact ⟨[], by simp⟩

/-- Where `*endptr` ends up: behind the digits, or at the start of the text. -/
theorem strtoull_endPtr (chars : List Char) :
    (strtoull chars).2 =
      let digits := (readSign (chars.dropWhile isspace)).2
      if (digits.dropWhile Char.isDigit).length = digits.length then chars
      else digits.dropWhile Char.isDigit := by
  unfold strtoull readDigits
  generalize readSign (chars.dropWhile isspace) = signed
  obtain ⟨negative, digits⟩ := signed
  by_cases nothing : (digits.dropWhile Char.isDigit).length = digits.length
  · simp only [if_pos nothing]
  · simp only [if_neg nothing]
    split
    · rfl
    · split <;> rfl

theorem strtoull_endPtr_eq_nil_iff (chars : List Char) :
    (strtoull chars).2 = [] ↔ chars = [] ∨ IsSubject chars := by
  constructor
  · intro atEnd
    rw [strtoull_endPtr] at atEnd
    obtain ⟨sign, signed, split⟩ := readSign_cases (chars.dropWhile isspace)
    generalize (readSign (chars.dropWhile isspace)).2 = digits at atEnd split
    by_cases nothing : (digits.dropWhile Char.isDigit).length = digits.length
    · exact Or.inl (by simpa [nothing] using atEnd)
    · right
      rw [if_neg nothing] at atEnd
      have nonempty : digits ≠ [] := by
        rintro rfl
        exact nothing rfl
      refine ⟨chars.takeWhile isspace, sign, digits, ?_, ?_, signed, _,
        numeral?_eq_some.mpr ⟨nonempty, List.dropWhile_eq_nil_iff.mp atEnd, rfl⟩⟩
      · rw [← split, List.takeWhile_append_dropWhile]
      · intro char member
        exact List.mem_takeWhile_imp member
  · rintro (rfl | ⟨blanks, sign, digits, rfl, blank, signed, number, written⟩)
    · rfl
    · rw [strtoull_of_subject blank signed written]

def IsUint32 (value : String) : Prop :=
  ∃ number, numeral? value.toList = some number ∧ number < 2 ^ 32

/-- What `convertStrToLong` is for: it returns `true` for the numbers of 32 bits,
and then it has converted them. -/
def ParsesNumber (value : String) : Prop :=
  ((convertStrToLong value).1 = true ↔ IsUint32 value) ∧
    ∀ number, numeral? value.toList = some number → number < 2 ^ 32 →
      (convertStrToLong value).2 = number

theorem convertStrToLong_returns_true_iff (value : String) :
    (convertStrToLong value).1 = true ↔ cStr value = [] ∨ IsSubject (cStr value) := by
  rw [← strtoull_endPtr_eq_nil_iff, convertStrToLong, List.isEmpty_iff]

theorem convertStrToLong_of_isUint32 {value : String} (isUint32 : IsUint32 value) :
    ParsesNumber value := by
  obtain ⟨number, written, fits⟩ := isUint32
  have converted := convertStrToLong_of_numeral written fits
  constructor
  · simp only [converted, true_iff]
    exact ⟨number, written, fits⟩
  · intro other writtenOther _
    rw [converted]
    exact Option.some.inj (written.symm.trans writtenOther)

/-- The strings that `convertStrToLong` gets wrong are those that are nothing but
white space, a sign and digits, or that are empty, and are not a number of 32
bits. -/
theorem convertStrToLong_parsesNumber_iff (value : String) :
    ParsesNumber value ↔
      IsUint32 value ∨ ¬ (cStr value = [] ∨ IsSubject (cStr value)) := by
  rw [← convertStrToLong_returns_true_iff]
  constructor
  · intro parses
    by_cases flag : (convertStrToLong value).1 = true
    · exact Or.inl (parses.1.mp flag)
    · exact Or.inr flag
  · rintro (isUint32 | refused)
    · exact convertStrToLong_of_isUint32 isUint32
    · by_cases isUint32 : IsUint32 value
      · exact convertStrToLong_of_isUint32 isUint32
      · constructor
        · exact iff_of_false refused isUint32
        · intro number written fits
          exact absurd ⟨number, written, fits⟩ isUint32

/-- The empty string, a negative number and 2 ^ 32 are all taken for numbers of
32 bits: 0, 2 ^ 32 - 1 and 0. -/
theorem convertStrToLong_accepts_others :
    ¬ ParsesNumber "" ∧ ¬ ParsesNumber "-1" ∧ ¬ ParsesNumber "4294967296" := by
  have empty : convertStrToLong "" = (true, 0) := by decide
  have negative : convertStrToLong "-1" = (true, 4294967295) := by decide
  have large : convertStrToLong "4294967296" = (true, 0) := by decide
  refine ⟨fun parses => ?_, fun parses => ?_, fun parses => ?_⟩
  · obtain ⟨number, written, _⟩ := parses.1.mp (by rw [empty])
    simp [numeral?] at written
  · obtain ⟨number, written, _⟩ := parses.1.mp (by rw [negative])
    simp [numeral?] at written
  · obtain ⟨number, written, fits⟩ := parses.1.mp (by rw [large])
    have value : numeral? "4294967296".toList = some 4294967296 := by decide
    rw [value] at written
    cases written
    omega

end TlsClient
