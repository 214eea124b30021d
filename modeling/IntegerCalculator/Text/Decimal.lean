import IntegerCalculator.Text.Blank

/-!
# Decimal numerals

Integers of any size are written in base ten, with `-` before a negative one, no leading zeros and no `+`. A signed numeral
that is read may have leading zeros and one `+` or `-` directly before its digits, and only the ten ASCII digits are digits.
What is written reads back.
-/

namespace IntegerCalculator

/-- The text of an integer. -/
def decimal : Int → List Char
  | .ofNat n => Nat.toDigits 10 n
  | .negSucc n => '-' :: Nat.toDigits 10 (n + 1)

/-- Whether the text is one or more digits. -/
def isDigits (s : List Char) : Bool := !s.isEmpty && s.all Char.isDigit

/-- The number that a run of digits denotes. -/
def digitsValue (s : List Char) : Nat := Nat.ofDigitChars 10 s 0

/-- The integer that a signed numeral denotes; `none` for a text of another form. -/
def integer? (s : List Char) : Option Int :=
  match s with
  | '+' :: ds => if isDigits ds then some (digitsValue ds) else none
  | '-' :: ds => if isDigits ds then some (-(digitsValue ds : Int)) else none
  | ds => if isDigits ds then some (digitsValue ds) else none

/-- One or more digits are a text that is not empty and consists of digits. -/
theorem isDigits_iff {s : List Char} : isDigits s = true ↔ s ≠ [] ∧ ∀ c ∈ s, c.isDigit = true := by
  simp [isDigits]

/-- Digits have no blanks among them. -/
theorem isBlank_eq_false_of_mem_digits {s : List Char} (h : isDigits s = true) : ∀ c ∈ s, isBlank c = false := fun c hc =>
  isBlank_eq_false_of_isDigit ((isDigits_iff.1 h).2 c hc)

/-- The digits written for a natural number are one or more digits. -/
theorem isDigits_toDigits (n : Nat) : isDigits (Nat.toDigits 10 n) = true :=
  isDigits_iff.2 ⟨Nat.toDigits_ne_nil, fun _ hc => Nat.isDigit_of_mem_toDigits (by decide) (by decide) hc⟩

/-- The digits written for a natural number denote it. -/
theorem digitsValue_toDigits (n : Nat) : digitsValue (Nat.toDigits 10 n) = n := Nat.ofDigitChars_ten_toDigits

/-- The text of an integer is written with the minus sign and digits. -/
theorem eq_minus_or_isDigit_of_mem_decimal {z : Int} {c : Char} (h : c ∈ decimal z) : c = '-' ∨ c.isDigit = true := by
  have hdigit : ∀ n, c ∈ Nat.toDigits 10 n → c.isDigit = true := fun n hc =>
    Nat.isDigit_of_mem_toDigits (by decide) (by decide) hc
  cases z with
  | ofNat n => exact .inr (hdigit n h)
  | negSucc n => exact (List.mem_cons.1 h).imp_right (hdigit (n + 1))

/-- The text of an integer has no blanks. -/
theorem isBlank_eq_false_of_mem_decimal {v : Int} {c : Char} (h : c ∈ decimal v) : isBlank c = false := by
  rcases eq_minus_or_isDigit_of_mem_decimal h with rfl | hdigit
  · decide
  · exact isBlank_eq_false_of_isDigit hdigit

theorem blank_not_mem_decimal {c : Char} (h : isBlank c = true) (v : Int) : c ∉ decimal v := by
  intro hmem
  rw [isBlank_eq_false_of_mem_decimal hmem] at h
  cases h

/-- A text that starts with no sign is a signed numeral exactly when it is one or more digits. -/
theorem integer?_of_isDigits {s : List Char} (h : isDigits s = true) : integer? s = some (digitsValue s : Int) := by
  have hp : ∀ ds, s ≠ '+' :: ds := by
    rintro ds rfl
    simp [isDigits] at h
  have hm : ∀ ds, s ≠ '-' :: ds := by
    rintro ds rfl
    simp [isDigits] at h
  unfold integer?
  split
  · exact absurd rfl (hp _)
  · exact absurd rfl (hm _)
  · simp [h]

/-- The text of an integer is a signed numeral that denotes it. -/
theorem integer?_decimal (z : Int) : integer? (decimal z) = some z := by
  cases z with
  | ofNat n => simp [decimal, integer?_of_isDigits (isDigits_toDigits n), digitsValue_toDigits]
  | negSucc n => simp [decimal, integer?, isDigits_toDigits, digitsValue_toDigits, Int.negSucc_eq]

end IntegerCalculator
