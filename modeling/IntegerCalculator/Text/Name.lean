import IntegerCalculator.Text.Blank

/-!
# Names

A name is one or more Latin letters, small and capital letters being different. Only such a text can be assigned a value,
and only such a word of an expression is looked up.
-/

namespace IntegerCalculator

/-- Whether the text is one or more of the letters `a` to `z` and `A` to `Z`. -/
def isName (s : List Char) : Bool := !s.isEmpty && s.all Char.isAlpha

/-- A name is a text that is not empty and consists of letters. -/
theorem isName_iff {s : List Char} : isName s = true ↔ s ≠ [] ∧ ∀ c ∈ s, c.isAlpha = true := by
  simp [isName]

/-- A name has no blanks. -/
theorem isBlank_eq_false_of_mem_name {s : List Char} (h : isName s = true) : ∀ c ∈ s, isBlank c = false := fun c hc =>
  isBlank_eq_false_of_isAlpha ((isName_iff.1 h).2 c hc)

end IntegerCalculator
