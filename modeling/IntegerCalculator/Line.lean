import IntegerCalculator.Text.Blank

/-!
# Kinds of lines

What a line asks for is told from the line without the blanks at its ends: a line that is empty then asks for nothing, one
that starts with `/` is a command, any other that holds an `=` is an assignment, and the rest are expressions.
-/

namespace IntegerCalculator

/-- What a line asks for, with the text that it holds. -/
inductive Line where
  | blank
  | command (text : List Char)
  | assignment (text : List Char)
  | expression (text : List Char)
  deriving DecidableEq, Repr

/-- What the line asks for. -/
def Line.ofText (line : List Char) : Line :=
  match trim line with
  | [] => .blank
  | c :: cs =>
    if c == '/' then .command (c :: cs)
    else if (c :: cs).contains '=' then .assignment (c :: cs)
    else .expression (c :: cs)

/-- What a line asks for, in terms of the trimmed line as a whole. -/
theorem Line.ofText_eq (line : List Char) :
    ofText line =
      if trim line = [] then .blank
      else if (trim line).head? = some '/' then .command (trim line)
      else if '=' ∈ trim line then .assignment (trim line)
      else .expression (trim line) := by
  unfold ofText
  cases trim line with
  | nil => rfl
  | cons c cs => simp only [beq_iff_eq, List.contains_iff_mem, List.cons_ne_nil, if_false, List.head?_cons, Option.some.injEq]

/-- A line asks for nothing when it is blank throughout. -/
theorem Line.ofText_eq_blank_iff {line : List Char} : ofText line = .blank ↔ line.all isBlank = true := by
  rw [ofText_eq, ← trim_eq_nil_iff]
  grind

/-- A line is a command when its first character that is not blank is a slash. -/
theorem Line.ofText_eq_command_iff {line text : List Char} :
    ofText line = .command text ↔ text = trim line ∧ text.head? = some '/' := by
  rw [ofText_eq]
  grind

/-- A line is an assignment when it has an equals sign and its first character that is not blank is no slash. -/
theorem Line.ofText_eq_assignment_iff {line text : List Char} :
    ofText line = .assignment text ↔ text = trim line ∧ '=' ∈ text ∧ text.head? ≠ some '/' := by
  rw [ofText_eq]
  grind

end IntegerCalculator
