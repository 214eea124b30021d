import IntegerCalculator.Log.Logged
import IntegerCalculator.Text.Blank
import IntegerCalculator.Text.Decimal
import IntegerCalculator.Text.Name
import IntegerCalculator.Variables

/-!
# Assignments

An assignment is a name, one `=` and a single term, with blanks around each as one likes. The term is an integer, with or
without sign, or a name, of which the present value is taken. Faults are reported in this order: the left part is no name,
there are not exactly two parts, the right part is no term, the term is a name without a value. Only an assignment without
fault changes the table.
-/

namespace IntegerCalculator

/-- The parts of a line at its equals signs, without the blanks around them. -/
def assignmentParts (line : List Char) : List (List Char) := (line.splitOn '=').map trim

namespace Variables

/-- The value of a text that is a single term. -/
def termValue (table : Variables) (term : List Char) : Except Error Int :=
  if isName term then table.resolve term
  else match integer? term with
    | some value => .ok value
    | none => .error .invalidAssignment

/-- The name that a line assigns to, and the value that its right part has now. -/
def assignment (table : Variables) (line : List Char) : Except Error (List Char × Int) :=
  let parts := assignmentParts line
  if !isName (parts.headD []) then .error .invalidIdentifier
  else match parts with
    | [name, term] => (table.termValue term).map fun value => (name, value)
    | _ => .error .invalidAssignment

/-- Does the assignment that the line holds, and gives the table after it, which is the old one when there is a fault. -/
def assign (table : Variables) (line : List Char) : Logged (Except Error Unit × Variables) :=
  match table.assignment line with
  | .error e => return (.error e, table)
  | .ok (name, value) => do
    Logged.write (.assigned name value)
    return (.ok (), table.store name value)

end Variables

end IntegerCalculator
