/-!
# Why a line is rejected

A rejected line has one of six causes. The cause is what the calculator computes with; its wording is decided in one
place, `Error.message`, and is the line the user sees.
-/

namespace IntegerCalculator

/-- The cause for which a line is rejected. -/
inductive Error where
  /-- A word that is no token, tokens in an order that no expression has, or a postfix form that does not leave one value. -/
  | invalidExpression
  /-- A name that has no value. -/
  | unknownVariable
  /-- The left part of an assignment is not a name. -/
  | invalidIdentifier
  /-- An assignment without exactly two parts, or whose right part is not a single term. -/
  | invalidAssignment
  /-- The divisor of a division is zero. -/
  | divisionByZero
  /-- A line that starts as a command does and is none. -/
  | unknownCommand
  deriving DecidableEq, Repr

/-- The line shown to the user for a cause. -/
def Error.message : Error → String
  | .invalidExpression => "Invalid expression"
  | .unknownVariable => "Unknown variable"
  | .invalidIdentifier => "Invalid identifier"
  | .invalidAssignment => "Invalid assignment"
  | .divisionByZero => "Division by zero"
  | .unknownCommand => "Unknown command"

end IntegerCalculator
