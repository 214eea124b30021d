import IntegerCalculator.Log.Logged

/-!
# The value of a postfix form

A postfix form is evaluated on a stack: an operand is put on it, an operator takes its right operand and then its left one off
it and puts its value on it. The form has a value when every operator finds two operands, no division is by zero and exactly
one value is left. The first fault met from left to right is the error.
-/

namespace IntegerCalculator

/-- The stack after an item, its top first. -/
def Item.actOn (stack : List Int) (item : Item) : Calculation (List Int) :=
  match item, stack with
  | .operand value, stack => return value :: stack
  | .operator op, b :: a :: stack => do
    let value ← Calculation.ofExcept (op.apply a b)
    Calculation.write (.applied op a b value)
    return value :: stack
  | .operator _, _ => throw .invalidExpression

/-- The value of a postfix form. -/
def Postfix.value (items : Postfix) : Calculation Int := do
  match ← items.foldlM Item.actOn [] with
  | [value] => return value
  | _ => throw .invalidExpression

end IntegerCalculator
