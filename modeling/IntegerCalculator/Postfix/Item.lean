import IntegerCalculator.Operator
import IntegerCalculator.Text.Decimal

/-!
# Postfix form

An expression in postfix form lists its operands and operators so that each operator follows its two operands. Its text is the
items with a space between each two; since the text of an operand has a digit and that of an operator has none, the text
determines the items.
-/

namespace IntegerCalculator

/-- An item of a postfix form. -/
inductive Item where
  | operand (value : Int)
  | operator (op : Operator)
  deriving DecidableEq, Repr

/-- How an item is shown. -/
def Item.text : Item → List Char
  | operand value => decimal value
  | operator op => [op.symbol]

/-- A postfix form, well formed or not. -/
abbrev Postfix := List Item

/-- How a postfix form is shown: the items, a space between each two. -/
def Postfix.text (items : Postfix) : List Char := [' '].intercalate (items.map Item.text)

end IntegerCalculator
