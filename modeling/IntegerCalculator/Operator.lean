import IntegerCalculator.Error

/-!
# Operators

There are four binary operators on the integers; division drops the fraction, so it goes toward zero, and refuses the divisor
zero. Multiplication and division bind tighter than addition and subtraction. In a line an operator is written as a run: `*`
and `/` stand alone, and a run of `+` and `-` is one sign, each `-` turning it round.
-/

namespace IntegerCalculator

/-- A binary operator. -/
inductive Operator where
  | add | subtract | multiply | divide
  deriving DecidableEq, Repr

namespace Operator

/-- How tightly an operator binds its operands. -/
def precedence : Operator → Nat
  | add | subtract => 1
  | multiply | divide => 2

/-- The character that stands for an operator. -/
def symbol : Operator → Char
  | add => '+'
  | subtract => '-'
  | multiply => '*'
  | divide => '/'

/-- The value of an operator on its left and right operand. -/
def apply (op : Operator) (a b : Int) : Except Error Int :=
  match op with
  | add => .ok (a + b)
  | subtract => .ok (a - b)
  | multiply => .ok (a * b)
  | divide => if b = 0 then .error .divisionByZero else .ok (a.tdiv b)

/-- The other sign. -/
def flip : Operator → Operator
  | add => subtract
  | _ => add

/-- The sign that is left when the rest of a sign run is read after `sign`; `none` when another character turns up. -/
def signAfter (sign : Operator) : List Char → Option Operator
  | [] => some sign
  | '+' :: cs => signAfter sign cs
  | '-' :: cs => signAfter sign.flip cs
  | _ :: _ => none

/-- The operator that a run of operator characters stands for; `none` for a run that stands for none. -/
def ofRun? : List Char → Option Operator
  | ['*'] => some multiply
  | ['/'] => some divide
  | '+' :: cs => signAfter add cs
  | '-' :: cs => signAfter subtract cs
  | _ => none

/-- The operator that a run stands for, a run that stands for none being an error. -/
def ofRun (run : List Char) : Except Error Operator :=
  match ofRun? run with
  | some op => .ok op
  | none => .error .invalidExpression

end Operator

end IntegerCalculator
