import IntegerCalculator.Log.Logged
import IntegerCalculator.Variables

/-!
# Conversion to postfix form

Tokens are converted in one pass. Operands are passed on at once, while operators and opening parentheses are held back on a
stack: an operator is passed on as soon as the next operator binds no tighter, a parenthesis closes or the input ends, so
operators of equal precedence associate to the left. Values and operators alternate strictly. At the place of a value stands
a name, which is replaced by its value, a literal with or without sign, or an opening parenthesis; at the place of an operator
stands a run, a closing parenthesis, or a signed literal, which is then its sign as operator and its absolute value as operand.
-/

namespace IntegerCalculator

/-- What is held back until the operand to its right is complete. -/
inductive Pending where
  | operator (op : Operator)
  | paren
  deriving DecidableEq, Repr

/-- The state of a conversion between two tokens. -/
structure Conversion where
  /-- What is held back, the latest first. -/
  pending : List Pending := []
  /-- Whether a value has to come next, and not an operator. -/
  expectsOperand : Bool := true
  deriving DecidableEq, Repr

namespace Conversion

/-- Parts the operators at the top that bind at least as tightly as `op` from what stays held back. -/
def releaseFor (op : Operator) : List Pending → List Item × List Pending
  | .operator top :: pending =>
    if top.precedence < op.precedence then ([], .operator top :: pending)
    else
      let (released, kept) := releaseFor op pending
      (.operator top :: released, kept)
  | pending => ([], pending)

/-- Parts the operators above the latest opening parenthesis from what is below it; `none` without such a parenthesis. -/
def releaseGroup : List Pending → Option (List Item × List Pending)
  | [] => none
  | .paren :: pending => some ([], pending)
  | .operator op :: pending => (releaseGroup pending).map fun (released, kept) => (.operator op :: released, kept)

/-- The operators that are held back at the end; `none` when a parenthesis is still open. -/
def releaseAll : List Pending → Option (List Item)
  | [] => some []
  | .paren :: _ => none
  | .operator op :: pending => (releaseAll pending).map (.operator op :: ·)

/-- Passes an operand on. -/
def operand (c : Conversion) (value : Int) : Calculation (List Item × Conversion) := do
  Calculation.write (.operandPassed value)
  return ([.operand value], { c with expectsOperand := false })

/-- Holds an operator back, after passing on what binds at least as tightly. -/
def operator (c : Conversion) (op : Operator) : Calculation (List Item × Conversion) := do
  let (released, kept) := releaseFor op c.pending
  Calculation.write (.operatorHeld op)
  return (released, { pending := .operator op :: kept, expectsOperand := true })

/-- The state before the first token. -/
def start : Conversion := {}

/-- Converts one token: what it passes on, and the state after it. -/
def step (table : Variables) (c : Conversion) (token : Token) : Calculation (List Item × Conversion) := do
  Calculation.write (.tokenReached token)
  if c.expectsOperand then
    match token with
    | .identifier name => c.operand (← Calculation.ofExcept (table.resolve name))
    | .literal value _ => c.operand value
    | .openParen => return ([], { c with pending := .paren :: c.pending })
    | .run _ | .closeParen => throw .invalidExpression
  else
    match token with
    | .run text => c.operator (← Calculation.ofExcept (Operator.ofRun text))
    | .closeParen =>
      match releaseGroup c.pending with
      | some (released, kept) => return (released, { pending := kept, expectsOperand := false })
      | none => throw .invalidExpression
    | .literal value (some sign) =>
      let (released, held) ← c.operator sign
      let (passed, after) ← held.operand value.natAbs
      return (released ++ passed, after)
    | .identifier _ | .literal _ none | .openParen => throw .invalidExpression

/-- Converts lexemes one after the other, up to the first error: what they pass on, and the state after them. -/
def consume (table : Variables) : Conversion → List Lexeme → Calculation (List Item × Conversion)
  | c, [] => return ([], c)
  | c, lexeme :: lexemes => do
    let (passed, next) ← c.step table (← Calculation.ofExcept lexeme)
    let (rest, last) ← next.consume table lexemes
    return (passed ++ rest, last)

/-- What is passed on at the end of the input, which must not come where a value is expected or a parenthesis is open. -/
def finish (c : Conversion) : Except Error (List Item) :=
  if c.expectsOperand then .error .invalidExpression
  else match releaseAll c.pending with
    | some released => .ok released
    | none => .error .invalidExpression

end Conversion

/-- The postfix form of a sequence of lexemes, the names having the values that the table gives them. -/
def Postfix.ofLexemes (table : Variables) (lexemes : List Lexeme) : Calculation Postfix := do
  let (passed, last) ← Conversion.start.consume table lexemes
  return passed ++ (← Calculation.ofExcept last.finish)

end IntegerCalculator
