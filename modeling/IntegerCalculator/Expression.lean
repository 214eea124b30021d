import IntegerCalculator.Postfix.Conversion
import IntegerCalculator.Postfix.Value
import IntegerCalculator.Token.Reader

/-!
# The value of an expression

An expression line is read into lexemes, converted to postfix form and evaluated. The first error of these three, in this
order, is the error of the line; the table is read and never changed. Lexemes are taken one by one as the conversion comes to
them, so a log that shows all tokens of a line first has the line read once more.
-/

namespace IntegerCalculator

/-- Reads the line for the log alone, which shows its tokens if no lexeme is an error; without such a log nothing is read. -/
def Lexeme.reportLine (line : List Char) : Calculation Unit := do
  if ← Calculation.admits .debug then
    if let some tokens := allTokens? (← Calculation.ofExcept (ofLine line)) then
      Calculation.write (.tokensRead tokens)

/-- The value of the expression that the line holds, the names having the values that the table gives them. -/
def Variables.evaluate (table : Variables) (line : List Char) : Calculation Int := do
  let lexemes ← Calculation.ofExcept (Lexeme.ofLine line)
  Lexeme.reportLine line
  let items ← Postfix.ofLexemes table lexemes
  Calculation.write (.converted items)
  items.value

end IntegerCalculator
