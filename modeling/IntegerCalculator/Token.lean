import IntegerCalculator.Operator
import IntegerCalculator.Text.Decimal

/-!
# Tokens

An expression is read as a sequence of tokens: names, integer literals, runs of operator characters and parentheses. A literal
keeps the sign that was written directly before its digits, since what that sign means depends on the place of the literal:
where a value is expected it belongs to the number, after a value it is the operator. The text of a token shows such a sign,
so the log tells `+3` from `3`.
-/

namespace IntegerCalculator

/-- A token of an expression. -/
inductive Token where
  | identifier (name : List Char)
  /-- An integer, with the sign that stands before its digits, if one does. -/
  | literal (value : Int) (sign : Option Operator)
  /-- Operator characters that stand side by side, not yet taken for an operator. -/
  | run (text : List Char)
  | openParen
  | closeParen
  deriving DecidableEq, Repr

/-- How a token is shown. -/
def Token.text : Token → List Char
  | identifier name => name
  | literal value (some .add) => '+' :: decimal value
  | literal value _ => decimal value
  | run text => text
  | openParen => ['(']
  | closeParen => [')']

/-- How a sequence of tokens is shown: the tokens, a space between each two. -/
def Token.listText (tokens : List Token) : List Char := [' '].intercalate (tokens.map Token.text)

/-- What is read where a token is expected: a token, or the error that stands in its place. -/
abbrev Lexeme := Except Error Token

/-- The tokens among the lexemes, the errors left out. -/
def Lexeme.tokens (lexemes : List Lexeme) : List Token := lexemes.filterMap Except.toOption

/-- The tokens, if all lexemes are tokens. -/
def Lexeme.allTokens? (lexemes : List Lexeme) : Option (List Token) := lexemes.mapM Except.toOption

end IntegerCalculator
