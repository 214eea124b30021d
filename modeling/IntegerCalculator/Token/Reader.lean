import IntegerCalculator.Text.Blank
import IntegerCalculator.Text.Name
import IntegerCalculator.Token

/-!
# Reading tokens

A line is cut into words that are one token each. First every term is set off by spaces, a term being a maximal run of
letters, or a maximal run of digits together with a `+` or `-` directly before it; then every parenthesis is. The words of
the result are classified one by one, and a word that is no token leaves an error in its place, after which reading goes on.
-/

namespace IntegerCalculator

/-- Whether the character is `+` or `-`. -/
def isSign (c : Char) : Bool := c == '+' || c == '-'

/-- Whether the character stands for an operator. -/
def isOperatorChar (c : Char) : Bool := isSign c || c == '*' || c == '/'

/-- Whether the text starts with a digit. -/
def startsWithDigit (s : List Char) : Bool := s.head?.any Char.isDigit

/-- The term that the text starts with, or the empty text when it starts with none. -/
def leadingTerm : List Char → List Char
  | [] => []
  | c :: cs =>
    if c.isAlpha then c :: cs.takeWhile Char.isAlpha
    else if c.isDigit || (isSign c && startsWithDigit cs) then c :: cs.takeWhile Char.isDigit
    else []

/-- The text with a space before and after each of its terms, found from left to right. -/
def setOffTerms (s : List Char) : List Char :=
  match s with
  | [] => []
  | c :: cs =>
    match leadingTerm (c :: cs) with
    | [] => c :: setOffTerms cs
    | t :: term => ' ' :: t :: term ++ ' ' :: setOffTerms (cs.drop term.length)
termination_by s.length
decreasing_by
  · exact Nat.lt_succ_self _
  · exact Nat.lt_succ_of_le (List.length_drop ▸ Nat.sub_le _ _)

/-- The text with a space before and after each of its parentheses. -/
def setOffParens (s : List Char) : List Char :=
  s.flatMap fun c => if c == '(' || c == ')' then [' ', c, ' '] else [c]

namespace Token

/-- The sign that a numeral starts with. -/
def signOf : List Char → Option Operator
  | '+' :: _ => some .add
  | '-' :: _ => some .subtract
  | _ => none

/-- The token that a word is; `none` for a word that is no token. -/
def ofWord? (word : List Char) : Option Token :=
  if word = ['('] then some .openParen
  else if word = [')'] then some .closeParen
  else if isName word then some (.identifier word)
  else match integer? word with
    | some value => some (.literal value (signOf word))
    | none => if !word.isEmpty && word.all isOperatorChar then some (.run word) else none

end Token

/-- The lexeme that a word is. -/
def Lexeme.ofWord (word : List Char) : Lexeme :=
  match Token.ofWord? word with
  | some token => .ok token
  | none => .error .invalidExpression

/-- The lexemes of a line, in order; a line of blanks only has none and is an error as a whole. -/
def Lexeme.ofLine (line : List Char) : Except Error (List Lexeme) :=
  if trim line = [] then .error .invalidExpression
  else .ok ((words (setOffParens (setOffTerms line))).map Lexeme.ofWord)

end IntegerCalculator
