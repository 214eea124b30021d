import IntegerCalculator.Assignment
import IntegerCalculator.Expression
import IntegerCalculator.Line

/-!
# Sessions

A session answers lines and remembers the values of names between them. Only an assignment without fault changes what it
remembers; every other line, a rejected one included, leaves the session as it was.
-/

namespace IntegerCalculator

/-- What is remembered from line to line. -/
structure Session where
  table : Variables := .empty
  deriving DecidableEq

/-- The answer to a line that is not rejected. -/
inductive Reply where
  /-- There is nothing to show. -/
  | silent
  | value (value : Int)
  | text (text : List Char)
  /-- The user takes leave. -/
  | farewell
  deriving DecidableEq, Repr

/-- The lines that explain the calculator. -/
def helpText : List Char :=
  ("The program evaluates integer expressions of any size.\n" ++
    "Operators: + - * / and parentheses; runs of + and - collapse (-- is +, --- is -).\n" ++
    "Division is integer division, truncated toward zero.\n" ++
    "Assign with `name = value` (latin letters only); use the name in later expressions.\n" ++
    "Commands: /help shows this text, /exit quits.").toList

/-- The line that answers a leave-taking. -/
def farewellText : List Char := "Bye!".toList

/-- The answer to a command. -/
def answerCommand (command : List Char) : Except Error Reply :=
  if command = "/help".toList then .ok (.text helpText)
  else if command = "/exit".toList then .ok .farewell
  else .error .unknownCommand

namespace Session

/-- The session before the first line. -/
def new : Session := {}

/-- The answer to a line, and the session after it. -/
def answer (session : Session) (line : List Char) : Logged (Except Error Reply × Session) :=
  match Line.ofText line with
  | .blank => return (.ok .silent, session)
  | .command text => return (answerCommand text, session)
  | .assignment text => do
    let (result, table) ← session.table.assign text
    return (result.map fun _ => .silent, { session with table })
  | .expression text => do
    let result ← (session.table.evaluate text).run
    return (result.map .value, session)

end Session

end IntegerCalculator
