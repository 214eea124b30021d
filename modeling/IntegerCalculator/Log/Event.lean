import IntegerCalculator.Log.Level
import IntegerCalculator.Postfix.Item
import IntegerCalculator.Text.Quoted
import IntegerCalculator.Token

/-!
# Events

What the calculator reports while it works. An event says what happened; its level, the part of the program it belongs to and
its wording follow from that, so the log of a run is a list of events. Wordings are one line each, except that a path may
hold line breaks.
-/

namespace IntegerCalculator

/-- Something that the log reports. -/
inductive Event where
  /-- A script is about to be read. -/
  | scriptNamed (path : List Char)
  | sessionOpened
  /-- A name has been given a value. -/
  | assigned (name : List Char) (value : Int)
  /-- All words of an expression are tokens. -/
  | tokensRead (tokens : List Token)
  /-- The conversion turns to a token. -/
  | tokenReached (token : Token)
  /-- The conversion passes an operand on. -/
  | operandPassed (value : Int)
  /-- The conversion holds an operator back. -/
  | operatorHeld (op : Operator)
  /-- An expression has been converted. -/
  | converted (items : Postfix)
  /-- An operator has been applied to its operands. -/
  | applied (op : Operator) (a b value : Int)
  /-- A line has been rejected. -/
  | lineRejected (line : List Char) (cause : Error)
  /-- The user has closed the session. -/
  | sessionLeft
  /-- The input is used up, while so many names have a value. -/
  | inputEnded (count : Nat)
  /-- The session closes since the input is used up. -/
  | sessionEnded
  deriving DecidableEq, Repr

namespace Event

/-- The level of an event. -/
def level : Event → Level
  | scriptNamed _ | sessionOpened | sessionLeft | sessionEnded => .info
  | assigned .. | tokensRead _ | converted _ | inputEnded _ => .debug
  | tokenReached _ | operandPassed _ | operatorHeld _ | applied .. => .trace
  | lineRejected .. => .warn

/-- The part of the program that reports an event. -/
def part : Event → String
  | scriptNamed _ => "calculatrice_zpur"
  | sessionOpened | lineRejected .. | sessionLeft | inputEnded _ | sessionEnded => "calculatrice_zpur::app::repl"
  | assigned .. => "calculatrice_zpur::noyau::affectation"
  | tokensRead _ | converted _ | applied .. => "calculatrice_zpur::noyau::eval"
  | tokenReached _ | operandPassed _ | operatorHeld _ => "calculatrice_zpur::noyau::rpn"

/-- The wording of an event. -/
def message : Event → List Char
  | scriptNamed path => "lecture du script ".toList ++ path
  | sessionOpened => "session ouverte".toList
  | assigned name value => "affectation: ".toList ++ name ++ " = ".toList ++ decimal value
  | tokensRead tokens => "jetons: ".toList ++ Token.listText tokens
  | tokenReached token => "rpn: jeton ".toList ++ token.text
  | operandPassed value => "rpn: opérande ".toList ++ decimal value
  | operatorHeld op => "rpn: empile ".toList ++ [op.symbol]
  | converted items => "postfix: ".toList ++ Postfix.text items
  | applied op a b value =>
    "eval: ".toList ++ decimal a ++ [' ', op.symbol, ' '] ++ decimal b ++ " = ".toList ++ decimal value
  | lineRejected line cause => "ligne rejetée ".toList ++ quoted line ++ ": ".toList ++ cause.message.toList
  | sessionLeft => "session fermée par /exit".toList
  | inputEnded count => "fin d’entrée (".toList ++ decimal count ++ " variables)".toList
  | sessionEnded => "session fermée (fin d’entrée)".toList

/-- The label of a level in five columns. -/
def paddedLabel (level : Level) : List Char := level.label.toList ++ List.replicate (5 - level.label.length) ' '

/-- The line that the log shows for an event, with its line end: level and part in brackets, then the wording, in which a
line break is followed by four spaces. -/
def logLine (e : Event) : List Char :=
  '[' :: paddedLabel e.level ++ ' ' :: e.part.toList ++ ']' :: ' ' ::
    e.message.flatMap (fun c => if c == '\n' then "\n    ".toList else [c]) ++ ['\n']

end Event

end IntegerCalculator
