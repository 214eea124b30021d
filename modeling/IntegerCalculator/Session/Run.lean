import IntegerCalculator.Session
import IntegerCalculator.Text.Lines

/-!
# Running a session on a byte stream

The lines of a stream are answered in order. A rejected line is answered by the message of its error and the run goes on. A
run ends in one of three ways: the user takes leave, and nothing after that line is read; a line is no text, and the run fails
there while what was written before stays; or the input is used up.
-/

namespace IntegerCalculator

/-- Why the input cannot be read on. -/
inductive ReadFailure where
  /-- A line is not UTF-8. -/
  | invalidText
  /-- The input is a directory. -/
  | isDirectory
  deriving DecidableEq, Repr

/-- The wording of a read failure. -/
def ReadFailure.message : ReadFailure → String
  | invalidText => "stream did not contain valid UTF-8"
  | isDirectory => "Is a directory (os error 21)"

/-- How a run ends. -/
inductive Ending where
  | inputUsedUp
  | left
  | failed (failure : ReadFailure)
  deriving DecidableEq, Repr

/-- What comes of a run. -/
structure Run where
  /-- All that was written for the user. -/
  output : List Char
  /-- The session at the end. -/
  session : Session
  ending : Ending
  deriving DecidableEq

/-- What a reply shows, with its line ends. -/
def Reply.output : Reply → List Char
  | silent => []
  | value z => decimal z ++ ['\n']
  | text t => t ++ ['\n']
  | farewell => farewellText ++ ['\n']

/-- What an error shows, with its line end. -/
def Error.output (e : Error) : List Char := e.message.toList ++ ['\n']

/-- The run with more output before its own. -/
def Run.after (output : List Char) (run : Run) : Run := { run with output := output ++ run.output }

namespace Session

/-- What one line of the stream comes to: what it shows, the session after it, and the ending if the run ends there. -/
structure Turn where
  output : List Char
  session : Session
  ending : Option Ending := none
  deriving DecidableEq

/-- Reports that a session opens. -/
def opening : Logged Unit := Logged.write .sessionOpened

/-- Takes one line of the stream. -/
def turn (session : Session) (line : List UInt8) : Logged Turn :=
  match decodeText line with
  | none => return ⟨[], session, some (.failed .invalidText)⟩
  | some text => do
    let (result, next) ← session.answer text
    match result with
    | .ok .farewell =>
      Logged.write .sessionLeft
      return ⟨Reply.farewell.output, next, some .left⟩
    | .ok reply => return ⟨reply.output, next, none⟩
    | .error e =>
      Logged.write (.lineRejected (trim text) e)
      return ⟨e.output, next, none⟩

/-- Closes a session whose input is used up. -/
def closing (session : Session) : Logged Unit := do
  Logged.write (.inputEnded session.table.count)
  Logged.write .sessionEnded

/-- Takes the lines of the stream one after the other, up to the one that ends the run. -/
def runLines (session : Session) : List (List UInt8) → Logged Run
  | [] => do
    session.closing
    return ⟨[], session, .inputUsedUp⟩
  | line :: lines => do
    let turn ← session.turn line
    match turn.ending with
    | some ending => return ⟨turn.output, turn.session, ending⟩
    | none => return (← turn.session.runLines lines).after turn.output

/-- Runs the session on a byte stream. -/
def run (session : Session) (bytes : List UInt8) : Logged Run := do
  opening
  session.runLines (byteLines bytes)

/-- Runs the session on an input that cannot be read at all. -/
def runUnreadable (session : Session) (failure : ReadFailure) : Logged Run := do
  opening
  return ⟨[], session, .failed failure⟩

end Session

end IntegerCalculator
