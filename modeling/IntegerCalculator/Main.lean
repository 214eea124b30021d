import IntegerCalculator.Program

/-!
# The command line

The outer layer: it hands the words of the command line and the lines of the input to the session as they come, and writes
what the session answers at once. On a whole input this comes to what `Environment.outcome` says.
-/

namespace IntegerCalculator

/-- Does a logged computation and writes what it reports on the standard error. -/
def perform {α : Type} (threshold : Threshold) (x : Logged α) : IO α := do
  let (value, events) := x threshold
  unless events.isEmpty do IO.eprint (String.ofList (events.flatMap Event.logLine))
  return value

/-- Reads the line that starts with what is read already, without its line end; `none` at the end of the input. -/
partial def readLine (input : IO.FS.Stream) (read : ByteArray) : IO (Option (List UInt8)) := do
  match (← input.read 1).data.toList with
  | [] => return (byteLines read.data.toList).head?
  | byte :: _ =>
    if byte == lineFeed then return (byteLines (read.push byte).data.toList).head?
    else readLine input (read.push byte)

/-- Tells the user why the program gives up. -/
def giveUp (context : List Char) (e : IO.Error) : IO UInt32 := do
  let cause := match e with
    | .noFileOrDirectory .. => (Failure.missingScript []).cause
    | .inappropriateType .. => ReadFailure.isDirectory.message
    | e => toString e
  IO.eprint (String.ofList (Failure.reportOf context cause))
  return 1

/-- Runs the session on the lines of the input, and gives the code of the program. -/
partial def takeLines (threshold : Threshold) (input : IO.FS.Stream) (session : Session) : IO UInt32 := do
  match ← (readLine input .empty).toBaseIO with
  | .error e => giveUp (Failure.unreadable .isDirectory).context e
  | .ok none =>
    perform threshold session.closing
    return 0
  | .ok (some line) =>
    let turn ← perform threshold (session.turn line)
    IO.print (String.ofList turn.output)
    (← IO.getStdout).flush
    match turn.ending with
    | none => takeLines threshold input turn.session
    | some (.failed failure) =>
      IO.eprint (String.ofList (Failure.unreadable failure).report)
      return 1
    | some _ => return 0

/-- Opens a new session on the input and runs it. -/
def openSession (threshold : Threshold) (input : IO.FS.Stream) : IO UInt32 := do
  perform threshold Session.opening
  takeLines threshold input Session.new

end IntegerCalculator

open IntegerCalculator in
/-- Runs the calculator on the script that the command line names, or on the standard input. -/
def main (arguments : List String) : IO UInt32 := do
  match Options.ofArguments (arguments.map String.toList) with
  | .error refusal =>
    IO.print (String.ofList refusal.outcome.standardOutput)
    IO.eprint (String.ofList refusal.outcome.standardError)
    return UInt32.ofNat refusal.outcome.code
  | .ok options =>
    let setting := (← IO.getEnv "RUST_LOG").map fun text => Threshold.ofSetting text.toList
    let threshold := options.threshold setting
    match options.script with
    | none => openSession threshold (← IO.getStdin)
    | some path =>
      perform threshold (Logged.write (.scriptNamed path))
      match ← (IO.FS.Handle.mk (String.ofList path) .read).toBaseIO with
      | .error e => giveUp (Failure.missingScript path).context e
      | .ok handle => openSession threshold (IO.FS.Stream.ofHandle handle)
