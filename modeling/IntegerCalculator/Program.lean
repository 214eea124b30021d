import IntegerCalculator.Options
import IntegerCalculator.Session.Run

/-!
# The program

The program reads its command line, runs a new session on the script or on the standard input, writes what the session shows
on the standard output and the log on the standard error, and ends with a code: 0 when the session ends, however many lines it
rejected, and 1 when the command line is refused or the input cannot be read. What the log shows goes by the setting of the
environment, if there is one, and by the command line otherwise.

What the reader of the command line itself says about it is not modelled: the texts of the help and of its complaints here are
stand-ins, and only the code and the stream that they go to are meant (`Refusal.outcome`).
-/

namespace IntegerCalculator

/-- What a path leads to. -/
inductive Source where
  | text (bytes : List UInt8)
  | directory
  deriving DecidableEq, Repr

/-- What the program finds when it starts. -/
structure Environment where
  arguments : List (List Char)
  /-- The threshold that the environment sets for the log. -/
  logSetting : Option Threshold
  standardInput : List UInt8
  /-- What a path leads to; `none` when it leads to nothing. -/
  source : List Char → Option Source

/-- What the program leaves. -/
structure Outcome where
  code : Nat
  standardOutput : List Char
  standardError : List Char
  deriving DecidableEq, Repr

/-- Why the program gives up on its input. -/
inductive Failure where
  /-- The script leads to nothing. -/
  | missingScript (path : List Char)
  | unreadable (failure : ReadFailure)
  deriving DecidableEq, Repr

namespace Failure

/-- What could not be done. -/
def context : Failure → List Char
  | missingScript path => "Impossible d’ouvrir le script ".toList ++ path
  | unreadable _ => "Échec d’E/S pendant la session".toList

/-- Why it could not be done. -/
def cause : Failure → String
  | missingScript _ => "No such file or directory (os error 2)"
  | unreadable failure => failure.message

/-- The report of something that could not be done, with its cause. -/
def reportOf (context : List Char) (cause : String) : List Char :=
  "Error: ".toList ++ context ++ "\n\nCaused by:\n    ".toList ++ cause.toList ++ ['\n']

/-- What the user is told about a failure. -/
def report (f : Failure) : List Char := reportOf f.context f.cause

end Failure

/-- The name and version of the program, as it shows them. -/
def versionText : List Char := "calculatrice_zpur 0.1.0\n".toList

/-- How the program is called. This is a stand-in for the help and the complaints of the reader of the command line, whose own
wording is not modelled. -/
def usageText : List Char :=
  ("usage: calculatrice_zpur [-v]... [-s FILE]\n" ++
    "  -v, --verbose      more of the log on the standard error; may be repeated\n" ++
    "  -s, --script FILE  read the lines of FILE in place of the standard input\n" ++
    "  -h, --help         show this text\n" ++
    "  -V, --version      show the version\n").toList

/-- What the program leaves when the command line leads to no run: the code, and on which of the two outputs something is shown.
The text itself is a stand-in, but for that of the version. -/
def Refusal.outcome : Refusal → Outcome
  | helpRequested => ⟨0, usageText, []⟩
  | versionRequested => ⟨0, versionText, []⟩
  | emptyValue | repeatedScript | unknownArgument => ⟨1, [], usageText⟩

/-- The threshold of the log: that of the environment, if it sets one, else that of the options. -/
def Options.threshold (options : Options) (setting : Option Threshold) : Threshold := setting.getD (some options.level)

namespace Environment

/-- What a session shows on the input that the options name, and the failure that ends it, if one does. -/
def converse (env : Environment) (options : Options) : Logged (List Char × Option Failure) :=
  match options.script with
  | none => return finished (← Session.new.run env.standardInput)
  | some path => do
    Logged.write (.scriptNamed path)
    match env.source path with
    | none => return ([], some (.missingScript path))
    | some (.text bytes) => return finished (← Session.new.run bytes)
    | some .directory => return finished (← Session.new.runUnreadable .isDirectory)
where
  /-- What a run shows, and its failure. -/
  finished (run : Run) : List Char × Option Failure :=
    match run.ending with
    | .failed failure => (run.output, some (.unreadable failure))
    | .inputUsedUp | .left => (run.output, none)

/-- What the program leaves. -/
def outcome (env : Environment) : Outcome :=
  match Options.ofArguments env.arguments with
  | .error refusal => refusal.outcome
  | .ok options =>
    let ((output, failure), events) := env.converse options (options.threshold env.logSetting)
    let log := events.flatMap Event.logLine
    match failure with
    | none => ⟨0, output, log⟩
    | some failure => ⟨1, output, log ++ failure.report⟩

end Environment

end IntegerCalculator
