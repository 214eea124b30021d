import IntegerCalculator.Log.Level

/-!
# Command line options

Two options are understood: `-v` or `--verbose`, any number of times, and `-s` or `--script` with a value, once. Short options
may stand together behind one dash, and the value of `-s` may follow in the same word, with or without `=`, or be the next
word unless that word is an option itself. `-h`, `--help`, `-V` and `--version` ask for a text instead of a run. After `--`
no word is an option. Faults and requests met while the words are read come first, in the order of the words; whether the
value of `-s` is there, and whether `-s` was given once, is seen at the end.
-/

namespace IntegerCalculator

/-- What the command line asks for. -/
structure Options where
  /-- How often more detail was asked for, counted in eight bits. -/
  verbosity : UInt8
  /-- The script that is read in place of the standard input. -/
  script : Option (List Char)
  deriving DecidableEq, Repr

/-- Why a command line leads to no run. -/
inductive Refusal where
  /-- `-s` has no value. -/
  | emptyValue
  /-- `-s` is given more than once. -/
  | repeatedScript
  /-- A word is no option and no value. -/
  | unknownArgument
  | helpRequested
  | versionRequested
  deriving DecidableEq, Repr

/-- What has been read of a command line. -/
structure CommandLine where
  /-- How often more detail was asked for. -/
  verbose : Nat := 0
  /-- How often a script was asked for. -/
  scripts : Nat := 0
  /-- The latest value given for the script. -/
  script : Option (List Char) := none
  /-- Whether the next word may be the value of the script. -/
  awaitsValue : Bool := false
  /-- Whether `--` has been read. -/
  optionsOver : Bool := false
  deriving DecidableEq, Repr

namespace CommandLine

/-- Notes a script whose value, if any, stands in the same word; equals signs before the value are dropped. -/
def noteScript (r : CommandLine) : Option (List Char) → CommandLine
  | none => { r with scripts := r.scripts + 1, awaitsValue := true }
  | some value =>
    { r with scripts := r.scripts + 1, script := some (value.dropWhile (· == '=')), awaitsValue := false }

/-- Notes that more detail is asked for. -/
def noteVerbose (r : CommandLine) : CommandLine := { r with verbose := r.verbose + 1, awaitsValue := false }

/-- Reads the letters behind one dash. -/
def shortOptions : CommandLine → List Char → Except Refusal CommandLine
  | r, [] => .ok r
  | r, c :: cs =>
    if c == 's' then .ok (r.noteScript (if cs.isEmpty then none else some cs))
    else if c == 'v' then r.noteVerbose.shortOptions cs
    else if c == 'h' then .error .helpRequested
    else if c == 'V' then .error .versionRequested
    else .error .unknownArgument

/-- Reads the name behind two dashes, with the value behind its first `=`; a value of an option that takes none is ignored. -/
def longOption (r : CommandLine) (text : List Char) : Except Refusal CommandLine :=
  let name := text.takeWhile (· != '=')
  let value := if text.contains '=' then some ((text.dropWhile (· != '=')).drop 1) else none
  if name = "script".toList then .ok (r.noteScript value)
  else if name = "verbose".toList then .ok r.noteVerbose
  else if name = "help".toList then .error .helpRequested
  else if name = "version".toList then .error .versionRequested
  else .error .unknownArgument

/-- Reads one word of the command line. -/
def word (r : CommandLine) (arg : List Char) : Except Refusal CommandLine :=
  if r.optionsOver then .error .unknownArgument
  else match arg with
    | ['-', '-'] => .ok { r with optionsOver := true }
    | '-' :: '-' :: text => r.longOption (text.dropWhile (· == '-'))
    | '-' :: c :: cs => r.shortOptions (c :: cs)
    | value =>
      if r.awaitsValue then .ok { r with script := some value, awaitsValue := false }
      else .error .unknownArgument

/-- The options, once all words are read. -/
def options (r : CommandLine) : Except Refusal Options :=
  if 0 < r.scripts && r.script.isNone then .error .emptyValue
  else if 1 < r.scripts then .error .repeatedScript
  else .ok { verbosity := UInt8.ofNat r.verbose, script := r.script }

end CommandLine

namespace Options

/-- The options that the words of a command line give. -/
def ofArguments (arguments : List (List Char)) : Except Refusal Options := do
  (← arguments.foldlM CommandLine.word {}).options

/-- The level of detail that the options ask for. -/
def level (o : Options) : Level :=
  match o.verbosity.toNat with
  | 0 => .error
  | 1 => .warn
  | 2 => .info
  | 3 => .debug
  | _ => .trace

end Options

end IntegerCalculator
