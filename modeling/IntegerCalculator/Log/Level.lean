import IntegerCalculator.Text.Blank

/-!
# Levels of the log

An entry of the log has one of five levels, from the gravest to the most detailed. A threshold admits the entries of a level
and of all graver ones; it may also admit none.
-/

namespace IntegerCalculator

/-- How grave or how detailed an entry of the log is. -/
inductive Level where
  | error | warn | info | debug | trace
  deriving DecidableEq, Repr

namespace Level

/-- The place of a level, counted from the gravest. -/
def detail : Level → Nat
  | error => 1
  | warn => 2
  | info => 3
  | debug => 4
  | trace => 5

/-- The name of a level as the log shows it. -/
def label : Level → String
  | error => "ERROR"
  | warn => "WARN"
  | info => "INFO"
  | debug => "DEBUG"
  | trace => "TRACE"

/-- Levels of the same detail are the same level. -/
theorem detail_injective {k l : Level} (h : k.detail = l.detail) : k = l := by
  revert h
  cases k <;> cases l <;> decide

end Level

/-- The most detailed level that is written; `none` when nothing is. -/
abbrev Threshold := Option Level

/-- Whether entries of the level are written. -/
def Threshold.admits (threshold : Threshold) (level : Level) : Bool :=
  match threshold with
  | none => false
  | some most => level.detail ≤ most.detail

/-- The threshold that a word names, in small or capital letters; `none` when the word names none. -/
def Threshold.ofWord? (word : List Char) : Option Threshold :=
  match String.ofList (word.map Char.toLower) with
  | "off" => some none
  | "error" => some (some .error)
  | "warn" => some (some .warn)
  | "info" => some (some .info)
  | "debug" => some (some .debug)
  | "trace" => some (some .trace)
  | _ => none

/-- The threshold that the environment sets by a text, the blanks around it not counting: the one that the text names; an
empty text admits errors only.

Only a text that is one name of a threshold is read as what it says. Settings of another form are not modelled: a setting for a
part of the program (`part=level`, or the name of a part alone, or a beginning of one), several settings with commas between
them, and a pattern for the wording after a slash. All of these, like a text that means nothing, are taken to admit nothing. -/
def Threshold.ofSetting (text : List Char) : Threshold :=
  match trim text with
  | [] => some .error
  | word => (Threshold.ofWord? word).getD none

/-- A threshold that admits a level admits every graver one. -/
theorem Threshold.admits_of_detail_le {t : Threshold} {k l : Level} (h : k.detail ≤ l.detail) (hl : t.admits l = true) :
    t.admits k = true := by
  cases t with
  | none => exact hl
  | some most =>
    simp only [Threshold.admits, decide_eq_true_eq] at hl ⊢
    exact Nat.le_trans h hl

/-- The most detailed threshold admits every level. -/
theorem Threshold.admits_trace (level : Level) : Threshold.admits (some .trace) level = true := by
  cases level <;> decide

end IntegerCalculator
