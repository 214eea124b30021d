import IntegerCalculator.Program
import IntegerCalculator.Proofs.Observation
import IntegerCalculator.Proofs.Resumption

/-!
# What decides the outcome

The standard output and the code of the program are decided by the bytes that it reads. It does not matter where they come
from, how much of the log is asked for, by the command line or by the environment, or how many lines are rejected: the output is
that of a run of the new session on these bytes, and the code tells only whether the run broke off, at a line that is no text
before the first leave-taking (`Environment.outcome_of_reads`).

Whether a line ends a run does not depend on the session: a line that takes leave does, and one that is no text, and no other
(`Session.ending_turn_of_not_takesLeave`). So how a run ends is told from its lines (`Session.ending_runLines`).
-/

namespace IntegerCalculator

/-- The line takes leave: it is `/exit`, with blanks around it as one likes. -/
def TakesLeave (line : List UInt8) : Prop := ∃ text, decodeText line = some text ∧ trim text = "/exit".toList

/-- Some of the lines is no text, and no line before it takes leave. -/
def BreakOff (lines : List (List UInt8)) : Prop :=
  ∃ before line after, lines = before ++ line :: after ∧ decodeText line = none ∧ ∀ earlier ∈ before, ¬TakesLeave earlier

/-- The command line is accepted, and the bytes are those of the script that it names, or of the standard input if it names
none. -/
def Environment.Reads (env : Environment) (bytes : List UInt8) : Prop :=
  ∃ options, Options.ofArguments env.arguments = .ok options ∧
    match options.script with
    | none => env.standardInput = bytes
    | some path => env.source path = some (.text bytes)

/-! ## Lines that end a run -/

theorem answerCommand_eq_farewell_iff {command : List Char} :
    answerCommand command = .ok .farewell ↔ command = "/exit".toList := by
  unfold answerCommand
  split
  · next hhelp =>
    subst hhelp
    exact iff_of_false (by simp) (by decide)
  · split
    · next hexit => exact iff_of_true rfl hexit
    · next hexit => exact iff_of_false (by simp) hexit

namespace Session

variable (session : Session) (threshold : Threshold)

/-- A session takes leave after the line `/exit` and after no other. -/
theorem answer_eq_farewell_iff (text : List Char) :
    ((session.answer text).value threshold).1 = .ok .farewell ↔ trim text = "/exit".toList := by
  constructor
  · rw [value_answer]
    intro h
    split at h
    · cases h
    · next command hcommand =>
      obtain ⟨rfl, -⟩ := Line.ofText_eq_command_iff.1 hcommand
      exact answerCommand_eq_farewell_iff.1 h
    · split at h
      · cases h
      · cases h
    · exact absurd h (map_value_ne (by simp) _)
  · intro h
    have hcommand : Line.ofText text = .command "/exit".toList := Line.ofText_eq_command_iff.2 ⟨h.symm, rfl⟩
    rw [value_answer, hcommand]
    exact answerCommand_eq_farewell_iff.2 rfl

/-- A line that is no text breaks the run off. -/
theorem ending_turn_of_not_text {line : List UInt8} (h : decodeText line = none) :
    ((session.turn line).value threshold).ending = some (.failed .invalidText) := by
  rw [value_turn, h]

/-- A line that takes leave ends the run. -/
theorem ending_turn_of_takesLeave {line : List UInt8} (h : TakesLeave line) :
    ((session.turn line).value threshold).ending = some .left := by
  obtain ⟨text, htext, hexit⟩ := h
  rw [value_turn, htext]
  dsimp only
  rw [(answer_eq_farewell_iff session threshold text).2 hexit]

/-- After every other line the run goes on, also after a rejected one. -/
theorem ending_turn_of_not_takesLeave {line : List UInt8} (htext : decodeText line ≠ none) (h : ¬TakesLeave line) :
    ((session.turn line).value threshold).ending = none := by
  obtain ⟨text, hsome⟩ := Option.ne_none_iff_exists'.1 htext
  rw [value_turn, hsome]
  dsimp only
  split
  · next hfarewell => exact absurd ⟨text, hsome, (answer_eq_farewell_iff session threshold text).1 hfarewell⟩ h
  · rfl
  · rfl

end Session

/-! ## Runs that break off -/

theorem not_breakOff_nil : ¬BreakOff [] := by
  rintro ⟨before, line, after, h, -⟩
  exact List.append_ne_nil_of_right_ne_nil before (List.cons_ne_nil line after) h.symm

/-- Lines break off at the first, or at a later one if the first does not take leave. -/
theorem breakOff_cons_iff {line : List UInt8} {lines : List (List UInt8)} :
    BreakOff (line :: lines) ↔ decodeText line = none ∨ (¬TakesLeave line ∧ BreakOff lines) := by
  constructor
  · rintro ⟨before, bad, after, h, hbad, hbefore⟩
    cases before with
    | nil =>
      obtain ⟨rfl, -⟩ := List.cons.inj h
      exact .inl hbad
    | cons first before =>
      obtain ⟨rfl, rfl⟩ := List.cons.inj h
      obtain ⟨hfirst, hrest⟩ := List.forall_mem_cons.1 hbefore
      exact .inr ⟨hfirst, before, bad, after, rfl, hbad, hrest⟩
  · rintro (hbad | ⟨hfirst, before, bad, after, rfl, hbad, hbefore⟩)
    · exact ⟨[], line, lines, rfl, hbad, by simp⟩
    · exact ⟨line :: before, bad, after, rfl, hbad, List.forall_mem_cons.2 ⟨hfirst, hbefore⟩⟩

instance (line : List UInt8) : Decidable (TakesLeave line) :=
  decidable_of_iff ((decodeText line).map trim = some "/exit".toList) Option.map_eq_some_iff

/-- Whether lines break off can be computed. -/
instance decidableBreakOff : (lines : List (List UInt8)) → Decidable (BreakOff lines)
  | [] => isFalse not_breakOff_nil
  | line :: lines =>
    have := decidableBreakOff lines
    decidable_of_iff (decodeText line = none ∨ (¬TakesLeave line ∧ BreakOff lines)) breakOff_cons_iff.symm

namespace Session

/-- A run fails where its lines break off, and otherwise it does not fail. -/
theorem ending_runLines (session : Session) (threshold : Threshold) (lines : List (List UInt8)) :
    (BreakOff lines → ((session.runLines lines).value threshold).ending = .failed .invalidText) ∧
      (¬BreakOff lines → ∀ failure, ((session.runLines lines).value threshold).ending ≠ .failed failure) := by
  induction lines generalizing session with
  | nil =>
    refine ⟨fun h => absurd h not_breakOff_nil, fun _ failure h => ?_⟩
    cases h
  | cons line lines ih =>
    rw [value_runLines_cons, breakOff_cons_iff]
    by_cases htext : decodeText line = none
    · rw [ending_turn_of_not_text session threshold htext]
      exact ⟨fun _ => rfl, fun h => absurd (.inl htext) h⟩
    · by_cases hleave : TakesLeave line
      · rw [ending_turn_of_takesLeave session threshold hleave]
        refine ⟨?_, fun _ failure h => ?_⟩
        · rintro (h | ⟨h, -⟩)
          · exact absurd h htext
          · exact absurd hleave h
        · cases h
      · rw [ending_turn_of_not_takesLeave session threshold htext hleave]
        obtain ⟨hbreak, hnot⟩ := ih ((session.turn line).value threshold).session
        exact ⟨fun h => hbreak (h.resolve_left htext).2, fun h => hnot fun h' => h (.inr ⟨hleave, h'⟩)⟩

end Session

/-! ## The program -/

namespace Environment

variable {env : Environment} {bytes : List UInt8}

/-- What a session shows on the bytes that the program reads is what a run of the new session on them shows. -/
theorem value_converse {options : Options} (hread : match options.script with
      | none => env.standardInput = bytes
      | some path => env.source path = some (.text bytes)) (threshold : Threshold) :
    (env.converse options).value threshold = converse.finished ((Session.new.run bytes).value threshold) := by
  unfold converse
  cases hscript : options.script with
  | none =>
    rw [hscript] at hread
    dsimp only at hread ⊢
    rw [hread]
    rfl
  | some path =>
    rw [hscript] at hread
    dsimp only at hread ⊢
    rw [hread]
    rfl

/-- A program whose command line is accepted writes what the session shows, and its code tells whether there is a failure. -/
theorem outcome_of_accepted {options : Options} (h : Options.ofArguments env.arguments = .ok options) :
    let shown := (env.converse options).value (options.threshold env.logSetting)
    env.outcome.standardOutput = shown.1 ∧ env.outcome.code = if shown.2.isSome then 1 else 0 := by
  unfold outcome Logged.value
  rw [h]
  dsimp only
  generalize env.converse options (options.threshold env.logSetting) = conversation
  obtain ⟨⟨output, failure⟩, events⟩ := conversation
  cases failure with
  | none => exact ⟨rfl, rfl⟩
  | some failure => exact ⟨rfl, rfl⟩

/-- The program writes what a run of the new session on its bytes writes. -/
theorem Reads.standardOutput_eq (h : env.Reads bytes) (threshold : Threshold) :
    env.outcome.standardOutput = ((Session.new.run bytes).value threshold).output := by
  obtain ⟨options, haccepted, hread⟩ := h
  rw [(outcome_of_accepted haccepted).1, value_converse hread,
    (Session.new.onlyObserved_run bytes).value_eq _ threshold]
  unfold converse.finished
  split <;> rfl

/-- The code of the program is 1 when the lines of its bytes break off. -/
theorem Reads.code_of_breakOff (h : env.Reads bytes) (hbreak : BreakOff (byteLines bytes)) : env.outcome.code = 1 := by
  obtain ⟨options, haccepted, hread⟩ := h
  have hending := (Session.ending_runLines Session.new (options.threshold env.logSetting) (byteLines bytes)).1 hbreak
  have hrun : ((Session.new.run bytes).value (options.threshold env.logSetting)).ending = .failed .invalidText := hending
  rw [(outcome_of_accepted haccepted).2, value_converse hread, converse.finished, hrun]
  rfl

/-- The code of the program is 0 when they do not. -/
theorem Reads.code_of_not_breakOff (h : env.Reads bytes) (hbreak : ¬BreakOff (byteLines bytes)) : env.outcome.code = 0 := by
  obtain ⟨options, haccepted, hread⟩ := h
  have hending := (Session.ending_runLines Session.new (options.threshold env.logSetting) (byteLines bytes)).2 hbreak
  rw [(outcome_of_accepted haccepted).2, value_converse hread]
  unfold converse.finished
  split
  · next failure hfailed => exact absurd hfailed (hending failure)
  · rfl
  · rfl

/-- Two runs of the program on the same bytes have the same standard output and the same code, whether the bytes are those of a
script or of the standard input and however much is logged. The output is that of a run of the new session on the bytes, and the
code is 1 if a line that is no text comes before the first leave-taking, and 0 if not, whatever lines are rejected. -/
theorem outcome_of_reads {other : Environment} (h : env.Reads bytes) (h' : other.Reads bytes) :
    env.outcome.standardOutput = other.outcome.standardOutput ∧ env.outcome.code = other.outcome.code ∧
      (∀ threshold, env.outcome.standardOutput = ((Session.new.run bytes).value threshold).output) ∧
      (BreakOff (byteLines bytes) → env.outcome.code = 1) ∧ (¬BreakOff (byteLines bytes) → env.outcome.code = 0) := by
  refine ⟨?_, ?_, h.standardOutput_eq, h.code_of_breakOff, h.code_of_not_breakOff⟩
  · rw [h.standardOutput_eq none, h'.standardOutput_eq none]
  · by_cases hbreak : BreakOff (byteLines bytes)
    · rw [h.code_of_breakOff hbreak, h'.code_of_breakOff hbreak]
    · rw [h.code_of_not_breakOff hbreak, h'.code_of_not_breakOff hbreak]

/-- Two programs read a script and the same bytes from the standard input, with different parts of the log. A line that is
rejected does not change the code; a line that is no text does, unless a leave-taking comes before it. -/
theorem outcome_of_rejected_lines :
    let shielded := "8 / 0\nx = 6\nx * 7\n /exit \n".toUTF8.toList ++ [0xFF]
    let broken := "8 / 0\n".toUTF8.toList ++ 0xFF :: "\n/exit\n".toUTF8.toList
    let piped (bytes : List UInt8) : Environment := ⟨[], some none, bytes, fun _ => none⟩
    let scripted (bytes : List UInt8) : Environment :=
      ⟨["-vvv".toList, "--script".toList, "lines".toList], none, [0xFF], fun _ => some (.text bytes)⟩
    (piped shielded).Reads shielded ∧ (scripted shielded).Reads shielded ∧
      (piped shielded).outcome.standardOutput = (scripted shielded).outcome.standardOutput ∧
      (piped shielded).outcome.standardOutput = ((Session.new.run shielded).value none).output ∧
      ¬BreakOff (byteLines shielded) ∧ (piped shielded).outcome.code = 0 ∧
      (piped broken).Reads broken ∧ (scripted broken).Reads broken ∧ BreakOff (byteLines broken) ∧
      (piped broken).outcome.code = 1 ∧ (scripted broken).outcome.code = 1 := by
  intro shielded broken piped scripted
  have hpiped : ∀ bytes, (piped bytes).Reads bytes := fun bytes => ⟨⟨0, none⟩, rfl, rfl⟩
  have hscripted : ∀ bytes, (scripted bytes).Reads bytes := fun bytes => ⟨⟨3, some "lines".toList⟩, rfl, rfl⟩
  have hshielded : ¬BreakOff (byteLines shielded) := by decide +kernel
  have hbroken : BreakOff (byteLines broken) := by decide +kernel
  obtain ⟨houtput, -, hrun, -, hzero⟩ := outcome_of_reads (hpiped shielded) (hscripted shielded)
  obtain ⟨-, hcode, -, hone, -⟩ := outcome_of_reads (hpiped broken) (hscripted broken)
  exact ⟨hpiped _, hscripted _, houtput, hrun none, hshielded, hzero hshielded, hpiped _, hscripted _, hbroken, hone hbroken,
    hcode ▸ hone hbroken⟩

end Environment

end IntegerCalculator
