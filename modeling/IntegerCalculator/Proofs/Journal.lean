import IntegerCalculator.Proofs.AssignmentLine
import IntegerCalculator.Proofs.Compositional
import IntegerCalculator.Proofs.Resumption
import Mathlib.Data.List.Forall2

/-!
# The log as a journal

Where the log is at least as detailed as `debug`, it tells what a run has done. An entry `affectation: NAME = VALUE` is written
for each value that is stored, and no other entry reads like one (`assignmentOf?_eq_none`), so storing what these entries say in
an empty table leads to the table at the end of the run. A warning is written for each line that is rejected, and no other line
of the output reads like an error, so warnings and error lines correspond one to one and in order (`Session.log_is_journal`).

Both are told of a part of a run by `Session.Journal`, which passes from one part and the next to the two in a row
(`Session.Journal.append`). Each line of the stream is such a part (`Session.journal_turn`), and by induction so are any lines,
however the run on them ends (`Session.journal_runLines`).
-/

namespace IntegerCalculator

/-! ## What the log and the output say -/

/-- The name and the value of an entry `affectation: NAME = VALUE`; `none` for an entry of another form. -/
def assignmentOf? (entry : List Char) : Option (List Char × Int) :=
  match entry.splitOn ' ' with
  | [label, name, sign, value] =>
    if label = "affectation:".toList ∧ sign = ['='] then (integer? value).map fun v => (name, v) else none
  | _ => none

/-- The names and values of all entries `affectation: NAME = VALUE` of a log, in order. -/
def assignmentsOf (log : List Event) : List (List Char × Int) := log.filterMap fun e => assignmentOf? e.message

/-- The warnings of a log, in order. -/
def warningsOf (log : List Event) : List Event := log.filter fun e => e.level = .warn

/-- The causes for which a line may be rejected. -/
def Error.causes : List Error :=
  [.invalidExpression, .unknownVariable, .invalidIdentifier, .invalidAssignment, .divisionByZero, .unknownCommand]

/-- The line is the wording of an error. -/
def IsErrorLine (line : List Char) : Prop := ∃ cause ∈ Error.causes, line = cause.message.toList

instance (line : List Char) : Decidable (IsErrorLine line) :=
  inferInstanceAs (Decidable (∃ cause ∈ Error.causes, line = cause.message.toList))

/-- The lines of an output that are the wording of an error, in order. -/
def errorLines (output : List Char) : List (List Char) := (output.splitOn '\n').filter fun line => IsErrorLine line

/-- The entry ends with the line, after a colon. -/
def Event.Reports (e : Event) (line : List Char) : Prop := ": ".toList ++ line <:+ e.message

/-- The event neither gives a name a value nor rejects a line. -/
def Event.IsAside : Event → Prop
  | assigned .. | lineRejected .. => False
  | scriptNamed _ | sessionOpened | tokensRead _ | tokenReached _ | operandPassed _ | operatorHeld _ | converted _
  | applied .. | sessionLeft | inputEnded _ | sessionEnded => True

/-- The log of a part of a run tells how the table has changed, and which lines it has rejected. -/
structure Session.Journal (before : Session) (log : List Event) (output : List Char) (after : Session) : Prop where
  /-- Storing what the entries say leads from the one table to the other. -/
  table_eq : (assignmentsOf log).foldl (fun t p => t.store p.1 p.2) before.table = after.table
  /-- Warnings and error lines correspond one to one and in order. -/
  reports : List.Forall₂ Event.Reports (warningsOf log) (errorLines output)
  /-- The output breaks off in no line. -/
  wholeLines : output = [] ∨ output.getLast? = some '\n'

/-! ## Entries -/

theorem assignmentsOf_append (log later : List Event) : assignmentsOf (log ++ later) = assignmentsOf log ++ assignmentsOf later :=
  List.filterMap_append

theorem assignmentsOf_singleton (e : Event) : assignmentsOf [e] = (assignmentOf? e.message).toList := by
  rw [assignmentsOf, List.filterMap_cons, List.filterMap_nil]
  cases assignmentOf? e.message with
  | none => rfl
  | some stored => rfl

theorem warningsOf_append (log later : List Event) : warningsOf (log ++ later) = warningsOf log ++ warningsOf later :=
  List.filter_append _ _

/-- An entry that starts with another word is no assignment. -/
theorem assignmentOf?_word_append {word : List Char} (hspace : ' ' ∉ word) (hword : word ≠ "affectation:".toList)
    (rest : List Char) : assignmentOf? (word ++ ' ' :: rest) = none := by
  unfold assignmentOf?
  rw [List.splitOn_append_cons_self_of_not_mem hspace]
  split
  · next hsplit =>
    obtain ⟨rfl, -⟩ := List.cons.inj hsplit
    exact if_neg fun h => hword h.1
  · rfl

/-- The entry for a stored value reads back, if its name is one. -/
theorem assignmentOf?_assigned {name : List Char} (h : isName name = true) (v : Int) :
    assignmentOf? (Event.assigned name v).message = some (name, v) := by
  have hmessage : (Event.assigned name v).message =
      "affectation:".toList ++ ' ' :: (name ++ ' ' :: (['='] ++ ' ' :: decimal v)) := by
    change "affectation: ".toList ++ name ++ " = ".toList ++ decimal v = _
    rw [List.append_assoc, List.append_assoc]
    rfl
  have hname : ' ' ∉ name := by
    intro hmem
    exact absurd (isBlank_eq_false_of_mem_name h ' ' hmem) (by decide)
  have hvalue : ' ' ∉ decimal v := blank_not_mem_decimal (by decide) v
  unfold assignmentOf?
  rw [hmessage, List.splitOn_append_cons_self_of_not_mem (by decide), List.splitOn_append_cons_self_of_not_mem hname,
    List.splitOn_append_cons_self_of_not_mem (by decide), List.splitOn_eq_singleton hvalue]
  simp [integer?_decimal]

/-- Every other entry starts with another word. -/
theorem Event.exists_word_append {e : Event} (h : ∀ name v, e ≠ assigned name v) :
    ∃ word rest, e.message = word ++ ' ' :: rest ∧ ' ' ∉ word ∧ word ≠ "affectation:".toList := by
  cases e with
  | scriptNamed path => exact ⟨"lecture".toList, _, rfl, by decide, by decide⟩
  | sessionOpened => exact ⟨"session".toList, _, rfl, by decide, by decide⟩
  | assigned name v => exact absurd rfl (h name v)
  | tokensRead tokens => exact ⟨"jetons:".toList, _, rfl, by decide, by decide⟩
  | tokenReached token => exact ⟨"rpn:".toList, _, rfl, by decide, by decide⟩
  | operandPassed v => exact ⟨"rpn:".toList, _, rfl, by decide, by decide⟩
  | operatorHeld op => exact ⟨"rpn:".toList, _, rfl, by decide, by decide⟩
  | converted items => exact ⟨"postfix:".toList, _, rfl, by decide, by decide⟩
  | applied op a b v => exact ⟨"eval:".toList, _, rfl, by decide, by decide⟩
  | lineRejected line cause => exact ⟨"ligne".toList, _, rfl, by decide, by decide⟩
  | sessionLeft => exact ⟨"session".toList, _, rfl, by decide, by decide⟩
  | inputEnded count => exact ⟨"fin".toList, _, rfl, by decide, by decide⟩
  | sessionEnded => exact ⟨"session".toList, _, rfl, by decide, by decide⟩

/-- No entry for anything but a stored value reads like one. -/
theorem assignmentOf?_eq_none {e : Event} (h : ∀ name v, e ≠ .assigned name v) : assignmentOf? e.message = none := by
  obtain ⟨word, rest, hmessage, hspace, hword⟩ := Event.exists_word_append h
  rw [hmessage]
  exact assignmentOf?_word_append hspace hword rest

theorem Event.IsAside.ne_assigned {e : Event} (h : e.IsAside) (name : List Char) (v : Int) : e ≠ .assigned name v := by
  rintro rfl
  exact h

theorem Event.IsAside.level_ne {e : Event} (h : e.IsAside) : e.level ≠ .warn := by
  cases e <;> simp_all [IsAside, level]

theorem Event.OfEvaluation.isAside {e : Event} (h : e.OfEvaluation) : e.IsAside := by
  cases e <;> simp_all [OfEvaluation, IsAside]

/-- The entry for a rejected line ends with the wording of the cause. -/
theorem Event.reports_lineRejected (line : List Char) (cause : Error) :
    (lineRejected line cause).Reports cause.message.toList := by
  change ": ".toList ++ cause.message.toList <:+ "ligne rejetée ".toList ++ quoted line ++ ": ".toList ++ cause.message.toList
  rw [List.append_assoc _ ": ".toList]
  exact List.suffix_append _ _

/-! ## Lines of the output -/

/-- A line before the others is a line by itself. -/
theorem errorLines_line_append (line rest : List Char) :
    errorLines (line ++ '\n' :: rest) = errorLines line ++ errorLines rest := by
  unfold errorLines
  rw [List.splitOn_append_cons_self, List.filter_append]

theorem errorLines_nil : errorLines [] = [] := by decide

/-- Where an output breaks off in no line, what follows it has its lines after it. -/
theorem errorLines_append {output : List Char} (h : output = [] ∨ output.getLast? = some '\n') (rest : List Char) :
    errorLines (output ++ rest) = errorLines output ++ errorLines rest := by
  rcases h with rfl | h
  · rw [errorLines_nil, List.nil_append, List.nil_append]
  · obtain ⟨start, rfl⟩ := List.getLast?_eq_some_iff.1 h
    rw [List.append_assoc, List.singleton_append, errorLines_line_append, errorLines_line_append, errorLines_nil,
      List.append_nil]

/-- A line of output is an error line if it is the wording of an error. -/
theorem errorLines_singleton {line : List Char} (h : '\n' ∉ line) :
    errorLines (line ++ ['\n']) = if IsErrorLine line then [line] else [] := by
  rw [errorLines_line_append, errorLines_nil, List.append_nil, errorLines, List.splitOn_eq_singleton h, List.filter_cons,
    List.filter_nil]
  by_cases hline : IsErrorLine line
  · simp [hline]
  · simp [hline]

/-- What an error shows is one error line, its wording. -/
theorem errorLines_error (e : Error) : errorLines e.output = [e.message.toList] := by
  have hline : '\n' ∉ e.message.toList := by cases e <;> decide
  have hcause : e ∈ Error.causes := by cases e <;> decide
  have hmessage : IsErrorLine e.message.toList := ⟨e, hcause, rfl⟩
  rw [Error.output, errorLines_singleton hline, if_pos hmessage]

/-- The text of an integer is the wording of no error, since these have more than one word. -/
theorem not_isErrorLine_decimal (v : Int) : ¬IsErrorLine (decimal v) := by
  rintro ⟨cause, -, hline⟩
  have hspace : ' ' ∈ cause.message.toList := by cases cause <;> decide
  rw [← hline] at hspace
  exact blank_not_mem_decimal (by decide) v hspace

/-- The help has no error lines. -/
theorem errorLines_helpText : errorLines (helpText ++ ['\n']) = [] := by
  unfold helpText
  simp only [String.toList_append]
  -- the characters of the literals are written out, since decoding them is what takes long to evaluate
  iterate 5 rewrite [String.toList_ofList]
  decide +kernel

/-- What a reply shows has no error lines, unless it is another text than the help. -/
theorem errorLines_reply {reply : Reply} (h : ∀ text, reply = .text text → text = helpText) : errorLines reply.output = [] := by
  cases reply with
  | silent => exact errorLines_nil
  | value v =>
    have hline : '\n' ∉ decimal v := blank_not_mem_decimal (by decide) v
    rw [Reply.output, errorLines_singleton hline, if_neg (not_isErrorLine_decimal v)]
  | text text =>
    rw [h text rfl]
    exact errorLines_helpText
  | farewell => decide +kernel

/-- What a reply shows breaks off in no line. -/
theorem Reply.output_wholeLines (reply : Reply) : reply.output = [] ∨ reply.output.getLast? = some '\n' := by
  cases reply with
  | silent => exact .inl rfl
  | value v => exact .inr List.getLast?_concat
  | text text => exact .inr List.getLast?_concat
  | farewell => exact .inr List.getLast?_concat

/-- The only text that answers a command is the help. -/
theorem eq_helpText_of_answerCommand {command text : List Char} (h : answerCommand command = .ok (.text text)) :
    text = helpText := by
  unfold answerCommand at h
  split at h
  · rw [Except.ok.injEq, Reply.text.injEq] at h
    exact h.symm
  · split at h <;> cases h

namespace Session

/-- The only text that a session replies is the help. -/
theorem eq_helpText_of_answer {session : Session} {line text : List Char} {threshold : Threshold}
    (h : ((session.answer line).value threshold).1 = .ok (.text text)) : text = helpText := by
  rw [value_answer] at h
  split at h
  · cases h
  · exact eq_helpText_of_answerCommand h
  · split at h <;> cases h
  · exact absurd h (map_value_ne (by simp) _)

/-! ## Parts of a run -/

/-- What is written beside neither changes the table nor rejects a line. -/
theorem Journal.of_aside (session : Session) {log : List Event} (h : ∀ e ∈ log, e.IsAside) : Journal session log [] session := by
  have hassignments : assignmentsOf log = [] := List.filterMap_eq_nil_iff.2 fun e he => assignmentOf?_eq_none (h e he).ne_assigned
  have hwarnings : warningsOf log = [] := List.filter_eq_nil_iff.2 fun e he => by simp [(h e he).level_ne]
  refine ⟨?_, ?_, .inl rfl⟩
  · rw [hassignments]
    rfl
  · rw [hwarnings, errorLines_nil]
    exact .nil

/-- A report of another thing is written beside. -/
theorem Journal.of_write (session : Session) (e : Event) (h : e.IsAside) (threshold : Threshold) :
    Journal session ((Logged.write e).log threshold) [] session := by
  refine .of_aside session ?_
  intro written hmem
  rw [Logged.log_write] at hmem
  split at hmem
  · obtain rfl := List.mem_singleton.1 hmem
    exact h
  · cases hmem

/-- One part of a run and the next tell of both in a row. -/
theorem Journal.append {first second third : Session} {log later : List Event} {output rest : List Char}
    (h : Journal first log output second) (h' : Journal second later rest third) :
    Journal first (log ++ later) (output ++ rest) third := by
  refine ⟨?_, ?_, ?_⟩
  · rw [assignmentsOf_append, List.foldl_append, h.table_eq, h'.table_eq]
  · rw [warningsOf_append, errorLines_append h.wholeLines]
    exact List.rel_append h.reports h'.reports
  · rcases h'.wholeLines with rfl | hlast
    · rw [List.append_nil]
      exact h.wholeLines
    · rw [List.getLast?_append, hlast]
      exact .inr rfl

/-- The entry for a stored value tells of it. -/
theorem Journal.of_assigned (session : Session) {name : List Char} (h : isName name = true) (v : Int) :
    Journal session [.assigned name v] [] { session with table := session.table.store name v } := by
  have hassignments : assignmentsOf [Event.assigned name v] = [(name, v)] := by
    rw [assignmentsOf_singleton, assignmentOf?_assigned h v]
    rfl
  refine ⟨?_, ?_, .inl rfl⟩
  · rw [hassignments]
    rfl
  · rw [errorLines_nil]
    exact .nil

/-- The warning of a rejected line tells of the error that is shown. -/
theorem Journal.of_lineRejected (session : Session) (line : List Char) (e : Error) :
    Journal session [.lineRejected line e] e.output session := by
  have hassignments : assignmentsOf [Event.lineRejected line e] = [] := by
    rw [assignmentsOf_singleton, assignmentOf?_eq_none fun _ _ => by simp]
    rfl
  refine ⟨?_, ?_, .inr List.getLast?_concat⟩
  · rw [hassignments]
    rfl
  · rw [errorLines_error]
    exact .cons (Event.reports_lineRejected line e) .nil

/-- What a reply shows needs no entry. -/
theorem Journal.of_reply (session : Session) {reply : Reply} (h : ∀ text, reply = .text text → text = helpText) :
    Journal session [] reply.output session := by
  refine ⟨rfl, ?_, reply.output_wholeLines⟩
  rw [errorLines_reply h]
  exact .nil

end Session

/-! ## Lines -/

/-- The parts of a conversion and of an evaluation report steps of an evaluation only, and so do both as a whole. -/
theorem Calculation.compositional_ofEvaluation :
    Compositional fun _ x => ∀ threshold, ∀ e ∈ x.run.log threshold, e.OfEvaluation where
  ofExcept := by
    intro α r threshold e he
    cases he
  write := by
    intro e hevaluation threshold e' he'
    have hlog : (write e).run.log threshold = if threshold.admits e.level then [e] else [] := rfl
    rw [hlog] at he'
    split at he'
    · obtain rfl := List.mem_singleton.1 he'
      exact hevaluation
    · cases he'
  bind := by
    intro α β x f hx hf threshold e he
    rw [ExceptT.run_bind, Logged.log_bind] at he
    rcases List.mem_append.1 he with he | he
    · exact hx threshold e he
    · cases hvalue : x.run.value threshold with
      | ok a =>
        rw [hvalue] at he
        exact hf a threshold e he
      | error cause =>
        rw [hvalue] at he
        cases he

open Calculation (admits compositional_ofEvaluation)

/-- What is written of a line that is read again are its tokens. -/
theorem Lexeme.ofEvaluation_reportLine (line : List Char) (threshold : Threshold) :
    ∀ e ∈ (reportLine line).run.log threshold, e.OfEvaluation := by
  have hparts := compositional_ofEvaluation
  have hadmits : ∀ threshold, ∀ e ∈ (admits .debug).run.log threshold, e.OfEvaluation := by
    intro threshold e he
    cases he
  refine hparts.bind hadmits (fun admitted => ?_) threshold
  split
  · refine hparts.bind (hparts.ofExcept _) fun lexemes => ?_
    split
    · exact hparts.write trivial
    · exact hparts.pure _
  · exact hparts.pure _

theorem Variables.ofEvaluation_evaluate (table : Variables) (line : List Char) (threshold : Threshold) :
    ∀ e ∈ (table.evaluate line).run.log threshold, e.OfEvaluation := by
  have hparts := compositional_ofEvaluation
  refine hparts.bind (hparts.ofExcept _) (fun lexemes => ?_) threshold
  refine hparts.bind (Lexeme.ofEvaluation_reportLine line) fun _ => ?_
  refine hparts.bind (hparts.ofLexemes table lexemes) fun items => ?_
  exact hparts.bind (hparts.write trivial) fun _ => hparts.value items

namespace Session

variable {threshold : Threshold}

/-- An answer to a line tells how the table has changed, the answer itself apart. -/
theorem journal_answer (h : threshold.admits .debug = true) (session : Session) (line : List Char) :
    Journal session ((session.answer line).log threshold) [] ((session.answer line).value threshold).2 := by
  rw [value_answer]
  unfold answer
  cases Line.ofText line with
  | blank => exact .of_aside session (by simp)
  | command text => exact .of_aside session (by simp)
  | assignment text =>
    dsimp only
    rw [Logged.log_bind, Logged.log_pure, List.append_nil]
    unfold Variables.assign
    cases hassignment : session.table.assignment text with
    | error e => exact .of_aside session (by simp)
    | ok stored =>
      obtain ⟨name, v⟩ := stored
      obtain ⟨term, -, hname, -⟩ := Variables.assignment_eq_ok_iff.1 hassignment
      dsimp only
      rw [Logged.log_bind, Logged.log_write, Logged.log_pure, List.append_nil, Event.level, if_pos h]
      exact .of_assigned session hname v
  | expression text =>
    refine .of_aside session ?_
    dsimp only
    rw [Logged.log_bind, Logged.log_pure, List.append_nil]
    intro e he
    exact (session.table.ofEvaluation_evaluate text threshold e he).isAside

/-- A line of the stream tells how the table has changed and whether it has been rejected. -/
theorem journal_turn (h : threshold.admits .debug = true) (session : Session) (line : List UInt8) :
    Journal session ((session.turn line).log threshold) ((session.turn line).value threshold).output
      ((session.turn line).value threshold).session := by
  have hwarn : threshold.admits .warn = true := Threshold.admits_of_detail_le (by decide) h
  rw [value_turn]
  unfold turn
  cases decodeText line with
  | none => exact .of_aside session (by simp)
  | some text =>
    have hanswer := journal_answer h session text
    have hhelp : ∀ shown, ((session.answer text).value threshold).1 = .ok (.text shown) → shown = helpText :=
      fun _ => eq_helpText_of_answer
    dsimp only
    rw [Logged.log_bind]
    generalize (session.answer text).value threshold = answered at hanswer hhelp ⊢
    obtain ⟨answer, next⟩ := answered
    cases answer with
    | error e =>
      dsimp only
      rw [Logged.log_bind, Logged.log_write, Logged.log_pure, List.append_nil, Event.level, if_pos hwarn]
      exact hanswer.append (.of_lineRejected next (trim text) e)
    | ok reply =>
      have hreply : Journal next [] reply.output next := .of_reply next fun shown hshown => hhelp shown (congrArg _ hshown)
      cases reply with
      | silent => exact hanswer.append hreply
      | value v => exact hanswer.append hreply
      | text shown => exact hanswer.append hreply
      | farewell =>
        dsimp only
        rw [Logged.log_bind, Logged.log_pure]
        exact hanswer.append ((Journal.of_write next .sessionLeft trivial threshold).append hreply)

/-- A run on lines tells how the table has changed and which lines have been rejected, however it ends. -/
theorem journal_runLines (h : threshold.admits .debug = true) (session : Session) (lines : List (List UInt8)) :
    Journal session ((session.runLines lines).log threshold) ((session.runLines lines).value threshold).output
      ((session.runLines lines).value threshold).session := by
  induction lines generalizing session with
  | nil =>
    rw [runLines, Logged.log_bind, Logged.log_pure, List.append_nil, closing, Logged.log_bind]
    exact (Journal.of_write session (.inputEnded session.table.count) trivial threshold).append
      (.of_write session .sessionEnded trivial threshold)
  | cons line lines ih =>
    have hturn := journal_turn h session line
    rw [value_runLines_cons, runLines, Logged.log_bind]
    cases ((session.turn line).value threshold).ending with
    | some ending =>
      dsimp only
      rw [Logged.log_pure, List.append_nil]
      exact hturn
    | none =>
      dsimp only
      rw [Logged.log_bind, Logged.log_pure, List.append_nil]
      exact hturn.append (ih _)

/-- The log of a run is its journal where it is at least as detailed as `debug`, on every input and however the run ends. The
table at the end is the one that the entries `affectation: NAME = VALUE` lead to from the empty table, in their order. The
warnings correspond one to one and in order with the error lines of the output, and each ends with its line. -/
theorem log_is_journal (bytes : List UInt8) {threshold : Threshold} (h : threshold.admits .debug = true) :
    let log := (new.run bytes).log threshold
    let run := (new.run bytes).value threshold
    Variables.ofList (assignmentsOf log) = run.session.table ∧
      List.Forall₂ Event.Reports (warningsOf log) (errorLines run.output) := by
  intro log run
  have hopening : Journal new (opening.log threshold) [] new := .of_write new .sessionOpened trivial threshold
  have hrun : Journal new log run.output run.session := by
    have hlog : log = opening.log threshold ++ (new.runLines (byteLines bytes)).log threshold := Logged.log_bind _ _ _
    rw [hlog]
    exact hopening.append (journal_runLines h new (byteLines bytes))
  exact ⟨hrun.table_eq, hrun.reports⟩

/-- Lines that store, copy and replace a value, of which three are rejected, the last one with a no-break space and an accent
written after its letter, and then the end of the input, a leave-taking with a line after it, or bytes that are no text. -/
theorem log_is_journal_of_three_endings :
    let lines := "x = 5\ny = x\nx = x + 1\nx = -7\n8 / 0\ny - 2\né\u00a0e\u0301\n".toUTF8.toList
    let streams := [lines, lines ++ "/exit\ny = 1\n".toUTF8.toList, lines ++ 0xFF :: "\ny = 1\n".toUTF8.toList]
    let log (bytes : List UInt8) := (new.run bytes).log (some .debug)
    let run (bytes : List UInt8) := (new.run bytes).value (some .debug)
    let warnings := ["ligne rejetée \"x = x + 1\": Invalid assignment".toList, "ligne rejetée \"8 / 0\": Division by zero".toList,
      "ligne rejetée \"é\\u\x7ba0\x7de\\u\x7b301\x7d\": Invalid expression".toList]
    let errors := ["Invalid assignment".toList, "Division by zero".toList, "Invalid expression".toList]
    Threshold.admits (some .debug) .debug = true ∧
      streams.map (fun bytes => (run bytes).ending) = [.inputUsedUp, .left, .failed .invalidText] ∧
      (∀ bytes ∈ streams, assignmentsOf (log bytes) = [(['x'], 5), (['y'], 5), (['x'], -7)] ∧
        (warningsOf (log bytes)).map Event.message = warnings ∧ errorLines (run bytes).output = errors) ∧
      ∀ bytes ∈ streams, Variables.ofList (assignmentsOf (log bytes)) = (run bytes).session.table ∧
        List.Forall₂ Event.Reports (warningsOf (log bytes)) (errorLines (run bytes).output) := by
  intro lines streams log run warnings errors
  have hdebug : Threshold.admits (some .debug) .debug = true := by decide
  have hendings : streams.map (fun bytes => (run bytes).ending) = [.inputUsedUp, .left, .failed .invalidText] := by
    decide +kernel
  have hentries : ∀ bytes ∈ streams, assignmentsOf (log bytes) = [(['x'], 5), (['y'], 5), (['x'], -7)] ∧
      (warningsOf (log bytes)).map Event.message = warnings ∧ errorLines (run bytes).output = errors := by
    decide +kernel
  exact ⟨hdebug, hendings, hentries, fun bytes _ => log_is_journal bytes hdebug⟩

end Session

end IntegerCalculator
