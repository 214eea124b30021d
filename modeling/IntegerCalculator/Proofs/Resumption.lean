import IntegerCalculator.Session.Run

/-!
# Runs in parts

A run can be cut at the end of any line. If the first part of the input is used up, the run on the whole input goes on as a run
on the second part does in the session that the first part leaves, and writes after it; if the first part ends the run, by a
leave-taking or by a line that is no text, the second part changes nothing (`Session.run_append`).

Lines are found in each part by itself (`byteLines_append`), and a run on lines is a run on the first of them that goes on with
the others (`Run.andThen`).
-/

namespace IntegerCalculator

/-! ## The lines of a stream in two parts -/

/-- Each piece before the last is a line. -/
theorem linesOfPieces_append (pieces : List (List UInt8)) {others : List (List UInt8)} (h : others ≠ []) :
    linesOfPieces (pieces ++ others) = pieces.map dropCarriageReturn ++ linesOfPieces others := by
  induction pieces with
  | nil => rfl
  | cons piece pieces ih =>
    obtain ⟨first, rest, hrest⟩ := List.exists_cons_of_ne_nil (List.append_ne_nil_of_right_ne_nil pieces h)
    have hcons : linesOfPieces (piece :: first :: rest) = dropCarriageReturn piece :: linesOfPieces (first :: rest) := rfl
    rw [List.cons_append, hrest, hcons, ← hrest, ih, List.map_cons, List.cons_append]

/-- A stream that is empty or ends with a line feed has its lines before those of what follows it. -/
theorem byteLines_append {a : List UInt8} (h : a = [] ∨ a.getLast? = some lineFeed) (b : List UInt8) :
    byteLines (a ++ b) = byteLines a ++ byteLines b := by
  rcases h with rfl | h
  · rfl
  · obtain ⟨start, rfl⟩ := List.getLast?_eq_some_iff.1 h
    have hsplit : ∀ rest, byteLines (start ++ lineFeed :: rest) =
        (start.splitOn lineFeed).map dropCarriageReturn ++ byteLines rest := by
      intro rest
      rw [byteLines, List.splitOn_append_cons_self, linesOfPieces_append _ (List.splitOn_ne_nil _ _)]
      rfl
    rw [List.append_assoc, List.singleton_append, hsplit b, hsplit [], byteLines_nil, List.append_nil]

/-! ## Runs that go on -/

/-- The run, and after it another one in the session that it leaves, if it does not end before its input is used up. -/
def Run.andThen (run : Run) (rest : Session → Run) : Run :=
  match run.ending with
  | .inputUsedUp => (rest run.session).after run.output
  | _ => run

theorem Run.andThen_of_inputUsedUp {run : Run} (h : run.ending = .inputUsedUp) (rest : Session → Run) :
    run.andThen rest = (rest run.session).after run.output := by
  rw [andThen, h]

theorem Run.andThen_of_ne {run : Run} (h : run.ending ≠ .inputUsedUp) (rest : Session → Run) : run.andThen rest = run := by
  unfold andThen
  split
  · next hending => exact absurd hending h
  · rfl

theorem Run.after_nil (run : Run) : run.after [] = run := rfl

/-- Output before a run is output before all that it goes on with. -/
theorem Run.andThen_after (run : Run) (output : List Char) (rest : Session → Run) :
    (run.after output).andThen rest = (run.andThen rest).after output := by
  have hafter : (run.after output).ending = run.ending := rfl
  by_cases hending : run.ending = .inputUsedUp
  · rw [andThen_of_inputUsedUp (hafter.trans hending), andThen_of_inputUsedUp hending]
    simp [after]
  · rw [andThen_of_ne (hafter ▸ hending), andThen_of_ne hending]

namespace Session

variable (session : Session) (threshold : Threshold)

/-- What a line of the stream comes to, whatever is logged. -/
theorem value_turn (line : List UInt8) :
    (session.turn line).value threshold =
      match decodeText line with
      | none => ⟨[], session, some (.failed .invalidText)⟩
      | some text =>
        match ((session.answer text).value threshold).1 with
        | .ok .farewell => ⟨Reply.farewell.output, ((session.answer text).value threshold).2, some .left⟩
        | .ok reply => ⟨reply.output, ((session.answer text).value threshold).2, none⟩
        | .error e => ⟨e.output, ((session.answer text).value threshold).2, none⟩ := by
  unfold turn
  cases decodeText line with
  | none => rfl
  | some text =>
    dsimp only
    rw [Logged.value_bind]
    generalize (session.answer text).value threshold = r
    obtain ⟨answer, next⟩ := r
    cases answer with
    | error e => rfl
    | ok reply => cases reply <;> rfl

/-- A line either leaves the run open or ends it by a leave-taking or a failure. -/
theorem ending_turn_ne (line : List UInt8) : ((session.turn line).value threshold).ending ≠ some .inputUsedUp := by
  rw [value_turn]
  split
  · simp
  · split <;> simp

/-- A run on lines takes the first, and goes on with the others unless it ends there. -/
theorem value_runLines_cons (line : List UInt8) (lines : List (List UInt8)) :
    (session.runLines (line :: lines)).value threshold =
      match ((session.turn line).value threshold).ending with
      | some ending => ⟨((session.turn line).value threshold).output, ((session.turn line).value threshold).session, ending⟩
      | none =>
        ((((session.turn line).value threshold).session.runLines lines).value threshold).after
          ((session.turn line).value threshold).output := by
  rw [runLines, Logged.value_bind]
  cases ((session.turn line).value threshold).ending with
  | none => rfl
  | some ending => rfl

/-- A run on lines in two parts is a run on the first part that goes on with the second. -/
theorem value_runLines_append (lines others : List (List UInt8)) :
    (session.runLines (lines ++ others)).value threshold =
      ((session.runLines lines).value threshold).andThen fun next => (next.runLines others).value threshold := by
  induction lines generalizing session with
  | nil => exact (Run.after_nil _).symm
  | cons line lines ih =>
    rw [List.cons_append, value_runLines_cons, value_runLines_cons]
    cases hending : ((session.turn line).value threshold).ending with
    | none =>
      simp only
      rw [ih, Run.andThen_after]
    | some ending =>
      refine (Run.andThen_of_ne ?_ _).symm
      rintro rfl
      exact ending_turn_ne session threshold line hending

/-- A run can be cut at the end of any line of its input. If the first part of the input is used up, the run on both parts
writes what the run on the first part writes and then what the run on the second part writes in the session that the first part
leaves, and it leaves the same session and ends in the same way as this one. If the first part ends the run before, what follows
it changes nothing. -/
theorem run_append {a : List UInt8} (h : a = [] ∨ a.getLast? = some lineFeed) (b : List UInt8) :
    (((session.run a).value threshold).ending = .inputUsedUp →
        (session.run (a ++ b)).value threshold =
          ⟨((session.run a).value threshold).output ++ ((((session.run a).value threshold).session.run b).value threshold).output,
            ((((session.run a).value threshold).session.run b).value threshold).session,
            ((((session.run a).value threshold).session.run b).value threshold).ending⟩) ∧
      (((session.run a).value threshold).ending ≠ .inputUsedUp →
        (session.run (a ++ b)).value threshold = (session.run a).value threshold) := by
  have hrun : (session.run (a ++ b)).value threshold =
      ((session.run a).value threshold).andThen fun next => (next.run b).value threshold := by
    change (session.runLines (byteLines (a ++ b))).value threshold = _
    rw [byteLines_append h, value_runLines_append]
    rfl
  rw [hrun]
  exact ⟨fun hending => Run.andThen_of_inputUsedUp hending _, fun hending => Run.andThen_of_ne hending _⟩

/-- A run is cut after a line with a carriage return before its line feed, and goes on up to a line that is no text. A run that
ends by a leave-taking has nothing after it. -/
theorem run_append_of_carriage_return :
    let seven : Session := { table := Variables.empty.store ['x'] 7 }
    (new.run ("x = 7\r\nx\n".toUTF8.toList ++ ("x * x\n".toUTF8.toList ++ [0xFF]))).value none =
        ⟨"7\n49\n".toList, seven, .failed .invalidText⟩ ∧
      (new.run ("x = 7\n/exit\n".toUTF8.toList ++ "x".toUTF8.toList)).value none = ⟨"Bye!\n".toList, seven, .left⟩ := by
  intro seven
  have hfirst : (new.run "x = 7\r\nx\n".toUTF8.toList).value none =
      ⟨"7\n".toList, { table := Variables.empty.store ['x'] 7 }, .inputUsedUp⟩ := by
    decide +kernel
  have hrest : (Session.run { table := Variables.empty.store ['x'] 7 } ("x * x\n".toUTF8.toList ++ [0xFF])).value none =
      ⟨"49\n".toList, { table := Variables.empty.store ['x'] 7 }, .failed .invalidText⟩ := by
    decide +kernel
  have hleft : (new.run "x = 7\n/exit\n".toUTF8.toList).value none =
      ⟨"Bye!\n".toList, { table := Variables.empty.store ['x'] 7 }, .left⟩ := by
    decide +kernel
  have hopenEnd : "x = 7\r\nx\n".toUTF8.toList.getLast? = some lineFeed := by decide +kernel
  have hleftEnd : "x = 7\n/exit\n".toUTF8.toList.getLast? = some lineFeed := by decide +kernel
  have hopen := (new.run_append none (.inr hopenEnd) ("x * x\n".toUTF8.toList ++ [0xFF])).1 (by rw [hfirst])
  have hclosed := (new.run_append none (.inr hleftEnd) "x".toUTF8.toList).2 (by rw [hleft]; simp)
  rw [hfirst, hrest] at hopen
  exact ⟨hopen, hclosed.trans hleft⟩

end Session

end IntegerCalculator
