import IntegerCalculator.Proofs.Context
import IntegerCalculator.Proofs.EncodedText
import IntegerCalculator.Proofs.Resumption

/-!
# Layout

Layout does not matter. Blanks at the ends of a line, the kind and number of blanks inside it, blank lines, and the kind of the
line ends change nothing: texts with the same lines once each is tidied (`tidyLines`) make every session write the same output,
remember the same values and end in the same way (`Session.run_of_tidyLines_eq`).

The reason is that a tidied line is answered like the line (`Session.answer_tidy`). Each kind of line has its own: lexemes are
parted by one blank as well as by many (`Lexeme.scan_append_squeeze`), an assignment is split where no blank stands and its
parts are trimmed (`assignmentParts_squeeze`), and names, integers and commands have no blanks, so that a text with blanks is
none of these however it is squeezed (`apply_squeeze`).
-/

namespace IntegerCalculator

/-- The text with one space in place of each maximal run of blanks. -/
def squeeze : List Char → List Char
  | [] => []
  | c :: cs =>
    if !isBlank c then c :: squeeze cs
    else if cs.head?.any isBlank then squeeze cs
    else ' ' :: squeeze cs

/-- The line without blanks at its ends, and with one space in place of each maximal run of blanks inside it. -/
def tidy (line : List Char) : List Char := squeeze (trim line)

/-- The lines of a text, each tidied, without those of which nothing is left. -/
def tidyLines (text : List Char) : List (List Char) := ((text.splitOn '\n').map tidy).filter (!·.isEmpty)

/-! ## Squeezed texts -/

theorem squeeze_cons_of_not_blank {c : Char} (hc : isBlank c = false) (cs : List Char) :
    squeeze (c :: cs) = c :: squeeze cs := by
  rw [squeeze, hc]
  rfl

/-- A blank is dropped before another one, and is a space at the end of a run. -/
theorem squeeze_cons_of_blank {c : Char} (hc : isBlank c = true) (cs : List Char) :
    squeeze (c :: cs) = if cs.head?.any isBlank then squeeze cs else ' ' :: squeeze cs := by
  rw [squeeze, hc]
  rfl

/-- A text without blanks is left as it is. -/
theorem squeeze_eq_self {s : List Char} (h : s.any isBlank = false) : squeeze s = s := by
  induction s with
  | nil => rfl
  | cons c s ih =>
    rw [List.any_cons, Bool.or_eq_false_iff] at h
    rw [squeeze_cons_of_not_blank h.1, ih h.2]

/-- A squeezed text has blanks when the text has. -/
theorem any_isBlank_squeeze (s : List Char) : (squeeze s).any isBlank = s.any isBlank := by
  induction s with
  | nil => rfl
  | cons c s ih =>
    cases hc : isBlank c with
    | false => rw [squeeze_cons_of_not_blank hc, List.any_cons, List.any_cons, ih]
    | true =>
      rw [squeeze_cons_of_blank hc, List.any_cons, hc, Bool.true_or]
      split
      · next hhead =>
        obtain ⟨d, hd, hblank⟩ := (Option.any_eq_true _ _).1 hhead
        rw [ih, List.any_eq_true]
        exact ⟨d, List.mem_of_head? hd, hblank⟩
      · rfl

/-- A function that takes all texts with blanks alike gives the same for a squeezed text. -/
theorem apply_squeeze {α : Type} {f : List Char → α} {a : α} (hf : ∀ s, s.any isBlank = true → f s = a) (s : List Char) :
    f (squeeze s) = f s := by
  cases hs : s.any isBlank with
  | true => rw [hf s hs, hf (squeeze s) ((any_isBlank_squeeze s).trans hs)]
  | false => rw [squeeze_eq_self hs]

/-- Around a character that is not blank, a text is squeezed part by part. -/
theorem squeeze_append_cons {c : Char} (hc : isBlank c = false) (s t : List Char) :
    squeeze (s ++ c :: t) = squeeze s ++ c :: squeeze t := by
  induction s with
  | nil => exact squeeze_cons_of_not_blank hc t
  | cons d s ih =>
    have hhead : (s ++ c :: t).head?.any isBlank = s.head?.any isBlank := by
      cases s with
      | nil => exact hc
      | cons e s => rfl
    cases hd : isBlank d with
    | false => rw [List.cons_append, squeeze_cons_of_not_blank hd, squeeze_cons_of_not_blank hd, ih, List.cons_append]
    | true =>
      rw [List.cons_append, squeeze_cons_of_blank hd, squeeze_cons_of_blank hd, hhead, ih]
      split
      · rfl
      · rfl

/-! ## Squeezing and trimming -/

theorem dropWhile_squeeze (s : List Char) : (squeeze s).dropWhile isBlank = squeeze (s.dropWhile isBlank) := by
  induction s with
  | nil => rfl
  | cons c s ih =>
    cases hc : isBlank c with
    | false =>
      rw [squeeze_cons_of_not_blank hc, List.dropWhile_cons, List.dropWhile_cons, hc, if_neg Bool.false_ne_true,
        if_neg Bool.false_ne_true, squeeze_cons_of_not_blank hc]
    | true =>
      have hdrop : (c :: s).dropWhile isBlank = s.dropWhile isBlank := List.dropWhile_cons_of_pos hc
      rw [squeeze_cons_of_blank hc, hdrop]
      split
      · exact ih
      · exact ih

theorem squeeze_ne_nil {s : List Char} (h : s ≠ []) : squeeze s ≠ [] := by
  induction s with
  | nil => exact absurd rfl h
  | cons c s ih =>
    rw [squeeze]
    split
    · simp
    · split
      · next hhead =>
        refine ih ?_
        rintro rfl
        cases hhead
      · simp

theorem trimEnd_squeeze (s : List Char) : trimEnd (squeeze s) = squeeze (trimEnd s) := by
  induction s with
  | nil => rfl
  | cons c s ih =>
    cases hc : isBlank c with
    | false =>
      rw [squeeze_cons_of_not_blank hc, trimEnd_cons, trimEnd_cons, hc, Bool.and_false, Bool.and_false, ih]
      exact (squeeze_cons_of_not_blank hc _).symm
    | true =>
      rw [squeeze_cons_of_blank hc, trimEnd_cons c s, hc, Bool.and_true]
      by_cases hnil : trimEnd s = []
      · -- all of it is blank, and nothing is left on both sides
        rw [hnil] at ih
        have hspace : trimEnd (' ' :: squeeze s) = [] := by
          rw [trimEnd_cons, ih]
          rfl
        rw [hnil]
        split
        · exact ih
        · exact hspace
      · have hkept : (trimEnd s).isEmpty = false := List.isEmpty_eq_false_iff.2 hnil
        have hspace : trimEnd (' ' :: squeeze s) = ' ' :: squeeze (trimEnd s) := by
          rw [trimEnd_cons, ih, List.isEmpty_eq_false_iff.2 (squeeze_ne_nil hnil)]
          rfl
        rw [hkept, if_neg Bool.false_ne_true, squeeze_cons_of_blank hc, head?_trimEnd hnil]
        split
        · exact ih
        · exact hspace

/-- A text may be squeezed before it is trimmed or after. -/
theorem trim_squeeze (s : List Char) : trim (squeeze s) = squeeze (trim s) := by
  rw [trim, dropWhile_squeeze, trimEnd_squeeze, trim]

/-! ## Squeezed lines -/

/-- A character that is not blank is in a squeezed text when it is in the text. -/
theorem mem_squeeze_iff {c : Char} (hc : isBlank c = false) {s : List Char} : c ∈ squeeze s ↔ c ∈ s := by
  induction s with
  | nil => exact Iff.rfl
  | cons d s ih =>
    cases hd : isBlank d with
    | false => rw [squeeze_cons_of_not_blank hd, List.mem_cons, List.mem_cons, ih]
    | true =>
      have hne : c ≠ d := by
        rintro rfl
        rw [hc] at hd
        cases hd
      have hspace : c ≠ ' ' := by
        rintro rfl
        cases hc
      rw [squeeze_cons_of_blank hd]
      split <;> simp [ih, hne, hspace]

/-- The parts of a squeezed line are the squeezed parts of the line. -/
theorem assignmentParts_squeeze (line : List Char) : assignmentParts (squeeze line) = (assignmentParts line).map squeeze := by
  have hequals : isBlank '=' = false := by decide
  have hsplit : (squeeze line).splitOn '=' = (line.splitOn '=').map squeeze := by
    refine splitOn_map (squeeze_append_cons hequals) ?_ line
    intro s h
    exact fun hmem => h ((mem_squeeze_iff hequals).1 hmem)
  rw [assignmentParts, assignmentParts, hsplit, List.map_map, List.map_map]
  exact List.map_congr_left fun part _ => trim_squeeze part

theorem isName_of_any_isBlank {s : List Char} (h : s.any isBlank = true) : isName s = false := by
  obtain ⟨c, hc, hblank⟩ := List.any_eq_true.1 h
  rw [← Bool.not_eq_true]
  intro hname
  rw [isBlank_eq_false_of_mem_name hname c hc] at hblank
  cases hblank

theorem isDigits_of_any_isBlank {s : List Char} (h : s.any isBlank = true) : isDigits s = false := by
  obtain ⟨c, hc, hblank⟩ := List.any_eq_true.1 h
  rw [← Bool.not_eq_true]
  intro hdigits
  rw [isBlank_eq_false_of_mem_digits hdigits c hc] at hblank
  cases hblank

/-- No signed numeral has a blank. -/
theorem integer?_of_any_isBlank {s : List Char} (h : s.any isBlank = true) : integer? s = none := by
  unfold integer?
  split
  · next ds => rw [isDigits_of_any_isBlank (s := ds) h, if_neg Bool.false_ne_true]
  · next ds => rw [isDigits_of_any_isBlank (s := ds) h, if_neg Bool.false_ne_true]
  · rw [isDigits_of_any_isBlank h, if_neg Bool.false_ne_true]

theorem isName_squeeze (s : List Char) : isName (squeeze s) = isName s := apply_squeeze (fun _ => isName_of_any_isBlank) s

/-- A name is left as it is. -/
theorem squeeze_of_isName {s : List Char} (h : isName s = true) : squeeze s = s := by
  refine squeeze_eq_self ?_
  rw [← Bool.not_eq_true]
  intro hblank
  rw [isName_of_any_isBlank hblank] at h
  cases h

namespace Variables

/-- A squeezed term has the value of the term. -/
theorem termValue_squeeze (table : Variables) (term : List Char) : table.termValue (squeeze term) = table.termValue term := by
  refine apply_squeeze (a := .error .invalidAssignment) ?_ term
  intro s h
  rw [termValue, isName_of_any_isBlank h, integer?_of_any_isBlank h]
  rfl

/-- A squeezed line assigns what the line assigns. -/
theorem assignment_squeeze (table : Variables) (line : List Char) :
    table.assignment (squeeze line) = table.assignment line := by
  unfold assignment
  rw [assignmentParts_squeeze]
  generalize assignmentParts line = parts
  have hhead : isName ((parts.map squeeze).headD []) = isName (parts.headD []) := by
    cases parts with
    | nil => rfl
    | cons name rest => exact isName_squeeze name
  dsimp only
  rw [hhead]
  by_cases hname : isName (parts.headD []) = true
  · rw [hname]
    match parts with
    | [] => rfl
    | [_] => rfl
    | [name, term] =>
      have hsame : squeeze name = name := squeeze_of_isName hname
      simp only [List.map_cons, List.map_nil, hsame, termValue_squeeze]
    | _ :: _ :: _ :: _ => rfl
  · rw [Bool.not_eq_true] at hname
    rw [hname]
    rfl

theorem assign_squeeze (table : Variables) (line : List Char) : table.assign (squeeze line) = table.assign line := by
  rw [assign, assign, assignment_squeeze]

end Variables

/-- A squeezed command is answered like the command. -/
theorem answerCommand_squeeze (command : List Char) : answerCommand (squeeze command) = answerCommand command := by
  refine apply_squeeze (a := .error .unknownCommand) ?_ command
  intro s h
  unfold answerCommand
  split
  · next hs =>
    rw [hs] at h
    exact absurd h (by decide)
  · split
    · next hs =>
      rw [hs] at h
      exact absurd h (by decide)
    · rfl

namespace Lexeme

/-- After any text, a squeezed text has the lexemes of the text: a blank parts them, and one parts them as well as many. -/
theorem scan_append_squeeze (before s : List Char) : scan (before ++ squeeze s) = scan (before ++ s) := by
  induction s generalizing before with
  | nil => rfl
  | cons c s ih =>
    cases hc : isBlank c with
    | false =>
      rw [squeeze_cons_of_not_blank hc, List.append_cons, List.append_cons before c s]
      exact ih _
    | true =>
      have hparted : ∀ (d : Char) (t : List Char), isBlank d = true → scan (before ++ d :: t) = scan before ++ scan t := by
        intro d t hd
        rw [scan_append_cons (isBoundary_of_isBlank hd), scan_cons, if_pos hd]
      rw [squeeze_cons_of_blank hc, hparted c s hc]
      split
      · next hhead =>
        obtain ⟨d, t, rfl⟩ : ∃ d t, s = d :: t := List.exists_cons_of_ne_nil (by rintro rfl; cases hhead)
        rw [ih, hparted d t hhead, scan_cons]
        exact congrArg (scan before ++ ·) (if_pos hhead).symm
      · rw [hparted ' ' (squeeze s) (by decide), ← List.nil_append (squeeze s), ih, List.nil_append]

/-- A squeezed line is read as the line. -/
theorem ofLine_squeeze (line : List Char) : ofLine (squeeze line) = ofLine line := by
  have hblank : (squeeze line).all isBlank = true ↔ line.all isBlank = true := by
    rw [← trim_eq_nil_iff, ← trim_eq_nil_iff, trim_squeeze]
    refine ⟨fun h => not_not.1 fun hne => squeeze_ne_nil hne h, ?_⟩
    intro h
    rw [h]
    rfl
  by_cases hline : line.all isBlank = true
  · rw [ofLine_of_blank hline, ofLine_of_blank (hblank.2 hline)]
  · have hsqueezed := mt hblank.1 hline
    rw [Bool.not_eq_true] at hline hsqueezed
    rw [ofLine_of_not_blank hline, ofLine_of_not_blank hsqueezed]
    exact congrArg Except.ok (scan_append_squeeze [] line)

end Lexeme

/-- A squeezed line has the value of the line. -/
theorem Variables.evaluate_squeeze (table : Variables) (line : List Char) :
    table.evaluate (squeeze line) = table.evaluate line :=
  evaluate_of_ofLine_eq (Lexeme.ofLine_squeeze line) table

/-! ## Tidied lines -/

theorem trim_tidy (line : List Char) : trim (tidy line) = tidy line := by
  rw [tidy, trim_squeeze, trim_trim]

namespace Session

/-- A tidied line is answered like the line. -/
theorem answer_tidy (session : Session) (line : List Char) : session.answer (tidy line) = session.answer line := by
  unfold answer Line.ofText
  rw [trim_tidy, tidy]
  cases htrim : trim line with
  | nil => rfl
  | cons c cs =>
    have hc := isBlank_eq_false_of_trim htrim
    have hsqueeze := squeeze_cons_of_not_blank hc cs
    have hequals : (squeeze (c :: cs)).contains '=' = (c :: cs).contains '=' := by
      rw [Bool.eq_iff_iff, List.contains_iff_mem, List.contains_iff_mem, mem_squeeze_iff (by decide)]
    rw [hsqueeze] at hequals ⊢
    dsimp only
    rw [hequals, ← hsqueeze]
    by_cases hslash : (c == '/') = true
    · rw [if_pos hslash, if_pos hslash]
      exact congrArg (fun answer => pure (answer, session)) (answerCommand_squeeze _)
    · rw [if_neg hslash, if_neg hslash]
      by_cases hassigns : (c :: cs).contains '=' = true
      · rw [if_pos hassigns, if_pos hassigns]
        dsimp only
        rw [Variables.assign_squeeze]
      · rw [if_neg hassigns, if_neg hassigns]
        dsimp only
        rw [Variables.evaluate_squeeze]

/-! ## Runs -/

variable (session : Session) (threshold : Threshold)

/-- A line that is blank throughout comes to nothing. -/
theorem value_turn_of_tidy_eq_nil {line : List Char} (h : tidy line = []) :
    (session.turn (encodeText line)).value threshold = ⟨[], session, none⟩ := by
  rw [value_turn, decodeText_encodeText]
  dsimp only
  rw [← answer_tidy, h]
  rfl

/-- A tidied line comes to what the line comes to. -/
theorem value_turn_tidy (line : List Char) :
    (session.turn (encodeText (tidy line))).value threshold = (session.turn (encodeText line)).value threshold := by
  rw [value_turn, value_turn, decodeText_encodeText, decodeText_encodeText]
  dsimp only
  rw [answer_tidy]

/-- A run on lines is a run on the tidied lines, without those of which nothing is left. -/
theorem value_runLines_tidy (lines : List (List Char)) :
    (session.runLines (((lines.map tidy).filter (!·.isEmpty)).map encodeText)).value threshold =
      (session.runLines (lines.map encodeText)).value threshold := by
  induction lines generalizing session with
  | nil => rfl
  | cons line lines ih =>
    rw [List.map_cons, List.map_cons, value_runLines_cons]
    by_cases hnil : tidy line = []
    · rw [hnil, List.filter_cons_of_neg (by simp), value_turn_of_tidy_eq_nil session threshold hnil, ih]
      rfl
    · have hkept : (!(tidy line).isEmpty) = true := by simpa using hnil
      rw [List.filter_cons, if_pos hkept, List.map_cons, value_runLines_cons, value_turn_tidy]
      cases ((session.turn (encodeText line)).value threshold).ending with
      | none =>
        dsimp only
        rw [ih]
      | some ending => rfl

/-- A run on a text is a run on its tidied lines. -/
theorem value_run_encodeText (text : List Char) :
    (session.run (encodeText text)).value threshold =
      (session.runLines ((tidyLines text).map encodeText)).value threshold := by
  have hblank : ∀ c ∈ ['\r'], isBlank c = true := by
    intro c hc
    rw [List.mem_singleton.1 hc]
    rfl
  have hreturn : ∀ line, tidy (line ++ ['\r']) = tidy line := by
    intro line
    rw [tidy, trim_append_blanks line hblank, tidy]
  obtain ⟨lines, hlines, hkept⟩ := exists_byteLines_encodeText hreturn rfl text
  change (session.runLines (byteLines (encodeText text))).value threshold = _
  rw [hlines, ← value_runLines_tidy, hkept, tidyLines]

/-- Texts that have the same lines, once each line is tidied and those of which nothing is left are dropped, make every session
write the same output, remember the same values and end in the same way. -/
theorem run_of_tidyLines_eq {text other : List Char} (h : tidyLines text = tidyLines other) :
    (session.run (encodeText text)).value threshold = (session.run (encodeText other)).value threshold := by
  rw [value_run_encodeText, value_run_encodeText, h]

/-- Tabs and an ideographic space are blanks as spaces are, a carriage return before a line feed is part of the line end, and
the last line may lack its line end. What follows a leave-taking counts for as little in one text as in the other. -/
theorem run_of_tabs_and_line_ends :
    let text := "\tx =  -5\r\n\r\nx\u3000\t*  3\r\n /exit \r\n8 /  0".toList
    let other := "x = -5\n\n\nx * 3\n/exit\n8 / 0\n".toList
    tidyLines text = tidyLines other ∧
      (new.run (encodeText text)).value none = (new.run (encodeText other)).value none ∧
      (new.run (encodeText other)).value none =
        ⟨"-15\nBye!\n".toList, { table := Variables.empty.store ['x'] (-5) }, .left⟩ := by
  intro text other
  have hlines : tidyLines text = tidyLines other := by decide +kernel
  have hvalue : (new.run (encodeText other)).value none =
      ⟨"-15\nBye!\n".toList, { table := Variables.empty.store ['x'] (-5) }, .left⟩ := by
    decide +kernel
  exact ⟨hlines, run_of_tidyLines_eq new none hlines, hvalue⟩

end Session

end IntegerCalculator
