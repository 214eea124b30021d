import IntegerCalculator.Proofs.AssignmentFaults
import IntegerCalculator.Proofs.Context

/-!
# Terms of assignments and of expressions

What an assignment takes for a term and what an expression of one lexeme has for a value are decided in two ways: an assignment
trims its right part and takes it as a whole, while an expression is cut into lexemes, which are converted and evaluated. Both
ways agree (`Variables.value_assign_iff_evaluate`). A term is read as one lexeme, and the lexeme has the value of the term. In
turn, a text that is read as one lexeme is, trimmed, the word of this lexeme (`Lexeme.ofWord_trim_of_scan`): if it is no term,
the lexeme is no operand, and alone it is no expression either.
-/

namespace IntegerCalculator

/-- The text is read as exactly one lexeme. -/
def IsOneLexeme (s : List Char) : Prop := ∃ lexeme, Lexeme.ofLine s = .ok [lexeme]

/-- The text is a name or a signed numeral. -/
def IsTerm (s : List Char) : Prop := isName s = true ∨ ∃ v, SignedNumeral s v

/-! ## Texts of one lexeme -/

namespace Lexeme

/-- A text that is read as one lexeme is, without the blanks around it, the word of this lexeme. -/
theorem ofWord_trim_of_scan {s : List Char} {lexeme : Lexeme} (h : scan s = [lexeme]) : ofWord (trim s) = lexeme := by
  rw [← scan_trim] at h
  cases htrim : trim s with
  | nil =>
    rw [htrim, scan_nil] at h
    cases h
  | cons c cs =>
    have hc := isBlank_eq_false_of_trim htrim
    rw [htrim, scan_cons, hc, if_neg Bool.false_ne_true, List.cons.injEq, scan_eq_nil_iff, List.all_eq_true] at h
    obtain ⟨hfirst, hblanks⟩ := h
    obtain ⟨word, hword, -, hlexeme⟩ := exists_word_longest hc cs
    -- what follows the word is blank, and a trimmed text ends with no blank
    have hsame : trim word = word ++ (longest c cs).2 := by
      rw [← trim_append_blanks word hblanks, ← hword, ← htrim, trim_trim]
    obtain ⟨before, after, -, -, hparts⟩ := exists_eq_append_trim word
    have hlength := congrArg List.length hparts
    rw [hsame] at hlength
    simp only [List.length_append] at hlength
    have hnil : (longest c cs).2 = [] := List.eq_nil_of_length_eq_zero (by omega)
    rw [hword, hnil, List.append_nil, hlexeme, hfirst]

/-- A signed numeral alone is read as one lexeme. -/
theorem exists_scan_of_signedNumeral {s : List Char} {v : Int} (h : SignedNumeral s v) :
    ∃ sign, scan s = [.ok (.literal v sign)] := by
  cases h with
  | unsigned hne hdigits => exact ⟨none, scan_of_isDigits (isDigits_iff.2 ⟨hne, hdigits⟩)⟩
  | plus hne hdigits => exact ⟨some .add, scan_plus_of_isDigits (isDigits_iff.2 ⟨hne, hdigits⟩)⟩
  | minus hne hdigits => exact ⟨some .subtract, scan_minus_of_isDigits (isDigits_iff.2 ⟨hne, hdigits⟩)⟩

/-- A text that is a term, without the blanks around it, is read as one lexeme. -/
theorem isOneLexeme_of_isTerm {s : List Char} (h : IsTerm (trim s)) : IsOneLexeme s := by
  have hscan : ∃ lexeme, scan (trim s) = [lexeme] := by
    rcases h with hname | ⟨v, hnumeral⟩
    · exact ⟨_, scan_of_isName hname⟩
    · obtain ⟨sign, hscan⟩ := exists_scan_of_signedNumeral hnumeral
      exact ⟨_, hscan⟩
  obtain ⟨lexeme, hlexeme⟩ := hscan
  rw [scan_trim] at hlexeme
  exact ⟨lexeme, ofLine_eq_ok_iff.2 ⟨hlexeme, List.cons_ne_nil _ _⟩⟩

end Lexeme

/-! ## The value of one lexeme -/

namespace Variables

variable (table : Variables)

/-- The value of a lexeme that stands alone. -/
def lexemeValue : Lexeme → Except Error Int
  | .ok (.identifier name) => table.resolve name
  | .ok (.literal v _) => .ok v
  | .ok _ => .error .invalidExpression
  | .error e => .error e

/-- A name alone is converted to its value. -/
theorem result_ofLexemes_identifier (name : List Char) :
    (Postfix.ofLexemes table [.ok (.identifier name)]).result = (table.resolve name).map fun v => [.operand v] := by
  have hstep : (Conversion.start.step table (.identifier name)).result =
      (table.resolve name).map fun v => ([.operand v], { expectsOperand := false }) :=
    Conversion.result_step_operand_expected table [] (.identifier name)
  rw [Postfix.result_ofLexemes, Conversion.result_consume_cons, Calculation.ok_bind, hstep]
  cases table.resolve name with
  | error e => rfl
  | ok v => rfl

/-- A line that is read as one lexeme has the value of this lexeme. -/
theorem result_evaluate_of_ofLine_singleton {line : List Char} {lexeme : Lexeme} (h : Lexeme.ofLine line = .ok [lexeme]) :
    (table.evaluate line).result = table.lexemeValue lexeme := by
  rw [result_evaluate_of_ofLine h]
  cases lexeme with
  | error e => rfl
  | ok token =>
    cases token with
    | identifier name =>
      rw [result_ofLexemes_identifier, lexemeValue]
      cases table.resolve name with
      | error e => rfl
      | ok v => rfl
    | literal v sign => rfl
    | run text => rfl
    | openParen => rfl
    | closeParen => rfl

/-- A name alone has its value in the table. -/
theorem result_evaluate_name {name : List Char} (h : isName name = true) :
    (table.evaluate name).result = table.resolve name :=
  table.result_evaluate_of_ofLine_singleton (Lexeme.ofLine_eq_ok_iff.2 ⟨Lexeme.scan_of_isName h, List.cons_ne_nil _ _⟩)

/-- The lexeme that a term is has the value of the term. -/
theorem lexemeValue_ofWord_of_isTerm {word : List Char} (h : IsTerm word) :
    table.lexemeValue (Lexeme.ofWord word) = table.termValue word := by
  rcases h with hname | ⟨v, hnumeral⟩
  · rw [Lexeme.ofWord_of_isName hname, termValue, if_pos hname]
    rfl
  · rw [Lexeme.ofWord_of_integer? hnumeral.isName_eq_false (integer?_eq_some_iff.2 hnumeral),
      TermHasValue.termValue_eq (Or.inr hnumeral)]
    rfl

/-- The lexeme that a word is which is no term is no expression. -/
theorem lexemeValue_ofWord_of_not_isTerm {word : List Char} (h : ¬IsTerm word) :
    table.lexemeValue (Lexeme.ofWord word) = .error .invalidExpression := by
  have hname : isName word ≠ true := fun hname => h (Or.inl hname)
  have hnumeral : integer? word = none := integer?_eq_none_iff.2 fun v hnumeral => h (Or.inr ⟨v, hnumeral⟩)
  unfold Lexeme.ofWord Token.ofWord?
  rw [if_neg hname, hnumeral]
  split_ifs <;> rfl

/-! ## Both ways agree -/

/-- The value of a text as a term and as an expression: it is one lexeme with the value of the term, or it is one lexeme that is
a name without a value, or it is no term and not one lexeme with a value or a name. -/
theorem termValue_trim_cases (s : List Char) :
    (IsOneLexeme s ∧ ∃ v, (table.evaluate s).result = .ok v ∧ table.termValue (trim s) = .ok v) ∨
      (IsOneLexeme s ∧ (table.evaluate s).result = .error .unknownVariable ∧
        table.termValue (trim s) = .error .unknownVariable) ∨
      ((IsOneLexeme s → (table.evaluate s).result = .error .invalidExpression) ∧
        table.termValue (trim s) = .error .invalidAssignment) := by
  have hvalue : ∀ lexeme, Lexeme.ofLine s = .ok [lexeme] →
      (table.evaluate s).result = table.lexemeValue (Lexeme.ofWord (trim s)) := by
    intro lexeme hline
    rw [table.result_evaluate_of_ofLine_singleton hline, Lexeme.ofWord_trim_of_scan (Lexeme.ofLine_eq_ok_iff.1 hline).1]
  by_cases hterm : IsTerm (trim s)
  · have hone := Lexeme.isOneLexeme_of_isTerm hterm
    obtain ⟨lexeme, hline⟩ := hone
    have hsame : (table.evaluate s).result = table.termValue (trim s) :=
      (hvalue lexeme hline).trans (table.lexemeValue_ofWord_of_isTerm hterm)
    rw [hsame]
    rcases hterm with hname | ⟨v, hnumeral⟩
    · cases hlookup : table.lookup (trim s) with
      | some v => exact Or.inl ⟨⟨lexeme, hline⟩, v, TermHasValue.termValue_eq (Or.inl ⟨hname, hlookup⟩),
          TermHasValue.termValue_eq (Or.inl ⟨hname, hlookup⟩)⟩
      | none => exact Or.inr (Or.inl ⟨⟨lexeme, hline⟩, termValue_of_unbound hname hlookup,
          termValue_of_unbound hname hlookup⟩)
    · exact Or.inl ⟨⟨lexeme, hline⟩, v, TermHasValue.termValue_eq (Or.inr hnumeral),
        TermHasValue.termValue_eq (Or.inr hnumeral)⟩
  · refine Or.inr (Or.inr ⟨?_, ?_⟩)
    · rintro ⟨lexeme, hline⟩
      rw [hvalue lexeme hline, table.lexemeValue_ofWord_of_not_isTerm hterm]
    · refine termValue_of_no_term (Bool.eq_false_iff.2 fun hname => hterm (Or.inl hname)) ?_
      intro v hnumeral
      exact hterm (Or.inr ⟨v, hnumeral⟩)

/-- The line of a name, an equals sign and a text without one assigns the value that the text has as a term. -/
theorem value_assign_of_name_equals {name text : List Char} (hname : isName name = true) (htext : '=' ∉ text)
    (threshold : Threshold) :
    (table.assign (name ++ '=' :: text)).value threshold =
      match table.termValue (trim text) with
      | .error e => (.error e, table)
      | .ok v => (.ok (), table.store name v) := by
  have hparts : assignmentParts (name ++ '=' :: text) = [name, trim text] := by
    rw [assignmentParts_append_cons (equals_not_mem_of_isName hname), assignmentParts_of_not_mem htext, trim_of_isName hname]
  have hassignment : table.assignment (name ++ '=' :: text) = (table.termValue (trim text)).map fun v => (name, v) := by
    simp only [assignment, hparts, List.headD_cons, hname, Bool.not_true, Bool.false_eq_true, if_false]
  rw [value_assign, hassignment]
  cases table.termValue (trim text) with
  | error e => rfl
  | ok v => rfl

/-- The assignment of a text without equals sign to a name succeeds when the text is one lexeme with a value, and then the name
has this value; it fails by a name without a value when the text is one lexeme and fails so; and it fails as no assignment
otherwise, the table being as it was after each failure. After a success the name, as an expression, has the value that the text
had. -/
theorem value_assign_iff_evaluate {name text : List Char} (hname : isName name = true) (htext : '=' ∉ text)
    (threshold : Threshold) :
    let result := (table.assign (name ++ '=' :: text)).value threshold
    (∀ after, result = (.ok (), after) ↔
        IsOneLexeme text ∧ ∃ v, (table.evaluate text).result = .ok v ∧ after = table.store name v) ∧
      (result = (.error .unknownVariable, table) ↔
        IsOneLexeme text ∧ (table.evaluate text).result = .error .unknownVariable) ∧
      (result.1 = .ok () ∨ result = (.error .unknownVariable, table) ∨ result = (.error .invalidAssignment, table)) ∧
      ∀ after, result = (.ok (), after) → (after.evaluate name).result = (table.evaluate text).result := by
  intro result
  have hresult : result = match table.termValue (trim text) with
      | .error e => (.error e, table)
      | .ok v => (.ok (), table.store name v) := table.value_assign_of_name_equals hname htext threshold
  clear_value result
  -- a second value of the text, or another error, is excluded by the one that it has
  obtain ⟨hone, v, hv, hterm⟩ | ⟨hone, hunbound, hterm⟩ | ⟨hinvalid, hterm⟩ := table.termValue_trim_cases text
  all_goals rw [hterm] at hresult
  · subst hresult
    refine ⟨?_, ?_, Or.inl rfl, ?_⟩
    · intro after
      simp [hone, hv, eq_comm]
    · simp [hv]
    · intro after hafter
      cases hafter
      rw [result_evaluate_name _ hname, hv, resolve, lookup_store, if_pos rfl]
  · subst hresult
    simp [hone, hunbound]
  · subst hresult
    have hnot : ∀ r, r ≠ .error .invalidExpression → ¬(IsOneLexeme text ∧ (table.evaluate text).result = r) := by
      intro r hr h
      exact hr (h.2.symm.trans (hinvalid h.1))
    refine ⟨?_, iff_of_false (by simp) (hnot _ (by simp)), Or.inr (Or.inr rfl), ?_⟩
    · intro after
      refine iff_of_false (by simp) ?_
      rintro ⟨hone, v, hv, -⟩
      exact hnot (.ok v) (by simp) ⟨hone, hv⟩
    · intro after hafter
      cases hafter

/-- A padded negative numeral is one lexeme, although its minus is a run elsewhere, and is assigned with the value that it has. -/
theorem value_assign_of_padded_numeral :
    let table := empty.store ['x'] 2
    let text := " -007 ".toList
    isName ['n'] = true ∧ '=' ∉ text ∧ IsOneLexeme text ∧ (table.evaluate text).result = .ok (-7) ∧
      (table.assign (['n'] ++ '=' :: text)).value none = (.ok (), table.store ['n'] (-7)) ∧
      ((table.store ['n'] (-7)).evaluate ['n']).result = .ok (-7) := by
  intro table text
  have hname : isName ['n'] = true := by decide
  have htext : '=' ∉ text := by decide
  have hone : IsOneLexeme text := ⟨.ok (.literal (-7) (some .subtract)), by decide +kernel⟩
  have hvalue : (table.evaluate text).result = .ok (-7) := by decide +kernel
  obtain ⟨hassigned, -, -, hread⟩ := value_assign_iff_evaluate table hname htext none
  have hresult := (hassigned (table.store ['n'] (-7))).2 ⟨hone, -7, hvalue, rfl⟩
  exact ⟨hname, htext, hone, hvalue, hresult, (hread _ hresult).trans hvalue⟩

end Variables

end IntegerCalculator
