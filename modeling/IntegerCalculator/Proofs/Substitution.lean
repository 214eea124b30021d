import IntegerCalculator.Proofs.Context

/-!
# Names and their values

A name means its value in parentheses. If every maximal run of letters that a table binds is replaced by the numeral of its
value in parentheses (`Variables.substitute`), then the line has without any table the value or the error that it had with the
table, whether it is well formed or not (`Variables.result_evaluate_substitute`).

What stands around a name is taken for the same lexemes before and after the replacement: a parenthesis ends digits and runs as
a letter does (`Lexeme.longest_substitute`). And a bound name acts like the three tokens in its place, also where an operator is
expected, since both are an error there (`actAlike_identifier`).
-/

namespace IntegerCalculator

namespace Variables

/-- What a run of letters is replaced by: its value in parentheses, or the letters themselves if they have none. -/
def expand (table : Variables) (name : List Char) : List Char :=
  match table.lookup name with
  | some v => '(' :: (decimal v ++ [')'])
  | none => name

/-- The text with each maximal run of letters replaced. -/
def substitute (table : Variables) (s : List Char) : List Char :=
  match s with
  | [] => []
  | c :: cs =>
    if c.isAlpha then table.expand (c :: cs.takeWhile Char.isAlpha) ++ table.substitute (cs.dropWhile Char.isAlpha)
    else c :: table.substitute cs
termination_by s.length
decreasing_by
  · exact Nat.lt_succ_of_le (List.dropWhile_sublist _).length_le
  · exact Nat.lt_succ_self _

/-! ## What the replaced text starts with -/

variable (table : Variables)

theorem substitute_nil : table.substitute [] = [] := by
  rw [substitute.eq_def]

/-- What is no letter stays. -/
theorem substitute_cons {c : Char} (ha : c.isAlpha = false) (cs : List Char) :
    table.substitute (c :: cs) = c :: table.substitute cs := by
  rw [substitute.eq_def]
  simp [ha]

/-- A run of letters is replaced as a whole. -/
theorem substitute_cons_of_isAlpha {c : Char} (ha : c.isAlpha = true) (cs : List Char) :
    table.substitute (c :: cs) =
      table.expand (c :: cs.takeWhile Char.isAlpha) ++ table.substitute (cs.dropWhile Char.isAlpha) := by
  rw [substitute.eq_def]
  simp [ha]

/-- A text that starts with a letter starts, replaced, with a parenthesis or a letter, which ends blanks, digits and runs alike. -/
theorem exists_substitute_of_isAlpha {c : Char} (ha : c.isAlpha = true) (cs : List Char) :
    ∃ d rest, table.substitute (c :: cs) = d :: rest ∧ isBlank d = false ∧ d.isDigit = false ∧
      startsOther (d :: rest) = true := by
  rw [substitute_cons_of_isAlpha table ha, expand]
  split
  · exact ⟨_, _, rfl, rfl, rfl, rfl⟩
  · exact ⟨_, _, rfl, isBlank_eq_false_of_isAlpha ha, isDigit_eq_false_of_isAlpha ha, by simp [startsOther, ha]⟩

/-- A replaced text is blank throughout when the text is. -/
theorem all_isBlank_substitute (s : List Char) : (table.substitute s).all isBlank = s.all isBlank := by
  induction s with
  | nil => rw [substitute_nil]
  | cons c cs ih =>
    by_cases ha : c.isAlpha = true
    · obtain ⟨d, rest, hs, hd, -, -⟩ := exists_substitute_of_isAlpha table ha cs
      rw [hs, List.all_cons, List.all_cons, hd, isBlank_eq_false_of_isAlpha ha]
      rfl
    · rw [substitute_cons table (Bool.not_eq_true _ ▸ ha), List.all_cons, List.all_cons, ih]

/-- Digits are taken and dropped from a replaced text as from the text. -/
theorem digits_substitute (s : List Char) :
    (table.substitute s).takeWhile Char.isDigit = s.takeWhile Char.isDigit ∧
      (table.substitute s).dropWhile Char.isDigit = table.substitute (s.dropWhile Char.isDigit) := by
  induction s with
  | nil =>
    rw [substitute_nil]
    exact ⟨rfl, (substitute_nil table).symm⟩
  | cons c cs ih =>
    by_cases ha : c.isAlpha = true
    · obtain ⟨d, rest, hs, -, hd, -⟩ := exists_substitute_of_isAlpha table ha cs
      simp [hs, hd, isDigit_eq_false_of_isAlpha ha]
    · rw [substitute_cons table (Bool.not_eq_true _ ▸ ha), List.takeWhile_cons, List.takeWhile_cons, List.dropWhile_cons,
        List.dropWhile_cons]
      by_cases hc : c.isDigit = true
      · simp [hc, ih]
      · simp [hc, substitute_cons table (Bool.not_eq_true _ ▸ ha)]

/-- A replaced text starts with a digit when the text does. -/
theorem startsWithDigit_substitute (s : List Char) : startsWithDigit (table.substitute s) = startsWithDigit s := by
  cases s with
  | nil => rw [substitute_nil]
  | cons c cs =>
    by_cases ha : c.isAlpha = true
    · obtain ⟨d, rest, hs, -, hd, -⟩ := exists_substitute_of_isAlpha table ha cs
      rw [hs]
      exact hd.trans (isDigit_eq_false_of_isAlpha ha).symm
    · rw [substitute_cons table (Bool.not_eq_true _ ▸ ha)]
      rfl

/-- A run is taken and dropped from a replaced text as from the text. -/
theorem run_substitute (s : List Char) :
    leadingRun (table.substitute s) = leadingRun s ∧
      (table.substitute s).drop (leadingRun s).length = table.substitute (s.drop (leadingRun s).length) := by
  induction s with
  | nil =>
    rw [substitute_nil]
    exact ⟨rfl, (substitute_nil table).symm⟩
  | cons c cs ih =>
    by_cases ha : c.isAlpha = true
    · obtain ⟨d, rest, hs, -, -, hd⟩ := exists_substitute_of_isAlpha table ha cs
      have hrun : leadingRun (c :: cs) = [] := by simp [leadingRun, startsOther, ha]
      have hrun' : leadingRun (d :: rest) = [] := by rw [leadingRun, if_pos hd]
      rw [hrun, hs, hrun', ← hs]
      exact ⟨rfl, rfl⟩
    · rw [Bool.not_eq_true] at ha
      have hstarts : startsOther (c :: table.substitute cs) = startsOther (c :: cs) := by
        rw [startsOther, startsOther, startsWithDigit_substitute]
      rw [substitute_cons table ha, leadingRun, leadingRun, hstarts]
      split
      · exact ⟨rfl, (substitute_cons table ha cs).symm⟩
      · exact ⟨congrArg (c :: ·) ih.1, ih.2⟩

end Variables

/-! ## The lexemes of the replaced text -/

namespace Lexeme

/-- Where no letter stands, the lexeme that is taken from a replaced text is the one that is taken from the text. -/
theorem longest_substitute (table : Variables) {c : Char} (ha : c.isAlpha = false) (cs : List Char) :
    longest c (table.substitute cs) = ((longest c cs).1, table.substitute (longest c cs).2) := by
  obtain ⟨htake, hdrop⟩ := table.digits_substitute cs
  obtain ⟨hrun, hdropRun⟩ := table.run_substitute cs
  simp only [longest, ha, Bool.false_eq_true, if_false, htake, hdrop, hrun, hdropRun, table.startsWithDigit_substitute]
  repeat' split
  all_goals rfl

end Lexeme

/-! ## Names and their values act alike -/

theorem ActAlike.nil (t u : Variables) : ActAlike t [] u [] :=
  fun c => .ok c fun _ => rfl

/-- A lexeme that is no name acts alike with every two tables. -/
theorem actAlike_of_ne_identifier (t u : Variables) {lexeme : Lexeme} (h : ∀ name, lexeme ≠ .ok (.identifier name)) :
    ActAlike t [lexeme] u [lexeme] := by
  intro c
  have hsame : (c.consume t [lexeme]).result = (c.consume u [lexeme]).result := by
    rw [Conversion.result_consume_cons, Conversion.result_consume_cons]
    cases lexeme with
    | error e => rfl
    | ok token =>
      cases token with
      | identifier name => exact absurd rfl (h name)
      | literal v sign => rfl
      | run text => rfl
      | openParen => rfl
      | closeParen => rfl
  rw [hsame]
  exact ActAlike.refl u [lexeme] c

/-- A name without a value acts alike with every two tables that give it none. -/
theorem actAlike_unbound {t u : Variables} {name : List Char} (ht : t.lookup name = none) (hu : u.lookup name = none) :
    ActAlike t [.ok (.identifier name)] u [.ok (.identifier name)] := by
  rintro ⟨pending, expects⟩
  rw [Conversion.result_consume_cons, Conversion.result_consume_cons, Calculation.ok_bind, Calculation.ok_bind]
  cases expects with
  | false => exact .error _
  | true =>
    simp only [Conversion.result_step_operand_expected, Variables.resolve, ht, hu]
    exact .error _

/-- A name acts like its value in parentheses. -/
theorem actAlike_identifier {t : Variables} {name : List Char} {v : Int} (h : t.lookup name = some v) (u : Variables)
    (sign : Option Operator) :
    ActAlike t [.ok (.identifier name)] u [.ok .openParen, .ok (.literal v sign), .ok .closeParen] := by
  rintro ⟨pending, expects⟩
  cases expects with
  | false =>
    rw [Conversion.result_consume_openParen, Conversion.result_consume_cons]
    exact .error _
  | true =>
    have hliteral : Token.listTerminals u false [.literal v sign] = some (ParseTree.ofProduct (.ofFactor (.value v))).yield := by
      cases sign <;> rfl
    have hgroup : (Conversion.consume u ⟨pending, true⟩ [.ok .openParen, .ok (.literal v sign), .ok .closeParen]).result =
        .ok ([.operand v], ⟨pending, false⟩) := Conversion.result_consume_group hliteral pending
    have hvalue : Token.listTerminals t false [.identifier name] = some [.value v] := by
      simp [Token.listTerminals, Token.terminals, h]
    have hname : (Conversion.consume t ⟨pending, true⟩ [.ok (.identifier name)]).result =
        .ok ([.operand v], ⟨pending, false⟩) :=
      @Conversion.result_consume_eq_ok_iff t ⟨pending, true⟩ _ [.identifier name] _ |>.2 ⟨_, hvalue, rfl⟩
    rw [hname, hgroup]
    exact .ok _ fun stack => rfl

/-- The letters that a run of letters is, and its value in parentheses, act alike before what is no letter. -/
theorem actAlike_expand (table : Variables) {name : List Char} (hname : isName name = true) {rest : List Char}
    (hrest : ∀ c, rest.head? = some c → c.isAlpha = false) :
    ∃ lexemes, Lexeme.scan (table.expand name ++ rest) = lexemes ++ Lexeme.scan rest ∧
      ActAlike table [.ok (.identifier name)] .empty lexemes := by
  cases h : table.lookup name with
  | some v =>
    obtain ⟨sign, hdecimal⟩ := Lexeme.scan_decimal v
    have htext : table.expand name ++ rest = '(' :: (decimal v ++ ')' :: rest) := by
      simp [Variables.expand, h]
    refine ⟨_, ?_, actAlike_identifier h .empty sign⟩
    rw [htext, Lexeme.scan_openParen, Lexeme.scan_append_cons rfl, hdecimal, Lexeme.scan_closeParen]
    rfl
  | none =>
    have htext : table.expand name = name := by
      simp [Variables.expand, h]
    refine ⟨_, ?_, actAlike_unbound h (Variables.lookup_empty name)⟩
    rw [htext, Lexeme.scan_name hname hrest]
    rfl

/-- The lexemes of a replaced text act, without a table, like those of the text with the table. -/
theorem actAlike_scan_substitute (table : Variables) (s : List Char) :
    ActAlike table (Lexeme.scan s) .empty (Lexeme.scan (table.substitute s)) := by
  fun_induction Lexeme.scan s with
  | case1 =>
    rw [Variables.substitute_nil, Lexeme.scan_nil]
    exact ActAlike.nil table .empty
  | case2 c cs hb ih =>
    rw [Variables.substitute_cons table (isAlpha_eq_false_of_isBoundary (isBoundary_of_isBlank hb)), Lexeme.scan_cons, if_pos hb]
    exact ih
  | case3 c cs hb ih =>
    by_cases ha : c.isAlpha = true
    · have hlongest : Lexeme.longest c cs =
          (.ok (.identifier (c :: cs.takeWhile Char.isAlpha)), cs.dropWhile Char.isAlpha) := by
        rw [Lexeme.longest, if_pos ha]
      rw [hlongest] at ih ⊢
      have hname : isName (c :: cs.takeWhile Char.isAlpha) = true := by
        simp [isName, ha]
      -- what follows the run of letters starts as before, with what is no letter
      have hrest : ∀ d, (table.substitute (cs.dropWhile Char.isAlpha)).head? = some d → d.isAlpha = false := by
        have hhead := List.head?_dropWhile_not Char.isAlpha cs
        intro d hd
        cases hdrop : cs.dropWhile Char.isAlpha with
        | nil =>
          rw [hdrop, Variables.substitute_nil] at hd
          cases hd
        | cons e es =>
          rw [hdrop] at hhead hd
          have he : e.isAlpha = false := hhead
          rw [Variables.substitute_cons table he] at hd
          cases hd
          exact he
      obtain ⟨lexemes, hscan, hacts⟩ := actAlike_expand table hname hrest
      rw [Variables.substitute_cons_of_isAlpha table ha, hscan]
      exact hacts.append ih
    · rw [Bool.not_eq_true] at ha
      rw [Variables.substitute_cons table ha, Lexeme.scan_cons, if_neg hb, Lexeme.longest_substitute table ha]
      exact (actAlike_of_ne_identifier table .empty (Lexeme.longest_ne_identifier ha cs)).append ih

namespace Variables

/-- A name means its value in parentheses: a line in which every maximal run of letters that the table binds is replaced by the
numeral of its value in parentheses has, with the empty table, the value or the error that the line has with the table. -/
theorem result_evaluate_substitute (table : Variables) (line : List Char) :
    (table.evaluate line).result = (empty.evaluate (table.substitute line)).result := by
  by_cases hblank : line.all isBlank = true
  · rw [result_evaluate_of_blank hblank, result_evaluate_of_blank ((table.all_isBlank_substitute line).trans hblank)]
  · rw [Bool.not_eq_true] at hblank
    rw [result_evaluate_of_ofLine (Lexeme.ofLine_of_not_blank hblank),
      result_evaluate_of_ofLine (Lexeme.ofLine_of_not_blank ((table.all_isBlank_substitute line).trans hblank))]
    exact (actAlike_scan_substitute table line).result_value_eq

/-- Letters are replaced as one run, next to digits and signs as well, and an unbound run stays, though a part of it is bound. -/
example : (empty.store ['x'] (-7)).substitute "2x+-x*xy".toList = "2(-7)+-(-7)*xy".toList := by
  cbv

end Variables

end IntegerCalculator
