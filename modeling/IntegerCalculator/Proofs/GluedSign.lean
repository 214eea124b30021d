import IntegerCalculator.Proofs.OppositeSign
import IntegerCalculator.Proofs.Rendering

/-!
# Signs before digits

A run of signs between an operand and a number may be glued to the number or not: blanks between the last sign and the digits
change neither the value nor the error of a line (`Variables.result_evaluate_blanks_before_digits`). Glued, the last sign
belongs to the literal, and the run before it is the operator; parted, the whole run is the operator. So the two lines give the
same operator and the same value, or the opposite sign with the opposite value (`Lexeme.scan_glued_signs`).

The text before the run may be anything that ends with a letter, a digit or a closing parenthesis. Whatever follows it but a
letter or digit, the scanner takes the same lexemes of it, and the last of them ends an operand
(`Lexeme.exists_scan_of_endsOperand`).
-/

namespace IntegerCalculator

/-- The text ends with a letter or a digit. -/
def EndsTerm (s : List Char) : Prop := ∃ c, s.getLast? = some c ∧ (c.isAlpha = true ∨ c.isDigit = true)

/-- The last character of the text that is not blank is a letter, a digit or a closing parenthesis. -/
def EndsOperand (s : List Char) : Prop :=
  ∃ before c blanks, s = before ++ c :: blanks ∧ (c.isAlpha = true ∨ c.isDigit = true ∨ c = ')') ∧ Blanks blanks

/-! ## What the scanner takes of a text that ends with a term -/

namespace EndsTerm

theorem ne_nil {s : List Char} (h : EndsTerm s) : s ≠ [] := by
  rintro rfl
  obtain ⟨c, hlast, -⟩ := h
  cases hlast

/-- What is left at the end of the text ends with the same term. -/
theorem of_append {s t : List Char} (h : EndsTerm (s ++ t)) (ht : t ≠ []) : EndsTerm t := by
  obtain ⟨c, hlast, hc⟩ := h
  rw [List.getLast?_append, List.getLast?_eq_some_getLast ht, Option.some_or, ← List.getLast?_eq_some_getLast ht] at hlast
  exact ⟨c, hlast, hc⟩

/-- A character that is no letter or digit is not the last one. -/
theorem tail {c : Char} {s : List Char} (h : EndsTerm (c :: s)) (ha : c.isAlpha = false) (hd : c.isDigit = false) :
    EndsTerm s := by
  refine of_append (s := [c]) h ?_
  rintro rfl
  obtain ⟨c', hlast, hc⟩ := h
  cases hlast
  simp [ha, hd] at hc

end EndsTerm

/-- Whether a text starts with a digit is seen without what follows it. -/
theorem startsWithDigit_append_of_ne_nil {s : List Char} (h : s ≠ []) (rest : List Char) :
    startsWithDigit (s ++ rest) = startsWithDigit s := by
  cases s with
  | nil => exact absurd rfl h
  | cons c s => rfl

/-- Whether a run goes on is seen without what follows a text that ends with a term. -/
theorem startsOther_append_of_endsTerm {c : Char} {s : List Char} (h : EndsTerm (c :: s)) (rest : List Char) :
    startsOther (c :: (s ++ rest)) = startsOther (c :: s) := by
  cases s with
  | nil =>
    obtain ⟨c', hlast, hc⟩ := h
    obtain rfl : c = c' := Option.some.inj hlast
    rcases hc with hc | hc
    · simp [startsOther, hc]
    · simp [startsOther, hc]
  | cons d s => rfl

/-- A run ends before the term that the text ends with, whatever follows. -/
theorem leadingRun_append_of_endsTerm {s : List Char} (h : EndsTerm s) (rest : List Char) :
    leadingRun (s ++ rest) = leadingRun s := by
  induction s with
  | nil => exact absurd rfl h.ne_nil
  | cons c s ih =>
    rw [List.cons_append, leadingRun, leadingRun, startsOther_append_of_endsTerm h rest]
    split
    · rfl
    · next hc =>
      obtain ⟨-, ha, hd, -, -⟩ := startsOther_cons_eq_false (Bool.not_eq_true _ ▸ hc)
      rw [ih (h.tail ha hd)]

/-- What a run leaves ends with the same term. -/
theorem EndsTerm.drop_leadingRun {s : List Char} (h : EndsTerm s) : EndsTerm (s.drop (leadingRun s).length) := by
  induction s with
  | nil => exact absurd rfl h.ne_nil
  | cons c s ih =>
    rw [leadingRun]
    split
    · exact h
    · next hc =>
      obtain ⟨-, ha, hd, -, -⟩ := startsOther_cons_eq_false (Bool.not_eq_true _ ▸ hc)
      exact ih (h.tail ha hd)

namespace Lexeme

/-- What is taken at the start of the text does not depend on what follows it: either what is left ends with a term as well, or
all of the text is taken, as the end of an operand, if a term stops there. -/
def Settled (c : Char) (s : List Char) : Prop :=
  (EndsTerm (longest c s).2 ∧ ∀ rest, longest c (s ++ rest) = ((longest c s).1, (longest c s).2 ++ rest)) ∨
    ∃ token : Token, token.endsOperand = true ∧ ∀ rest, StopsTerm rest → longest c (s ++ rest) = (.ok token, rest)

variable {c : Char} {s : List Char}

/-- A lexeme that leaves a term at the end of the text is taken whatever follows. -/
theorem settled_of_left (lexeme : Lexeme) {t : List Char} (ht : EndsTerm t)
    (h : ∀ rest, longest c (s ++ rest) = (lexeme, t ++ rest)) : Settled c s := by
  have halone := h []
  rw [List.append_nil, List.append_nil] at halone
  refine .inl ⟨?_, ?_⟩
  · rw [halone]
    exact ht
  · intro rest
    rw [h, halone]

/-- A name or numeral either ends inside the text or is the term that the text ends with. -/
theorem settled_of_takeWhile (token : List Char → Token) {p : Char → Bool} (hends : EndsTerm (c :: s))
    (htoken : ∀ w, (token w).endsOperand = true) (hp : ∀ rest, StopsTerm rest → ∀ d, rest.head? = some d → p d = false)
    (h : ∀ rest, longest c (s ++ rest) = (.ok (token ((s ++ rest).takeWhile p)), (s ++ rest).dropWhile p)) :
    Settled c s := by
  have hs : s.takeWhile p ++ s.dropWhile p = s := List.takeWhile_append_dropWhile
  have htaken : ∀ d ∈ s.takeWhile p, p d = true := List.all_eq_true.1 List.all_takeWhile
  cases hdrop : s.dropWhile p with
  | nil =>
    rw [hdrop, List.append_nil] at hs
    have hall : ∀ d ∈ s, p d = true := hs ▸ htaken
    refine .inr ⟨token s, htoken s, ?_⟩
    intro rest hrest
    obtain ⟨htake, hdropped⟩ := takeWhile_dropWhile_append hall (hp rest hrest)
    rw [h, htake, hdropped]
  | cons d t =>
    rw [hdrop] at hs
    have hd : p d = false := by
      have hhead := List.head?_dropWhile_not p s
      rw [hdrop] at hhead
      exact hhead
    have hleft : EndsTerm (d :: t) := by
      rw [← hs] at hends
      exact EndsTerm.of_append (s := c :: s.takeWhile p) hends (List.cons_ne_nil d t)
    refine settled_of_left (.ok (token (s.takeWhile p))) hleft ?_
    intro rest
    have hstop : ∀ d', (d :: t ++ rest).head? = some d' → p d' = false := by
      intro d' hd'
      cases hd'
      exact hd
    obtain ⟨htake, hdropped⟩ := takeWhile_dropWhile_append htaken hstop
    rw [← List.append_assoc, hs] at htake hdropped
    rw [h, htake, hdropped]

/-- In a text that ends with a term, what is taken first does not depend on what follows the text. -/
theorem settled_of_endsTerm {c : Char} {s : List Char} (h : EndsTerm (c :: s)) : Settled c s := by
  have hdigit : c.isAlpha ≠ true → c.isDigit ≠ true → ∀ rest, startsWithDigit (s ++ rest) = startsWithDigit s := by
    intro ha hd
    exact startsWithDigit_append_of_ne_nil (h.tail (Bool.not_eq_true _ ▸ ha) (Bool.not_eq_true _ ▸ hd)).ne_nil
  fun_cases longest c s with
  | case1 ha =>
    refine settled_of_takeWhile (fun w => .identifier (c :: w)) h (fun _ => rfl)
      (fun rest hrest d hd => (hrest d hd).1) ?_
    intro rest
    rw [longest, if_pos ha]
  | case2 ha hd =>
    refine settled_of_takeWhile (fun w => .literal (digitsValue (c :: w)) none) h (fun _ => rfl)
      (fun rest hrest d hd => (hrest d hd).2) ?_
    intro rest
    rw [longest, if_neg ha, if_pos hd]
  | case3 ha hd hplus =>
    refine settled_of_takeWhile (fun w => .literal (digitsValue w) (some .add)) h (fun _ => rfl)
      (fun rest hrest d hd => (hrest d hd).2) ?_
    intro rest
    rw [longest, if_neg ha, if_neg hd, hdigit ha hd, if_pos hplus]
  | case4 ha hd hplus hminus =>
    refine settled_of_takeWhile (fun w => .literal (-digitsValue w) (some .subtract)) h (fun _ => rfl)
      (fun rest hrest d hd => (hrest d hd).2) ?_
    intro rest
    rw [longest, if_neg ha, if_neg hd, hdigit ha hd, if_neg hplus, if_pos hminus]
  | case5 ha hd hplus hminus hopen =>
    refine settled_of_left (.ok .openParen) (h.tail (Bool.not_eq_true _ ▸ ha) (Bool.not_eq_true _ ▸ hd)) ?_
    intro rest
    rw [longest, if_neg ha, if_neg hd, hdigit ha hd, if_neg hplus, if_neg hminus, if_pos hopen]
  | case6 ha hd hplus hminus hopen hclose =>
    refine settled_of_left (.ok .closeParen) (h.tail (Bool.not_eq_true _ ▸ ha) (Bool.not_eq_true _ ▸ hd)) ?_
    intro rest
    rw [longest, if_neg ha, if_neg hd, hdigit ha hd, if_neg hplus, if_neg hminus, if_neg hopen, if_pos hclose]
  | case7 ha hd hplus hminus hopen hclose =>
    have hs := h.tail (Bool.not_eq_true _ ▸ ha) (Bool.not_eq_true _ ▸ hd)
    refine settled_of_left (.ofRun (c :: leadingRun s)) hs.drop_leadingRun ?_
    intro rest
    rw [longest, if_neg ha, if_neg hd, hdigit ha hd, if_neg hplus, if_neg hminus, if_neg hopen, if_neg hclose,
      leadingRun_append_of_endsTerm hs, List.drop_append_of_le_length (length_leadingRun_le s)]

/-- Of a text that ends with a term the scanner takes the same lexemes whatever follows, if the term stops there, and the last
of them ends an operand. -/
theorem exists_scan_of_endsTerm {s : List Char} (h : EndsTerm s) :
    ∃ (lexemes : List Lexeme) (token : Token), token.endsOperand = true ∧
      ∀ rest, StopsTerm rest → scan (s ++ rest) = lexemes ++ .ok token :: scan rest := by
  fun_induction scan s with
  | case1 => exact absurd rfl h.ne_nil
  | case2 c s hb ih =>
    have hboundary := isBoundary_of_isBlank hb
    obtain ⟨lexemes, token, htoken, hscan⟩ :=
      ih (h.tail (isAlpha_eq_false_of_isBoundary hboundary) (isDigit_eq_false_of_isBoundary hboundary))
    refine ⟨lexemes, token, htoken, ?_⟩
    intro rest hrest
    rw [List.cons_append, scan_cons, if_pos hb, hscan rest hrest]
  | case3 c s hb ih =>
    rcases settled_of_endsTerm h with ⟨hleft, hlongest⟩ | ⟨token, htoken, hlongest⟩
    · obtain ⟨lexemes, token, htoken, hscan⟩ := ih hleft
      refine ⟨(longest c s).1 :: lexemes, token, htoken, ?_⟩
      intro rest hrest
      rw [List.cons_append, scan_cons, if_neg hb, hlongest, hscan rest hrest, List.cons_append]
    · refine ⟨[], token, htoken, ?_⟩
      intro rest hrest
      rw [List.cons_append, scan_cons, if_neg hb, hlongest rest hrest, List.nil_append]

/-- Of a text whose last character that is not blank ends an operand the scanner takes the same lexemes whatever follows, if no
letter or digit does, and the last of them ends an operand. -/
theorem exists_scan_of_endsOperand {s : List Char} (h : EndsOperand s) :
    ∃ (lexemes : List Lexeme) (token : Token), token.endsOperand = true ∧
      ∀ rest, StopsTerm rest → scan (s ++ rest) = lexemes ++ .ok token :: scan rest := by
  obtain ⟨before, c, blanks, rfl, hc, hblanks⟩ := h
  have hparen : c = ')' ∨ EndsTerm (before ++ [c]) := by
    rcases hc with hc | hc | hc
    · exact .inr ⟨c, List.getLast?_concat, .inl hc⟩
    · exact .inr ⟨c, List.getLast?_concat, .inr hc⟩
    · exact .inl hc
  rcases hparen with rfl | hends
  · refine ⟨scan before, .closeParen, rfl, ?_⟩
    intro rest _
    rw [List.append_assoc, List.cons_append, scan_append_cons rfl, scan_closeParen, scan_blanks hblanks]
  · obtain ⟨lexemes, token, htoken, hscan⟩ := exists_scan_of_endsTerm hends
    refine ⟨lexemes, token, htoken, ?_⟩
    intro rest hrest
    rw [List.append_cons, List.append_assoc, hscan _ (.blanks hblanks hrest), scan_blanks hblanks]

end Lexeme

/-! ## Signs and digits -/

namespace Operator

variable {signs : List Char} (hne : signs ≠ []) (hsigns : ∀ c ∈ signs, c = '+' ∨ c = '-')

include hne hsigns

/-- A run of signs stands for an addition or a subtraction. -/
theorem exists_ofRun?_of_signs : ∃ op, op.IsAdditive ∧ ofRun? signs = some op := by
  refine ⟨_, ?_, ofRun?_of_signs hne hsigns⟩
  split
  · exact .inl rfl
  · exact .inr rfl

/-- A plus sign more leaves the operator that a run of signs stands for, and a minus sign more turns it round. -/
theorem ofRun?_concat {op : Operator} (h : ofRun? signs = some op) :
    ofRun? (signs ++ ['+']) = some op ∧ ofRun? (signs ++ ['-']) = some op.flip := by
  have hlonger : ∀ sign, sign = '+' ∨ sign = '-' →
      ofRun? (signs ++ [sign]) = some (if (signs ++ [sign]).count '-' % 2 = 0 then add else subtract) := by
    intro sign hsign
    refine ofRun?_of_signs (List.append_ne_nil_of_left_ne_nil hne _) ?_
    intro c hc
    rcases List.mem_append.1 hc with hc | hc
    · exact hsigns c hc
    · exact List.mem_singleton.1 hc ▸ hsign
  rw [ofRun?_of_signs hne hsigns] at h
  cases h
  rw [hlonger '+' (.inl rfl), hlonger '-' (.inr rfl), List.count_append, List.count_append, List.count_singleton,
    List.count_singleton]
  rcases Nat.mod_two_eq_zero_or_one (signs.count '-') with hpar | hpar
  · have hodd : (signs.count '-' + 1) % 2 = 1 := by omega
    simp [hpar, hodd, flip]
  · have heven : (signs.count '-' + 1) % 2 = 0 := by omega
    simp [hpar, heven, flip]

end Operator

namespace Lexeme

variable {signs digits after : List Char} (hne : signs ≠ []) (hsigns : ∀ c ∈ signs, c = '+' ∨ c = '-')
  (hdigits : isDigits digits = true) (hafter : ∀ c, after.head? = some c → c.isDigit = false)

include hsigns in
theorem isOperatorChar_of_signs : ∀ c ∈ signs, isOperatorChar c = true := by
  intro c hc
  rcases hsigns c hc with rfl | rfl
  · decide
  · decide

include hne hsigns hdigits hafter

/-- Signs that blanks part from digits are an operator, and the digits are a value. -/
theorem scan_parted_signs {blanks : List Char} (hblanks : Blanks blanks) (hparted : blanks ≠ []) :
    scan (signs ++ (blanks ++ (digits ++ after))) =
      [Token.run signs, .literal (digitsValue digits) none].map .ok ++ scan after := by
  obtain ⟨c, rest, rfl⟩ := List.exists_cons_of_ne_nil hparted
  have hc : isBoundary c = true := isBoundary_of_isBlank (hblanks c (by simp))
  have hstarts : startsOther (c :: rest ++ (digits ++ after)) = true := startsOther_of_isBoundary hc _
  have hdigit : startsWithDigit (c :: rest ++ (digits ++ after)) = false := isDigit_eq_false_of_isBoundary hc
  have hwhole : startsWithDigit (c :: rest ++ (digits ++ after)) = true → ∀ d ∈ signs, isSign d = false := by
    rw [hdigit]
    intro h
    cases h
  rw [scan_run hne (isOperatorChar_of_signs hsigns) hstarts hwhole, scan_blanks hblanks, scan_digits hdigits hafter]
  rfl

/-- Signs directly before digits are the same operator and value as parted from them, or the opposite sign and value. The
last sign belongs to the literal; an operator before it is that of the whole run, unless that sign is a minus. -/
theorem scan_glued_signs {op : Operator} (hop : Operator.ofRun? signs = some op) :
    ∃ tokens : List Token, scan (signs ++ (digits ++ after)) = tokens.map .ok ++ scan after ∧
      ∀ table, Token.AreSigned table op (digitsValue digits) tokens ∨
        Token.AreSigned table op.flip (-digitsValue digits) tokens := by
  rcases List.eq_nil_or_concat signs with rfl | ⟨init, sign, rfl⟩
  · exact absurd rfl hne
  rw [List.concat_eq_append] at hsigns hop ⊢
  have hsign : sign = '+' ∨ sign = '-' := hsigns sign (by simp)
  by_cases hinit : init = []
  · -- the sign of the literal is the operator, and its absolute value is the value
    subst hinit
    rcases hsign with rfl | rfl
    · refine ⟨[.literal (digitsValue digits) (some .add)], scan_plus hdigits hafter, ?_⟩
      cases hop
      simp [Token.AreSigned, Token.listTerminals, Token.terminals]
    · refine ⟨[.literal (-digitsValue digits) (some .subtract)], scan_minus hdigits hafter, ?_⟩
      cases hop
      simp [Token.AreSigned, Token.listTerminals, Token.terminals]
  · have hinits : ∀ c ∈ init, c = '+' ∨ c = '-' := fun c hc => hsigns c (List.mem_append_left _ hc)
    have hrun : scan (init ++ (sign :: (digits ++ after))) = .ok (.run init) :: scan (sign :: (digits ++ after)) := by
      refine scan_run hinit (isOperatorChar_of_signs hinits) (startsOther_sign ?_ hdigits after) ?_
      · rcases hsign with rfl | rfl <;> decide
      · intro hdigit
        rcases hsign with rfl | rfl <;> cases hdigit
    obtain ⟨op', hadditive, hop'⟩ := Operator.exists_ofRun?_of_signs hinit hinits
    obtain ⟨hplus, hminus⟩ := Operator.ofRun?_concat hinit hinits hop'
    rw [List.append_assoc, List.singleton_append, hrun]
    rcases hsign with rfl | rfl
    · refine ⟨[.run init, .literal (digitsValue digits) (some .add)], by rw [scan_plus hdigits hafter]; rfl, ?_⟩
      rw [hplus] at hop
      cases hop
      simp [Token.AreSigned, Token.listTerminals, Token.terminals, Token.endsOperand, hop']
    · refine ⟨[.run init, .literal (-digitsValue digits) (some .subtract)], by rw [scan_minus hdigits hafter]; rfl, ?_⟩
      rw [hminus] at hop
      cases hop
      simp [Token.AreSigned, Token.listTerminals, Token.terminals, Token.endsOperand, hop', hadditive.flip_flip]

end Lexeme

/-- Digits go on with the digits that follow them. -/
theorem exists_digits_append {digits : List Char} (h : isDigits digits = true) (after : List Char) :
    ∃ digits' after', isDigits digits' = true ∧ (∀ c, after'.head? = some c → c.isDigit = false) ∧
      digits ++ after = digits' ++ after' := by
  refine ⟨digits ++ after.takeWhile Char.isDigit, after.dropWhile Char.isDigit, ?_, ?_, ?_⟩
  · simp only [isDigits, Bool.and_eq_true, List.all_append, Bool.not_eq_true', List.isEmpty_eq_false_iff] at h ⊢
    exact ⟨List.append_ne_nil_of_left_ne_nil h.1 _, h.2, List.all_takeWhile⟩
  · intro c hc
    have hhead := List.head?_dropWhile_not Char.isDigit after
    rw [hc] at hhead
    exact hhead
  · rw [List.append_assoc, List.takeWhile_append_dropWhile]

namespace Variables

/-- A run of signs may be glued to the number after it or not: after an operand, blanks between the signs and the digits change
neither the value of a line nor its error. -/
theorem result_evaluate_blanks_before_digits (table : Variables) {before signs blanks digits : List Char}
    (hbefore : EndsOperand before) (hne : signs ≠ []) (hsigns : ∀ c ∈ signs, c = '+' ∨ c = '-') (hblanks : Blanks blanks)
    (hdigits : isDigits digits = true) (after : List Char) :
    (table.evaluate (before ++ (signs ++ (digits ++ after)))).result =
      (table.evaluate (before ++ (signs ++ (blanks ++ (digits ++ after))))).result := by
  by_cases hparted : blanks = []
  · rw [hparted, List.nil_append]
  · obtain ⟨digits', after', hdigits', hafter, heq⟩ := exists_digits_append hdigits after
    obtain ⟨op, hadditive, hop⟩ := Operator.exists_ofRun?_of_signs hne hsigns
    obtain ⟨lexemes, token, htoken, hscan⟩ := Lexeme.exists_scan_of_endsOperand hbefore
    obtain ⟨tokens, hglued, hterminals⟩ := Lexeme.scan_glued_signs hne hsigns hdigits' hafter hop
    have hparts := Lexeme.scan_parted_signs hne hsigns hdigits' hafter hblanks hparted
    have hread : Token.AreSigned table op (digitsValue digits') [.run signs, .literal (digitsValue digits') none] := by
      simp [Token.AreSigned, Token.listTerminals, Token.terminals, hop]
    -- a sign is neither blank nor part of a name or numeral before it
    have hline : ∀ rest, Lexeme.ofLine (before ++ (signs ++ rest)) =
        .ok (lexemes ++ .ok token :: Lexeme.scan (signs ++ rest)) := by
      intro rest
      obtain ⟨sign, signs, rfl⟩ := List.exists_cons_of_ne_nil hne
      obtain ⟨hb, ha, hd, -⟩ := Lexeme.isOperatorChar_kind (Lexeme.isOperatorChar_of_signs hsigns sign (by simp))
      have hblank : (before ++ (sign :: signs ++ rest)).all isBlank = false := by
        rw [List.all_append, List.cons_append, List.all_cons, hb, Bool.false_and, Bool.and_false]
      rw [Lexeme.ofLine_of_not_blank hblank, hscan (sign :: signs ++ rest) (stopsTerm_cons ha hd _)]
    rw [heq, result_evaluate_of_ofLine (hline _), result_evaluate_of_ofLine (hline _), hglued, hparts]
    rcases hterminals table with hsame | hopposite
    · rw [Postfix.result_ofLexemes_of_same_sign htoken hsame hread]
    · exact (Postfix.result_value_opposite htoken hadditive hread hopposite).symm

/-- With the last sign at the number, minus five is divided and taken off; with a blank between, five is divided and added. The
line that ends in a division by zero and an unbound name has the same error with and without the blank. -/
theorem result_evaluate_blank_before_quotient :
    let table := empty.store ['x'] 7
    let before := "x * (2) ".toList
    let signs := "+--".toList
    EndsOperand before ∧ signs ≠ [] ∧ (∀ c ∈ signs, c = '+' ∨ c = '-') ∧ Blanks [' '] ∧ isDigits ['5'] = true ∧
      (table.evaluate (before ++ (signs ++ (['5'] ++ "/2*3-1".toList)))).result =
        (table.evaluate (before ++ (signs ++ ([' '] ++ (['5'] ++ "/2*3-1".toList))))).result ∧
      (table.evaluate (before ++ (signs ++ (['5'] ++ "/2*3-1".toList)))).result = .ok 19 ∧
      (table.evaluate (before ++ (signs ++ (['5'] ++ "/0 + y".toList)))).result =
        (table.evaluate (before ++ (signs ++ ([' '] ++ (['5'] ++ "/0 + y".toList))))).result := by
  intro table before signs
  have hbefore : EndsOperand before := ⟨"x * (2".toList, ')', [' '], by decide, by decide, by decide⟩
  have hne : signs ≠ [] := by decide
  have hsigns : ∀ c ∈ signs, c = '+' ∨ c = '-' := by simp [signs]
  have hblanks : Blanks [' '] := by decide
  have hdigits : isDigits ['5'] = true := by decide
  have hvalue : ((empty.store ['x'] 7).evaluate ("x * (2) ".toList ++ ("+--".toList ++ (['5'] ++ "/2*3-1".toList)))).result =
      .ok 19 := by decide +kernel
  exact ⟨hbefore, hne, hsigns, hblanks, hdigits,
    result_evaluate_blanks_before_digits table hbefore hne hsigns hblanks hdigits _, hvalue,
    result_evaluate_blanks_before_digits table hbefore hne hsigns hblanks hdigits _⟩

end Variables

end IntegerCalculator
