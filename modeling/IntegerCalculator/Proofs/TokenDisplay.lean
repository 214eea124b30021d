import IntegerCalculator.Proofs.Context

/-!
# Shown tokens

The tokens of a line are shown with a space between each two (`Token.listText`). What is shown is read again as one token after
the other: the spaces part them, and each alone is read as the token that it shows (`Token.IsRead.scan_text`). With one exception:
a zero after a minus sign is shown without the sign, since the minus of a literal is shown as that of its value, and then it is
read as a zero without sign (`Token.reread`). So the text of the tokens of a line is read as the line when no such zero is among
them, and only then (`Token.listText_reads_as_line`).
-/

namespace IntegerCalculator

/-! ## The tokens of a line -/

/-- The tokens that texts are read as. -/
inductive Token.IsRead : Token → Prop where
  | identifier {name : List Char} (h : isName name = true) : IsRead (.identifier name)
  | unsigned (n : Nat) : IsRead (.literal n none)
  | plus (n : Nat) : IsRead (.literal n (some .add))
  | minus (n : Nat) : IsRead (.literal (-n) (some .subtract))
  | run {text : List Char} (hne : text ≠ []) (h : ∀ c ∈ text, isOperatorChar c = true) : IsRead (.run text)
  | openParen : IsRead .openParen
  | closeParen : IsRead .closeParen

namespace Lexeme

/-- What is taken first is a token that texts are read as, unless it is an error. -/
theorem isRead_of_longest {c : Char} {cs : List Char} {token : Token} (h : (longest c cs).1 = .ok token) : token.IsRead := by
  revert h
  fun_cases longest c cs with
  | case1 ha =>
    intro h
    cases h
    exact .identifier (by simp [isName, ha])
  | case2 =>
    intro h
    cases h
    exact .unsigned _
  | case3 =>
    intro h
    cases h
    exact .plus _
  | case4 =>
    intro h
    cases h
    exact .minus _
  | case5 =>
    intro h
    cases h
    exact .openParen
  | case6 =>
    intro h
    cases h
    exact .closeParen
  | case7 =>
    intro h
    dsimp only [ofRun] at h
    split at h
    · next hrun =>
      cases h
      exact .run (List.cons_ne_nil _ _) (List.all_eq_true.1 hrun)
    · cases h

/-- Every token among the lexemes of a text is one that texts are read as. -/
theorem isRead_of_mem_scan {s : List Char} {token : Token} (h : .ok token ∈ scan s) : token.IsRead := by
  fun_induction scan s with
  | case1 => cases h
  | case2 c cs hb ih => exact ih h
  | case3 c cs hb ih =>
    rcases List.mem_cons.1 h with hfirst | hrest
    · exact isRead_of_longest hfirst.symm
    · exact ih hrest

end Lexeme

/-! ## What a shown token is read as -/

namespace Token

/-- The token that a shown token is read as. -/
def reread (token : Token) : Token := if token = .literal 0 (some .subtract) then .literal 0 none else token

/-- Every token but a zero after a minus sign is read as itself. -/
theorem reread_eq_self_iff {token : Token} : token.reread = token ↔ token ≠ .literal 0 (some .subtract) := by
  by_cases h : token = .literal 0 (some .subtract)
  · rw [h]
    decide
  · exact iff_of_true (if_neg h) h

/-- A token is shown as a text that is read as this token alone. -/
theorem IsRead.scan_text {token : Token} (h : token.IsRead) : Lexeme.scan token.text = [.ok token.reread] := by
  by_cases hzero : token = .literal 0 (some .subtract)
  · rw [hzero]
    exact Lexeme.scan_decimal_natCast 0
  · rw [reread_eq_self_iff.2 hzero]
    cases h with
    | identifier h => exact Lexeme.scan_of_isName h
    | unsigned n => exact Lexeme.scan_decimal_natCast n
    | plus n =>
      have hscan := Lexeme.scan_plus_of_isDigits (isDigits_toDigits n)
      rwa [digitsValue_toDigits] at hscan
    | minus n =>
      cases n with
      | zero => exact absurd rfl hzero
      | succ n => exact Lexeme.scan_decimal_negSucc n
    | @run text hne h =>
      -- the run is taken up to a space, and the space has no lexeme
      have hspace : ∀ c ∈ [' '], isBlank c = true := List.forall_mem_singleton.2 (by decide)
      have hblank : Lexeme.scan [' '] = [] := Lexeme.scan_eq_nil_iff.2 (List.all_eq_true.2 hspace)
      have hscan := @Lexeme.scan_run text [' '] hne h (by decide) (fun hdigit => absurd hdigit (by decide))
      rwa [Lexeme.scan_append_blanks text hspace, hblank] at hscan
    | openParen => exact (Lexeme.scan_openParen []).trans (congrArg _ Lexeme.scan_nil)
    | closeParen => exact (Lexeme.scan_closeParen []).trans (congrArg _ Lexeme.scan_nil)

/-- The first token is shown before a space and the others. -/
theorem listText_cons_cons (token next : Token) (tokens : List Token) :
    listText (token :: next :: tokens) = token.text ++ ' ' :: listText (next :: tokens) := by
  unfold listText
  rw [List.map_cons, List.map_cons, List.intercalate_cons_cons, List.append_assoc]
  rfl

/-- Tokens are shown as a text that is read as these tokens, one after the other. -/
theorem scan_listText {tokens : List Token} (h : ∀ token ∈ tokens, token.IsRead) :
    Lexeme.scan (listText tokens) = (tokens.map reread).map .ok := by
  induction tokens with
  | nil => exact Lexeme.scan_nil
  | cons token tokens ih =>
    obtain ⟨hfirst, hrest⟩ := List.forall_mem_cons.1 h
    cases tokens with
    | nil =>
      have htext : listText [token] = token.text := List.intercalate_singleton
      rw [htext, hfirst.scan_text]
      rfl
    | cons next tokens =>
      have hspace : isBlank ' ' = true := by decide
      rw [listText_cons_cons, Lexeme.scan_append_cons (isBoundary_of_isBlank hspace), hfirst.scan_text, Lexeme.scan_cons,
        if_pos hspace, ih hrest]
      rfl

end Token

/-! ## What a shown line is read as -/

namespace Lexeme

variable {line : List Char} {tokens : List Token}

/-- The tokens of a line, shown, are read as themselves, except for zeros after a minus sign. -/
theorem ofLine_listText (h : ofLine line = .ok (tokens.map .ok)) :
    ofLine (Token.listText tokens) = .ok ((tokens.map Token.reread).map .ok) := by
  obtain ⟨hscan, hne⟩ := ofLine_eq_ok_iff.1 h
  refine ofLine_eq_ok_iff.2 ⟨Token.scan_listText ?_, by simpa using hne⟩
  intro token hmem
  refine isRead_of_mem_scan (s := line) ?_
  rw [hscan]
  exact List.mem_map_of_mem hmem

/-- The tokens of a line, shown, are read as the line when no zero after a minus sign is among them. -/
theorem ofLine_listText_eq_iff (h : ofLine line = .ok (tokens.map .ok)) :
    ofLine (Token.listText tokens) = .ok (tokens.map .ok) ↔ .literal 0 (some .subtract) ∉ tokens := by
  have hself : tokens.map Token.reread = tokens ↔ ∀ token ∈ tokens, token.reread = token := by
    rw [← List.map_inj_left, List.map_id']
  rw [ofLine_listText h, Except.ok.injEq, List.map_inj_right fun _ _ => Except.ok.inj, hself]
  constructor
  · intro hall hmem
    exact Token.reread_eq_self_iff.1 (hall _ hmem) rfl
  · intro hmem token htoken
    refine Token.reread_eq_self_iff.2 ?_
    rintro rfl
    exact hmem htoken

end Lexeme

/-- The tokens of a line, shown, are read as these tokens again, where a zero after a minus sign has become a zero without sign.
So they are read as exactly the tokens of the line when no such zero is among them, and then the shown text is the same
expression as the line with every table. -/
theorem Token.listText_reads_as_line {line : List Char} {tokens : List Token}
    (h : Lexeme.ofLine line = .ok (tokens.map .ok)) :
    Lexeme.ofLine (listText tokens) = .ok ((tokens.map reread).map .ok) ∧
      (Lexeme.ofLine (listText tokens) = .ok (tokens.map .ok) ↔ literal 0 (some .subtract) ∉ tokens) ∧
      (literal 0 (some .subtract) ∉ tokens →
        ∀ table : Variables, table.evaluate (listText tokens) = table.evaluate line) := by
  have hiff := Lexeme.ofLine_listText_eq_iff h
  refine ⟨Lexeme.ofLine_listText h, hiff, ?_⟩
  intro hmem table
  exact Variables.evaluate_of_ofLine_eq ((hiff.2 hmem).trans h.symm) table

/-- An explicit plus, a run before a negative literal and a name beside a run are all read again as they were. -/
theorem Token.listText_reads_as_line_of_signs :
    let line := "( a+ +4 ) -- -5".toList
    let tokens := [openParen, identifier ['a'], run ['+'], literal 4 (some .add), closeParen, run ['-', '-'],
      literal (-5) (some .subtract)]
    Lexeme.ofLine line = .ok (tokens.map .ok) ∧ listText tokens = "( a + +4 ) -- -5".toList ∧
      Lexeme.ofLine (listText tokens) = .ok (tokens.map .ok) := by
  intro line tokens
  have hline : Lexeme.ofLine line = .ok (tokens.map .ok) := by decide +kernel
  obtain ⟨-, hiff, -⟩ := listText_reads_as_line hline
  exact ⟨hline, by decide, hiff.2 (by decide)⟩

/-- The minus before a zero is lost: the line takes nothing away from one, and what is shown of it is no expression. -/
theorem Token.listText_loses_minus_of_zero :
    let line := "1 -0".toList
    let tokens := [literal 1 none, literal 0 (some .subtract)]
    Lexeme.ofLine line = .ok (tokens.map .ok) ∧ listText tokens = "1 0".toList ∧
      Lexeme.ofLine (listText tokens) ≠ .ok (tokens.map .ok) ∧
      (Variables.empty.evaluate line).result = .ok 1 ∧
      (Variables.empty.evaluate (listText tokens)).result = .error .invalidExpression := by
  intro line tokens
  have hline : Lexeme.ofLine line = .ok (tokens.map .ok) := by decide +kernel
  have hvalue : (Variables.empty.evaluate line).result = .ok 1 := by decide +kernel
  have hshown : (Variables.empty.evaluate (listText tokens)).result = .error .invalidExpression := by decide +kernel
  refine ⟨hline, by decide, ?_, hvalue, hshown⟩
  rw [Lexeme.ofLine_listText hline]
  decide

end IntegerCalculator
