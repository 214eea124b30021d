import Mathlib.Control.Monad.Basic
import IntegerCalculator.Proofs.LongestMatch
import IntegerCalculator.Proofs.TableDependence

/-!
# Parentheses in context

An expression in parentheses means its value, whatever stands around it: if the text between two parentheses has a value by
itself, then the numeral of this value can stand in its place, and the line keeps its value or its error
(`Variables.result_evaluate_group_congr`). The rest of the line may be malformed before or after the parentheses.

Two facts carry this. A blank or a parenthesis parts the text for the scanner: what is taken before it does not depend on what
comes after it (`Lexeme.scan_append_cons`). And lexemes that act alike can stand in each other's place (`ActAlike`): the
conversion goes on in the same state after them, and what it has passed on does the same to every stack.
-/

namespace IntegerCalculator

/-! ## Where a text can be cut for the scanner -/

/-- Whether the character parts the lexemes before it from those after it: a blank or a parenthesis. -/
def isBoundary (c : Char) : Bool := isBlank c || isParen c

theorem isBoundary_of_isBlank {c : Char} (h : isBlank c = true) : isBoundary c = true := by
  rw [isBoundary, h, Bool.true_or]

/-- No boundary is a letter or a digit. -/
theorem isTermChar_eq_false_of_isBoundary {c : Char} (h : isBoundary c = true) : isTermChar c = false := by
  rw [isBoundary, Bool.or_eq_true] at h
  rcases h with hb | hp
  · exact isTermChar_eq_false_of_isBlank hb
  · rw [← Bool.not_eq_true]
    intro hterm
    rw [isParen_eq_false_of_isTermChar hterm] at hp
    cases hp

theorem isAlpha_eq_false_of_isBoundary {c : Char} (h : isBoundary c = true) : c.isAlpha = false :=
  (isTermChar_eq_false_iff.1 (isTermChar_eq_false_of_isBoundary h)).1

theorem isDigit_eq_false_of_isBoundary {c : Char} (h : isBoundary c = true) : c.isDigit = false :=
  (isTermChar_eq_false_iff.1 (isTermChar_eq_false_of_isBoundary h)).2.1

/-- No run goes on with a boundary. -/
theorem startsOther_of_isBoundary {c : Char} (h : isBoundary c = true) (t : List Char) : startsOther (c :: t) = true := by
  rw [isBoundary, Bool.or_eq_true] at h
  rcases h with hb | hp
  · simp [startsOther, hb]
  · simp [startsOther, hp]

/-- Characters of a kind are taken and dropped up to one of another kind. -/
theorem takeWhile_dropWhile_append_cons {p : Char → Bool} {c : Char} (hc : p c = false) (s t : List Char) :
    (s ++ c :: t).takeWhile p = s.takeWhile p ∧ (s ++ c :: t).dropWhile p = s.dropWhile p ++ c :: t := by
  induction s with
  | nil => simp [hc]
  | cons d s ih =>
    rw [List.cons_append, List.takeWhile_cons, List.dropWhile_cons, List.takeWhile_cons, List.dropWhile_cons]
    by_cases hd : p d = true
    · simp [hd, ih]
    · simp [hd]

/-- A run is no longer than the text that it is taken from. -/
theorem length_leadingRun_le (s : List Char) : (leadingRun s).length ≤ s.length := by
  induction s with
  | nil => exact Nat.le_refl _
  | cons c s ih =>
    rw [leadingRun]
    split
    · exact Nat.zero_le _
    · exact Nat.succ_le_succ ih

section

variable {c : Char} (hc : isBoundary c = true) (t : List Char)

include hc

/-- Whether a text starts with a digit is seen before a boundary. -/
theorem startsWithDigit_append_cons (s : List Char) : startsWithDigit (s ++ c :: t) = startsWithDigit s := by
  cases s with
  | nil => exact isDigit_eq_false_of_isBoundary hc
  | cons d s => rfl

/-- A run ends before a boundary. -/
theorem leadingRun_append_cons (s : List Char) : leadingRun (s ++ c :: t) = leadingRun s := by
  induction s with
  | nil => exact if_pos (startsOther_of_isBoundary hc t)
  | cons d s ih =>
    have hstart : startsOther (d :: (s ++ c :: t)) = startsOther (d :: s) := by
      rw [startsOther, startsOther, startsWithDigit_append_cons hc t s]
    rw [List.cons_append, leadingRun, leadingRun, hstart, ih]

namespace Lexeme

/-- The lexeme that is taken before a boundary is the one that is taken where the text ends there. -/
theorem longest_append_cons (d : Char) (s : List Char) :
    longest d (s ++ c :: t) = ((longest d s).1, (longest d s).2 ++ c :: t) := by
  obtain ⟨htakeLetters, hdropLetters⟩ := takeWhile_dropWhile_append_cons (isAlpha_eq_false_of_isBoundary hc) s t
  obtain ⟨htakeDigits, hdropDigits⟩ := takeWhile_dropWhile_append_cons (isDigit_eq_false_of_isBoundary hc) s t
  simp only [longest, htakeLetters, hdropLetters, htakeDigits, hdropDigits, startsWithDigit_append_cons hc t s,
    leadingRun_append_cons hc t s, List.drop_append_of_le_length (length_leadingRun_le s)]
  repeat' split
  all_goals rfl

/-- A boundary parts the lexemes of what stands before it from those of the rest. -/
theorem scan_append_cons (s : List Char) : scan (s ++ c :: t) = scan s ++ scan (c :: t) := by
  fun_induction scan s with
  | case1 => rfl
  | case2 d s hb ih => rw [List.cons_append, scan_cons, if_pos hb, ih]
  | case3 d s hb ih => rw [List.cons_append, scan_cons, if_neg hb, longest_append_cons hc t d s, ih, List.cons_append]

end Lexeme

end

namespace Lexeme

/-- Blanks at the end are skipped. -/
theorem scan_append_blanks (s : List Char) {blanks : List Char} (h : ∀ c ∈ blanks, isBlank c = true) :
    scan (s ++ blanks) = scan s := by
  cases blanks with
  | nil => rw [List.append_nil]
  | cons c blanks =>
    have hrest : scan (c :: blanks) = [] := scan_eq_nil_iff.2 (List.all_eq_true.2 h)
    rw [scan_append_cons (isBoundary_of_isBlank (h c List.mem_cons_self)), hrest, List.append_nil]

/-- A trimmed text has the lexemes of the text. -/
theorem scan_trim (s : List Char) : scan (trim s) = scan s := by
  obtain ⟨before, after, hbefore, hafter, hs⟩ := exists_eq_append_trim s
  have hscan := congrArg scan hs
  rw [scan_blanks hbefore, scan_append_blanks _ hafter] at hscan
  exact hscan.symm

/-! ## Texts of one lexeme -/

/-- A text that is taken as one lexeme before the empty text is read as this lexeme. -/
theorem scan_eq_singleton {s : List Char} {lexeme : Lexeme} (h : scan (s ++ []) = lexeme :: scan []) : scan s = [lexeme] := by
  rwa [List.append_nil, scan_nil] at h

/-- A name alone is read as one lexeme. -/
theorem scan_of_isName {name : List Char} (h : isName name = true) : scan name = [.ok (.identifier name)] :=
  scan_eq_singleton (scan_name h (by simp))

/-- Digits alone are read as one literal. -/
theorem scan_of_isDigits {ds : List Char} (h : isDigits ds = true) : scan ds = [.ok (.literal (digitsValue ds) none)] :=
  scan_eq_singleton (scan_digits h (by simp))

/-- Digits after a plus sign are read as one literal. -/
theorem scan_plus_of_isDigits {ds : List Char} (h : isDigits ds = true) :
    scan ('+' :: ds) = [.ok (.literal (digitsValue ds) (some .add))] :=
  scan_eq_singleton (scan_plus h (by simp))

/-- Digits after a minus sign are read as one literal. -/
theorem scan_minus_of_isDigits {ds : List Char} (h : isDigits ds = true) :
    scan ('-' :: ds) = [.ok (.literal (-digitsValue ds) (some .subtract))] :=
  scan_eq_singleton (scan_minus h (by simp))

/-- The text of a natural number is read as one literal without sign. -/
theorem scan_decimal_natCast (n : Nat) : scan (decimal n) = [.ok (.literal n none)] := by
  have hscan := scan_of_isDigits (isDigits_toDigits n)
  rwa [digitsValue_toDigits] at hscan

/-- The text of a negative integer is read as one literal with its minus sign. -/
theorem scan_decimal_negSucc (n : Nat) : scan (decimal (.negSucc n)) = [.ok (.literal (.negSucc n) (some .subtract))] := by
  have hscan := scan_minus_of_isDigits (isDigits_toDigits (n + 1))
  rwa [digitsValue_toDigits] at hscan

/-- The text of an integer is read as one literal. -/
theorem scan_decimal (v : Int) : ∃ sign, scan (decimal v) = [.ok (.literal v sign)] := by
  cases v with
  | ofNat n => exact ⟨none, scan_decimal_natCast n⟩
  | negSucc n => exact ⟨some .subtract, scan_decimal_negSucc n⟩

end Lexeme

/-! ## Lexemes that act alike -/

/-- Outcomes of a conversion that nothing after it tells apart: the same error, or the same state, before which items were
passed on that do the same to every stack. -/
inductive OutcomesAlike : Except Error (List Item × Conversion) → Except Error (List Item × Conversion) → Prop where
  | error (e : Error) : OutcomesAlike (.error e) (.error e)
  | ok {items others : List Item} (next : Conversion)
    (h : ∀ stack, (items.foldlM Item.actOn stack).result = (others.foldlM Item.actOn stack).result) :
    OutcomesAlike (.ok (items, next)) (.ok (others, next))

/-- Lexemes with one table act like other lexemes with another one: nothing after them tells them apart, in whatever state the
conversion comes to them. -/
def ActAlike (t : Variables) (xs : List Lexeme) (u : Variables) (ys : List Lexeme) : Prop :=
  ∀ c : Conversion, OutcomesAlike (c.consume t xs).result (c.consume u ys).result

namespace ActAlike

variable {t u : Variables} {xs ys : List Lexeme}

theorem refl (t : Variables) (xs : List Lexeme) : ActAlike t xs t xs := by
  intro c
  cases (c.consume t xs).result with
  | error e => exact .error e
  | ok r => exact .ok r.2 fun stack => rfl

/-- Sequences that act alike part by part act alike. -/
theorem append (h : ActAlike t xs u ys) {xs' ys' : List Lexeme} (h' : ActAlike t xs' u ys') :
    ActAlike t (xs ++ xs') u (ys ++ ys') := by
  intro c
  have hfirst := h c
  rw [Conversion.result_consume_append, Conversion.result_consume_append]
  revert hfirst
  generalize (c.consume t xs).result = r, (c.consume u ys).result = s
  rintro (e | ⟨next, hitems⟩)
  · exact .error e
  · have hsecond := h' next
    rw [Calculation.ok_bind, Calculation.ok_bind]
    revert hsecond
    generalize (next.consume t xs').result = r', (next.consume u ys').result = s'
    rintro (e | ⟨last, hitems'⟩)
    · exact .error e
    · refine .ok last ?_
      intro stack
      simp only [List.foldlM_append, Calculation.result_bind, hitems, hitems']

/-- Whole sequences that act alike have the same value or the same error. -/
theorem result_value_eq (h : ActAlike t xs u ys) :
    ((Postfix.ofLexemes t xs).result >>= fun items => items.value.result) =
      (Postfix.ofLexemes u ys).result >>= fun items => items.value.result := by
  have hall := h Conversion.start
  rw [Postfix.result_ofLexemes, Postfix.result_ofLexemes]
  revert hall
  generalize (Conversion.start.consume t xs).result = r, (Conversion.start.consume u ys).result = s
  rintro (e | @⟨items, others, last, hitems⟩)
  · rfl
  · rw [Calculation.ok_bind, Calculation.ok_bind]
    cases last.finish with
    | error e => rfl
    | ok released =>
      change (Postfix.value (items ++ released)).result = (Postfix.value (others ++ released)).result
      rw [Postfix.value, Postfix.value, Calculation.result_bind, Calculation.result_bind]
      simp only [List.foldlM_append, Calculation.result_bind, hitems]

end ActAlike

/-! ## Groups -/

/-- The terminals of tokens and then of a closing parenthesis. -/
theorem Token.listTerminals_append_closeParen {table : Variables} {tokens : List Token} {ts : List Terminal}
    {afterOperand : Bool} (h : listTerminals table afterOperand tokens = some ts) :
    listTerminals table afterOperand (tokens ++ [.closeParen]) = some (ts ++ [.closing]) := by
  induction tokens generalizing ts afterOperand with
  | nil =>
    cases h
    rfl
  | cons token tokens ih =>
    obtain ⟨first, rest, hfirst, hrest, rfl⟩ := listTerminals_cons_eq_some_iff.1 h
    exact listTerminals_cons_eq_some_iff.2 ⟨first, _, hfirst, ih hrest, List.append_assoc _ _ _⟩

namespace Conversion

/-- Nothing that binds at least as tightly as a factor is an operator. -/
theorem eq_nil_of_level_factor_le {ops : List Operator} (h : ∀ op ∈ ops, Nonterminal.factor.level ≤ op.precedence) :
    ops = [] := by
  cases ops with
  | nil => rfl
  | cons op ops =>
    have hop := h op (by simp)
    cases op <;> exact absurd hop (by decide)

/-- Where an operand is expected, tokens that make a sum pass on its listing when they stand in parentheses, and leave what was
held back as it was. -/
theorem result_consume_group {table : Variables} {tokens : List Token} {e : ParseTree .sum}
    (h : Token.listTerminals table false tokens = some e.yield) (pending : List Pending) :
    (consume table ⟨pending, true⟩ (.ok .openParen :: (tokens.map .ok ++ [.ok .closeParen]))).result =
      .ok (e.toTree.postorder, ⟨pending, false⟩) := by
  obtain ⟨passed, ops, hops, hread, hlist⟩ := readsAs_yield (.group e) pending (holdsBelow_factor pending)
  obtain rfl := eq_nil_of_level_factor_le hops
  rw [List.map_nil, List.append_nil] at hlist
  have hterminals : Token.listTerminals table false (.openParen :: (tokens ++ [.closeParen])) =
      some (ParseTree.group e).yield :=
    Token.listTerminals_cons_eq_some_iff.2 ⟨_, _, rfl, Token.listTerminals_append_closeParen h, rfl⟩
  have hconsume := result_consume_eq_ok_iff.2 ⟨_, hterminals, hread⟩
  rw [hlist] at hconsume
  simpa [ParseTree.toTree] using hconsume

/-- Where an operator is expected, parentheses are an error. -/
theorem result_consume_openParen (table : Variables) (pending : List Pending) (lexemes : List Lexeme) :
    (consume table ⟨pending, false⟩ (.ok .openParen :: lexemes)).result = .error .invalidExpression := by
  rw [result_consume_cons]
  rfl

end Conversion

/-- Sums in parentheses that have the same value act alike. -/
theorem actAlike_group {t u : Variables} {tokens others : List Token} {e f : ParseTree .sum}
    (he : Token.listTerminals t false tokens = some e.yield) (hf : Token.listTerminals u false others = some f.yield)
    (hdivides : ¬e.toTree.DividesByZero) (hdivides' : ¬f.toTree.DividesByZero) (hvalue : e.toTree.value = f.toTree.value) :
    ActAlike t (.ok .openParen :: (tokens.map .ok ++ [.ok .closeParen])) u
      (.ok .openParen :: (others.map .ok ++ [.ok .closeParen])) := by
  rintro ⟨pending, expects⟩
  cases expects with
  | true =>
    rw [Conversion.result_consume_group he, Conversion.result_consume_group hf]
    refine .ok _ ?_
    intro stack
    rw [Tree.result_foldlM_postorder, Tree.result_foldlM_postorder, if_neg hdivides, if_neg hdivides', hvalue]
  | false =>
    rw [Conversion.result_consume_openParen, Conversion.result_consume_openParen]
    exact .error _

/-! ## Lines -/

namespace Lexeme

/-- A line with parentheses has the lexemes of its three parts and the parentheses. -/
theorem ofLine_group (before inner after : List Char) :
    ofLine (before ++ '(' :: (inner ++ ')' :: after)) =
      .ok (scan before ++ ((.ok .openParen :: (scan inner ++ [.ok .closeParen])) ++ scan after)) := by
  have hblank : (before ++ '(' :: (inner ++ ')' :: after)).all isBlank = false := by
    rw [List.all_append, List.all_cons, isBlank_eq_false_of_isParen rfl, Bool.false_and, Bool.and_false]
  rw [ofLine_of_not_blank hblank, scan_append_cons rfl, scan_openParen, scan_append_cons rfl, scan_closeParen]
  simp

end Lexeme

namespace Variables

/-- A blank line is no expression. -/
theorem result_evaluate_of_blank {table : Variables} {line : List Char} (h : line.all isBlank = true) :
    (table.evaluate line).result = .error .invalidExpression := by
  rw [evaluate, Lexeme.ofLine_of_blank h]
  exact Calculation.result_bind_of_error (Calculation.result_ofExcept _)

/-- The value of every line is that of the postfix form of what it is scanned for, which is nothing if it is blank. -/
theorem result_evaluate_eq_scan (table : Variables) (line : List Char) :
    (table.evaluate line).result =
      (Postfix.ofLexemes table (Lexeme.scan line)).result >>= fun items => items.value.result := by
  by_cases hblank : line.all isBlank = true
  · rw [result_evaluate_of_blank hblank, Lexeme.scan_eq_nil_iff.2 hblank]
    rfl
  · exact result_evaluate_of_ofLine (Lexeme.ofLine_of_not_blank (Bool.not_eq_true _ ▸ hblank))

/-- A line that has a value is scanned for tokens of a sum, which divides nowhere by zero and has that value. -/
theorem exists_sum_of_evaluate {table : Variables} {line : List Char} {v : Int}
    (h : (table.evaluate line).result = .ok v) :
    ∃ (tokens : List Token) (e : ParseTree .sum), Lexeme.scan line = tokens.map .ok ∧
      Token.listTerminals table false tokens = some e.yield ∧ ¬e.toTree.DividesByZero ∧ e.toTree.value = v := by
  rw [result_evaluate_eq_scan] at h
  cases hitems : (Postfix.ofLexemes table (Lexeme.scan line)).result with
  | error e =>
    rw [hitems] at h
    cases h
  | ok items =>
    rw [hitems, Calculation.ok_bind] at h
    obtain ⟨tokens, htokens⟩ := Postfix.exists_tokens_of_ofLexemes hitems
    rw [htokens] at hitems
    obtain ⟨e, hyield, rfl⟩ := Postfix.exists_sum_of_ofLexemes hitems
    rw [Tree.result_value_postorder] at h
    split at h
    · cases h
    · next hdivides =>
      cases h
      exact ⟨tokens, e, htokens, hyield, hdivides, rfl⟩

/-- An expression in parentheses can be replaced by its value in every context: if the text between parentheses has a value by
itself, the line with the numeral of this value in its place has the same value or the same error, whatever stands before and
after the parentheses. -/
theorem result_evaluate_group_congr {table : Variables} {inner : List Char} {v : Int}
    (h : (table.evaluate inner).result = .ok v) (before after : List Char) :
    (table.evaluate (before ++ '(' :: (inner ++ ')' :: after))).result =
      (table.evaluate (before ++ '(' :: (decimal v ++ ')' :: after))).result := by
  obtain ⟨tokens, e, hscan, hyield, hdivides, hvalue⟩ := exists_sum_of_evaluate h
  obtain ⟨sign, hdecimal⟩ := Lexeme.scan_decimal v
  -- the numeral is a sum of one value
  have hnumeral : Token.listTerminals table false [.literal v sign] =
      some (ParseTree.ofProduct (.ofFactor (.value v))).yield := by
    cases sign <;> rfl
  have hgroups := actAlike_group hyield hnumeral hdivides id hvalue
  rw [result_evaluate_of_ofLine (Lexeme.ofLine_group before inner after),
    result_evaluate_of_ofLine (Lexeme.ofLine_group before (decimal v) after), hscan, hdecimal]
  exact ((ActAlike.refl table _).append (hgroups.append (ActAlike.refl table _))).result_value_eq

/-- With `x` for minus seven, `x / 2` has the value minus three. In parentheses it can be replaced by it in a line with a value
and in one where an operand stands right before the parenthesis. -/
theorem result_evaluate_group_quotient :
    let table := empty.store ['x'] (-7)
    let inner := "x / 2".toList
    (table.evaluate inner).result = .ok (-3) ∧
      (table.evaluate ("10 -".toList ++ '(' :: (inner ++ ')' :: "*2".toList))).result =
        (table.evaluate ("10 -".toList ++ '(' :: ("-3".toList ++ ')' :: "*2".toList))).result ∧
      (table.evaluate ("10 -".toList ++ '(' :: ("-3".toList ++ ')' :: "*2".toList))).result = .ok 16 ∧
      (table.evaluate ("y +10".toList ++ '(' :: (inner ++ ')' :: "/0".toList))).result =
        (table.evaluate ("y +10".toList ++ '(' :: ("-3".toList ++ ')' :: "/0".toList))).result := by
  have h : ((empty.store ['x'] (-7)).evaluate "x / 2".toList).result = .ok (-3) := by decide +kernel
  have hsixteen : ((empty.store ['x'] (-7)).evaluate
      ("10 -".toList ++ '(' :: ("-3".toList ++ ')' :: "*2".toList))).result = .ok 16 := by decide +kernel
  exact ⟨h, result_evaluate_group_congr h _ _, hsixteen, result_evaluate_group_congr h _ _⟩

end Variables

end IntegerCalculator
