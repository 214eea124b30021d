import IntegerCalculator.Proofs.Context
import IntegerCalculator.Proofs.StackHeight

/-!
# The first fault of a line

Several things can be wrong with a line, and one error is reported. It is that of the first lexeme that no expression has at its
place (`Postfix.FirstImpossible`): the lexemes before it begin some accepted sequence, and with it they begin none. What stands
after it does not matter, and a division by zero is reported only where nothing else is wrong
(`Variables.result_evaluate_first_fault`).

The conversion goes on exactly as long as what it has read can be completed (`Postfix.begins_iff`). One direction needs a
completion from every state of the conversion: a value where an operand is expected, and then a closing parenthesis for each
one that is open (`Conversion.completion`).
-/

namespace IntegerCalculator

/-! ## Completions -/

namespace Conversion

/-- Where a parenthesis is held back, a closing one releases it and leaves one less. -/
theorem exists_releaseGroup {pending : List Pending} {n : Nat} (h : pending.count .paren = n + 1) :
    ∃ released kept, releaseGroup pending = some (released, kept) ∧ kept.count .paren = n := by
  induction pending with
  | nil => cases h
  | cons top pending ih =>
    cases top with
    | paren =>
      rw [List.count_cons_self, Nat.add_right_cancel_iff] at h
      exact ⟨[], pending, rfl, h⟩
    | operator op =>
      rw [List.count_cons_of_ne (by simp)] at h
      obtain ⟨released, kept, hrelease, hkept⟩ := ih h
      exact ⟨.operator op :: released, kept, by rw [releaseGroup, hrelease]; rfl, hkept⟩

/-- Where no parenthesis is held back, the end of the input releases everything. -/
theorem exists_releaseAll {pending : List Pending} (h : pending.count .paren = 0) :
    ∃ released, releaseAll pending = some released := by
  induction pending with
  | nil => exact ⟨[], rfl⟩
  | cons top pending ih =>
    cases top with
    | paren =>
      rw [List.count_cons_self] at h
      cases h
    | operator op =>
      rw [List.count_cons_of_ne (by simp)] at h
      obtain ⟨released, hrelease⟩ := ih h
      exact ⟨.operator op :: released, by rw [releaseAll, hrelease]; rfl⟩

/-- Tokens that complete what has been converted: a value if an operand is expected, and a closing parenthesis for each open
one. -/
def completion (c : Conversion) : List Token :=
  (if c.expectsOperand then [.literal 0 none] else []) ++ List.replicate (c.pending.count .paren) .closeParen

/-- Where an operator is expected, closing parentheses for the open ones are converted, and then the input may end. -/
theorem exists_consume_closeParens (table : Variables) {pending : List Pending} {n : Nat} (h : pending.count .paren = n) :
    ∃ out last released,
      (consume table ⟨pending, false⟩ ((List.replicate n Token.closeParen).map .ok)).result = .ok (out, last) ∧
        last.finish = .ok released := by
  induction n generalizing pending with
  | zero =>
    obtain ⟨released, hrelease⟩ := exists_releaseAll h
    exact ⟨[], ⟨pending, false⟩, released, rfl, finish_eq_ok_iff.2 ⟨rfl, hrelease⟩⟩
  | succ n ih =>
    obtain ⟨released, kept, hrelease, hkept⟩ := exists_releaseGroup h
    obtain ⟨out, last, rest, hconsume, hfinish⟩ := ih hkept
    have hstep : (step table ⟨pending, false⟩ .closeParen).result = .ok (released, ⟨kept, false⟩) := by
      simp only [result_step_operator_expected, hrelease]
    refine ⟨released ++ out, last, rest, ?_, hfinish⟩
    rw [List.replicate_succ, List.map_cons, result_consume_cons, Calculation.ok_bind, hstep, Calculation.ok_bind, hconsume]
    rfl

/-- From every state the completion is converted, and then the input may end. -/
theorem exists_consume_completion (table : Variables) (c : Conversion) :
    ∃ out last released, (c.consume table (c.completion.map .ok)).result = .ok (out, last) ∧ last.finish = .ok released := by
  obtain ⟨pending, expects⟩ := c
  obtain ⟨out, last, released, hconsume, hfinish⟩ := @exists_consume_closeParens table pending _ rfl
  cases expects with
  | false => exact ⟨out, last, released, hconsume, hfinish⟩
  | true =>
    refine ⟨.operand 0 :: out, last, released, ?_, hfinish⟩
    rw [completion, if_pos rfl, List.cons_append, List.nil_append, List.map_cons, result_consume_cons, Calculation.ok_bind]
    change ((fun rest => ([Item.operand 0] ++ rest.1, rest.2)) <$> (consume table ⟨pending, false⟩ _).result) = _
    rw [hconsume]
    rfl

/-! ## What stops a conversion -/

/-- A token fails by a name without a value where an operand is expected, and as a misplaced or malformed token otherwise. -/
theorem error_of_step {table : Variables} {c : Conversion} {token : Token} {e : Error}
    (h : (c.step table token).result = .error e) :
    (e = .unknownVariable ∨ e = .invalidExpression) ∧
      (e = .unknownVariable ↔ c.expectsOperand = true ∧ ∃ name, token = .identifier name ∧ table.lookup name = none) := by
  obtain ⟨pending, expects⟩ := c
  cases expects with
  | true =>
    rw [result_step_operand_expected] at h
    cases token with
    | identifier name =>
      cases hname : table.lookup name with
      | some v => simp [Variables.resolve, hname, Except.map] at h
      | none =>
        simp only [Variables.resolve, hname] at h
        cases h
        simp [hname]
    | literal v sign => cases h
    | openParen => cases h
    | run text => cases h; simp
    | closeParen => cases h; simp
  | false =>
    rw [result_step_operator_expected] at h
    cases token with
    | identifier name => cases h; simp
    | literal v sign =>
      cases sign with
      | none => cases h; simp
      | some op => cases h
    | openParen => cases h; simp
    | run text =>
      simp only [Operator.ofRun] at h
      cases hop : Operator.ofRun? text with
      | some op => rw [hop] at h; cases h
      | none => rw [hop] at h; cases h; simp
    | closeParen =>
      dsimp only at h
      cases hgroup : releaseGroup pending with
      | some r => rw [hgroup] at h; cases h
      | none => rw [hgroup] at h; cases h; simp

/-- The end of the input is an error only as an incomplete expression. -/
theorem eq_of_finish_eq_error {c : Conversion} {e : Error} (h : c.finish = .error e) : e = .invalidExpression := by
  unfold finish at h
  split at h
  · cases h
    rfl
  · split at h
    · cases h
    · cases h
      rfl

end Conversion

/-! ## Beginnings of accepted sequences -/

namespace Postfix

/-- The lexemes have a postfix form. -/
def Accepts (table : Variables) (lexemes : List Lexeme) : Prop := ∃ items, (ofLexemes table lexemes).result = .ok items

/-- Some tokens after the lexemes make a sequence that has a postfix form. -/
def Begins (table : Variables) (lexemes : List Lexeme) : Prop := ∃ more : List Token, Accepts table (lexemes ++ more.map .ok)

/-- An operand is expected after the lexemes: there are none, or the last one is a token that ends no operand. -/
def ExpectsOperand (lexemes : List Lexeme) : Prop := ∀ token, lexemes.getLast? = some (.ok token) → token.endsOperand = false

/-- The lexeme at the place is a name without a value, where an operand is expected. -/
def UnboundOperand (table : Variables) (lexemes : List Lexeme) (i : Nat) : Prop :=
  ExpectsOperand (lexemes.take i) ∧ ∃ name, lexemes[i]? = some (.ok (.identifier name)) ∧ table.lookup name = none

/-- The lexeme at the place is an error, or up to it and with it the lexemes begin no accepted sequence. -/
def Impossible (table : Variables) (lexemes : List Lexeme) (i : Nat) : Prop :=
  (∃ e, lexemes[i]? = some (.error e)) ∨ ¬Begins table (lexemes.take (i + 1))

/-- The place is that of the first impossible lexeme. -/
structure FirstImpossible (table : Variables) (lexemes : List Lexeme) (i : Nat) : Prop where
  lt_length : i < lexemes.length
  impossible : Impossible table lexemes i
  before : ∀ j < i, ¬Impossible table lexemes j

variable {table : Variables} {lexemes : List Lexeme}

/-- Lexemes begin an accepted sequence exactly when they are converted without an error. -/
theorem begins_iff : Begins table lexemes ↔ ∃ r, (Conversion.start.consume table lexemes).result = .ok r := by
  constructor
  · rintro ⟨more, items, hitems⟩
    obtain ⟨passed, last, released, hconsume, -, -⟩ := result_ofLexemes_eq_ok_iff.1 hitems
    obtain ⟨out, c, -, hstart, -, -⟩ := Conversion.result_consume_append_eq_ok_iff.1 hconsume
    exact ⟨(out, c), hstart⟩
  · rintro ⟨⟨out, c⟩, hconsume⟩
    obtain ⟨rest, last, released, hcompletion, hfinish⟩ := c.exists_consume_completion table
    have hall := Conversion.result_consume_append_eq_ok_iff.2 ⟨out, c, rest, hconsume, hcompletion, rfl⟩
    exact ⟨c.completion, out ++ rest ++ released, result_ofLexemes_eq_ok_iff.2 ⟨out ++ rest, last, released, hall, hfinish, rfl⟩⟩

/-- After converted lexemes an operand is expected exactly when there are none or the last one ends no operand. -/
theorem expectsOperand_iff {out : List Item} {c : Conversion}
    (h : (Conversion.start.consume table lexemes).result = .ok (out, c)) : c.expectsOperand = true ↔ ExpectsOperand lexemes := by
  rcases List.eq_nil_or_concat lexemes with rfl | ⟨init, lexeme, rfl⟩
  · cases h
    simp [ExpectsOperand, Conversion.start]
  · rw [List.concat_eq_append] at h ⊢
    obtain ⟨first, next, last, -, hlast, -⟩ := Conversion.result_consume_append_eq_ok_iff.1 h
    obtain ⟨token, converted, state, _, rfl, hstep, hnil, -⟩ := Conversion.result_consume_cons_eq_ok_iff.1 hlast
    cases hnil
    rw [Conversion.expectsOperand_of_step hstep]
    simp [ExpectsOperand]

/-- Before the first impossible lexeme, and where there is none, the lexemes begin an accepted sequence. -/
theorem begins_take {i : Nat} (hi : i ≤ lexemes.length) (h : ∀ j < i, ¬Impossible table lexemes j) :
    Begins table (lexemes.take i) := by
  cases i with
  | zero => exact begins_iff.2 ⟨_, rfl⟩
  | succ j =>
    have hj := h j (Nat.lt_succ_self j)
    rw [Impossible, not_or, Classical.not_not] at hj
    exact hj.2

/-- Lexemes of which none is impossible begin an accepted sequence. -/
theorem begins_of_forall_not_firstImpossible (h : ∀ i, ¬FirstImpossible table lexemes i) : Begins table lexemes := by
  have hall : ∀ n ≤ lexemes.length, ∀ j < n, ¬Impossible table lexemes j := by
    intro n hn
    induction n with
    | zero =>
      intro j hj
      cases hj
    | succ n ih =>
      have hbefore := ih (Nat.le_of_succ_le hn)
      intro j hj himpossible
      rcases Nat.lt_succ_iff_lt_or_eq.1 hj with hj | rfl
      · exact hbefore j hj himpossible
      · exact h j ⟨hn, himpossible, hbefore⟩
  have hbegins := begins_take (Nat.le_refl _) (hall lexemes.length (Nat.le_refl _))
  rwa [List.take_length] at hbegins

/-- An error among the lexemes begins no accepted sequence. -/
theorem not_begins_of_error_mem {e : Error} (h : .error e ∈ lexemes) : ¬Begins table lexemes := by
  rintro ⟨more, items, hitems⟩
  obtain ⟨tokens, htokens⟩ := exists_tokens_of_ofLexemes hitems
  obtain ⟨token, -, htoken⟩ := List.mem_map.1 (htokens ▸ List.mem_append_left _ h)
  cases htoken

/-- A lexeme with which an accepted sequence no longer begins stops the conversion, whatever follows it: with its own error, or
with that of its token at this place. -/
theorem exists_error_of_not_begins {lexeme : Lexeme} (h : Begins table lexemes) (hnot : ¬Begins table (lexemes ++ [lexeme])) :
    ∃ e, (∀ after, (ofLexemes table (lexemes ++ lexeme :: after)).result = .error e) ∧
      (lexeme = .error e ∨ ∃ token, lexeme = .ok token ∧ (e = .unknownVariable ∨ e = .invalidExpression) ∧
        (e = .unknownVariable ↔
          ExpectsOperand lexemes ∧ ∃ name, token = .identifier name ∧ table.lookup name = none)) := by
  obtain ⟨⟨out, c⟩, hconsume⟩ := begins_iff.1 h
  have hafter : ∀ after, (Conversion.start.consume table (lexemes ++ lexeme :: after)).result =
      (fun rest => (out ++ rest.1, rest.2)) <$> (lexeme >>= fun token => (c.step table token).result >>= fun first =>
        (fun rest => (first.1 ++ rest.1, rest.2)) <$> (first.2.consume table after).result) := by
    intro after
    rw [Conversion.result_consume_append, hconsume, Calculation.ok_bind, Conversion.result_consume_cons]
  cases lexeme with
  | error e =>
    refine ⟨e, ?_, .inl rfl⟩
    intro after
    rw [result_ofLexemes, hafter]
    rfl
  | ok token =>
    cases hstep : (c.step table token).result with
    | ok first =>
      rw [begins_iff, hafter [], Calculation.ok_bind, hstep] at hnot
      exact absurd ⟨_, rfl⟩ hnot
    | error e =>
      refine ⟨e, ?_, .inr ⟨token, rfl, ?_⟩⟩
      · intro after
        rw [result_ofLexemes, hafter, Calculation.ok_bind, hstep]
        rfl
      · rw [← expectsOperand_iff hconsume]
        exact Conversion.error_of_step hstep

/-- The lexemes before the first impossible one begin an accepted sequence, and with it they begin none. -/
theorem FirstImpossible.exists_split {i : Nat} (h : FirstImpossible table lexemes i) :
    ∃ lexeme after, lexemes = lexemes.take i ++ lexeme :: after ∧ lexemes[i]? = some lexeme ∧
      Begins table (lexemes.take i) ∧ ¬Begins table (lexemes.take i ++ [lexeme]) := by
  have hi := h.lt_length
  have htake : lexemes.take (i + 1) = lexemes.take i ++ [lexemes[i]] := by simp
  refine ⟨lexemes[i], lexemes.drop (i + 1), ?_, List.getElem?_eq_getElem hi, begins_take (Nat.le_of_lt hi) h.before, ?_⟩
  · rw [← List.drop_eq_getElem_cons hi, List.take_append_drop]
  · rw [← htake]
    rcases h.impossible with ⟨e, he⟩ | hnot
    · refine not_begins_of_error_mem (e := e) ?_
      rw [List.getElem?_eq_getElem hi, Option.some.injEq] at he
      rw [htake, he]
      simp
    · exact hnot

/-- What begins an accepted sequence is begun by its own beginnings. -/
theorem Begins.of_append {more : List Lexeme} (h : Begins table (lexemes ++ more)) : Begins table lexemes := by
  obtain ⟨⟨out, last⟩, hconsume⟩ := begins_iff.1 h
  obtain ⟨first, next, -, hfirst, -, -⟩ := Conversion.result_consume_append_eq_ok_iff.1 hconsume
  exact begins_iff.2 ⟨(first, next), hfirst⟩

/-- The lexeme with which an accepted sequence no longer begins is the first impossible one. -/
theorem firstImpossible_of_not_begins {lexeme : Lexeme} (h : Begins table lexemes) (hnot : ¬Begins table (lexemes ++ [lexeme]))
    (after : List Lexeme) : FirstImpossible table (lexemes ++ lexeme :: after) lexemes.length where
  lt_length := by simp
  impossible := by
    right
    rw [List.append_cons, List.take_left' (by simp)]
    exact hnot
  before := by
    intro j hj
    have htake : (lexemes ++ lexeme :: after).take (j + 1) = lexemes.take (j + 1) := List.take_append_of_le_length hj
    rw [Impossible, htake, List.getElem?_append_left hj, not_or, Classical.not_not]
    constructor
    · rintro ⟨e, he⟩
      exact not_begins_of_error_mem (List.mem_of_getElem? he) h
    · rw [← List.take_append_drop (j + 1) lexemes] at h
      exact h.of_append

/-- Lexemes that begin accepted sequences and are none of them end too soon. -/
theorem result_of_begins_of_not_accepts (h : Begins table lexemes) (hnot : ¬Accepts table lexemes) :
    (ofLexemes table lexemes).result = .error .invalidExpression := by
  obtain ⟨⟨out, c⟩, hconsume⟩ := begins_iff.1 h
  rw [result_ofLexemes, hconsume, Calculation.ok_bind]
  cases hfinish : c.finish with
  | error e =>
    rw [Conversion.eq_of_finish_eq_error hfinish]
    rfl
  | ok released =>
    exact absurd ⟨_, result_ofLexemes_eq_ok_iff.2 ⟨out, c, released, hconsume, hfinish, rfl⟩⟩ hnot

/-- What is accepted has a value or divides by zero. -/
theorem Accepts.result_value (h : Accepts table lexemes) :
    (∃ v, ((ofLexemes table lexemes).result >>= fun items => items.value.result) = .ok v) ∨
      ((ofLexemes table lexemes).result >>= fun items => items.value.result) = .error .divisionByZero := by
  obtain ⟨items, hitems⟩ := h
  obtain ⟨t, rfl⟩ := exists_tree_of_ofLexemes hitems
  rw [hitems, Calculation.ok_bind, Tree.result_value_postorder]
  by_cases hdivides : t.DividesByZero
  · rw [if_pos hdivides]
    exact .inr rfl
  · rw [if_neg hdivides]
    exact .inl ⟨t.value, rfl⟩

end Postfix

/-! ## Lines -/

/-- The errors among the lexemes of a line are words that are no tokens. -/
theorem Lexeme.eq_of_error_mem_ofLine {line : List Char} {lexemes : List Lexeme} {e : Error} (h : ofLine line = .ok lexemes)
    (he : .error e ∈ lexemes) : e = .invalidExpression := by
  unfold ofLine at h
  split at h
  · cases h
  · cases h
    obtain ⟨word, -, hword⟩ := List.mem_map.1 he
    unfold ofWord at hword
    split at hword
    · cases hword
    · cases hword
      rfl

namespace Variables

open Postfix

variable {table : Variables} {line : List Char} {lexemes : List Lexeme}

/-- The error of a line is that of its first impossible lexeme: an unknown variable when the lexeme is a name without a value
where an operand is expected, and an invalid expression otherwise. -/
theorem result_evaluate_of_firstImpossible {i : Nat} (hline : Lexeme.ofLine line = .ok lexemes)
    (hi : FirstImpossible table lexemes i) :
    ((table.evaluate line).result = .error .unknownVariable ∨ (table.evaluate line).result = .error .invalidExpression) ∧
      ((table.evaluate line).result = .error .unknownVariable ↔ UnboundOperand table lexemes i) := by
  obtain ⟨lexeme, after, hsplit, hget, hbegins, hnot⟩ := hi.exists_split
  obtain ⟨e, herror, hcause⟩ := exists_error_of_not_begins hbegins hnot
  have hresult : (table.evaluate line).result = .error e := by
    rw [result_evaluate_of_ofLine hline, hsplit, herror]
    rfl
  rw [hresult, UnboundOperand, hget]
  rcases hcause with rfl | ⟨token, rfl, hkind, hname⟩
  · obtain rfl := Lexeme.eq_of_error_mem_ofLine hline (List.mem_of_getElem? hget)
    simp
  · simpa [hname] using hkind

/-- A line without an impossible lexeme ends too soon, or has a value or divides by zero. -/
theorem result_evaluate_of_begins (hline : Lexeme.ofLine line = .ok lexemes) (h : Begins table lexemes) :
    (¬Accepts table lexemes → (table.evaluate line).result = .error .invalidExpression) ∧
      (Accepts table lexemes →
        (∃ v, (table.evaluate line).result = .ok v) ∨ (table.evaluate line).result = .error .divisionByZero) := by
  rw [result_evaluate_of_ofLine hline]
  constructor
  · intro hnot
    rw [result_of_begins_of_not_accepts h hnot]
    rfl
  · exact Accepts.result_value

/-- The error of a line that is not blank is that of its first impossible lexeme, whatever follows it: an unknown variable when
the lexeme is a name without a value where an operand is expected, and an invalid expression otherwise. Where no lexeme is
impossible, the lexemes begin an accepted sequence; the line is an invalid expression if they are none themselves, and else has a
value or divides by zero. So only what is converted completely divides by zero, and all that is converted without an error can be
completed. -/
theorem result_evaluate_first_fault (table : Variables) {line : List Char} (h : line.all isBlank = false) :
    ∃ lexemes, Lexeme.ofLine line = .ok lexemes ∧
      (∀ i, FirstImpossible table lexemes i →
        ((table.evaluate line).result = .error .unknownVariable ∨ (table.evaluate line).result = .error .invalidExpression) ∧
          ((table.evaluate line).result = .error .unknownVariable ↔ UnboundOperand table lexemes i)) ∧
      ((∀ i, ¬FirstImpossible table lexemes i) →
        Begins table lexemes ∧ (¬Accepts table lexemes → (table.evaluate line).result = .error .invalidExpression) ∧
          (Accepts table lexemes →
            (∃ v, (table.evaluate line).result = .ok v) ∨ (table.evaluate line).result = .error .divisionByZero)) ∧
      ((table.evaluate line).result = .error .divisionByZero → Accepts table lexemes) ∧
      ∀ before r, before <+: lexemes → (Conversion.start.consume table before).result = .ok r → Begins table before := by
  have hline := Lexeme.ofLine_of_not_blank h
  refine ⟨_, hline, fun i => result_evaluate_of_firstImpossible hline, ?_, ?_, ?_⟩
  · intro hnone
    have hbegins := begins_of_forall_not_firstImpossible hnone
    exact ⟨hbegins, result_evaluate_of_begins hline hbegins⟩
  · intro hdivision
    by_cases hnone : ∀ i, ¬FirstImpossible table (Lexeme.scan line) i
    · by_cases haccepts : Accepts table (Lexeme.scan line)
      · exact haccepts
      · have hinvalid := (result_evaluate_of_begins hline (begins_of_forall_not_firstImpossible hnone)).1 haccepts
        rw [hdivision] at hinvalid
        cases hinvalid
    · obtain ⟨i, hi⟩ := Classical.not_forall.1 hnone
      rcases (result_evaluate_of_firstImpossible hline (Classical.not_not.1 hi)).1 with hresult | hresult
      · rw [hdivision] at hresult
        cases hresult
      · rw [hdivision] at hresult
        cases hresult
  · intro before r _ hconsume
    exact begins_iff.2 ⟨r, hconsume⟩

/-- A division by zero, an unbound name, a value without an operator and a character of no token stand in one line: it is the
name that is reported. -/
theorem result_evaluate_unbound_name_first :
    let table := empty.store ['x'] 7
    let line := "2 * (x / 0) + y 3 #".toList
    let before : List Token := [.literal 2 none, .run ['*'], .openParen, .identifier ['x'], .run ['/'], .literal 0 none, .closeParen,
      .run ['+']]
    let lexemes : List Lexeme := before.map .ok ++ [.ok (.identifier ['y']), .ok (.literal 3 none), .error .invalidExpression]
    line.all isBlank = false ∧ Lexeme.ofLine line = .ok lexemes ∧ FirstImpossible table lexemes 8 ∧
      UnboundOperand table lexemes 8 ∧ (table.evaluate line).result = .error .unknownVariable := by
  intro table line before lexemes
  have hblank : line.all isBlank = false := by decide
  have hline : Lexeme.ofLine line = .ok lexemes := by decide +kernel
  have hbegins : Begins table (before.map .ok) := begins_iff.2 ⟨_, rfl⟩
  have hnot : ¬Begins table (before.map .ok ++ [.ok (.identifier ['y'])]) := by
    rw [begins_iff]
    rintro ⟨r, hr⟩
    cases hr
  have hfirst : FirstImpossible table lexemes 8 := firstImpossible_of_not_begins hbegins hnot _
  have hunbound : UnboundOperand table lexemes 8 := by
    refine ⟨?_, ['y'], rfl, rfl⟩
    intro token htoken
    cases htoken
    rfl
  obtain ⟨lexemes', hline', herror, -⟩ := result_evaluate_first_fault table hblank
  obtain rfl : lexemes' = lexemes := Except.ok.inj (hline'.symm.trans hline)
  exact ⟨hblank, hline, hfirst, hunbound, (herror 8 hfirst).2.2 hunbound⟩

end Variables

end IntegerCalculator
