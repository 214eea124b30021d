import IntegerCalculator.Expression
import IntegerCalculator.Proofs.Conversion

/-!
# What an evaluation asks of the table

A conversion asks the table for the names among its tokens and for nothing else. A table that gives the names that another
binds the same values lets every conversion go the same way, except that the other may stop at a name without a value
(`result_ofLexemes_of_extends`). So a conversion with an unbound name fails by that name if it succeeds with a table that
binds it (`result_ofLexemes_of_unbound`).
-/

namespace IntegerCalculator

namespace Variables

/-- Some table binds given names besides all that a table binds. -/
theorem exists_binding (t : Variables) (names : List (List Char)) :
    ∃ u : Variables, (∀ name v, t.lookup name = some v → u.lookup name = some v) ∧
      ∀ name ∈ names, ∃ v, u.lookup name = some v := by
  induction names with
  | nil => exact ⟨t, fun _ _ h => h, by simp⟩
  | cons first names ih =>
    obtain ⟨u, hext, hbound⟩ := ih
    cases hfirst : u.lookup first with
    | some v =>
      refine ⟨u, hext, ?_⟩
      intro name hname
      rcases List.mem_cons.1 hname with rfl | hname
      · exact ⟨v, hfirst⟩
      · exact hbound name hname
    | none =>
      have hother : ∀ name v, u.lookup name = some v → (u.store first 0).lookup name = some v := by
        intro name v hv
        have hne : first ≠ name := by
          rintro rfl
          rw [hfirst] at hv
          cases hv
        rw [lookup_store, if_neg hne, hv]
      refine ⟨u.store first 0, fun name v hv => hother name v (hext name v hv), ?_⟩
      intro name hname
      rcases List.mem_cons.1 hname with rfl | hname
      · exact ⟨0, by rw [lookup_store, if_pos rfl]⟩
      · obtain ⟨v, hv⟩ := hbound name hname
        exact ⟨v, hother name v hv⟩

end Variables

namespace Conversion

variable {t u : Variables}

/-- A token is converted alike with a table that gives its name the same value, or the name has no value. -/
theorem result_step_of_extends {c : Conversion} {token : Token}
    (h : ∀ name v, token = .identifier name → t.lookup name = some v → u.lookup name = some v) :
    (c.step u token).result = (c.step t token).result ∨ (c.step t token).result = .error .unknownVariable := by
  obtain ⟨pending, expects⟩ := c
  cases token with
  | identifier name =>
    cases expects with
    | false => exact Or.inl rfl
    | true =>
      rw [result_step_operand_expected, result_step_operand_expected]
      cases ht : t.lookup name with
      | some v =>
        left
        simp [Variables.resolve, ht, h name v rfl ht]
      | none =>
        right
        simp [Variables.resolve, ht, Except.map]
  | literal v sign => exact Or.inl rfl
  | run text => exact Or.inl rfl
  | openParen => exact Or.inl rfl
  | closeParen => exact Or.inl rfl

/-- Lexemes are converted alike with a table that gives their names the same values, or one of the names has no value. -/
theorem result_consume_of_extends {lexemes : List Lexeme} {c : Conversion}
    (h : ∀ name v, .ok (.identifier name) ∈ lexemes → t.lookup name = some v → u.lookup name = some v) :
    (c.consume u lexemes).result = (c.consume t lexemes).result ∨
      (c.consume t lexemes).result = .error .unknownVariable := by
  induction lexemes generalizing c with
  | nil =>
    left
    rw [consume, consume]
  | cons lexeme lexemes ih =>
    rw [result_consume_cons, result_consume_cons]
    cases lexeme with
    | error e => exact Or.inl rfl
    | ok token =>
      rw [Calculation.ok_bind, Calculation.ok_bind]
      have htoken : ∀ name v, token = .identifier name → t.lookup name = some v → u.lookup name = some v := by
        intro name v hname
        exact h name v (by simp [hname])
      rcases result_step_of_extends (c := c) htoken with hstep | hstep
      · rw [hstep]
        cases (c.step t token).result with
        | error e => exact Or.inl rfl
        | ok first =>
          rw [Calculation.ok_bind, Calculation.ok_bind]
          rcases ih (c := first.2) fun name v hname => h name v (by simp [hname]) with hrest | hrest
          · left
            rw [hrest]
          · right
            rw [hrest]
            rfl
      · right
        rw [hstep]
        rfl

end Conversion

namespace Postfix

variable {t u : Variables}

/-- Lexemes have the same postfix form, or the same error, with a table that gives their names the same values, or one of the
names has no value. -/
theorem result_ofLexemes_of_extends {lexemes : List Lexeme}
    (h : ∀ name v, .ok (.identifier name) ∈ lexemes → t.lookup name = some v → u.lookup name = some v) :
    (ofLexemes u lexemes).result = (ofLexemes t lexemes).result ∨
      (ofLexemes t lexemes).result = .error .unknownVariable := by
  rw [result_ofLexemes, result_ofLexemes]
  rcases Conversion.result_consume_of_extends (c := Conversion.start) h with hconsume | hconsume
  · left
    rw [hconsume]
  · right
    rw [hconsume]
    rfl

/-- Tokens that are converted with a table are not converted with another one that gives one of their names no value, though
it agrees with the first one in what it binds; they fail by such a name. -/
theorem result_ofLexemes_of_unbound {tokens : List Token} {items : Postfix} {name : List Char}
    (h : ∀ name v, t.lookup name = some v → u.lookup name = some v)
    (hu : (ofLexemes u (tokens.map .ok)).result = .ok items) (hmem : .identifier name ∈ tokens)
    (hname : t.lookup name = none) : (ofLexemes t (tokens.map .ok)).result = .error .unknownVariable := by
  have hextends := @result_ofLexemes_of_extends t u (tokens.map .ok) fun name v _ => h name v
  rcases hextends with hsame | herror
  · rw [hu] at hsame
    obtain ⟨e, hyield, -⟩ := exists_sum_of_ofLexemes hsame.symm
    obtain ⟨v, hv⟩ := (Token.exists_listTerminals_iff false).1 ⟨_, hyield⟩ _ hmem
    rw [hname] at hv
    cases hv
  · exact herror

end Postfix

/-- Where nothing is written, the tokens of a line are not read for the log. -/
theorem Lexeme.result_reportLine (line : List Char) : (reportLine line).result = .ok () := rfl

/-- The value of a line is that of the postfix form of its lexemes. -/
theorem Variables.result_evaluate_of_ofLine {table : Variables} {line : List Char} {lexemes : List Lexeme}
    (h : Lexeme.ofLine line = .ok lexemes) :
    (table.evaluate line).result = (Postfix.ofLexemes table lexemes).result >>= fun items => items.value.result := by
  rw [Variables.evaluate, h, Calculation.result_bind_of_ok (Calculation.result_ofExcept _),
    Calculation.result_bind_of_ok (Lexeme.result_reportLine line)]
  simp [Calculation.result_bind]

/-- Two lines with the same lexemes are the same expression, in the log too. -/
theorem Variables.evaluate_of_ofLine_eq {line other : List Char} (h : Lexeme.ofLine other = Lexeme.ofLine line)
    (table : Variables) : table.evaluate other = table.evaluate line := by
  rw [evaluate, evaluate, Lexeme.reportLine, Lexeme.reportLine, h]

end IntegerCalculator
