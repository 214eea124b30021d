import IntegerCalculator.Proofs.Context

/-!
# The shape of a conversion

The errors of a conversion depend on little of its state: on whether an operand or an operator is expected, and on what is held
back, where the two operators of one precedence need not be told apart (`SameShape`). Conversions of the same shape take the
same lexemes with the same error, or stay of the same shape (`SameShape.consume`), and come to the end of the input with the
same error (`SameShape.finish_eq_error`).
-/

namespace IntegerCalculator

/-- What is held back has the same shape: it is the same, except that operators of one precedence are not told apart. -/
inductive SameShape : List Pending → List Pending → Prop where
  | nil : SameShape [] []
  | paren {pending pending' : List Pending} (h : SameShape pending pending') :
    SameShape (.paren :: pending) (.paren :: pending')
  | operator {op op' : Operator} {pending pending' : List Pending} (hop : op.precedence = op'.precedence)
    (h : SameShape pending pending') : SameShape (.operator op :: pending) (.operator op' :: pending')

namespace SameShape

variable {pending pending' : List Pending}

theorem refl (pending : List Pending) : SameShape pending pending := by
  induction pending with
  | nil => exact .nil
  | cons top pending ih =>
    cases top with
    | operator op => exact .operator rfl ih
    | paren => exact .paren ih

/-- What operators of one precedence leave held back has the same shape. -/
theorem releaseFor {op op' : Operator} (h : SameShape pending pending') (hop : op.precedence = op'.precedence) :
    SameShape (Conversion.releaseFor op pending).2 (Conversion.releaseFor op' pending').2 := by
  induction h with
  | nil => exact .nil
  | paren h _ => exact .paren h
  | operator hheld h ih =>
    rw [Conversion.releaseFor, Conversion.releaseFor, hheld, hop]
    split
    · exact .operator hheld h
    · exact ih

/-- A closing parenthesis finds its opening one in both or in neither, and what is below it has the same shape. -/
theorem releaseGroup (h : SameShape pending pending') :
    Option.Rel (fun r r' => SameShape r.2 r'.2) (Conversion.releaseGroup pending) (Conversion.releaseGroup pending') := by
  induction h with
  | nil => exact .none
  | paren h _ => exact .some h
  | @operator _ _ rest rest' _ _ ih =>
    rw [Conversion.releaseGroup, Conversion.releaseGroup]
    revert ih
    generalize Conversion.releaseGroup rest = r, Conversion.releaseGroup rest' = s
    rintro (hkept | _)
    · exact .some hkept
    · exact .none

/-- A parenthesis is open in both or in neither. -/
theorem releaseAll_eq_none (h : SameShape pending pending') (hopen : Conversion.releaseAll pending = none) :
    Conversion.releaseAll pending' = none := by
  induction h with
  | nil => cases hopen
  | paren _ _ => rfl
  | operator _ _ ih =>
    rw [Conversion.releaseAll, Option.map_eq_none_iff] at hopen ⊢
    exact ih hopen

end SameShape

/-- Outcomes of a conversion with the same shape: the same error, or states that expect the same and hold back the same but for
operators of one precedence. -/
inductive OutcomesShaped : Except Error (List Item × Conversion) → Except Error (List Item × Conversion) → Prop where
  | error (e : Error) : OutcomesShaped (.error e) (.error e)
  | ok {items others : List Item} {pending pending' : List Pending} (expects : Bool) (h : SameShape pending pending') :
    OutcomesShaped (.ok (items, ⟨pending, expects⟩)) (.ok (others, ⟨pending', expects⟩))

namespace SameShape

variable {pending pending' : List Pending} (h : SameShape pending pending') (table : Variables)

include h

/-- What has the same shape takes a token with the same error, or keeps the same shape. -/
theorem step (expects : Bool) (token : Token) :
    OutcomesShaped (Conversion.step table ⟨pending, expects⟩ token).result
      (Conversion.step table ⟨pending', expects⟩ token).result := by
  cases expects with
  | true =>
    rw [Conversion.result_step_operand_expected, Conversion.result_step_operand_expected]
    cases token with
    | identifier name =>
      dsimp only
      cases table.resolve name with
      | error e => exact .error e
      | ok v => exact .ok false h
    | literal v sign => exact .ok false h
    | openParen => exact .ok true (.paren h)
    | run text => exact .error _
    | closeParen => exact .error _
  | false =>
    rw [Conversion.result_step_operator_expected, Conversion.result_step_operator_expected]
    cases token with
    | identifier name => exact .error _
    | literal v sign =>
      cases sign with
      | none => exact .error _
      | some op => exact .ok false (.operator rfl (h.releaseFor rfl))
    | openParen => exact .error _
    | run text =>
      dsimp only
      cases Operator.ofRun text with
      | error e => exact .error e
      | ok op => exact .ok true (.operator rfl (h.releaseFor rfl))
    | closeParen =>
      have hgroup := h.releaseGroup
      revert hgroup
      dsimp only
      generalize Conversion.releaseGroup pending = r, Conversion.releaseGroup pending' = s
      rintro (hkept | _)
      · exact .ok false hkept
      · exact .error _

/-- What has the same shape takes lexemes with the same error, or keeps the same shape. -/
theorem consume (expects : Bool) (lexemes : List Lexeme) :
    OutcomesShaped (Conversion.consume table ⟨pending, expects⟩ lexemes).result
      (Conversion.consume table ⟨pending', expects⟩ lexemes).result := by
  induction lexemes generalizing pending pending' expects with
  | nil => exact .ok expects h
  | cons lexeme lexemes ih =>
    rw [Conversion.result_consume_cons, Conversion.result_consume_cons]
    cases lexeme with
    | error e => exact .error e
    | ok token =>
      have hstep := h.step table expects token
      rw [Calculation.ok_bind, Calculation.ok_bind]
      revert hstep
      generalize (Conversion.step table ⟨pending, expects⟩ token).result = r,
        (Conversion.step table ⟨pending', expects⟩ token).result = s
      rintro (e | ⟨next, hnext⟩)
      · exact .error e
      · have hrest := ih hnext next
        rw [Calculation.ok_bind, Calculation.ok_bind]
        revert hrest
        dsimp only
        generalize (Conversion.consume table _ lexemes).result = r', (Conversion.consume table _ lexemes).result = s'
        rintro (e | ⟨last, hlast⟩)
        · exact .error e
        · exact .ok last hlast

omit table in
/-- What has the same shape comes to the end of the input with the same error. -/
theorem finish_eq_error {expects : Bool} {e : Error} (hend : Conversion.finish ⟨pending, expects⟩ = .error e) :
    Conversion.finish ⟨pending', expects⟩ = .error e := by
  unfold Conversion.finish at hend ⊢
  cases expects with
  | true => exact hend
  | false =>
    cases hrelease : Conversion.releaseAll pending with
    | some released => simp [hrelease] at hend
    | none => simpa [hrelease, h.releaseAll_eq_none hrelease] using hend

end SameShape

end IntegerCalculator
