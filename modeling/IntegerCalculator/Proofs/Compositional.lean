import IntegerCalculator.Expression

/-!
# Properties of calculations, part by part

An expression is converted and evaluated by calculations that are put together from few parts: results that are there already,
reports to the log, and one calculation after another. A property that the single parts have, and that a calculation after
another has if both have it (`Calculation.Compositional`), is therefore one of the conversion of any lexemes
(`Calculation.Compositional.ofLexemes`) and of the value of any postfix form (`Calculation.Compositional.value`).
-/

namespace IntegerCalculator

/-- The event reports a step in the evaluation of an expression. -/
def Event.OfEvaluation : Event → Prop
  | tokensRead _ | tokenReached _ | operandPassed _ | operatorHeld _ | converted _ | applied .. => True
  | scriptNamed _ | sessionOpened | assigned .. | lineRejected .. | sessionLeft | inputEnded _ | sessionEnded => False

/-- All calculations that write nothing have the property, all reports of a step in an evaluation have it, and so has one
calculation after another where both have it. -/
structure Calculation.Compositional (P : (α : Type) → Calculation α → Prop) : Prop where
  ofExcept : ∀ {α : Type} (r : Except Error α), P α (Calculation.ofExcept r)
  write : ∀ {e : Event}, e.OfEvaluation → P Unit (Calculation.write e)
  bind : ∀ {α β : Type} {x : Calculation α} {f : α → Calculation β}, P α x → (∀ a, P β (f a)) → P β (x >>= f)

namespace Calculation.Compositional

variable {P : (α : Type) → Calculation α → Prop} (h : Compositional P)
include h

theorem pure {α : Type} (a : α) : P α (Pure.pure a) := h.ofExcept (.ok a)

theorem throw {α : Type} (e : Error) : P α (throwThe Error e) := h.ofExcept (.error e)

/-! ## Conversion -/

theorem operand (c : Conversion) (v : Int) : P _ (c.operand v) := h.bind (h.write trivial) fun _ => h.pure _

theorem operator (c : Conversion) (op : Operator) : P _ (c.operator op) := h.bind (h.write trivial) fun _ => h.pure _

theorem step (table : Variables) (c : Conversion) (token : Token) : P _ (c.step table token) := by
  unfold Conversion.step
  refine h.bind (h.write trivial) fun _ => ?_
  split
  · split
    · exact h.bind (h.ofExcept _) fun v => h.operand c v
    · exact h.operand c _
    · exact h.pure _
    · exact h.throw _
    · exact h.throw _
  · split
    · exact h.bind (h.ofExcept _) fun op => h.operator c op
    · split
      · exact h.pure _
      · exact h.throw _
    · refine h.bind (h.operator c _) fun held => ?_
      exact h.bind (h.operand held.2 _) fun _ => h.pure _
    · exact h.throw _
    · exact h.throw _
    · exact h.throw _

theorem consume (table : Variables) (c : Conversion) (lexemes : List Lexeme) : P _ (c.consume table lexemes) := by
  induction lexemes generalizing c with
  | nil => exact h.pure _
  | cons lexeme lexemes ih =>
    refine h.bind (h.ofExcept lexeme) fun token => ?_
    refine h.bind (h.step table c token) fun first => ?_
    exact h.bind (ih first.2) fun _ => h.pure _

theorem ofLexemes (table : Variables) (lexemes : List Lexeme) : P _ (Postfix.ofLexemes table lexemes) := by
  refine h.bind (h.consume table _ lexemes) fun _ => ?_
  exact h.bind (h.ofExcept _) fun _ => h.pure _

/-! ## Evaluation -/

theorem actOn (stack : List Int) (item : Item) : P _ (item.actOn stack) := by
  unfold Item.actOn
  split
  · exact h.pure _
  · refine h.bind (h.ofExcept _) fun _ => ?_
    exact h.bind (h.write trivial) fun _ => h.pure _
  · exact h.throw _

theorem foldlM_actOn (items : Postfix) (stack : List Int) : P _ (items.foldlM Item.actOn stack) := by
  induction items generalizing stack with
  | nil => exact h.pure _
  | cons item items ih => exact h.bind (h.actOn stack item) fun next => ih next

theorem value (items : Postfix) : P _ items.value := by
  refine h.bind (h.foldlM_actOn items []) fun _ => ?_
  split
  · exact h.pure _
  · exact h.throw _

end Calculation.Compositional

end IntegerCalculator
