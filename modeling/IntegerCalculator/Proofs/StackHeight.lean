import IntegerCalculator.Proofs.Conversion

/-!
# The height of the evaluation stack

The height of the evaluation stack is the number of operands read less that of operators (`length_of_foldlM_actOn`, for all
postfix forms). The listing of a tree has one operand more than it has operators, and each beginning of it that is not empty
has more operands than operators (`operatorCount_lt_of_prefix_postorder`), so its evaluation finds two operands for each
operator and leaves one value.

A postfix form that a conversion gives is such a listing: its evaluation fails at most by a division by zero, and about half
as many values as it has items are ever on the stack (`evaluation_of_ofLexemes`).
-/

namespace IntegerCalculator

/-- Whether an item is an operand. -/
def Item.isOperand : Item → Bool
  | operand _ => true
  | operator _ => false

namespace Postfix

/-- The number of operands of a postfix form. -/
def operandCount (items : Postfix) : Nat := items.countP Item.isOperand

/-- The number of operators of a postfix form. -/
def operatorCount (items : Postfix) : Nat := items.countP fun item => !item.isOperand

@[simp] theorem operandCount_nil : operandCount [] = 0 := rfl

@[simp] theorem operatorCount_nil : operatorCount [] = 0 := rfl

@[simp] theorem operandCount_append (items more : Postfix) :
    operandCount (items ++ more) = operandCount items + operandCount more := List.countP_append

@[simp] theorem operatorCount_append (items more : Postfix) :
    operatorCount (items ++ more) = operatorCount items + operatorCount more := List.countP_append

@[simp] theorem operandCount_operand_cons (value : Int) (items : Postfix) :
    operandCount (.operand value :: items) = operandCount items + 1 := List.countP_cons_of_pos rfl

@[simp] theorem operandCount_operator_cons (op : Operator) (items : Postfix) :
    operandCount (.operator op :: items) = operandCount items := rfl

@[simp] theorem operatorCount_operand_cons (value : Int) (items : Postfix) :
    operatorCount (.operand value :: items) = operatorCount items := rfl

@[simp] theorem operatorCount_operator_cons (op : Operator) (items : Postfix) :
    operatorCount (.operator op :: items) = operatorCount items + 1 := List.countP_cons_of_pos rfl

/-- Every item is an operand or an operator. -/
theorem length_eq_counts (items : Postfix) : items.length = operandCount items + operatorCount items := by
  induction items with
  | nil => rfl
  | cons item items ih =>
    cases item <;> simp [ih] <;> omega

/-- The height of the stack is the number of operands read less that of operators, whatever it was before. -/
theorem length_of_foldlM_actOn {items : Postfix} {stack last : List Int}
    (h : (items.foldlM Item.actOn stack).result = .ok last) :
    last.length + operatorCount items = stack.length + operandCount items := by
  induction items generalizing stack with
  | nil =>
    cases h
    simp
  | cons item items ih =>
    rw [List.foldlM_cons, Calculation.result_bind_eq_ok_iff] at h
    obtain ⟨next, hnext, hlast⟩ := h
    have hlen := ih hlast
    rcases Item.result_actOn_eq_ok_iff.1 hnext with ⟨value, rfl, rfl⟩ | ⟨op, a, b, rest, rfl, rfl, -, rfl⟩
    · simp only [List.length_cons, operandCount_operand_cons, operatorCount_operand_cons] at hlen ⊢
      omega
    · simp only [List.length_cons, operandCount_operator_cons, operatorCount_operator_cons] at hlen ⊢
      omega

end Postfix

/-! ## Listings of trees -/

namespace Tree

/-- The listing of a tree has one operand more than it has operators. -/
theorem operandCount_postorder (t : Tree Int) :
    Postfix.operandCount t.postorder = Postfix.operatorCount t.postorder + 1 := by
  induction t with
  | leaf value => rfl
  | node op left right ihl ihr =>
    simp only [postorder, Postfix.operandCount_append, Postfix.operatorCount_append, ihl, ihr,
      Postfix.operandCount_operator_cons, Postfix.operatorCount_operator_cons, Postfix.operandCount_nil,
      Postfix.operatorCount_nil]
    omega

/-- A beginning of the listing of a tree that is not empty has more operands than operators. -/
theorem operatorCount_lt_of_prefix_postorder {t : Tree Int} {items : Postfix} (h : items <+: t.postorder)
    (hne : items ≠ []) : Postfix.operatorCount items < Postfix.operandCount items := by
  induction t generalizing items with
  | leaf value =>
    rcases List.prefix_cons_iff.1 h with rfl | ⟨rest, rfl, hrest⟩
    · exact absurd rfl hne
    · obtain rfl : rest = [] := List.prefix_nil.1 hrest
      simp
  | node op left right ihl ihr =>
    obtain ⟨rest, hrest⟩ := h
    have hl := operandCount_postorder left
    have hr := operandCount_postorder right
    rw [postorder, List.append_assoc, List.append_eq_append_iff] at hrest
    rcases hrest with ⟨rest', hleft, -⟩ | ⟨items', rfl, hitems⟩
    · exact ihl ⟨rest', hleft.symm⟩ hne
    · rcases List.append_eq_append_iff.1 hitems with ⟨last, rfl, hlast⟩ | ⟨rest', hright, -⟩
      · -- the beginning reaches into the operator at the end, which it may hold or not
        rcases List.append_eq_singleton_iff.1 hlast.symm with ⟨rfl, -⟩ | ⟨rfl, -⟩ <;>
          simp <;> omega
      · by_cases hi : items' = []
        · subst hi
          simp
          omega
        · have := ihr ⟨rest', hright.symm⟩ hi
          simp
          omega

end Tree

/-! ## Converted forms -/

namespace Postfix

/-- A postfix form that a conversion gives is the listing of a tree. -/
theorem exists_tree_of_ofLexemes {table : Variables} {lexemes : List Lexeme} {items : Postfix}
    (h : (ofLexemes table lexemes).result = .ok items) : ∃ t : Tree Int, items = t.postorder := by
  obtain ⟨tokens, rfl⟩ := exists_tokens_of_ofLexemes h
  obtain ⟨e, -, he⟩ := exists_sum_of_ofLexemes h
  exact ⟨e.toTree, he⟩

/-- A postfix form that a conversion gives has a value or divides by zero, and is never found malformed: each beginning of it
that is not empty has more operands than operators, and the whole has exactly one more. While it is evaluated, the stack never
holds more values than half its items and one. -/
theorem evaluation_of_ofLexemes {table : Variables} {lexemes : List Lexeme} {items : Postfix}
    (h : (ofLexemes table lexemes).result = .ok items) :
    ((∃ v, items.value.result = .ok v) ∨ items.value.result = .error .divisionByZero) ∧
      (∀ start : Postfix, start <+: items → start ≠ [] → start.operatorCount < start.operandCount) ∧
      items.operandCount = items.operatorCount + 1 ∧
      ∀ (start : Postfix) (stack : List Int), start <+: items → (start.foldlM Item.actOn []).result = .ok stack →
        stack.length ≤ items.length / 2 + 1 := by
  obtain ⟨t, rfl⟩ := exists_tree_of_ofLexemes h
  have hcount := Tree.operandCount_postorder t
  refine ⟨?_, ?_, hcount, ?_⟩
  · rw [Tree.result_value_postorder]
    by_cases hz : t.DividesByZero
    · rw [if_pos hz]
      exact Or.inr rfl
    · rw [if_neg hz]
      exact Or.inl ⟨t.value, rfl⟩
  · intro start hstart hne
    exact Tree.operatorCount_lt_of_prefix_postorder hstart hne
  · intro start stack hstart hstack
    have hheight := length_of_foldlM_actOn hstack
    have hle : operandCount start ≤ operandCount t.postorder := hstart.sublist.countP_le
    have hlength := length_eq_counts t.postorder
    simp only [List.length_nil] at hheight
    omega

/-- Tokens that no line gives, two of them literals with the signs `*` and `/`: their items keep to the bounds and end in a
division by zero. -/
theorem evaluation_of_split_products :
    let tokens : List Token := [.literal 7 none, .literal (-3) (some .multiply), .run ['-', '-'], .openParen,
      .literal 2 none, .literal 0 (some .divide), .closeParen]
    let items : Postfix := [.operand 7, .operand 3, .operator .multiply, .operand 2, .operand 0, .operator .divide,
      .operator .add]
    (ofLexemes .empty (tokens.map .ok)).result = .ok items ∧ items.value.result = .error .divisionByZero ∧
      (∀ start : Postfix, start <+: items → start ≠ [] → start.operatorCount < start.operandCount) ∧
      items.operandCount = items.operatorCount + 1 ∧
      ∀ (start : Postfix) (stack : List Int), start <+: items → (start.foldlM Item.actOn []).result = .ok stack →
        stack.length ≤ 4 := by
  intro tokens items
  have hitems : (ofLexemes .empty (tokens.map .ok)).result = .ok items := rfl
  obtain ⟨-, hstart, hcount, hheight⟩ := evaluation_of_ofLexemes hitems
  have hlength : List.length items = 7 := rfl
  rw [hlength] at hheight
  exact ⟨hitems, rfl, hstart, hcount, hheight⟩

end Postfix

end IntegerCalculator
