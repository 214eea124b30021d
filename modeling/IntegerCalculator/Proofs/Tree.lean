import IntegerCalculator.Postfix.Value

/-!
# Expression trees

An expression means a tree: integers or names at the leaves, operators at the nodes. A tree of integers has an exact value,
the division at a node going toward zero, and it has a postfix form, the listing of its nodes after their subtrees.

`result_foldlM_postorder` says that evaluating the listing on any stack puts the value of the tree on it, unless a division
node of the tree has the divisor zero.
-/

namespace IntegerCalculator

/-- An expression: a leaf for each operand, a node for each operator. -/
inductive Tree (α : Type) where
  | leaf (a : α)
  | node (op : Operator) (left right : Tree α)
  deriving DecidableEq, Repr

/-- The exact value of an operator; that of a division by zero has no meaning. -/
def Operator.exact (op : Operator) (a b : Int) : Int :=
  match op with
  | .add => a + b
  | .subtract => a - b
  | .multiply => a * b
  | .divide => a.tdiv b

namespace Tree

variable {α β : Type}

/-- The tree with other leaves at the same places. -/
def map (f : α → β) : Tree α → Tree β
  | leaf a => leaf (f a)
  | node op left right => node op (left.map f) (right.map f)

/-- The leaves, from left to right. -/
def leaves : Tree α → List α
  | leaf a => [a]
  | node _ left right => left.leaves ++ right.leaves

/-- The listing of a tree in which an operator follows its two operands. -/
def postorder : Tree Int → Postfix
  | leaf value => [.operand value]
  | node op left right => left.postorder ++ right.postorder ++ [.operator op]

/-- The exact value of a tree. It is that of the expression unless the tree divides by zero. -/
def value : Tree Int → Int
  | leaf value => value
  | node op left right => op.exact left.value right.value

/-- Some division node of the tree has a divisor of value zero. -/
def DividesByZero : Tree Int → Prop
  | leaf _ => False
  | node op left right => left.DividesByZero ∨ right.DividesByZero ∨ (op = .divide ∧ right.value = 0)

/-- Whether a tree divides by zero can be computed. -/
instance decidableDividesByZero : (t : Tree Int) → Decidable t.DividesByZero
  | leaf _ => inferInstanceAs (Decidable False)
  | node op left right =>
    have := decidableDividesByZero left
    have := decidableDividesByZero right
    inferInstanceAs (Decidable (_ ∨ _ ∨ (op = .divide ∧ right.value = 0)))

end Tree

/-- An operator gives its exact value, except that a division refuses the divisor zero. -/
theorem Operator.apply_eq (op : Operator) (a b : Int) :
    op.apply a b = if op = .divide ∧ b = 0 then .error .divisionByZero else .ok (op.exact a b) := by
  cases op <;> simp [Operator.apply, Operator.exact]

/-! ## Evaluation of a listing -/

namespace Item

/-- An operand is put on the stack. -/
theorem result_actOn_operand (value : Int) (stack : List Int) :
    (actOn stack (.operand value)).result = .ok (value :: stack) := rfl

/-- An operator takes its two operands off the stack and puts its value on it. -/
theorem result_actOn_operator (op : Operator) (a b : Int) (stack : List Int) :
    (actOn (b :: a :: stack) (.operator op)).result =
      if op = .divide ∧ b = 0 then .error .divisionByZero else .ok (op.exact a b :: stack) := by
  simp only [actOn, Calculation.result_bind, Calculation.result_ofExcept, Operator.apply_eq]
  split <;> rfl

/-- An operator that finds fewer than two operands is an error. -/
theorem result_actOn_underflow {op : Operator} {stack : List Int} (h : stack.length < 2) :
    (actOn stack (.operator op)).result = .error .invalidExpression := by
  match stack, h with
  | [], _ => rfl
  | [_], _ => rfl

/-- An item that does not fail is an operand, which is put on the stack, or an operator that finds two values on it, does not
divide by zero, and leaves its own value in their place. -/
theorem result_actOn_eq_ok_iff {stack next : List Int} {item : Item} :
    (actOn stack item).result = .ok next ↔
      (∃ value, item = .operand value ∧ next = value :: stack) ∨
        ∃ op a b rest, item = .operator op ∧ stack = b :: a :: rest ∧ ¬(op = .divide ∧ b = 0) ∧
          next = op.exact a b :: rest := by
  constructor
  · intro h
    cases item with
    | operand value =>
      cases h
      exact .inl ⟨value, rfl, rfl⟩
    | operator op =>
      match stack with
      | [] => cases h
      | [_] => cases h
      | b :: a :: rest =>
        rw [result_actOn_operator] at h
        split at h
        · cases h
        · next hdivisor =>
          cases h
          exact .inr ⟨op, a, b, rest, rfl, rfl, hdivisor, rfl⟩
  · rintro (⟨value, rfl, rfl⟩ | ⟨op, a, b, rest, rfl, rfl, hdivisor, rfl⟩)
    · rfl
    · rw [result_actOn_operator, if_neg hdivisor]

end Item

namespace Tree

/-- Evaluating the listing of a tree puts its value on the stack, or meets a division by zero if the tree has one. -/
theorem result_foldlM_postorder (t : Tree Int) (stack : List Int) :
    (t.postorder.foldlM Item.actOn stack).result =
      if t.DividesByZero then .error .divisionByZero else .ok (t.value :: stack) := by
  induction t generalizing stack with
  | leaf value => rfl
  | node op left right ihl ihr =>
    rw [postorder, List.append_assoc, List.foldlM_append]
    by_cases hl : left.DividesByZero
    · have hdiv : (node op left right).DividesByZero := Or.inl hl
      rw [if_pos hdiv]
      exact Calculation.result_bind_of_error ((ihl stack).trans (if_pos hl))
    · rw [Calculation.result_bind_of_ok ((ihl stack).trans (if_neg hl)), List.foldlM_append]
      by_cases hr : right.DividesByZero
      · have hdiv : (node op left right).DividesByZero := Or.inr (Or.inl hr)
        rw [if_pos hdiv]
        exact Calculation.result_bind_of_error ((ihr _).trans (if_pos hr))
      · rw [Calculation.result_bind_of_ok ((ihr _).trans (if_neg hr)), List.foldlM_cons, Calculation.result_bind,
          Item.result_actOn_operator]
        simp only [DividesByZero, hl, hr, false_or, value]
        split <;> rfl

/-- The value of the listing of a tree is the exact value of the tree, unless a division node has the divisor zero. -/
theorem result_value_postorder (t : Tree Int) :
    (Postfix.value t.postorder).result = if t.DividesByZero then .error .divisionByZero else .ok t.value := by
  rw [Postfix.value, Calculation.result_bind, result_foldlM_postorder]
  split <;> rfl

end Tree

end IntegerCalculator
