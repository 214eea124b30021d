import IntegerCalculator.Proofs.Tree

/-!
# Postfix forms, well formed or not

Any list of items can be given to the evaluation. It is read from left to right on a stack (`Postfix.Reads`), up to the first
fault: an operator that finds fewer than two values, or a division that finds the divisor zero over another value. So the list
has a value exactly when it is the listing of a tree that divides nowhere by zero, and only one tree has this listing; it is a
division by zero exactly when that is the first fault; and else it is malformed (`Postfix.result_value_cases`).

What has been read without a fault is the listings of trees, one after the other, and the stack holds their values
(`Postfix.Reads.exists_trees`). A listing ends with that of one tree only, whatever stands before it
(`Tree.append_postorder_inj`).
-/

namespace IntegerCalculator

/-! ## Listings -/

namespace Tree

/-- The listings of trees one after the other, the last one first among the trees. -/
def postorderAll : List (Tree Int) → Postfix
  | [] => []
  | t :: trees => postorderAll trees ++ t.postorder

/-- Items that end with the listing of a tree determine the tree and the items before it. -/
theorem append_postorder_inj {t u : Tree Int} {items others : Postfix} (h : items ++ t.postorder = others ++ u.postorder) :
    items = others ∧ t = u := by
  induction t generalizing u items others with
  | leaf v =>
    cases u with
    | leaf w =>
      obtain ⟨rfl, hlast⟩ := List.append_inj' h rfl
      cases hlast
      exact ⟨rfl, rfl⟩
    | node op left right =>
      rw [postorder, postorder, ← List.append_assoc] at h
      obtain ⟨-, hlast⟩ := List.append_inj' h rfl
      cases hlast
  | node op left right ihl ihr =>
    cases u with
    | leaf w =>
      rw [postorder, postorder, ← List.append_assoc] at h
      obtain ⟨-, hlast⟩ := List.append_inj' h rfl
      cases hlast
    | node op' left' right' =>
      rw [postorder, postorder, ← List.append_assoc items, ← List.append_assoc others] at h
      obtain ⟨hoperands, hlast⟩ := List.append_inj' h rfl
      cases hlast
      rw [← List.append_assoc, ← List.append_assoc] at hoperands
      obtain ⟨hleft, rfl⟩ := ihr hoperands
      obtain ⟨rfl, rfl⟩ := ihl hleft
      exact ⟨rfl, rfl⟩

/-- A tree is determined by its listing. -/
theorem postorder_injective {t u : Tree Int} (h : t.postorder = u.postorder) : t = u :=
  (@append_postorder_inj t u [] [] h).2

end Tree

/-! ## Reading items -/

namespace Postfix

/-- The items are read without a fault and leave the stack, its top first. An operand is put on it; an operator takes its right
operand and then its left one off it and puts its value on it, and does not divide by zero. -/
inductive Reads : Postfix → List Int → Prop where
  | nil : Reads [] []
  | operand {items : Postfix} {stack : List Int} (value : Int) (h : Reads items stack) :
    Reads (items ++ [.operand value]) (value :: stack)
  | operator {items : Postfix} {stack : List Int} {a b : Int} (op : Operator) (h : Reads items (b :: a :: stack))
    (hdivisor : ¬(op = .divide ∧ b = 0)) : Reads (items ++ [.operator op]) (op.exact a b :: stack)

/-- A division meets the divisor zero over another value, before any operator has met fewer than two values. -/
def MeetsZeroDivisor (items : Postfix) : Prop :=
  ∃ (before after : Postfix) (a : Int) (stack : List Int),
    items = before ++ .operator .divide :: after ∧ Reads before (0 :: a :: stack)

/-- What has been read without a fault is the listings of trees that divide nowhere by zero, and the stack holds their values. -/
theorem Reads.exists_trees {items : Postfix} {stack : List Int} (h : Reads items stack) :
    ∃ trees : List (Tree Int), items = Tree.postorderAll trees ∧ stack = trees.map Tree.value ∧
      ∀ t ∈ trees, ¬t.DividesByZero := by
  induction h with
  | nil => exact ⟨[], rfl, rfl, by simp⟩
  | operand v _ ih =>
    obtain ⟨trees, rfl, rfl, hdivides⟩ := ih
    exact ⟨.leaf v :: trees, rfl, rfl, List.forall_mem_cons.2 ⟨id, hdivides⟩⟩
  | operator op _ hdivisor ih =>
    obtain ⟨_, rfl, hstack, hdivides⟩ := ih
    obtain ⟨right, _, rfl, rfl, hothers⟩ := List.map_eq_cons_iff.1 hstack.symm
    obtain ⟨left, trees, rfl, rfl, rfl⟩ := List.map_eq_cons_iff.1 hothers
    obtain ⟨hright, hleft, hothers⟩ : ¬right.DividesByZero ∧ ¬left.DividesByZero ∧ ∀ t ∈ trees, ¬t.DividesByZero := by
      simpa using hdivides
    refine ⟨.node op left right :: trees, ?_, rfl, List.forall_mem_cons.2 ⟨?_, hothers⟩⟩
    · simp [Tree.postorderAll, Tree.postorder]
    · rw [Tree.DividesByZero, not_or, not_or]
      exact ⟨hleft, hright, hdivisor⟩

end Postfix

/-! ## Evaluation up to the first fault -/

/-- An item fails when it is an operator that finds fewer than two values, or a division that finds the divisor zero. -/
theorem Item.result_actOn_eq_error_iff {stack : List Int} {item : Item} {e : Error} :
    (actOn stack item).result = .error e ↔
      (∃ op, item = .operator op ∧ stack.length < 2 ∧ e = .invalidExpression) ∨
        ∃ a rest, item = .operator .divide ∧ stack = 0 :: a :: rest ∧ e = .divisionByZero := by
  cases item with
  | operand v => simp [result_actOn_operand]
  | operator op =>
    match stack with
    | [] => simp [result_actOn_underflow, @eq_comm _ e]
    | [b] => simp [result_actOn_underflow, @eq_comm _ e]
    | b :: a :: stack =>
      rw [result_actOn_operator]
      constructor
      · intro h
        split at h
        · next hzero =>
          obtain ⟨rfl, rfl⟩ := hzero
          cases h
          exact .inr ⟨a, stack, rfl, rfl, rfl⟩
        · cases h
      · rintro (⟨_, -, hlength, -⟩ | ⟨_, _, hop, hstack, rfl⟩)
        · simp only [List.length_cons] at hlength
          omega
        · cases hop
          cases hstack
          rfl

namespace Postfix

/-- Items are evaluated on a stack with an error when one of them fails on what the items before it leave. -/
theorem result_foldlM_eq_error_iff {items : Postfix} {stack : List Int} {e : Error} :
    (items.foldlM Item.actOn stack).result = .error e ↔
      ∃ (before after : Postfix) (item : Item) (reached : List Int), items = before ++ item :: after ∧
        (before.foldlM Item.actOn stack).result = .ok reached ∧ (Item.actOn reached item).result = .error e := by
  constructor
  · intro h
    induction items generalizing stack with
    | nil => cases h
    | cons item items ih =>
      rw [List.foldlM_cons] at h
      cases hnext : (Item.actOn stack item).result with
      | error e' =>
        rw [Calculation.result_bind_of_error hnext] at h
        cases h
        exact ⟨[], items, item, stack, rfl, rfl, hnext⟩
      | ok next =>
        rw [Calculation.result_bind_of_ok hnext] at h
        obtain ⟨before, after, item', reached, rfl, hreached, herror⟩ := ih h
        refine ⟨item :: before, after, item', reached, rfl, ?_, herror⟩
        rw [List.foldlM_cons, Calculation.result_bind_of_ok hnext]
        exact hreached
  · rintro ⟨before, after, item, reached, rfl, hreached, herror⟩
    rw [List.foldlM_append, Calculation.result_bind_of_ok hreached, List.foldlM_cons]
    exact Calculation.result_bind_of_error herror

/-- An item that does not fail is read after what has been read. -/
theorem Reads.actOn {items : Postfix} {stack next : List Int} {item : Item} (h : Reads items stack)
    (hnext : (Item.actOn stack item).result = .ok next) : Reads (items ++ [item]) next := by
  rcases Item.result_actOn_eq_ok_iff.1 hnext with ⟨value, rfl, rfl⟩ | ⟨op, a, b, rest, rfl, rfl, hdivisor, rfl⟩
  · exact h.operand value
  · exact h.operator op hdivisor

/-- Items that are evaluated without an error are read after what has been read. -/
theorem Reads.foldlM {items more : Postfix} {stack last : List Int} (h : Reads items stack)
    (hlast : (more.foldlM Item.actOn stack).result = .ok last) : Reads (items ++ more) last := by
  induction more generalizing items stack with
  | nil =>
    cases hlast
    rw [List.append_nil]
    exact h
  | cons item more ih =>
    rw [List.foldlM_cons, Calculation.result_bind_eq_ok_iff] at hlast
    obtain ⟨next, hnext, hlast⟩ := hlast
    rw [List.append_cons]
    exact ih (h.actOn hnext) hlast

/-- Items are evaluated without an error exactly when they are read without a fault, and leave the same stack. -/
theorem result_foldlM_eq_ok_iff {items : Postfix} {stack : List Int} :
    (items.foldlM Item.actOn []).result = .ok stack ↔ Reads items stack := by
  constructor
  · exact Reads.nil.foldlM
  · intro h
    induction h with
    | nil => rfl
    | operand v _ ih =>
      rw [List.foldlM_append, Calculation.result_bind_of_ok ih]
      rfl
    | operator op _ hdivisor ih =>
      rw [List.foldlM_append, Calculation.result_bind_of_ok ih, List.foldlM_cons, Calculation.result_bind,
        Item.result_actOn_operator, if_neg hdivisor]
      rfl

/-- The value of a postfix form is the one value that its items leave. -/
theorem result_value (items : Postfix) :
    items.value.result = (items.foldlM Item.actOn []).result >>= fun stack =>
      match stack with
      | [v] => .ok v
      | _ => .error .invalidExpression := by
  rw [value, Calculation.result_bind]
  cases (items.foldlM Item.actOn []).result with
  | error e => rfl
  | ok stack =>
    rcases stack with _ | ⟨v, _ | ⟨w, stack⟩⟩
    · rfl
    · rfl
    · rfl

/-- A postfix form has a value when it is read without a fault and leaves this value alone. -/
theorem result_value_eq_ok_iff {items : Postfix} {v : Int} : items.value.result = .ok v ↔ Reads items [v] := by
  rw [result_value, ← result_foldlM_eq_ok_iff]
  cases (items.foldlM Item.actOn []).result with
  | error e => simp
  | ok stack =>
    match stack with
    | [] => simp
    | [w] => simp
    | _ :: _ :: _ => simp

/-- A postfix form fails with an error of its items, or as malformed if they leave no value or several. -/
theorem result_value_eq_error_iff {items : Postfix} {e : Error} :
    items.value.result = .error e ↔
      (items.foldlM Item.actOn []).result = .error e ∨
        e = .invalidExpression ∧ ∃ stack, (items.foldlM Item.actOn []).result = .ok stack ∧ stack.length ≠ 1 := by
  rw [result_value]
  cases (items.foldlM Item.actOn []).result with
  | error e' => simp
  | ok stack =>
    match stack with
    | [] => simp [eq_comm]
    | [_] => simp
    | _ :: _ :: _ => simp [eq_comm]

/-- A postfix form divides by zero when a division meets the divisor zero before any other fault. -/
theorem result_value_eq_divisionByZero_iff {items : Postfix} :
    items.value.result = .error .divisionByZero ↔ items.MeetsZeroDivisor := by
  have hfold : items.value.result = .error .divisionByZero ↔
      (items.foldlM Item.actOn []).result = .error .divisionByZero := by
    simp [result_value_eq_error_iff]
  rw [hfold, result_foldlM_eq_error_iff]
  constructor
  · rintro ⟨before, after, item, reached, rfl, hreached, herror⟩
    rcases Item.result_actOn_eq_error_iff.1 herror with ⟨_, -, -, he⟩ | ⟨a, rest, rfl, rfl, -⟩
    · cases he
    · exact ⟨before, after, a, rest, rfl, result_foldlM_eq_ok_iff.1 hreached⟩
  · rintro ⟨before, after, a, stack, rfl, hreads⟩
    exact ⟨before, after, .operator .divide, 0 :: a :: stack, rfl, result_foldlM_eq_ok_iff.2 hreads, rfl⟩

/-- A postfix form that fails divides by zero or is malformed. -/
theorem eq_of_result_value_eq_error {items : Postfix} {e : Error} (h : items.value.result = .error e) :
    e = .divisionByZero ∨ e = .invalidExpression := by
  rcases result_value_eq_error_iff.1 h with hfold | ⟨he, -⟩
  · obtain ⟨_, _, _, _, -, -, herror⟩ := result_foldlM_eq_error_iff.1 hfold
    rcases Item.result_actOn_eq_error_iff.1 herror with ⟨_, -, -, he⟩ | ⟨_, _, -, -, he⟩
    · exact .inr he
    · exact .inl he
  · exact .inr he

/-- A postfix form has a value exactly when it is the listing of a tree that divides nowhere by zero, and it is that of the
tree. -/
theorem result_value_eq_ok_iff_exists_tree {items : Postfix} {v : Int} :
    items.value.result = .ok v ↔ ∃ t : Tree Int, items = t.postorder ∧ ¬t.DividesByZero ∧ t.value = v := by
  constructor
  · intro h
    obtain ⟨trees, rfl, hstack, hdivides⟩ := (result_value_eq_ok_iff.1 h).exists_trees
    obtain ⟨t, rfl, hvalue⟩ := List.map_eq_singleton_iff.1 hstack.symm
    exact ⟨t, rfl, hdivides t (by simp), hvalue⟩
  · rintro ⟨t, rfl, hdivides, rfl⟩
    rw [Tree.result_value_postorder, if_neg hdivides]

/-- Any list of items has a value exactly when it is the listing of a tree that divides nowhere by zero, which is then the only
tree with this listing, and its value is the exact value of the tree. It divides by zero exactly when a division meets the
divisor zero over another value before any operator has met fewer than two values. In every other case it is malformed. -/
theorem result_value_cases (items : Postfix) :
    (∀ v, items.value.result = .ok v ↔
      ∃ t : Tree Int, items = t.postorder ∧ ¬t.DividesByZero ∧ t.value = v ∧ ∀ u : Tree Int, items = u.postorder → u = t) ∧
    (items.value.result = .error .divisionByZero ↔ items.MeetsZeroDivisor) ∧
    (items.value.result = .error .invalidExpression ↔
      (¬∃ t : Tree Int, items = t.postorder ∧ ¬t.DividesByZero) ∧ ¬items.MeetsZeroDivisor) := by
  refine ⟨?_, result_value_eq_divisionByZero_iff, ?_⟩
  · intro v
    rw [result_value_eq_ok_iff_exists_tree]
    constructor
    · rintro ⟨t, rfl, hdivides, hvalue⟩
      exact ⟨t, rfl, hdivides, hvalue, fun u hu => Tree.postorder_injective hu.symm⟩
    · rintro ⟨t, hitems, hdivides, hvalue, -⟩
      exact ⟨t, hitems, hdivides, hvalue⟩
  · have hvalue : (∃ t : Tree Int, items = t.postorder ∧ ¬t.DividesByZero) ↔ ∃ v, items.value.result = .ok v := by
      simp only [result_value_eq_ok_iff_exists_tree]
      constructor
      · rintro ⟨t, hitems, hdivides⟩
        exact ⟨t.value, t, hitems, hdivides, rfl⟩
      · rintro ⟨_, t, hitems, hdivides, -⟩
        exact ⟨t, hitems, hdivides⟩
    rw [hvalue, ← result_value_eq_divisionByZero_iff]
    cases hresult : items.value.result with
    | ok v => simp
    | error e => rcases eq_of_result_value_eq_error hresult with rfl | rfl <;> simp

end Postfix

end IntegerCalculator
