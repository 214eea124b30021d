import IntegerCalculator.Proofs.StackHeight

/-!
# The state of a conversion

Between two tokens the state of a conversion accounts for what has been read. Of the operators that are held back side by side,
each binds tighter than the one below it, so there are at most two of them. As many parentheses are held back as have been opened
and not closed. What has been passed on lacks the operators that are held back, and its operands are those that have been read
(`Conversion.state_of_consume`).

All of this follows from what the conversion keeps true with each token: what is held back explains what has been read by the
parse trees of the left operands (`Conversion.Held`, `Conversion.Reading.acceptAll`). The statements about what is held back are
inductions on this explanation, and those about the parse trees in it are inductions on the tree.
-/

namespace IntegerCalculator

/-- Whether an operator is held back, and not a parenthesis. -/
def Pending.isOperator : Pending → Bool
  | operator _ => true
  | paren => false

/-- The value that an item is, if it is an operand. -/
def Item.value? : Item → Option Int
  | operand v => some v
  | operator _ => none

/-- The value that a terminal is. -/
def Terminal.value? : Terminal → Option Int
  | value v => some v
  | operator _ | opening | closing => none

/-- The operands of a postfix form, in their order. -/
def Postfix.operands (items : Postfix) : List Int := items.filterMap Item.value?

/-- Each operator binds tighter than the one after it. -/
def Operator.Descending (ops : List Operator) : Prop := ops.Pairwise fun upper lower => lower.precedence < upper.precedence

namespace Token

/-- The operand that a token is, which for a signed literal depends on whether an operand stands right before it: then the sign
is an operator and the operand is the absolute value. -/
def operand? (table : Variables) (afterOperand : Bool) : Token → Option Int
  | identifier name => table.lookup name
  | literal v none => some v
  | literal v (some _) => some (if afterOperand then v.natAbs else v)
  | run _ | openParen | closeParen => none

/-- The operands among a sequence of tokens, in their order. -/
def listOperands (table : Variables) (afterOperand : Bool) : List Token → List Int
  | [] => []
  | token :: tokens => (token.operand? table afterOperand).toList ++ listOperands table token.endsOperand tokens

end Token

/-! ## Operators side by side -/

namespace Operator

/-- There are two precedences, so no more than two operators bind each tighter than the next. -/
theorem Descending.length_le_two {ops : List Operator} (h : Descending ops) : ops.length ≤ 2 := by
  match ops with
  | [] => exact Nat.zero_le 2
  | [_] => exact Nat.le_succ 1
  | [_, _] => exact Nat.le_refl 2
  | first :: second :: third :: _ =>
    obtain ⟨hfirst, hrest⟩ := List.pairwise_cons.1 h
    have hupper : second.precedence < first.precedence := hfirst second (by simp)
    have hlower : third.precedence < second.precedence := (List.pairwise_cons.1 hrest).1 third (by simp)
    have hleast := third.precedence_pos
    have hmost : first.precedence ≤ 2 := by
      cases first <;> decide
    omega

end Operator

namespace Conversion

/-- An operator that binds tighter than what is on top binds tighter than all operators side by side there. -/
theorem HoldsBelow.descending_cons {op : Operator} {ops : List Operator} {pending : List Pending}
    (h : HoldsBelow op.precedence pending) (hops : ops.map .operator <+: pending) (hdescending : Operator.Descending ops) :
    Operator.Descending (op :: ops) := by
  refine List.pairwise_cons.2 ⟨?_, hdescending⟩
  cases ops with
  | nil => simp
  | cons top ops =>
    obtain ⟨rest, rfl⟩ := hops
    have htop : top.precedence < op.precedence := h top _ rfl
    intro lower hlower
    rcases List.mem_cons.1 hlower with rfl | hlower
    · exact htop
    · exact Nat.lt_trans ((List.pairwise_cons.1 hdescending).1 lower hlower) htop

/-- Of the operators held back side by side, each binds tighter than the one below it. -/
theorem Held.descending {read : List Terminal} {passed : Postfix} {pending : List Pending} (h : Held read passed pending)
    {ops : List Operator} (hops : ops.map .operator <:+: pending) : Operator.Descending ops := by
  induction h generalizing ops with
  | start =>
    obtain rfl : ops = [] := by simpa using hops
    exact .nil
  | group _ ih =>
    rcases List.infix_cons_iff.1 hops with hprefix | hinfix
    · cases ops with
      | nil => exact .nil
      | cons op ops =>
        obtain ⟨rest, heq⟩ := hprefix
        cases heq
    · exact ih hinfix
  | operator op _ _ hop ih =>
    rcases List.infix_cons_iff.1 hops with hprefix | hinfix
    · cases ops with
      | nil => exact .nil
      | cons first ops =>
        obtain ⟨heq, hrest⟩ := List.cons_prefix_cons.1 hprefix
        cases heq
        exact hop.descending_cons hrest (ih hrest.isInfix)
    · exact ih hinfix

end Conversion

/-! ## Parse trees -/

namespace ParseTree

/-- A parse tree closes as many parentheses as it opens. -/
theorem count_opening_yield {n : Nonterminal} (p : ParseTree n) : p.yield.count .opening = p.yield.count .closing := by
  induction p with
  | value v => rfl
  | group e ih => simp [yield, ih]
  | ofFactor f ih => exact ih
  | ofProduct t ih => exact ih
  | sum e op hop t ihe iht => simp [yield, ihe, iht]
  | product t op hop f iht ihf => simp [yield, iht, ihf]

/-- The values of a parse tree are the operands of its listing. -/
theorem values_yield {n : Nonterminal} (p : ParseTree n) :
    p.yield.filterMap Terminal.value? = p.toTree.postorder.operands := by
  unfold Postfix.operands
  induction p with
  | value v => rfl
  | group e ih => simp [yield, toTree, List.filterMap_cons, Terminal.value?, ih]
  | ofFactor f ih => exact ih
  | ofProduct t ih => exact ih
  | sum e op hop t ihe iht =>
    simp [yield, toTree, Tree.postorder, List.filterMap_cons, Terminal.value?, Item.value?, ihe, iht]
  | product t op hop f iht ihf =>
    simp [yield, toTree, Tree.postorder, List.filterMap_cons, Terminal.value?, Item.value?, iht, ihf]

end ParseTree

/-! ## What a state accounts for -/

namespace Conversion

variable {read : List Terminal} {passed : Postfix} {pending : List Pending} {c : Conversion}

/-- As many parentheses are held back as have been opened and not closed. -/
theorem Held.count_paren (h : Held read passed pending) :
    pending.count .paren + read.count .closing = read.count .opening := by
  induction h with
  | start => rfl
  | group _ ih =>
    have hopening : [Terminal.opening].count .opening = 1 := rfl
    have hclosing : [Terminal.opening].count .closing = 0 := rfl
    rw [List.count_cons_self, List.count_append, List.count_append, hopening, hclosing]
    omega
  | @operator read _ pending op l _ _ ih =>
    have hl := l.count_opening_yield
    have hopening : [Terminal.operator op].count .opening = 0 := rfl
    have hclosing : [Terminal.operator op].count .closing = 0 := rfl
    have hpending : (Pending.operator op :: pending).count .paren = pending.count .paren := List.count_cons_of_ne (by simp)
    rw [hpending, List.count_append, List.count_append, List.count_append, List.count_append, hopening, hclosing]
    omega

theorem Reading.count_paren (h : Reading read passed c) :
    c.pending.count .paren + read.count .closing = read.count .opening := by
  cases h with
  | awaiting h => exact h.count_paren
  | after h f =>
    have hheld := h.count_paren
    have hf := f.count_opening_yield
    simp only [List.count_append]
    omega

/-- The operators that are held back wait for one operand each. -/
theorem Held.operandCount_eq (h : Held read passed pending) :
    passed.operandCount = passed.operatorCount + pending.countP Pending.isOperator := by
  induction h with
  | start => rfl
  | group _ ih => exact ih
  | @operator _ passed pending op l _ _ ih =>
    have hl := l.toTree.operandCount_postorder
    have hpending : (Pending.operator op :: pending).countP Pending.isOperator = pending.countP Pending.isOperator + 1 :=
      List.countP_cons_of_pos rfl
    rw [hpending, Postfix.operandCount_append, Postfix.operatorCount_append]
    omega

/-- Where an operator is expected, one operand more has been passed on. -/
theorem Reading.operandCount_eq (h : Reading read passed c) :
    passed.operandCount =
      passed.operatorCount + (c.pending.countP Pending.isOperator + if c.expectsOperand then 0 else 1) := by
  cases h with
  | awaiting h => exact h.operandCount_eq
  | after h f =>
    have hheld := h.operandCount_eq
    have hf := f.toTree.operandCount_postorder
    rw [Postfix.operandCount_append, Postfix.operatorCount_append, if_neg Bool.false_ne_true]
    dsimp only
    omega

/-- The operands that have been passed on are the values that have been read. -/
theorem Held.operands_eq (h : Held read passed pending) : passed.operands = read.filterMap Terminal.value? := by
  induction h with
  | start => rfl
  | group _ ih => simp [ih, Terminal.value?]
  | operator op l _ _ ih =>
    rw [List.filterMap_append, List.filterMap_append, ← ih, l.values_yield]
    simp [Postfix.operands, Terminal.value?]

theorem Reading.operands_eq (h : Reading read passed c) : passed.operands = read.filterMap Terminal.value? := by
  cases h with
  | awaiting h => exact h.operands_eq
  | after h f =>
    rw [List.filterMap_append, ← h.operands_eq, f.values_yield]
    exact List.filterMap_append

/-- Of the operators held back side by side, each binds tighter than the one below it. -/
theorem Reading.descending (h : Reading read passed c) {ops : List Operator} (hops : ops.map .operator <:+: c.pending) :
    Operator.Descending ops := by
  cases h with
  | awaiting h => exact h.descending hops
  | after h _ => exact h.descending hops

end Conversion

/-! ## What tokens stand for -/

namespace Token

variable {table : Variables} {afterOperand : Bool} {ts : List Terminal}

/-- What a token stands for opens and closes parentheses as the token does, and its value is the operand that the token is. -/
theorem accounts_of_terminals {token : Token} (h : token.terminals table afterOperand = some ts) :
    ts.count .opening = [token].count .openParen ∧ ts.count .closing = [token].count .closeParen ∧
      ts.filterMap Terminal.value? = (token.operand? table afterOperand).toList := by
  rcases terminals_cases h with ⟨name, v, rfl, hv, rfl⟩ | ⟨v, sign, rfl, hsign, rfl⟩ | ⟨v, sign, rfl, rfl, rfl⟩ |
    ⟨text, op, rfl, -, rfl⟩ | ⟨rfl, rfl⟩ | ⟨rfl, rfl⟩
  · refine ⟨rfl, rfl, ?_⟩
    rw [operand?, hv]
    rfl
  · refine ⟨rfl, rfl, ?_⟩
    rcases hsign with rfl | rfl
    · rfl
    · cases sign <;> rfl
  · exact ⟨rfl, rfl, rfl⟩
  · exact ⟨rfl, rfl, rfl⟩
  · exact ⟨rfl, rfl, rfl⟩
  · exact ⟨rfl, rfl, rfl⟩

/-- What tokens stand for opens and closes parentheses as the tokens do, and its values are the operands among the tokens. -/
theorem accounts_of_listTerminals {tokens : List Token} (h : listTerminals table afterOperand tokens = some ts) :
    ts.count .opening = tokens.count .openParen ∧ ts.count .closing = tokens.count .closeParen ∧
      ts.filterMap Terminal.value? = listOperands table afterOperand tokens := by
  induction tokens generalizing afterOperand ts with
  | nil =>
    cases h
    exact ⟨rfl, rfl, rfl⟩
  | cons token tokens ih =>
    obtain ⟨first, rest, hfirst, hrest, rfl⟩ := listTerminals_cons_eq_some_iff.1 h
    obtain ⟨hopening, hclosing, hvalues⟩ := accounts_of_terminals hfirst
    obtain ⟨hopenings, hclosings, hothers⟩ := ih hrest
    rw [← List.singleton_append, List.count_append, List.count_append, List.count_append, List.count_append,
      List.filterMap_append, hopening, hclosing, hvalues, hopenings, hclosings, hothers]
    exact ⟨rfl, rfl, rfl⟩

end Token

/-- All that a conversion reads without an error are tokens, and after them its state and what it has passed on account for them.
Of the operators that are held back side by side, between two parentheses, above the last or below the first, each binds tighter
than the one below it, and there are at most two. As many parentheses are held back as the tokens open and do not close. The
operands that have been passed on are more than the operators by the number of operators that are held back, and by one more where
an operator is expected. They are, in order, the values of the names and literals among the tokens, a literal whose sign is an
operator counting with its absolute value. -/
theorem Conversion.state_of_consume {table : Variables} {lexemes : List Lexeme} {passed : List Item} {c : Conversion}
    (h : (start.consume table lexemes).result = .ok (passed, c)) :
    ∃ tokens : List Token, lexemes = tokens.map .ok ∧
      (∀ ops : List Operator, ops.map .operator <:+: c.pending → Operator.Descending ops ∧ ops.length ≤ 2) ∧
      (c.pending.count .paren : Int) = tokens.count .openParen - tokens.count .closeParen ∧
      (Postfix.operandCount passed : Int) - Postfix.operatorCount passed =
        c.pending.countP Pending.isOperator + (if c.expectsOperand then 0 else 1 : Nat) ∧
      Postfix.operands passed = Token.listOperands table false tokens := by
  obtain ⟨tokens, rfl⟩ := exists_tokens_of_consume h
  obtain ⟨ts, hts, hread⟩ := result_consume_eq_ok_iff.1 h
  have hreading := (Reading.awaiting .start).acceptAll hread
  rw [List.nil_append, List.nil_append] at hreading
  obtain ⟨hopening, hclosing, hvalues⟩ := Token.accounts_of_listTerminals hts
  have hparens := hreading.count_paren
  have hcount := hreading.operandCount_eq
  rw [hopening, hclosing] at hparens
  refine ⟨tokens, rfl, ?_, by omega, by omega, hreading.operands_eq.trans hvalues⟩
  intro ops hops
  have hdescending := hreading.descending hops
  exact ⟨hdescending, hdescending.length_le_two⟩

/-- The state within two open parentheses, after a product that a subtraction has released and a literal whose sign is an
operator. -/
theorem Conversion.state_of_consume_within_parens :
    let table := Variables.empty.store ['a'] 5
    let tokens : List Token := [.openParen, .identifier ['a'], .run ['*'], .literal 2 none, .run ['-', '+'], .literal (-1) none,
      .run ['*'], .openParen, .literal 7 none, .literal (-3) (some .subtract)]
    let passed : Postfix := [.operand 5, .operand 2, .operator .multiply, .operand (-1), .operand 7, .operand 3]
    let c : Conversion := ⟨[.operator .subtract, .paren, .operator .multiply, .operator .subtract, .paren], false⟩
    (start.consume table (tokens.map .ok)).result = .ok (passed, c) ∧
      (Operator.Descending [.multiply, .subtract] ∧ [Operator.multiply, Operator.subtract].length ≤ 2) ∧
      (c.pending.count .paren : Int) = tokens.count .openParen - tokens.count .closeParen ∧
      (passed.operandCount : Int) - passed.operatorCount = 3 + 1 ∧ passed.operands = [5, 2, -1, 7, 3] := by
  intro table tokens passed c
  have hread : (start.consume table (tokens.map .ok)).result = .ok (passed, c) := rfl
  obtain ⟨tokens', htokens, hops, hparens, hcount, hoperands⟩ := state_of_consume hread
  obtain rfl : tokens = tokens' := (List.map_inj_right fun _ _ => Except.ok.inj).1 htokens
  exact ⟨hread, hops [.multiply, .subtract] ⟨[.operator .subtract, .paren], [.paren], rfl⟩, hparens, hcount, hoperands⟩

end IntegerCalculator
