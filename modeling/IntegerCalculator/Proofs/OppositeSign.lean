import IntegerCalculator.Proofs.ConversionShape

/-!
# Opposite signs

To subtract a value is to add the opposite value, whatever follows: the sign of a summand can be turned round together with the
number that the summand starts with (`Postfix.result_value_opposite`), and the lexemes keep their value or their error.

For the value, a parse tree is turned at one place (`ParseTree.exists_opposite`). The number stands at the left end of a
product, so the product is turned with it (`ParseTree.exists_neg`), and then the summand is taken with the other sign.

For the error, only the shape of a conversion counts, which does not tell operators of one precedence apart
(`SameShape.consume`).
-/

namespace IntegerCalculator

/-! ## Signs of operators -/

namespace Operator

theorem IsAdditive.flip {op : Operator} (h : op.IsAdditive) : op.flip.IsAdditive := by
  rcases h with rfl | rfl
  · exact .inr rfl
  · exact .inl rfl

theorem IsAdditive.flip_flip {op : Operator} (h : op.IsAdditive) : op.flip.flip = op := by
  rcases h with rfl | rfl <;> rfl

theorem IsAdditive.precedence_flip {op : Operator} (h : op.IsAdditive) : op.flip.precedence = op.precedence := by
  rw [h.flip.precedence_eq, h.precedence_eq]

/-- To add or subtract the opposite value is to subtract or add the value. -/
theorem IsAdditive.exact_flip_neg {op : Operator} (h : op.IsAdditive) (a b : Int) : op.flip.exact a (-b) = op.exact a b := by
  rcases h with rfl | rfl
  · exact Int.sub_neg a b
  · exact Int.add_neg_eq_sub

/-- A product or a quotient has the sign of its left operand, the fraction of a quotient being dropped on both sides of zero. -/
theorem IsMultiplicative.exact_neg {op : Operator} (h : op.IsMultiplicative) (a b : Int) : op.exact (-a) b = -op.exact a b := by
  rcases h with rfl | rfl
  · exact Int.neg_mul a b
  · exact Int.neg_tdiv a b

theorem IsAdditive.not_isMultiplicative {op : Operator} (h : op.IsAdditive) : ¬op.IsMultiplicative := by
  rcases h with rfl | rfl
  · rintro (h | h) <;> cases h
  · rintro (h | h) <;> cases h

theorem IsAdditive.ne_divide {op : Operator} (h : op.IsAdditive) : op ≠ .divide := by
  rintro rfl
  exact h.not_isMultiplicative (.inr rfl)

end Operator

/-! ## Trees that evaluate alike -/

/-- The trees have the same value, and one divides by zero when the other does. -/
structure Tree.EvaluatesAs (s t : Tree Int) : Prop where
  value_eq : s.value = t.value
  dividesByZero_iff : s.DividesByZero ↔ t.DividesByZero

namespace Tree.EvaluatesAs

variable {s t : Tree Int}

/-- A left operand can be replaced by one that evaluates alike. -/
theorem node_left (h : s.EvaluatesAs t) (op : Operator) (right : Tree Int) :
    (Tree.node op s right).EvaluatesAs (.node op t right) where
  value_eq := by rw [value, value, h.value_eq]
  dividesByZero_iff := by rw [DividesByZero, DividesByZero, h.dividesByZero_iff]

/-- A right operand can be replaced by one that evaluates alike. -/
theorem node_right (h : s.EvaluatesAs t) (op : Operator) (left : Tree Int) :
    (Tree.node op left s).EvaluatesAs (.node op left t) where
  value_eq := by rw [value, value, h.value_eq]
  dividesByZero_iff := by rw [DividesByZero, DividesByZero, h.dividesByZero_iff, h.value_eq]

/-- The listings of trees that evaluate alike have the same value or the same error. -/
theorem result_value_postorder_eq (h : s.EvaluatesAs t) :
    (Postfix.value s.postorder).result = (Postfix.value t.postorder).result := by
  rw [result_value_postorder, result_value_postorder, h.value_eq]
  simp only [h.dividesByZero_iff]

end Tree.EvaluatesAs

/-! ## Parse trees with one sign turned round -/

/-- Where two elements side by side stand in a list that is cut at another element: both before it, the first of them there,
or both after it. -/
theorem append_cons_eq_append_cons_cons {α : Type} {l r before after : List α} {x y z : α} (hne : x ≠ z)
    (h : l ++ x :: r = before ++ y :: z :: after) :
    (∃ rest, l = before ++ y :: z :: rest ∧ after = rest ++ x :: r) ∨ (l = before ∧ x = y ∧ r = z :: after) ∨
      ∃ rest, before = l ++ x :: rest ∧ r = rest ++ y :: z :: after := by
  rcases List.append_eq_append_iff.1 h with ⟨rest, rfl, hright⟩ | ⟨rest, rfl, hright⟩
  · rcases List.cons_eq_append_iff.1 hright with ⟨rfl, hhere⟩ | ⟨rest, rfl, rfl⟩
    · cases hhere
      exact .inr (.inl ⟨(List.append_nil l).symm, rfl, rfl⟩)
    · exact .inr (.inr ⟨rest, rfl, rfl⟩)
  · rcases List.cons_eq_append_iff.1 hright with ⟨rfl, hhere⟩ | ⟨rest, rfl, hnext⟩
    · cases hhere
      exact .inr (.inl ⟨List.append_nil before, rfl, rfl⟩)
    · rcases List.cons_eq_append_iff.1 hnext with ⟨rfl, hthere⟩ | ⟨rest, rfl, rfl⟩
      · cases hthere
        exact absurd rfl hne
      · exact .inl ⟨rest, rfl, rfl⟩

namespace ParseTree

/-- A product that starts with a value has, with the opposite value there, the opposite value, and divides by zero as before. -/
theorem exists_neg {n : Nonterminal} (p : ParseTree n) (hn : n ≠ .sum) {v : Int} {after : List Terminal}
    (h : p.yield = .value v :: after) :
    ∃ q : ParseTree n, q.yield = .value (-v) :: after ∧ q.toTree.value = -p.toTree.value ∧
      (q.toTree.DividesByZero ↔ p.toTree.DividesByZero) := by
  induction p generalizing after with
  | ofProduct t _ => exact absurd rfl hn
  | sum e op hop t _ _ => exact absurd rfl hn
  | ofFactor f ih =>
    obtain ⟨q, hyield, hvalue, hdivides⟩ := ih (by decide) h
    exact ⟨.ofFactor q, hyield, hvalue, hdivides⟩
  | product t op hop f iht _ =>
    rw [yield, List.append_eq_cons_iff] at h
    rcases h with ⟨-, hoperator⟩ | ⟨rest, hleft, rfl⟩
    · cases hoperator
    · -- the value is at the start of the left operand, the divisor is the right one
      obtain ⟨q, hyield, hvalue, hdivides⟩ := iht (by decide) hleft
      refine ⟨.product q op hop f, ?_, ?_, ?_⟩
      · rw [yield, hyield, List.cons_append]
      · rw [toTree, toTree, Tree.value, Tree.value, hvalue, hop.exact_neg]
      · rw [toTree, toTree, Tree.DividesByZero, Tree.DividesByZero, hdivides]
  | value w =>
    cases h
    exact ⟨.value (-v), rfl, rfl, Iff.rfl⟩
  | group e _ => cases h

/-- Where a sign stands before a value, the other sign can stand before the opposite value, in a tree that evaluates alike. -/
theorem exists_opposite {n : Nonterminal} (p : ParseTree n) {op : Operator} (hop : op.IsAdditive) {v : Int}
    {before after : List Terminal} (h : p.yield = before ++ .operator op :: .value v :: after) :
    ∃ q : ParseTree n, q.yield = before ++ .operator op.flip :: .value (-v) :: after ∧ q.toTree.EvaluatesAs p.toTree := by
  induction p generalizing before after with
  | ofProduct t ih =>
    obtain ⟨q, hyield, hsame⟩ := ih h
    exact ⟨.ofProduct q, hyield, hsame⟩
  | ofFactor f ih =>
    obtain ⟨q, hyield, hsame⟩ := ih h
    exact ⟨.ofFactor q, hyield, hsame⟩
  | sum e op' hop' t ihe iht =>
    rw [yield] at h
    rcases append_cons_eq_append_cons_cons (by simp) h with ⟨rest, hleft, rfl⟩ | ⟨rfl, hhere, hright⟩ | ⟨rest, rfl, hright⟩
    · obtain ⟨q, hyield, hsame⟩ := ihe hleft
      refine ⟨.sum q op' hop' t, ?_, hsame.node_left op' t.toTree⟩
      rw [yield, hyield]
      simp
    · -- the sign is the one before this summand, which starts with the value
      cases hhere
      obtain ⟨q, hyield, hvalue, hdivides⟩ := t.exists_neg (by decide) hright
      refine ⟨.sum e op.flip hop.flip q, ?_, ?_, ?_⟩
      · rw [yield, hyield]
      · rw [toTree, toTree, Tree.value, Tree.value, hvalue, hop.exact_flip_neg]
      · rw [toTree, toTree, Tree.DividesByZero, Tree.DividesByZero, hdivides]
        simp only [hop.ne_divide, hop.flip.ne_divide, false_and]
    · obtain ⟨q, hyield, hsame⟩ := iht hright
      refine ⟨.sum e op' hop' q, ?_, hsame.node_right op' e.toTree⟩
      rw [yield, hyield]
      simp
  | product t op' hop' f iht ihf =>
    rw [yield] at h
    rcases append_cons_eq_append_cons_cons (by simp) h with ⟨rest, hleft, rfl⟩ | ⟨-, hhere, -⟩ | ⟨rest, rfl, hright⟩
    · obtain ⟨q, hyield, hsame⟩ := iht hleft
      refine ⟨.product q op' hop' f, ?_, hsame.node_left op' f.toTree⟩
      rw [yield, hyield]
      simp
    · cases hhere
      exact absurd hop' hop.not_isMultiplicative
    · obtain ⟨q, hyield, hsame⟩ := ihf hright
      refine ⟨.product t op' hop' q, ?_, hsame.node_right op' t.toTree⟩
      rw [yield, hyield]
      simp
  | value w =>
    have hlength := congrArg List.length h
    simp only [yield, List.length_append, List.length_cons, List.length_nil] at hlength
    omega
  | group e ih =>
    rw [yield, ← List.nil_append (_ :: _)] at h
    rcases append_cons_eq_append_cons_cons (by simp) h with ⟨rest, hleft, -⟩ | ⟨-, hhere, -⟩ | ⟨rest, rfl, hinner⟩
    · simp at hleft
    · cases hhere
    · rcases append_cons_eq_append_cons_cons (by simp) hinner with ⟨rest', hleft, rfl⟩ | ⟨-, hhere, -⟩ | ⟨rest', -, hright⟩
      · obtain ⟨q, hyield, hsame⟩ := ih hleft
        refine ⟨.group q, ?_, hsame⟩
        rw [yield, hyield]
        simp
      · cases hhere
      · simp at hright

end ParseTree

/-! ## Signs and numbers among tokens -/

namespace Token

/-- Whether an operand stands right before what follows the tokens. -/
def operandAfter (afterOperand : Bool) (tokens : List Token) : Bool :=
  tokens.foldl (fun _ token => token.endsOperand) afterOperand

theorem operandAfter_concat (afterOperand : Bool) (tokens : List Token) (token : Token) :
    operandAfter afterOperand (tokens ++ [token]) = token.endsOperand := by
  rw [operandAfter, List.foldl_append]
  rfl

/-- After an operand the tokens are an operator and a value. -/
def AreSigned (table : Variables) (op : Operator) (v : Int) (tokens : List Token) : Prop :=
  listTerminals table true tokens = some [.operator op, .value v]

variable {table : Variables}

/-- The terminals of tokens in two parts are those of the first part and then those of the second, which stands after an operand
if the first ends with one. -/
theorem listTerminals_append_eq_some_iff {afterOperand : Bool} {tokens others : List Token} {ts : List Terminal} :
    listTerminals table afterOperand (tokens ++ others) = some ts ↔
      ∃ first rest, listTerminals table afterOperand tokens = some first ∧
        listTerminals table (operandAfter afterOperand tokens) others = some rest ∧ ts = first ++ rest := by
  induction tokens generalizing afterOperand ts with
  | nil => simp [listTerminals, operandAfter]
  | cons token tokens ih =>
    have hafter : operandAfter afterOperand (token :: tokens) = operandAfter token.endsOperand tokens := rfl
    rw [List.cons_append, listTerminals_cons_eq_some_iff, hafter]
    constructor
    · rintro ⟨first, rest, hfirst, hrest, rfl⟩
      obtain ⟨middle, last, hmiddle, hlast, rfl⟩ := ih.1 hrest
      exact ⟨first ++ middle, last, listTerminals_cons_eq_some_iff.2 ⟨first, middle, hfirst, hmiddle, rfl⟩, hlast,
        (List.append_assoc _ _ _).symm⟩
    · rintro ⟨_, last, hstart, hlast, rfl⟩
      obtain ⟨first, middle, hfirst, hmiddle, rfl⟩ := listTerminals_cons_eq_some_iff.1 hstart
      exact ⟨first, middle ++ last, hfirst, ih.2 ⟨middle, last, hmiddle, hlast, rfl⟩, List.append_assoc _ _ _⟩

/-- An operand stands right before what follows tokens when the last of their terminals ends one. -/
theorem operandAfter_of_listTerminals {afterOperand : Bool} {tokens : List Token} {ts : List Terminal} {last : Terminal}
    (h : listTerminals table afterOperand tokens = some (ts ++ [last])) :
    operandAfter afterOperand tokens = last.endsOperand := by
  rcases List.eq_nil_or_concat tokens with rfl | ⟨init, token, rfl⟩
  · simp [listTerminals] at h
  · rw [List.concat_eq_append] at h ⊢
    obtain ⟨first, rest, -, hrest, hts⟩ := listTerminals_append_eq_some_iff.1 h
    obtain ⟨own, _, hown, hnil, rfl⟩ := listTerminals_cons_eq_some_iff.1 hrest
    cases hnil
    obtain ⟨start, last', rfl, hlast⟩ := exists_terminals_eq_append hown
    rw [List.append_nil, ← List.append_assoc] at hts
    obtain ⟨-, heq⟩ := List.append_inj' hts rfl
    cases heq
    rw [operandAfter_concat, hlast]

theorem AreSigned.operandAfter_eq {op : Operator} {v : Int} {tokens : List Token} (h : AreSigned table op v tokens) :
    operandAfter true tokens = true :=
  @operandAfter_of_listTerminals table true tokens [.operator op] (.value v) h

/-- Among tokens after an operand, an operator and a value are the two terminals at their place. -/
theorem listTerminals_signed_eq_some_iff {before after signed : List Token} {token : Token} {op : Operator} {v : Int}
    {ts : List Terminal} (htoken : token.endsOperand = true) (hsigned : AreSigned table op v signed) :
    listTerminals table false ((before ++ [token]) ++ (signed ++ after)) = some ts ↔
      ∃ first last, listTerminals table false (before ++ [token]) = some first ∧
        listTerminals table true after = some last ∧ ts = first ++ .operator op :: .value v :: last := by
  rw [listTerminals_append_eq_some_iff, operandAfter_concat, htoken]
  constructor
  · rintro ⟨first, rest, hfirst, hrest, rfl⟩
    obtain ⟨own, last, hown, hlast, rfl⟩ := listTerminals_append_eq_some_iff.1 hrest
    rw [hsigned] at hown
    cases hown
    rw [hsigned.operandAfter_eq] at hlast
    exact ⟨first, last, hfirst, hlast, rfl⟩
  · rintro ⟨first, last, hfirst, hlast, rfl⟩
    refine ⟨first, _, hfirst, listTerminals_append_eq_some_iff.2 ⟨_, last, hsigned, ?_, rfl⟩, rfl⟩
    rw [hsigned.operandAfter_eq]
    exact hlast

end Token

/-! ## Signs and numbers among lexemes -/

namespace Conversion

/-- After lexemes that end with the end of an operand, the conversion has met an error, or goes on where an operator is
expected. -/
theorem consume_after_operand (table : Variables) (c : Conversion) (lexemes : List Lexeme) {token : Token}
    (htoken : token.endsOperand = true) :
    (∃ e, ∀ rest, (c.consume table (lexemes ++ .ok token :: rest)).result = .error e) ∨
      ∃ items pending, ∀ rest, (c.consume table (lexemes ++ .ok token :: rest)).result =
        (fun last => (items ++ last.1, last.2)) <$> (consume table ⟨pending, false⟩ rest).result := by
  cases hstart : (c.consume table lexemes).result with
  | error e =>
    refine .inl ⟨e, ?_⟩
    intro rest
    rw [result_consume_append, hstart]
    rfl
  | ok first =>
    cases hstep : (first.2.step table token).result with
    | error e =>
      refine .inl ⟨e, ?_⟩
      intro rest
      rw [result_consume_append, hstart, Calculation.ok_bind, result_consume_cons, Calculation.ok_bind, hstep]
      rfl
    | ok second =>
      obtain ⟨passed, pending, expects⟩ := second
      obtain rfl : expects = false := by
        have hexpects := expectsOperand_of_step hstep
        rw [htoken] at hexpects
        exact hexpects
      refine .inr ⟨first.1 ++ passed, pending, ?_⟩
      intro rest
      rw [result_consume_append, hstart, Calculation.ok_bind, result_consume_cons, Calculation.ok_bind, hstep,
        Calculation.ok_bind]
      cases (consume table ⟨pending, false⟩ rest).result with
      | error e => rfl
      | ok last => exact congrArg (fun items => Except.ok (items, last.2)) (List.append_assoc _ _ _).symm

/-- Where an operator is expected, tokens that are an operator and a value hold the operator back and pass the value on. -/
theorem result_consume_signed {table : Variables} {tokens : List Token} {op : Operator} {v : Int}
    (h : Token.AreSigned table op v tokens) (pending : List Pending)
    (after : List Lexeme) :
    (consume table ⟨pending, false⟩ (tokens.map .ok ++ after)).result =
      (fun last => ((releaseFor op pending).1 ++ [.operand v] ++ last.1, last.2)) <$>
        (consume table ⟨.operator op :: (releaseFor op pending).2, false⟩ after).result := by
  have htokens : (consume table ⟨pending, false⟩ (tokens.map .ok)).result =
      .ok ((releaseFor op pending).1 ++ [.operand v], ⟨.operator op :: (releaseFor op pending).2, false⟩) :=
    result_consume_eq_ok_iff.2 ⟨_, h, rfl⟩
  rw [result_consume_append, htokens, Calculation.ok_bind]

end Conversion

namespace Postfix

variable {table : Variables} {lexemes after : List Lexeme} {token : Token} {ts us : List Token}

/-- Tokens that are the same operator and the same value can stand in each other's place after an operand. -/
theorem result_ofLexemes_of_same_sign {op : Operator} {v : Int} (htoken : token.endsOperand = true)
    (hts : Token.AreSigned table op v ts)
    (hus : Token.AreSigned table op v us) :
    (ofLexemes table (lexemes ++ .ok token :: (ts.map .ok ++ after))).result =
      (ofLexemes table (lexemes ++ .ok token :: (us.map .ok ++ after))).result := by
  rw [result_ofLexemes, result_ofLexemes]
  rcases Conversion.consume_after_operand table .start lexemes htoken with ⟨e, herror⟩ | ⟨items, pending, hgoes⟩
  · rw [herror, herror]
  · rw [hgoes, hgoes, Conversion.result_consume_signed hts, Conversion.result_consume_signed hus]

/-- After an operand, another operator of the same precedence with another value leads to the same error. -/
theorem result_ofLexemes_error_of_precedence_eq {op op' : Operator} {v w : Int} (htoken : token.endsOperand = true)
    (hop : op.precedence = op'.precedence) (hts : Token.AreSigned table op v ts)
    (hus : Token.AreSigned table op' w us) {e : Error}
    (h : (ofLexemes table (lexemes ++ .ok token :: (ts.map .ok ++ after))).result = .error e) :
    (ofLexemes table (lexemes ++ .ok token :: (us.map .ok ++ after))).result = .error e := by
  rw [result_ofLexemes] at h ⊢
  rcases Conversion.consume_after_operand table .start lexemes htoken with ⟨e', herror⟩ | ⟨items, pending, hgoes⟩
  · rw [herror] at h ⊢
    exact h
  · have hshape := SameShape.consume (.operator hop ((SameShape.refl pending).releaseFor hop)) table false after
    rw [hgoes, Conversion.result_consume_signed hts] at h
    rw [hgoes, Conversion.result_consume_signed hus]
    revert hshape h
    generalize (Conversion.consume table _ after).result = r, (Conversion.consume table _ after).result = s
    rintro h (e' | @⟨_, _, rest, rest', expects, hlast⟩)
    · exact h
    · cases hend : Conversion.finish ⟨rest, expects⟩ with
      | error e' => simpa [hend, hlast.finish_eq_error hend] using h
      | ok released => simp [hend] at h

/-- After an operand, the opposite sign can stand with the opposite value, and the value of the whole is the same. -/
theorem exists_ofLexemes_opposite {op : Operator} {v : Int} (htoken : token.endsOperand = true) (hop : op.IsAdditive)
    (hts : Token.AreSigned table op v ts)
    (hus : Token.AreSigned table op.flip (-v) us) {items : Postfix}
    (h : (ofLexemes table (lexemes ++ .ok token :: (ts.map .ok ++ after))).result = .ok items) :
    ∃ others, (ofLexemes table (lexemes ++ .ok token :: (us.map .ok ++ after))).result = .ok others ∧
      others.value.result = items.value.result := by
  obtain ⟨tokens, htokens⟩ := exists_tokens_of_ofLexemes h
  obtain ⟨before, rest, rfl, rfl, hrest⟩ := List.append_eq_map_iff.1 htokens
  obtain ⟨token', rest, rfl, htoken', hrest⟩ := List.map_eq_cons_iff.1 hrest
  obtain ⟨middle, others, rfl, -, rfl⟩ := List.append_eq_map_iff.1 hrest.symm
  -- all lexemes are tokens, of which the ones in the middle are exchanged
  have hmap : ∀ middle : List Token, before.map Except.ok ++ .ok token :: (middle.map .ok ++ others.map .ok) =
      ((before ++ [token]) ++ (middle ++ others)).map (Except.ok : Token → Lexeme) := by
    intro middle
    simp
  rw [hmap] at h ⊢
  obtain ⟨e, hyield, rfl⟩ := exists_sum_of_ofLexemes h
  obtain ⟨first, last, hfirst, hlast, he⟩ := (Token.listTerminals_signed_eq_some_iff htoken hts).1 hyield
  obtain ⟨q, hq, hsame⟩ := e.exists_opposite hop he
  have hopposite : Token.listTerminals table false ((before ++ [token]) ++ (us ++ others)) = some q.yield :=
    (Token.listTerminals_signed_eq_some_iff htoken hus).2 ⟨first, last, hfirst, hlast, hq⟩
  exact ⟨_, result_ofLexemes_of_yield hopposite, hsame.result_value_postorder_eq⟩

/-- To subtract a value is to add the opposite value: after an operand, the opposite sign can stand with the opposite value, and
the whole keeps its value or its error. -/
theorem result_value_opposite {op : Operator} {v : Int} (htoken : token.endsOperand = true) (hop : op.IsAdditive)
    (hts : Token.AreSigned table op v ts)
    (hus : Token.AreSigned table op.flip (-v) us) :
    ((ofLexemes table (lexemes ++ .ok token :: (ts.map .ok ++ after))).result >>= fun items => items.value.result) =
      (ofLexemes table (lexemes ++ .ok token :: (us.map .ok ++ after))).result >>= fun items => items.value.result := by
  cases h : (ofLexemes table (lexemes ++ .ok token :: (ts.map .ok ++ after))).result with
  | error e =>
    rw [result_ofLexemes_error_of_precedence_eq htoken hop.precedence_flip.symm hts hus h]
  | ok items =>
    obtain ⟨others, hothers, hvalue⟩ := exists_ofLexemes_opposite htoken hop hts hus h
    rw [hothers, Calculation.ok_bind, Calculation.ok_bind, hvalue]

end Postfix

end IntegerCalculator
