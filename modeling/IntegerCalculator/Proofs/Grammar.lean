import IntegerCalculator.Proofs.Tree
import IntegerCalculator.Token
import IntegerCalculator.Variables

/-!
# The grammar of expressions

An expression is a sum of products of factors:

  sum     → product | sum (+|-) product
  product → factor | product (*|/) factor
  factor  → value | ( sum )

A parse tree is a derivation in this grammar, indexed by the nonterminal it starts from; its yield is the sequence of
terminals it derives, and `ParseTree.toTree` forgets the parentheses and the chains. `ParseTree.determined` says that the
grammar is unambiguous, also behind any terminals that the tree does not go on with.

The terminals of a sequence of tokens depend on the table and on places: a signed literal after an operand or a closing
parenthesis is an operator and an absolute value (`Token.terminals`).
-/

namespace IntegerCalculator

/-- A terminal of the grammar: a value, an operator or a parenthesis. -/
inductive Terminal where
  | value (value : Int)
  | operator (op : Operator)
  | opening
  | closing
  deriving DecidableEq, Repr

/-- Whether an operand ends with the terminal, a parenthesis being the end of one. -/
def Terminal.endsOperand : Terminal → Bool
  | value _ | closing => true
  | operator _ | opening => false

/-- A nonterminal of the grammar. -/
inductive Nonterminal where
  | sum
  | product
  | factor
  deriving DecidableEq, Repr

/-- The operators of a sum. -/
def Operator.IsAdditive (op : Operator) : Prop := op = .add ∨ op = .subtract

/-- The operators of a product. -/
def Operator.IsMultiplicative (op : Operator) : Prop := op = .multiply ∨ op = .divide

instance (op : Operator) : Decidable op.IsAdditive := inferInstanceAs (Decidable (op = .add ∨ op = .subtract))

/-- A derivation of the grammar from a nonterminal. -/
inductive ParseTree : Nonterminal → Type where
  | ofProduct (t : ParseTree .product) : ParseTree .sum
  | sum (e : ParseTree .sum) (op : Operator) (h : op.IsAdditive) (t : ParseTree .product) : ParseTree .sum
  | ofFactor (f : ParseTree .factor) : ParseTree .product
  | product (t : ParseTree .product) (op : Operator) (h : op.IsMultiplicative) (f : ParseTree .factor) : ParseTree .product
  | value (value : Int) : ParseTree .factor
  | group (e : ParseTree .sum) : ParseTree .factor

namespace ParseTree

/-- The terminals that a parse tree derives. -/
def yield : {n : Nonterminal} → ParseTree n → List Terminal
  | _, ofProduct t => t.yield
  | _, sum e op _ t => e.yield ++ .operator op :: t.yield
  | _, ofFactor f => f.yield
  | _, product t op _ f => t.yield ++ .operator op :: f.yield
  | _, value v => [.value v]
  | _, group e => .opening :: (e.yield ++ [.closing])

/-- The expression that a parse tree stands for. -/
def toTree : {n : Nonterminal} → ParseTree n → Tree Int
  | _, ofProduct t => t.toTree
  | _, sum e op _ t => .node op e.toTree t.toTree
  | _, ofFactor f => f.toTree
  | _, product t op _ f => .node op t.toTree f.toTree
  | _, value v => .leaf v
  | _, group e => e.toTree

end ParseTree

/-! ## Precedence and nonterminals -/

namespace Nonterminal

/-- The least precedence that an operator of the nonterminal has, outside parentheses. A factor has none. -/
def level : Nonterminal → Nat
  | sum => 1
  | product => 2
  | factor => 3

theorem level_pos (n : Nonterminal) : 0 < n.level := by
  cases n <;> decide

theorem level_le_three (n : Nonterminal) : n.level ≤ 3 := by
  cases n <;> decide

end Nonterminal

namespace Operator

theorem IsAdditive.precedence_eq {op : Operator} (h : op.IsAdditive) : op.precedence = 1 := by
  rcases h with rfl | rfl <;> rfl

theorem IsMultiplicative.precedence_eq {op : Operator} (h : op.IsMultiplicative) : op.precedence = 2 := by
  rcases h with rfl | rfl <;> rfl

theorem IsAdditive.precedence_lt {op : Operator} (h : op.IsAdditive) : op.precedence < Nonterminal.product.level := by
  rw [h.precedence_eq]
  exact Nat.lt_succ_self 1

theorem IsMultiplicative.precedence_lt {op : Operator} (h : op.IsMultiplicative) :
    op.precedence < Nonterminal.factor.level := by
  rw [h.precedence_eq]
  exact Nat.lt_succ_self 2

theorem precedence_pos (op : Operator) : 0 < op.precedence := by
  cases op <;> decide

/-- The nonterminal that an operator makes, and that its left operand has to be. -/
def left : Operator → Nonterminal
  | add | subtract => .sum
  | multiply | divide => .product

/-- The nonterminal that the right operand of an operator has to be. -/
def right : Operator → Nonterminal
  | add | subtract => .product
  | multiply | divide => .factor

@[simp] theorem level_left (op : Operator) : op.left.level = op.precedence := by
  cases op <;> rfl

@[simp] theorem level_right (op : Operator) : op.right.level = op.precedence + 1 := by
  cases op <;> rfl

end Operator

namespace ParseTree

/-- The parse tree of an operator with its two operands. -/
def node (op : Operator) : ParseTree op.left → ParseTree op.right → ParseTree op.left :=
  match op with
  | .add => fun e t => sum e .add (Or.inl rfl) t
  | .subtract => fun e t => sum e .subtract (Or.inr rfl) t
  | .multiply => fun t f => product t .multiply (Or.inl rfl) f
  | .divide => fun t f => product t .divide (Or.inr rfl) f

theorem yield_node (op : Operator) (l : ParseTree op.left) (r : ParseTree op.right) :
    (node op l r).yield = l.yield ++ .operator op :: r.yield := by
  cases op <;> rfl

theorem toTree_node (op : Operator) (l : ParseTree op.left) (r : ParseTree op.right) :
    (node op l r).toTree = .node op l.toTree r.toTree := by
  cases op <;> rfl

/-- What binds tighter than asked for can stand there, for the same terminals and the same expression. -/
theorem exists_of_level_le {m n : Nonterminal} (p : ParseTree n) (h : m.level ≤ n.level) :
    ∃ q : ParseTree m, q.yield = p.yield ∧ q.toTree = p.toTree := by
  cases m with
  | sum =>
    cases n with
    | sum => exact ⟨p, rfl, rfl⟩
    | product => exact ⟨ofProduct p, rfl, rfl⟩
    | factor => exact ⟨ofProduct (ofFactor p), rfl, rfl⟩
  | product =>
    cases n with
    | sum => exact absurd h (by decide)
    | product => exact ⟨p, rfl, rfl⟩
    | factor => exact ⟨ofFactor p, rfl, rfl⟩
  | factor =>
    cases n with
    | sum => exact absurd h (by decide)
    | product => exact absurd h (by decide)
    | factor => exact ⟨p, rfl, rfl⟩

/-- Every parse tree is a sum, for the same terminals and the same expression. -/
theorem exists_sum {n : Nonterminal} (p : ParseTree n) :
    ∃ q : ParseTree .sum, q.yield = p.yield ∧ q.toTree = p.toTree :=
  exists_of_level_le p n.level_pos

/-! ## The grammar is unambiguous -/

/-- Terminals after which a tree whose operators have at least the precedence `least` stands by itself: they do not end with
such an operator. -/
def Opens (least : Nat) (before : List Terminal) : Prop :=
  ∀ op, before.getLast? = some (.operator op) → op.precedence < least

theorem Opens.mono {k l : Nat} {before : List Terminal} (h : Opens k before) (hkl : k ≤ l) : Opens l before :=
  fun op hop => Nat.lt_of_lt_of_le (h op hop) hkl

/-- After an operator stands what binds tighter. -/
theorem opens_operator {op : Operator} {least : Nat} (h : op.precedence < least) (before : List Terminal) :
    Opens least (before ++ [.operator op]) := by
  intro op' hop
  rw [List.getLast?_concat, Option.some.injEq, Terminal.operator.injEq] at hop
  exact hop ▸ h

/-- After an opening parenthesis stands any tree. -/
theorem opens_opening (least : Nat) (before : List Terminal) : Opens least (before ++ [.opening]) := by
  intro op hop
  rw [List.getLast?_concat] at hop
  cases hop

/-- Terminals that end with an operator are not such that a tree with this operator can stand after them. -/
theorem not_opens_operator {op : Operator} {least : Nat} (h : least ≤ op.precedence) (before : List Terminal) :
    ¬Opens least (before ++ [.operator op]) :=
  fun ho => Nat.not_lt.2 h (ho op List.getLast?_concat)

theorem getLast?_append_yield_value (r : List Terminal) (v : Int) :
    (r ++ (value v).yield).getLast? = some (.value v) :=
  List.getLast?_concat

theorem getLast?_append_yield_group (r : List Terminal) (e : ParseTree .sum) :
    (r ++ (group e).yield).getLast? = some .closing := by
  rw [yield, ← List.cons_append, ← List.append_assoc]
  exact List.getLast?_concat

/-- Terminals that end with the tree determine where it starts, and the tree. -/
def Determined {n : Nonterminal} (p : ParseTree n) : Prop :=
  ∀ (q : ParseTree n) (r s : List Terminal), Opens n.level r → Opens n.level s → r ++ p.yield = s ++ q.yield →
    p = q ∧ r = s

namespace Determined

variable {n : Nonterminal} {p : ParseTree n} {op : Operator} {r s : List Terminal}

/-- A determined tree does not stand alone at the end of what ends with an operator and its right operand. -/
theorem ne_operator_right (hp : p.Determined) (hop : op.precedence < n.level) (hr : Opens op.precedence r) (s : List Terminal)
    (q : ParseTree n) : r ++ p.yield ≠ s ++ .operator op :: q.yield := by
  intro h
  rw [List.append_cons] at h
  obtain ⟨-, hrs⟩ := hp q r _ (hr.mono (Nat.le_of_lt hop)) (opens_operator hop s) h
  rw [hrs] at hr
  exact not_opens_operator (Nat.le_refl _) s hr

/-- Nor does a tree stand alone at the end of what ends with an operator and a determined right operand. -/
theorem operator_right_ne (hp : p.Determined) (hop : op.precedence < n.level) (hs : Opens op.precedence s) (r : List Terminal)
    (q : ParseTree n) : r ++ .operator op :: p.yield ≠ s ++ q.yield := by
  intro h
  rw [List.append_cons] at h
  obtain ⟨-, hrs⟩ := hp q _ s (opens_operator hop r) (hs.mono (Nat.le_of_lt hop)) h
  rw [← hrs] at hs
  exact not_opens_operator (Nat.le_refl _) r hs

/-- Two operators before right operands, one of them determined, are the same, and so is all before them. -/
theorem operator_right_inj (hp : p.Determined) {op' : Operator} (hop : op.precedence < n.level)
    (hop' : op'.precedence < n.level) {q : ParseTree n} (h : r ++ .operator op :: p.yield = s ++ .operator op' :: q.yield) :
    p = q ∧ op = op' ∧ r = s := by
  rw [List.append_cons r, List.append_cons s] at h
  obtain ⟨hpq, hrs⟩ := hp q _ _ (opens_operator hop r) (opens_operator hop' s) h
  obtain ⟨hbefore, hlast⟩ := List.append_inj' hrs rfl
  cases hlast
  exact ⟨hpq, rfl, hbefore⟩

end Determined

/-- The grammar is unambiguous, also behind terminals that the tree does not go on with. -/
theorem determined {n : Nonterminal} (p : ParseTree n) : p.Determined := by
  induction p with
  | value v =>
    intro q r s _ _ h
    cases q with
    | value w =>
      obtain ⟨rfl, hv⟩ := List.append_inj' h rfl
      cases hv
      exact ⟨rfl, rfl⟩
    | group e =>
      have hlast := congrArg List.getLast? h
      rw [getLast?_append_yield_value, getLast?_append_yield_group] at hlast
      cases hlast
  | group e ih =>
    intro q r s _ _ h
    cases q with
    | value w =>
      have hlast := congrArg List.getLast? h
      rw [getLast?_append_yield_group, getLast?_append_yield_value] at hlast
      cases hlast
    | group e' =>
      have hinner : (r ++ [.opening]) ++ e.yield = (s ++ [.opening]) ++ e'.yield := by
        apply List.append_cancel_right (?_ : _ ++ [Terminal.closing] = _)
        simpa [yield] using h
      obtain ⟨rfl, hrs⟩ := ih e' _ _ (opens_opening _ r) (opens_opening _ s) hinner
      exact ⟨rfl, List.append_cancel_right hrs⟩
  | ofFactor f ih =>
    intro q r s hr hs h
    cases q with
    | ofFactor f' =>
      obtain ⟨rfl, hrs⟩ := ih f' r s (hr.mono (by decide)) (hs.mono (by decide)) h
      exact ⟨rfl, hrs⟩
    | product t op hop f' =>
      rw [yield, yield, ← List.append_assoc] at h
      exact absurd h (ih.ne_operator_right hop.precedence_lt (hop.precedence_eq ▸ hr) _ f')
  | product t op hop f iht ihf =>
    intro q r s hr hs h
    cases q with
    | ofFactor f' =>
      rw [yield, yield, ← List.append_assoc] at h
      exact absurd h (ihf.operator_right_ne hop.precedence_lt (hop.precedence_eq ▸ hs) _ f')
    | product t' op' hop' f' =>
      rw [yield, yield, ← List.append_assoc, ← List.append_assoc] at h
      obtain ⟨rfl, rfl, hleft⟩ := ihf.operator_right_inj hop.precedence_lt hop'.precedence_lt h
      obtain ⟨rfl, hrs⟩ := iht t' r s hr hs hleft
      exact ⟨rfl, hrs⟩
  | ofProduct t ih =>
    intro q r s hr hs h
    cases q with
    | ofProduct t' =>
      obtain ⟨rfl, hrs⟩ := ih t' r s (hr.mono (by decide)) (hs.mono (by decide)) h
      exact ⟨rfl, hrs⟩
    | sum e op hop t' =>
      rw [yield, yield, ← List.append_assoc] at h
      exact absurd h (ih.ne_operator_right hop.precedence_lt (hop.precedence_eq ▸ hr) _ t')
  | sum e op hop t ihe iht =>
    intro q r s hr hs h
    cases q with
    | ofProduct t' =>
      rw [yield, yield, ← List.append_assoc] at h
      exact absurd h (iht.operator_right_ne hop.precedence_lt (hop.precedence_eq ▸ hs) _ t')
    | sum e' op' hop' t' =>
      rw [yield, yield, ← List.append_assoc, ← List.append_assoc] at h
      obtain ⟨rfl, rfl, hleft⟩ := iht.operator_right_inj hop.precedence_lt hop'.precedence_lt h
      obtain ⟨rfl, hrs⟩ := ihe e' r s hr hs hleft
      exact ⟨rfl, hrs⟩

/-- Parse trees with the same terminals are the same. -/
theorem yield_injective {n : Nonterminal} {p q : ParseTree n} (h : p.yield = q.yield) : p = q := by
  have hnil : Opens n.level [] := fun op hop => by cases hop
  exact (p.determined q [] [] hnil hnil h).1

end ParseTree

/-! ## The terminals of tokens -/

namespace Token

/-- Whether an operand ends with the token, a parenthesis being the end of one. -/
def endsOperand : Token → Bool
  | identifier _ | literal .. | closeParen => true
  | run _ | openParen => false

/-- The token stands for something: a name has a value and a run of operator characters is an operator. -/
def Resolves (table : Variables) : Token → Prop
  | identifier name => ∃ value, table.lookup name = some value
  | run text => ∃ op, Operator.ofRun text = .ok op
  | literal .. | openParen | closeParen => True

/-- The terminals that a token stands for, which for a signed literal depend on whether an operand stands right before it;
`none` for a token that stands for nothing. -/
def terminals (table : Variables) (afterOperand : Bool) : Token → Option (List Terminal)
  | identifier name => (table.lookup name).map fun value => [.value value]
  | literal value none => some [.value value]
  | literal value (some sign) =>
    if afterOperand then some [.operator sign, .value value.natAbs] else some [.value value]
  | run text => (Operator.ofRun? text).map fun op => [.operator op]
  | openParen => some [.opening]
  | closeParen => some [.closing]

/-- The terminals that a sequence of tokens stands for. -/
def listTerminals (table : Variables) (afterOperand : Bool) : List Token → Option (List Terminal)
  | [] => some []
  | token :: tokens => do
    return (← token.terminals table afterOperand) ++ (← listTerminals table token.endsOperand tokens)

/-- A run is an operator exactly when it is read as one. -/
theorem ofRun_eq_ok_iff {text : List Char} {op : Operator} :
    Operator.ofRun text = .ok op ↔ Operator.ofRun? text = some op := by
  unfold Operator.ofRun
  split <;> simp_all

/-- A token has terminals exactly when it stands for something. -/
theorem exists_terminals_iff {table : Variables} (afterOperand : Bool) {token : Token} :
    (∃ ts, token.terminals table afterOperand = some ts) ↔ token.Resolves table := by
  cases token with
  | identifier name => simp [terminals, Resolves, @exists_comm (List Terminal)]
  | literal value sign => cases sign <;> cases afterOperand <;> simp [terminals, Resolves]
  | run text => simp [terminals, Resolves, ofRun_eq_ok_iff, @exists_comm (List Terminal)]
  | openParen => simp [terminals, Resolves]
  | closeParen => simp [terminals, Resolves]

/-- The terminals of a token by its kind. A literal is a value, or an operator and a value if it has a sign and an operand stands
right before it; every other token is one terminal. -/
theorem terminals_cases {table : Variables} {afterOperand : Bool} {token : Token} {ts : List Terminal}
    (h : token.terminals table afterOperand = some ts) :
    (∃ name v, token = .identifier name ∧ table.lookup name = some v ∧ ts = [.value v]) ∨
      (∃ v sign, token = .literal v sign ∧ (sign = none ∨ afterOperand = false) ∧ ts = [.value v]) ∨
      (∃ v sign, token = .literal v (some sign) ∧ afterOperand = true ∧ ts = [.operator sign, .value v.natAbs]) ∨
      (∃ text op, token = .run text ∧ Operator.ofRun? text = some op ∧ ts = [.operator op]) ∨
      token = .openParen ∧ ts = [.opening] ∨ token = .closeParen ∧ ts = [.closing] := by
  cases token with
  | identifier name =>
    obtain ⟨v, hv, rfl⟩ := Option.map_eq_some_iff.1 h
    exact .inl ⟨name, v, rfl, hv, rfl⟩
  | literal v sign =>
    cases sign with
    | none =>
      cases h
      exact .inr (.inl ⟨v, none, rfl, .inl rfl, rfl⟩)
    | some op =>
      cases afterOperand with
      | true =>
        cases h
        exact .inr (.inr (.inl ⟨v, op, rfl, rfl, rfl⟩))
      | false =>
        cases h
        exact .inr (.inl ⟨v, some op, rfl, .inr rfl, rfl⟩)
  | run text =>
    obtain ⟨op, hop, rfl⟩ := Option.map_eq_some_iff.1 h
    exact .inr (.inr (.inr (.inl ⟨text, op, rfl, hop, rfl⟩)))
  | openParen =>
    cases h
    exact .inr (.inr (.inr (.inr (.inl ⟨rfl, rfl⟩))))
  | closeParen =>
    cases h
    exact .inr (.inr (.inr (.inr (.inr ⟨rfl, rfl⟩))))

/-- The last terminal of a token ends an operand exactly when the token does. -/
theorem exists_terminals_eq_append {table : Variables} {afterOperand : Bool} {token : Token} {ts : List Terminal}
    (h : token.terminals table afterOperand = some ts) :
    ∃ first last, ts = first ++ [last] ∧ last.endsOperand = token.endsOperand := by
  rcases terminals_cases h with ⟨_, v, rfl, -, rfl⟩ | ⟨v, _, rfl, -, rfl⟩ | ⟨v, sign, rfl, -, rfl⟩ | ⟨_, op, rfl, -, rfl⟩ |
    ⟨rfl, rfl⟩ | ⟨rfl, rfl⟩
  · exact ⟨[], .value v, rfl, rfl⟩
  · exact ⟨[], .value v, rfl, rfl⟩
  · exact ⟨[.operator sign], .value v.natAbs, rfl, rfl⟩
  · exact ⟨[], .operator op, rfl, rfl⟩
  · exact ⟨[], .opening, rfl, rfl⟩
  · exact ⟨[], .closing, rfl, rfl⟩

/-- The terminals of a sequence are those of its first token and then those of the others. -/
theorem listTerminals_cons_eq_some_iff {table : Variables} {afterOperand : Bool} {token : Token} {tokens : List Token}
    {ts : List Terminal} :
    listTerminals table afterOperand (token :: tokens) = some ts ↔
      ∃ first rest, token.terminals table afterOperand = some first ∧
        listTerminals table token.endsOperand tokens = some rest ∧ ts = first ++ rest := by
  simp only [listTerminals, Option.bind_eq_bind, Option.bind_eq_some_iff, Option.pure_def, Option.some.injEq]
  constructor
  · rintro ⟨first, hf, rest, hr, rfl⟩
    exact ⟨first, rest, hf, hr, rfl⟩
  · rintro ⟨first, rest, hf, hr, rfl⟩
    exact ⟨first, hf, rest, hr, rfl⟩

/-- A sequence of tokens has terminals exactly when each of its tokens stands for something. -/
theorem exists_listTerminals_iff {table : Variables} (afterOperand : Bool) {tokens : List Token} :
    (∃ ts, listTerminals table afterOperand tokens = some ts) ↔ ∀ token ∈ tokens, token.Resolves table := by
  induction tokens generalizing afterOperand with
  | nil => simp [listTerminals]
  | cons token tokens ih =>
    rw [List.forall_mem_cons, ← ih token.endsOperand, ← exists_terminals_iff afterOperand]
    constructor
    · rintro ⟨ts, h⟩
      obtain ⟨first, rest, hf, hr, -⟩ := listTerminals_cons_eq_some_iff.1 h
      exact ⟨⟨first, hf⟩, rest, hr⟩
    · rintro ⟨⟨first, hf⟩, rest, hr⟩
      exact ⟨_, listTerminals_cons_eq_some_iff.2 ⟨first, rest, hf, hr, rfl⟩⟩

end Token

end IntegerCalculator
