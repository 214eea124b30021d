import IntegerCalculator.Proofs.LongestMatch
import IntegerCalculator.Proofs.OperatorRun
import IntegerCalculator.Proofs.TableDependence

/-!
# Lines that write an expression

An expression with integers and names at its leaves is written in many ways (`Renders`): with any parentheses beyond those
that precedence and association ask for, with leading zeros and a plus sign before integers, with any run of signs for an
addition or subtraction, and with any blanks at the places between tokens. Only one place needs a blank: a run of signs would
take the numeral that follows it for a signed one.

`Variables.result_evaluate_of_rendersLine` says that the calculator gives each such line the exact value of the expression, or
the error that the expression has. On the way the line is taken for the tokens that were written (`Renders.exists_spells`), and
the tokens for a parse tree of the expression (`Spells.exists_parseTree`).
-/

namespace IntegerCalculator

/-- A leaf of a written expression. -/
inductive Leaf where
  | integer (value : Int)
  | name (letters : List Char)
  deriving DecidableEq, Repr

/-- The value that a leaf has with a table; an unbound name has none, for which zero stands here. -/
def Leaf.value (table : Variables) : Leaf → Int
  | integer value => value
  | name letters => (table.lookup letters).getD 0

/-- The name that a leaf is. -/
def Leaf.name? : Leaf → Option (List Char)
  | integer _ => none
  | name letters => some letters

/-- A leaf has a value with a table: an integer always, a name if the table binds it. -/
def Leaf.Bound (table : Variables) : Leaf → Prop
  | integer _ => True
  | name letters => (table.lookup letters).isSome

instance Leaf.decidableBound (table : Variables) : (leaf : Leaf) → Decidable (leaf.Bound table)
  | integer _ => isTrue trivial
  | name letters => inferInstanceAs (Decidable ((table.lookup letters).isSome = true))

/-- Every leaf of the expression has a value with the table. -/
def Tree.Bound (table : Variables) (e : Tree Leaf) : Prop := ∀ leaf ∈ e.leaves, leaf.Bound table

instance Tree.decidableBound (table : Variables) (e : Tree Leaf) : Decidable (e.Bound table) :=
  List.decidableBAll (Leaf.Bound table) e.leaves

/-- The ways to write an integer: leading zeros are allowed, and a plus sign unless it is negative. -/
inductive Numeral : Int → List Char → Prop where
  | unsigned (n zeros : Nat) : Numeral n (List.replicate zeros '0' ++ Nat.toDigits 10 n)
  | plus (n zeros : Nat) : Numeral n ('+' :: (List.replicate zeros '0' ++ Nat.toDigits 10 n))
  | minus (n zeros : Nat) (h : 0 < n) : Numeral (-n) ('-' :: (List.replicate zeros '0' ++ Nat.toDigits 10 n))

/-- The ways to write an operator: a run of signs is a subtraction if the number of minus signs is odd, and an addition if it
is even. -/
inductive Operator.Spelled : Operator → List Char → Prop where
  | add {run : List Char} (hne : run ≠ []) (hrun : ∀ c ∈ run, c = '+' ∨ c = '-') (h : run.count '-' % 2 = 0) :
    Spelled .add run
  | subtract {run : List Char} (hne : run ≠ []) (hrun : ∀ c ∈ run, c = '+' ∨ c = '-') (h : run.count '-' % 2 = 1) :
    Spelled .subtract run
  | multiply : Spelled .multiply ['*']
  | divide : Spelled .divide ['/']

/-- The text is blank throughout, or empty. -/
def Blanks (s : List Char) : Prop := ∀ c ∈ s, isBlank c = true

instance (s : List Char) : Decidable (Blanks s) := List.decidableBAll (isBlank · = true) s

/-- The ways to write an expression at a place where an operator outside parentheses needs at least the precedence `least`.
A left operand needs the precedence of its operator, a right operand a higher one, and parentheses are always allowed. A run
of signs has a blank before an unsigned numeral. -/
inductive Renders : Nat → Tree Leaf → List Char → Prop where
  | integer {least : Nat} {v : Int} {text : List Char} (h : Numeral v text) : Renders least (.leaf (.integer v)) text
  | name {least : Nat} {letters : List Char} (h : isName letters = true) : Renders least (.leaf (.name letters)) letters
  | node {least : Nat} {op : Operator} {l r : Tree Leaf} {left before run after right : List Char}
    (hop : least ≤ op.precedence) (hl : Renders op.precedence l left) (hr : Renders (op.precedence + 1) r right)
    (hrun : op.Spelled run) (hbefore : Blanks before) (hafter : Blanks after)
    (hsep : op.IsAdditive → startsWithDigit right = true → after ≠ []) :
    Renders least (.node op l r) (left ++ (before ++ (run ++ (after ++ right))))
  | group {least : Nat} {e : Tree Leaf} {before text after : List Char} (h : Renders 0 e text) (hbefore : Blanks before)
    (hafter : Blanks after) : Renders least e ('(' :: (before ++ (text ++ (after ++ [')']))))

/-- The lines that write an expression: blanks may stand before and after it. -/
def RendersLine (e : Tree Leaf) (line : List Char) : Prop :=
  ∃ before text after, Blanks before ∧ Renders 0 e text ∧ Blanks after ∧ line = before ++ (text ++ after)

/-! ## Numerals and runs -/

/-- Leading zeros do not change the number that digits denote. -/
theorem digitsValue_zeros (n zeros : Nat) : digitsValue (List.replicate zeros '0' ++ Nat.toDigits 10 n) = n := by
  rw [digitsValue, Nat.ofDigitChars_append, Nat.ofDigitChars_replicate_zero, Nat.mul_zero, Nat.ofDigitChars_ten_toDigits]

theorem isDigits_zeros (n zeros : Nat) : isDigits (List.replicate zeros '0' ++ Nat.toDigits 10 n) = true := by
  have hn := isDigits_toDigits n
  simp only [isDigits, Bool.and_eq_true, Bool.not_eq_true', List.isEmpty_eq_false_iff, List.all_eq_true] at hn ⊢
  refine ⟨fun h => hn.1 (List.append_eq_nil_iff.1 h).2, ?_⟩
  intro c hc
  rcases List.mem_append.1 hc with hc | hc
  · rw [List.eq_of_mem_replicate hc]
    decide
  · exact hn.2 c hc

namespace Operator.Spelled

variable {op : Operator} {run : List Char}

/-- A written operator is read as that operator. -/
theorem ofRun?_eq (h : op.Spelled run) : ofRun? run = some op := by
  cases h with
  | add hne hrun h => rw [ofRun?_of_signs hne hrun, if_pos h]
  | subtract hne hrun h => rw [ofRun?_of_signs hne hrun, if_neg (by omega)]
  | multiply => rfl
  | divide => rfl

theorem ne_nil (h : op.Spelled run) : run ≠ [] := by
  cases h with
  | add hne _ _ => exact hne
  | subtract hne _ _ => exact hne
  | multiply => exact List.cons_ne_nil _ _
  | divide => exact List.cons_ne_nil _ _

theorem isOperatorChar (h : op.Spelled run) : ∀ c ∈ run, isOperatorChar c = true := by
  intro c hc
  cases h with
  | add _ hrun _ => rcases hrun c hc with rfl | rfl <;> decide
  | subtract _ hrun _ => rcases hrun c hc with rfl | rfl <;> decide
  | multiply => rw [List.mem_singleton.1 hc]; decide
  | divide => rw [List.mem_singleton.1 hc]; decide

/-- Only additions and subtractions are written with signs. -/
theorem isSign_eq_false (h : op.Spelled run) (hop : ¬op.IsAdditive) : ∀ c ∈ run, isSign c = false := by
  intro c hc
  cases h with
  | add _ _ _ => exact absurd (Or.inl rfl) hop
  | subtract _ _ _ => exact absurd (Or.inr rfl) hop
  | multiply => rw [List.mem_singleton.1 hc]; decide
  | divide => rw [List.mem_singleton.1 hc]; decide

end Operator.Spelled

/-! ## The tokens of a written expression -/

/-- The tokens that write an expression at a place where an operator outside parentheses needs at least the precedence
`least`. -/
inductive Spells : Nat → Tree Leaf → List Token → Prop where
  | integer {least : Nat} (v : Int) (sign : Option Operator) : Spells least (.leaf (.integer v)) [.literal v sign]
  | name {least : Nat} (letters : List Char) : Spells least (.leaf (.name letters)) [.identifier letters]
  | node {least : Nat} {op : Operator} {l r : Tree Leaf} {ts us : List Token} {run : List Char}
    (hop : least ≤ op.precedence) (hl : Spells op.precedence l ts) (hr : Spells (op.precedence + 1) r us)
    (hrun : Operator.ofRun? run = some op) : Spells least (.node op l r) (ts ++ .run run :: us)
  | group {least : Nat} {e : Tree Leaf} {ts : List Token} (h : Spells 0 e ts) :
    Spells least e (.openParen :: (ts ++ [.closeParen]))

theorem Spells.ne_nil {least : Nat} {e : Tree Leaf} {tokens : List Token} (h : Spells least e tokens) : tokens ≠ [] := by
  cases h <;> simp

/-- The text does not go on with a letter or digit, so a term before it ends there. -/
def StopsTerm (rest : List Char) : Prop := ∀ c, rest.head? = some c → c.isAlpha = false ∧ c.isDigit = false

theorem stopsTerm_nil : StopsTerm [] := by
  intro c hc
  cases hc

theorem stopsTerm_cons {c : Char} (ha : c.isAlpha = false) (hd : c.isDigit = false) (rest : List Char) :
    StopsTerm (c :: rest) := by
  intro c' hc
  cases hc
  exact ⟨ha, hd⟩

theorem StopsTerm.blanks {blanks rest : List Char} (hb : Blanks blanks) (h : StopsTerm rest) :
    StopsTerm (blanks ++ rest) := by
  cases blanks with
  | nil => exact h
  | cons c blanks =>
    have hc : isBlank c = true := hb c (by simp)
    obtain ⟨ha, hd, -⟩ := isTermChar_eq_false_iff.1 (isTermChar_eq_false_of_isBlank hc)
    exact stopsTerm_cons ha hd _

theorem startsOther_digits {ds : List Char} (h : isDigits ds = true) (rest : List Char) :
    startsOther (ds ++ rest) = true := by
  cases ds with
  | nil => cases h
  | cons c ds => simp [startsOther, (isDigits_cons h).1]

theorem startsOther_sign {c : Char} {ds : List Char} (hc : isSign c = true) (h : isDigits ds = true) (rest : List Char) :
    startsOther (c :: (ds ++ rest)) = true := by
  simp [startsOther, hc, Lexeme.startsWithDigit_append h]

/-- A written expression starts with something that no run goes on with. -/
theorem Renders.startsOther_append {least : Nat} {e : Tree Leaf} {text : List Char} (h : Renders least e text)
    (rest : List Char) : startsOther (text ++ rest) = true := by
  induction h generalizing rest with
  | integer h =>
    cases h with
    | unsigned n zeros => exact startsOther_digits (isDigits_zeros n zeros) rest
    | plus n zeros => exact startsOther_sign rfl (isDigits_zeros n zeros) rest
    | minus n zeros _ => exact startsOther_sign rfl (isDigits_zeros n zeros) rest
  | @name _ letters h =>
    cases letters with
    | nil => cases h
    | cons c cs =>
      have hc : c.isAlpha = true := by
        simp only [isName, List.all_cons, Bool.and_eq_true] at h
        exact h.2.1
      simp [startsOther, hc]
  | node _ _ _ _ _ _ _ ihl _ =>
    rw [List.append_assoc]
    exact ihl _
  | group _ _ _ _ => simp [startsOther, isParen]

theorem Renders.ne_nil {least : Nat} {e : Tree Leaf} {text : List Char} (h : Renders least e text) : text ≠ [] := by
  intro htext
  have hstart := h.startsOther_append []
  rw [htext] at hstart
  cases hstart

/-- The text of a numeral is taken for one literal. -/
theorem Numeral.exists_scan {v : Int} {text : List Char} (h : Numeral v text) :
    ∃ sign, ∀ rest, StopsTerm rest → Lexeme.scan (text ++ rest) = .ok (.literal v sign) :: Lexeme.scan rest := by
  cases h with
  | unsigned n zeros =>
    refine ⟨none, ?_⟩
    intro rest hrest
    rw [Lexeme.scan_digits (isDigits_zeros n zeros) fun c hc => (hrest c hc).2, digitsValue_zeros]
  | plus n zeros =>
    refine ⟨some .add, ?_⟩
    intro rest hrest
    rw [List.cons_append, Lexeme.scan_plus (isDigits_zeros n zeros) fun c hc => (hrest c hc).2, digitsValue_zeros]
  | minus n zeros _ =>
    refine ⟨some .subtract, ?_⟩
    intro rest hrest
    rw [List.cons_append, Lexeme.scan_minus (isDigits_zeros n zeros) fun c hc => (hrest c hc).2, digitsValue_zeros]

/-- A written operator is taken for one run between its operands. -/
theorem scan_operator {op : Operator} {run after right rest : List Char} {least : Nat} {r : Tree Leaf}
    (hrun : op.Spelled run) (hr : Renders least r right) (hafter : Blanks after)
    (hsep : op.IsAdditive → startsWithDigit right = true → after ≠ []) :
    Lexeme.scan (run ++ (after ++ (right ++ rest))) = .ok (.run run) :: Lexeme.scan (right ++ rest) := by
  have hnext : startsOther (after ++ (right ++ rest)) = true ∧
      (startsWithDigit (after ++ (right ++ rest)) = true → ∀ c ∈ run, isSign c = false) := by
    cases after with
    | nil =>
      refine ⟨hr.startsOther_append rest, ?_⟩
      intro hdigit
      have hright : startsWithDigit right = true := by
        obtain ⟨c, cs, rfl⟩ := List.exists_cons_of_ne_nil hr.ne_nil
        exact hdigit
      exact hrun.isSign_eq_false fun hop => hsep hop hright rfl
    | cons c after =>
      have hc : isBlank c = true := hafter c (by simp)
      have hterm := isTermChar_eq_false_of_isBlank hc
      refine ⟨by simp [startsOther, hc], ?_⟩
      intro hdigit
      rw [isTermChar_of_isDigit hdigit] at hterm
      cases hterm
  rw [Lexeme.scan_run hrun.ne_nil hrun.isOperatorChar hnext.1 hnext.2, Lexeme.scan_blanks hafter]

/-- A written expression is taken for tokens that write it, up to where no letter or digit follows. -/
theorem Renders.exists_spells {least : Nat} {e : Tree Leaf} {text : List Char} (h : Renders least e text) :
    ∃ tokens, Spells least e tokens ∧
      ∀ rest, StopsTerm rest → Lexeme.scan (text ++ rest) = tokens.map .ok ++ Lexeme.scan rest := by
  induction h with
  | @integer _ v _ h =>
    obtain ⟨sign, hscan⟩ := h.exists_scan
    exact ⟨_, .integer v sign, hscan⟩
  | @name _ letters h => exact ⟨_, .name letters, fun rest hrest => Lexeme.scan_name h fun c hc => (hrest c hc).1⟩
  | @node _ op l r left before run after right hop hl hr hrun hbefore hafter hsep ihl ihr =>
    obtain ⟨ts, hts, hscanl⟩ := ihl
    obtain ⟨us, hus, hscanr⟩ := ihr
    refine ⟨_, .node hop hts hus hrun.ofRun?_eq, ?_⟩
    intro rest hrest
    have hstop : StopsTerm (before ++ (run ++ (after ++ (right ++ rest)))) := by
      apply StopsTerm.blanks hbefore
      obtain ⟨c, cs, rfl⟩ := List.exists_cons_of_ne_nil hrun.ne_nil
      obtain ⟨-, ha, hd, -⟩ := Lexeme.isOperatorChar_kind (hrun.isOperatorChar c (by simp))
      exact stopsTerm_cons ha hd _
    calc Lexeme.scan (left ++ (before ++ (run ++ (after ++ right))) ++ rest)
        = Lexeme.scan (left ++ (before ++ (run ++ (after ++ (right ++ rest))))) := by
          simp only [List.append_assoc]
      _ = ts.map .ok ++ Lexeme.scan (run ++ (after ++ (right ++ rest))) := by
          rw [hscanl _ hstop, Lexeme.scan_blanks hbefore]
      _ = ts.map .ok ++ .ok (.run run) :: (us.map .ok ++ Lexeme.scan rest) := by
          rw [scan_operator hrun hr hafter hsep, hscanr rest hrest]
      _ = (ts ++ .run run :: us).map .ok ++ Lexeme.scan rest := by
          simp
  | @group _ e before text after h hbefore hafter ih =>
    obtain ⟨ts, hts, hscan⟩ := ih
    refine ⟨_, .group hts, ?_⟩
    intro rest hrest
    have hstop : StopsTerm (after ++ (')' :: rest)) := StopsTerm.blanks hafter (stopsTerm_cons (by decide) (by decide) _)
    calc Lexeme.scan ('(' :: (before ++ (text ++ (after ++ [')']))) ++ rest)
        = Lexeme.scan ('(' :: (before ++ (text ++ (after ++ (')' :: rest))))) := by
          simp
      _ = .ok .openParen :: (ts.map .ok ++ .ok .closeParen :: Lexeme.scan rest) := by
          rw [Lexeme.scan_openParen, Lexeme.scan_blanks hbefore, hscan _ hstop, Lexeme.scan_blanks hafter,
            Lexeme.scan_closeParen]
      _ = (.openParen :: (ts ++ [.closeParen])).map .ok ++ Lexeme.scan rest := by
          simp

/-! ## The parse tree of a written expression -/

/-- Every name of the expression is a token that writes it. -/
theorem Spells.mem_of_mem_leaves {least : Nat} {e : Tree Leaf} {tokens : List Token} (h : Spells least e tokens)
    {letters : List Char} (hmem : .name letters ∈ e.leaves) : .identifier letters ∈ tokens := by
  induction h with
  | integer v sign => simp [Tree.leaves] at hmem
  | name letters' => simpa [Tree.leaves] using hmem
  | node _ _ _ _ ihl ihr =>
    rcases List.mem_append.1 hmem with hmem | hmem
    · exact List.mem_append_left _ (ihl hmem)
    · exact List.mem_append_right _ (List.mem_cons_of_mem _ (ihr hmem))
  | group _ ih => exact List.mem_cons_of_mem _ (List.mem_append_left _ (ih hmem))

/-- Tokens that write an expression, wherever an operand may stand, stand for the terminals of a parse tree of it. -/
theorem Spells.exists_parseTree {least : Nat} {e : Tree Leaf} {tokens : List Token} (h : Spells least e tokens)
    {table : Variables} (hbound : e.Bound table) (n : Nonterminal) (hn : n.level ≤ max 1 least) :
    ∃ p : ParseTree n, p.toTree = e.map (Leaf.value table) ∧
      ∀ more ms, Token.listTerminals table true more = some ms →
        Token.listTerminals table false (tokens ++ more) = some (p.yield ++ ms) := by
  induction h generalizing n with
  | integer v sign =>
    obtain ⟨p, hyield, htree⟩ := ParseTree.exists_of_level_le (.value v) n.level_le_three
    refine ⟨p, htree, ?_⟩
    intro more ms hmore
    rw [hyield]
    cases sign with
    | none => exact Token.listTerminals_cons_eq_some_iff.2 ⟨_, _, rfl, hmore, rfl⟩
    | some op => exact Token.listTerminals_cons_eq_some_iff.2 ⟨_, _, rfl, hmore, rfl⟩
  | name letters =>
    obtain ⟨v, hv⟩ := Option.isSome_iff_exists.1 (hbound (.name letters) (List.mem_singleton_self _))
    have hleaf : Leaf.value table (.name letters) = v := by
      rw [Leaf.value, hv, Option.getD_some]
    have hterminals : Token.terminals table false (.identifier letters) = some [.value v] := by
      rw [Token.terminals, hv, Option.map_some]
    obtain ⟨p, hyield, htree⟩ := ParseTree.exists_of_level_le (.value v) n.level_le_three
    refine ⟨p, by rw [htree, Tree.map, hleaf, ParseTree.toTree], ?_⟩
    intro more ms hmore
    rw [hyield]
    exact Token.listTerminals_cons_eq_some_iff.2 ⟨_, _, hterminals, hmore, rfl⟩
  | @node least op l r ts us run hop hl hr hrun ihl ihr =>
    have hpos := op.precedence_pos
    have hterminals : Token.terminals table true (.run run) = some [.operator op] := by
      rw [Token.terminals, hrun, Option.map_some]
    obtain ⟨pl, htreel, hreadl⟩ :=
      ihl (fun leaf hmem => hbound leaf (List.mem_append_left _ hmem)) op.left (by rw [op.level_left]; omega)
    obtain ⟨pr, htreer, hreadr⟩ :=
      ihr (fun leaf hmem => hbound leaf (List.mem_append_right _ hmem)) op.right (by rw [op.level_right]; omega)
    obtain ⟨p, hyield, htree⟩ := ParseTree.exists_of_level_le (m := n) (.node op pl pr) (by rw [op.level_left]; omega)
    refine ⟨p, by rw [htree, ParseTree.toTree_node, htreel, htreer, Tree.map], ?_⟩
    intro more ms hmore
    have hrest : Token.listTerminals table true (.run run :: (us ++ more)) = some (.operator op :: (pr.yield ++ ms)) :=
      Token.listTerminals_cons_eq_some_iff.2 ⟨_, _, hterminals, hreadr more ms hmore, rfl⟩
    rw [hyield, ParseTree.yield_node]
    simpa using hreadl _ _ hrest
  | @group least e ts h ih =>
    obtain ⟨pe, htreee, hreade⟩ := ih hbound .sum (by decide)
    obtain ⟨p, hyield, htree⟩ := ParseTree.exists_of_level_le (.group pe) n.level_le_three
    refine ⟨p, by rw [htree, ParseTree.toTree, htreee], ?_⟩
    intro more ms hmore
    have hrest : Token.listTerminals table true (.closeParen :: more) = some (.closing :: ms) :=
      Token.listTerminals_cons_eq_some_iff.2 ⟨_, _, rfl, hmore, rfl⟩
    have hread : Token.listTerminals table false (.openParen :: (ts ++ .closeParen :: more)) =
        some (.opening :: (pe.yield ++ .closing :: ms)) :=
      Token.listTerminals_cons_eq_some_iff.2 ⟨_, _, rfl, hreade _ _ hrest, rfl⟩
    rw [hyield, ParseTree.yield]
    simpa using hread

/-! ## The value of a line -/

/-- A line that writes an expression is taken for tokens that write it. -/
theorem RendersLine.exists_spells {e : Tree Leaf} {line : List Char} (h : RendersLine e line) :
    ∃ tokens, Spells 0 e tokens ∧ Lexeme.ofLine line = .ok (tokens.map .ok) := by
  obtain ⟨before, text, after, hbefore, htext, hafter, rfl⟩ := h
  obtain ⟨tokens, htokens, hscan⟩ := htext.exists_spells
  have hstop : StopsTerm (after ++ []) := StopsTerm.blanks hafter stopsTerm_nil
  have hline : Lexeme.scan (before ++ (text ++ after)) = tokens.map .ok := by
    rw [List.append_nil] at hstop
    rw [Lexeme.scan_blanks hbefore, hscan after hstop, ← List.append_nil after, Lexeme.scan_blanks hafter, Lexeme.scan_nil,
      List.append_nil]
  have hblank : (before ++ (text ++ after)).all isBlank = false := by
    rw [← Bool.not_eq_true, List.all_eq_true]
    intro hall
    have hnil := Lexeme.scan_blanks hall []
    rw [List.append_nil, hline, Lexeme.scan_nil, List.map_eq_nil_iff] at hnil
    exact htokens.ne_nil hnil
  exact ⟨tokens, htokens, by rw [Lexeme.ofLine_of_not_blank hblank, hline]⟩

/-- Tokens that write an expression have the listing of the expression as their postfix form, if its names have values. -/
theorem Spells.result_ofLexemes {e : Tree Leaf} {tokens : List Token} (h : Spells 0 e tokens) {table : Variables}
    (hbound : e.Bound table) :
    (Postfix.ofLexemes table (tokens.map .ok)).result = .ok (e.map (Leaf.value table)).postorder := by
  obtain ⟨p, htree, hread⟩ := h.exists_parseTree hbound .sum (by decide)
  have hyield : Token.listTerminals table false tokens = some p.yield := by
    simpa using hread [] [] rfl
  rw [Postfix.result_ofLexemes_of_yield hyield, htree]

/-- Tokens that write an expression fail by an unknown variable if a name of it has no value, whatever else is wrong with the
expression. -/
theorem Spells.result_ofLexemes_of_unbound {e : Tree Leaf} {tokens : List Token} (h : Spells 0 e tokens) {table : Variables}
    (hbound : ¬e.Bound table) : (Postfix.ofLexemes table (tokens.map .ok)).result = .error .unknownVariable := by
  unfold Tree.Bound at hbound
  simp only [Classical.not_forall] at hbound
  obtain ⟨leaf, hmem, hleaf⟩ := hbound
  -- A table that binds the names as well lets the conversion succeed, and the two differ at names without a value only.
  obtain ⟨u, hext, hu⟩ := table.exists_binding (e.leaves.filterMap Leaf.name?)
  have hboundu : e.Bound u := by
    intro leaf' hmem'
    cases leaf' with
    | integer v => trivial
    | name letters => exact Option.isSome_iff_exists.2 (hu letters (List.mem_filterMap.2 ⟨_, hmem', rfl⟩))
  cases leaf with
  | integer v => exact absurd trivial hleaf
  | name letters =>
    exact Postfix.result_ofLexemes_of_unbound hext (h.result_ofLexemes hboundu) (h.mem_of_mem_leaves hmem)
      (Option.not_isSome_iff_eq_none.1 hleaf)

/-- The calculator gives a line that writes an expression the exact value of the expression, each division going toward zero.
If a name of the expression has no value, or else if a division of it has the divisor zero, the line has that error. -/
theorem Variables.result_evaluate_of_rendersLine {e : Tree Leaf} {line : List Char} (table : Variables)
    (h : RendersLine e line) :
    (table.evaluate line).result =
      if ¬e.Bound table then .error .unknownVariable
      else if (e.map (Leaf.value table)).DividesByZero then .error .divisionByZero
      else .ok (e.map (Leaf.value table)).value := by
  obtain ⟨tokens, htokens, hline⟩ := h.exists_spells
  rw [result_evaluate_of_ofLine hline]
  by_cases hbound : e.Bound table
  · rw [htokens.result_ofLexemes hbound, if_neg (not_not_intro hbound)]
    exact Tree.result_value_postorder _
  · rw [htokens.result_ofLexemes_of_unbound hbound, if_pos hbound]
    rfl

/-- The expression `(7 + y * -2) / x` on a line with a leading zero, needless signs and parentheses, an addition written as two
minus signs, and an ideographic space: its value or error with three tables. -/
theorem Variables.result_evaluate_quotient :
    let product : Tree Leaf := .node .multiply (.leaf (.name ['y'])) (.leaf (.integer (-2)))
    let quotient : Tree Leaf := .node .divide (.node .add (.leaf (.integer 7)) product) (.leaf (.name ['x']))
    let line := "( +07--y*-2)/\u3000(x)".toList
    RendersLine quotient line ∧
      (empty.evaluate line).result = .error .unknownVariable ∧
      (((empty.store ['x'] 0).store ['y'] 4).evaluate line).result = .error .divisionByZero ∧
      (((empty.store ['x'] (-3)).store ['y'] (-2)).evaluate line).result = .ok (-3) := by
  intro product quotient line
  have hseven : Renders 1 (.leaf (.integer 7)) "+07".toList := .integer (.plus 7 1)
  have hproduct : Renders 2 product "y*-2".toList :=
    @Renders.node _ _ _ _ ['y'] [] ['*'] [] ['-', '2'] (by decide) (.name rfl) (.integer (.minus 2 0 (by decide))) .multiply
      (by decide) (by decide) (by decide)
  have hsum : Renders 0 (.node .add (.leaf (.integer 7)) product) "+07--y*-2".toList :=
    @Renders.node _ .add _ _ "+07".toList [] ['-', '-'] [] "y*-2".toList (by decide) hseven hproduct
      (.add (by decide) (by simp) rfl) (by decide) (by decide) (by decide)
  have hdividend : Renders 2 (.node .add (.leaf (.integer 7)) product) "( +07--y*-2)".toList :=
    @Renders.group _ _ [' '] _ [] hsum (by decide) (by decide)
  have hdivisor : Renders 3 (.leaf (.name ['x'])) "(x)".toList :=
    @Renders.group _ _ [] ['x'] [] (.name rfl) (by decide) (by decide)
  have hquotient : Renders 0 quotient line :=
    @Renders.node _ .divide _ _ "( +07--y*-2)".toList [] ['/'] ['\u3000'] "(x)".toList (by decide) hdividend hdivisor .divide
      (by decide) (by decide) (by decide)
  have h : RendersLine quotient line := ⟨[], line, [], by decide, hquotient, by decide, rfl⟩
  refine ⟨h, ?_, ?_, ?_⟩
  · exact result_evaluate_of_rendersLine empty h
  · exact result_evaluate_of_rendersLine ((empty.store ['x'] 0).store ['y'] 4) h
  · exact result_evaluate_of_rendersLine ((empty.store ['x'] (-3)).store ['y'] (-2)) h

end IntegerCalculator
