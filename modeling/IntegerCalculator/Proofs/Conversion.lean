import IntegerCalculator.Postfix.Conversion
import IntegerCalculator.Proofs.Grammar

/-!
# Conversion and the grammar

The conversion reads terminals one by one (`accept`), holds operators and parentheses back and passes items on. Read without
an error and up to a legal end, the terminals are the yield of a parse tree, and what was passed on is the listing of its
expression; and every parse tree is read so.

The first half rests on an invariant: what is held back explains what has been read (`Held`), each operator by the parse tree
of its left operand. The second half is an induction on the parse tree, generalised over what was held back before it
(`readsAs_yield`).

What one step does without its log is said once for each of the two places that a token can stand at
(`result_step_operand_expected`, `result_step_operator_expected`), and for lexemes in a row in `result_consume_append`.
-/

namespace IntegerCalculator

namespace Conversion

/-! ## What a release parts -/

/-- The operator on top of what is held back, if there is one, has a precedence below `least`. -/
def HoldsBelow (least : Nat) (pending : List Pending) : Prop :=
  ∀ op rest, pending = .operator op :: rest → op.precedence < least

theorem HoldsBelow.mono {k l : Nat} {pending : List Pending} (h : HoldsBelow k pending) (hkl : k ≤ l) :
    HoldsBelow l pending :=
  fun op rest hp => Nat.lt_of_lt_of_le (h op rest hp) hkl

theorem holdsBelow_nil (least : Nat) : HoldsBelow least [] := by
  intro op rest h
  cases h

theorem holdsBelow_paren (least : Nat) (pending : List Pending) : HoldsBelow least (.paren :: pending) := by
  intro op rest h
  cases h

theorem holdsBelow_operator {least : Nat} {op : Operator} (h : op.precedence < least) (pending : List Pending) :
    HoldsBelow least (.operator op :: pending) := by
  intro op' rest heq
  cases heq
  exact h

/-- No operator binds as tightly as a factor. -/
theorem holdsBelow_factor (pending : List Pending) : HoldsBelow Nonterminal.factor.level pending := by
  intro op rest _
  cases op <;> decide

/-- An operator releases the operators on top that bind at least as tightly, and what is kept has none such on top. -/
theorem releaseFor_eq_iff {op : Operator} {pending kept : List Pending} {released : List Item} :
    releaseFor op pending = (released, kept) ↔
      ∃ ops : List Operator, pending = ops.map .operator ++ kept ∧ released = ops.map .operator ∧
        (∀ o ∈ ops, op.precedence ≤ o.precedence) ∧ HoldsBelow op.precedence kept := by
  constructor
  · intro h
    induction pending generalizing released with
    | nil =>
      cases h
      exact ⟨[], rfl, rfl, by simp, holdsBelow_nil _⟩
    | cons p pending ih =>
      cases p with
      | paren =>
        cases h
        exact ⟨[], rfl, rfl, by simp, holdsBelow_paren _ _⟩
      | operator top =>
        rw [releaseFor] at h
        split at h
        · next hlt =>
          cases h
          exact ⟨[], rfl, rfl, by simp, holdsBelow_operator hlt _⟩
        · next hge =>
          cases h
          obtain ⟨ops, hp, hr, hops, hk⟩ := ih rfl
          refine ⟨top :: ops, ?_, ?_, ?_, hk⟩
          · exact congrArg (.operator top :: ·) hp
          · exact congrArg (.operator top :: ·) hr
          · exact List.forall_mem_cons.2 ⟨Nat.not_lt.1 hge, hops⟩
  · rintro ⟨ops, rfl, rfl, hops, hk⟩
    induction ops with
    | nil =>
      match kept with
      | [] => rfl
      | .paren :: _ => rfl
      | .operator top :: rest => simp [releaseFor, hk top rest rfl]
    | cons top ops ih =>
      have htop : ¬top.precedence < op.precedence := Nat.not_lt.2 (hops top (by simp))
      rw [List.map_cons, List.cons_append, releaseFor, if_neg htop, ih fun o ho => hops o (by simp [ho])]
      rfl

/-- A closing parenthesis releases the operators above the latest opening one, and keeps what is below it. -/
theorem releaseGroup_eq_some_iff {pending kept : List Pending} {released : List Item} :
    releaseGroup pending = some (released, kept) ↔
      ∃ ops : List Operator, pending = ops.map .operator ++ .paren :: kept ∧ released = ops.map .operator := by
  induction pending generalizing released with
  | nil => simp [releaseGroup]
  | cons p pending ih =>
    cases p with
    | paren =>
      constructor
      · intro h
        cases h
        exact ⟨[], rfl, rfl⟩
      · rintro ⟨ops, hp, rfl⟩
        cases ops with
        | nil =>
          cases hp
          rfl
        | cons op ops => cases hp
    | operator top =>
      rw [releaseGroup, Option.map_eq_some_iff]
      constructor
      · rintro ⟨⟨rel, kept'⟩, h, heq⟩
        cases heq
        obtain ⟨ops, rfl, rfl⟩ := ih.1 h
        exact ⟨top :: ops, rfl, rfl⟩
      · rintro ⟨ops, hp, rfl⟩
        cases ops with
        | nil => cases hp
        | cons op ops =>
          cases hp
          exact ⟨(ops.map .operator, kept), ih.2 ⟨ops, rfl, rfl⟩, rfl⟩

/-- The end of the input releases what is held back, which must be operators only. -/
theorem releaseAll_eq_some_iff {pending : List Pending} {released : List Item} :
    releaseAll pending = some released ↔
      ∃ ops : List Operator, pending = ops.map .operator ∧ released = ops.map .operator := by
  induction pending generalizing released with
  | nil => simp [releaseAll, eq_comm]
  | cons p pending ih =>
    cases p with
    | paren =>
      constructor
      · intro h
        cases h
      · rintro ⟨ops, hp, -⟩
        cases ops <;> cases hp
    | operator top =>
      rw [releaseAll, Option.map_eq_some_iff]
      constructor
      · rintro ⟨rel, h, rfl⟩
        obtain ⟨ops, rfl, rfl⟩ := ih.1 h
        exact ⟨top :: ops, rfl, rfl⟩
      · rintro ⟨ops, hp, rfl⟩
        cases ops with
        | nil => cases hp
        | cons op ops =>
          cases hp
          exact ⟨ops.map .operator, ih.2 ⟨ops, rfl, rfl⟩, rfl⟩

/-- A conversion ends where an operator is expected and no parenthesis is open. -/
theorem finish_eq_ok_iff {c : Conversion} {released : List Item} :
    c.finish = .ok released ↔ c.expectsOperand = false ∧ releaseAll c.pending = some released := by
  unfold finish
  cases c.expectsOperand with
  | true => simp
  | false => cases releaseAll c.pending <;> simp

/-! ## Reading terminals -/

/-- Reads one terminal: what is passed on, and the state after it; `none` at a place where it cannot stand. -/
def accept (c : Conversion) (t : Terminal) : Option (List Item × Conversion) :=
  match c.expectsOperand, t with
  | true, .value value => some ([.operand value], { c with expectsOperand := false })
  | true, .opening => some ([], { c with pending := .paren :: c.pending })
  | false, .operator op =>
    some ((releaseFor op c.pending).1, { pending := .operator op :: (releaseFor op c.pending).2, expectsOperand := true })
  | false, .closing =>
    (releaseGroup c.pending).map fun (released, kept) => (released, { pending := kept, expectsOperand := false })
  | _, _ => none

/-- Reads terminals one after the other. -/
def acceptAll : Conversion → List Terminal → Option (List Item × Conversion)
  | c, [] => some ([], c)
  | c, t :: ts => do
    let (passed, next) ← c.accept t
    let (rest, last) ← next.acceptAll ts
    return (passed ++ rest, last)

/-- To read terminals is to read the first and then the others. -/
theorem acceptAll_cons_eq_some_iff {c last : Conversion} {t : Terminal} {ts : List Terminal} {passed : List Item} :
    c.acceptAll (t :: ts) = some (passed, last) ↔
      ∃ first next rest, c.accept t = some (first, next) ∧ next.acceptAll ts = some (rest, last) ∧
        passed = first ++ rest := by
  simp only [acceptAll, Option.bind_eq_bind, Option.bind_eq_some_iff, Option.pure_def, Option.some.injEq, Prod.mk.injEq,
    Prod.exists]
  constructor
  · rintro ⟨first, next, hf, rest, last', hr, rfl, rfl⟩
    exact ⟨first, next, rest, hf, hr, rfl⟩
  · rintro ⟨first, next, rest, hf, hr, rfl⟩
    exact ⟨first, next, hf, rest, last, hr, rfl, rfl⟩

/-- To read a sequence is to read its first part and then its second part. -/
theorem acceptAll_append_eq_some_iff {c last : Conversion} {ts us : List Terminal} {passed : List Item} :
    c.acceptAll (ts ++ us) = some (passed, last) ↔
      ∃ first next rest, c.acceptAll ts = some (first, next) ∧ next.acceptAll us = some (rest, last) ∧
        passed = first ++ rest := by
  induction ts generalizing c passed with
  | nil =>
    constructor
    · intro h
      exact ⟨[], c, passed, rfl, h, rfl⟩
    · rintro ⟨first, next, rest, hf, hr, rfl⟩
      cases hf
      exact hr
  | cons t ts ih =>
    rw [List.cons_append, acceptAll_cons_eq_some_iff]
    constructor
    · rintro ⟨first, next, rest, hf, hr, rfl⟩
      obtain ⟨middle, next', rest', hm, hr', rfl⟩ := ih.1 hr
      have hpassed := acceptAll_cons_eq_some_iff.2 ⟨first, next, middle, hf, hm, rfl⟩
      exact ⟨first ++ middle, next', rest', hpassed, hr', by simp⟩
    · rintro ⟨passed', next, rest, hp, hr, rfl⟩
      obtain ⟨first, next', middle, hf, hm, rfl⟩ := acceptAll_cons_eq_some_iff.1 hp
      exact ⟨first, next', middle ++ rest, hf, ih.2 ⟨middle, next, rest, hm, hr, rfl⟩, by simp⟩

/-! ## Every parse tree is read -/

/-- The terminals are read as one operand with the listing `items`, wherever an operand is expected and what is held back
binds less tightly than `least`: the items passed on and then those held back make the listing, the ones held back have at
least the precedence `least`, and what was held back before stays so. -/
def ReadsAs (least : Nat) (ts : List Terminal) (items : Postfix) : Prop :=
  ∀ pending, HoldsBelow least pending → ∃ (passed : List Item) (ops : List Operator),
    (∀ op ∈ ops, least ≤ op.precedence) ∧
      acceptAll ⟨pending, true⟩ ts = some (passed, ⟨ops.map .operator ++ pending, false⟩) ∧
      passed ++ ops.map .operator = items

theorem ReadsAs.mono {k l : Nat} {ts : List Terminal} {items : Postfix} (h : ReadsAs l ts items) (hkl : k ≤ l) :
    ReadsAs k ts items := by
  intro pending hp
  obtain ⟨passed, ops, hops, hread⟩ := h pending (hp.mono hkl)
  exact ⟨passed, ops, fun op hop => Nat.le_trans hkl (hops op hop), hread⟩

theorem readsAs_value (least : Nat) (v : Int) : ReadsAs least [.value v] [.operand v] :=
  fun _ _ => ⟨[.operand v], [], by simp, rfl, rfl⟩

/-- In parentheses an operand stands anywhere: the closing one releases all that it held back. -/
theorem ReadsAs.group {k : Nat} {ts : List Terminal} {items : Postfix} (h : ReadsAs k ts items) (least : Nat) :
    ReadsAs least (.opening :: (ts ++ [.closing])) items := by
  intro pending _
  obtain ⟨passed, ops, -, hread, hlist⟩ := h _ (holdsBelow_paren k pending)
  have hclose : accept ⟨ops.map .operator ++ .paren :: pending, false⟩ .closing =
      some (ops.map .operator, ⟨pending, false⟩) := by
    simp only [accept]
    rw [releaseGroup_eq_some_iff.2 ⟨ops, rfl, rfl⟩]
    rfl
  refine ⟨passed ++ ops.map .operator, [], by simp, ?_, by simpa using hlist⟩
  refine acceptAll_cons_eq_some_iff.2 ⟨[], _, _, rfl, ?_, rfl⟩
  exact acceptAll_append_eq_some_iff.2
    ⟨_, _, _, hread, acceptAll_cons_eq_some_iff.2 ⟨_, _, [], hclose, rfl, by simp⟩, rfl⟩

/-- An operator releases all that its left operand held back, and is held back itself until the end of the right one. -/
theorem ReadsAs.operator {least : Nat} {op : Operator} {ts us : List Terminal} {items more : Postfix}
    (hop : op.precedence = least) (hl : ReadsAs least ts items) (hr : ReadsAs (least + 1) us more) :
    ReadsAs least (ts ++ .operator op :: us) (items ++ more ++ [.operator op]) := by
  subst hop
  intro pending hp
  obtain ⟨passed, ops, hops, hread, rfl⟩ := hl pending hp
  obtain ⟨passed', ops', hops', hread', rfl⟩ :=
    hr (.operator op :: pending) (holdsBelow_operator (Nat.lt_succ_self _) _)
  have hop : accept ⟨ops.map .operator ++ pending, false⟩ (.operator op) =
      some (ops.map .operator, ⟨.operator op :: pending, true⟩) := by
    simp only [accept]
    rw [releaseFor_eq_iff.2 ⟨ops, rfl, rfl, hops, hp⟩]
  refine ⟨passed ++ (ops.map .operator ++ passed'), ops' ++ [op], ?_, ?_, by simp⟩
  · intro o ho
    rcases List.mem_append.1 ho with ho | ho
    · exact Nat.le_of_succ_le (hops' o ho)
    · exact Nat.le_of_eq (congrArg _ (List.mem_singleton.1 ho).symm)
  · refine acceptAll_append_eq_some_iff.2 ⟨_, _, _, hread, acceptAll_cons_eq_some_iff.2 ⟨_, _, _, hop, ?_, rfl⟩, rfl⟩
    simpa using hread'

/-- Every parse tree is read as one operand whose listing is that of its expression. -/
theorem readsAs_yield {n : Nonterminal} (p : ParseTree n) : ReadsAs n.level p.yield p.toTree.postorder := by
  induction p with
  | value v => exact readsAs_value _ v
  | group e ih => exact ih.group _
  | ofFactor f ih => exact ih.mono (by decide)
  | ofProduct t ih => exact ih.mono (by decide)
  | sum e op hop t ihe iht => exact ReadsAs.operator hop.precedence_eq ihe iht
  | product t op hop f iht ihf => exact ReadsAs.operator hop.precedence_eq iht ihf

/-! ## What is read is a parse tree -/

/-- What is held back explains what has been read and passed on where an operand is expected: an opening parenthesis was read
last, or an operator after the parse tree of its left operand, below which less tightly binding operators are held back. -/
inductive Held : List Terminal → Postfix → List Pending → Prop where
  | start : Held [] [] []
  | group {read : List Terminal} {passed : Postfix} {pending : List Pending} (h : Held read passed pending) :
    Held (read ++ [.opening]) passed (.paren :: pending)
  | operator {read : List Terminal} {passed : Postfix} {pending : List Pending} (op : Operator) (l : ParseTree op.left)
    (h : Held read passed pending) (hop : HoldsBelow op.precedence pending) :
    Held (read ++ l.yield ++ [.operator op]) (passed ++ l.toTree.postorder) (.operator op :: pending)

/-- Operators on top that are released make, with their left operands, one parse tree of the operand read last. -/
theorem Held.collapse {ops : List Operator} {kept : List Pending} {read : List Terminal} {passed : Postfix}
    {n : Nonterminal} {least : Nat} (h : Held read passed (ops.map .operator ++ kept)) (r : ParseTree n)
    (hn : HoldsBelow n.level (ops.map .operator ++ kept)) (hleast : least ≤ n.level)
    (hops : ∀ op ∈ ops, least ≤ op.precedence) :
    ∃ (read' : List Terminal) (passed' : Postfix) (m : Nonterminal) (e : ParseTree m), Held read' passed' kept ∧
      least ≤ m.level ∧ read' ++ e.yield = read ++ r.yield ∧
      passed' ++ e.toTree.postorder = passed ++ r.toTree.postorder ++ ops.map .operator := by
  induction ops generalizing read passed n with
  | nil => exact ⟨read, passed, n, r, h, hleast, rfl, by simp⟩
  | cons op ops ih =>
    obtain ⟨r', hyield, htree⟩ := ParseTree.exists_of_level_le (m := op.right) r
      (by rw [Operator.level_right]; exact hn op _ rfl)
    cases h with
    | operator _ l h hop =>
      obtain ⟨read', passed', m, e, hheld, hm, hread, hpassed⟩ :=
        ih h (ParseTree.node op l r') (by rw [Operator.level_left]; exact hop)
          (by rw [Operator.level_left]; exact hops op (by simp)) (fun o ho => hops o (by simp [ho]))
      refine ⟨read', passed', m, e, hheld, hm, ?_, ?_⟩
      · rw [hread, ParseTree.yield_node, hyield]
        simp
      · rw [hpassed, ParseTree.toTree_node, htree, Tree.postorder]
        simp

/-- What a conversion has read and passed on: where an operator is expected, a factor was read last. -/
inductive Reading : List Terminal → Postfix → Conversion → Prop where
  | awaiting {read : List Terminal} {passed : Postfix} {pending : List Pending} (h : Held read passed pending) :
    Reading read passed ⟨pending, true⟩
  | after {read : List Terminal} {passed : Postfix} {pending : List Pending} (h : Held read passed pending)
    (f : ParseTree .factor) : Reading (read ++ f.yield) (passed ++ f.toTree.postorder) ⟨pending, false⟩

/-- Reading a terminal keeps what is held back an explanation of what has been read and passed on. -/
theorem Reading.accept {read : List Terminal} {passed out : Postfix} {c next : Conversion} {t : Terminal}
    (h : Reading read passed c) (hc : c.accept t = some (out, next)) : Reading (read ++ [t]) (passed ++ out) next := by
  cases h with
  | @awaiting _ _ pending h =>
    cases t with
    | value v =>
      cases hc
      exact .after h (.value v)
    | opening =>
      cases hc
      rw [List.append_nil]
      exact .awaiting (.group h)
    | operator op => cases hc
    | closing => cases hc
  | @after read passed pending h f =>
    cases t with
    | value v => cases hc
    | opening => cases hc
    | operator op =>
      cases hc
      obtain ⟨ops, hp, hreleased, hops, hkept⟩ := releaseFor_eq_iff.1 (rfl : releaseFor op pending = (_, _))
      rw [hp] at h
      obtain ⟨read', passed', m, e, hheld, hm, hread, hpassed⟩ :=
        h.collapse f (holdsBelow_factor _) (by cases op <;> decide) hops
      obtain ⟨l, hyield, htree⟩ := ParseTree.exists_of_level_le (m := op.left) e
        (by rw [Operator.level_left]; exact hm)
      rw [← hyield] at hread
      rw [← htree] at hpassed
      rw [hreleased, ← hread, ← hpassed]
      exact .awaiting (.operator op l hheld hkept)
    | closing =>
      simp only [Conversion.accept, Option.map_eq_some_iff, Prod.exists, Prod.mk.injEq] at hc
      obtain ⟨released, kept, hrelease, rfl, rfl⟩ := hc
      obtain ⟨ops, rfl, rfl⟩ := releaseGroup_eq_some_iff.1 hrelease
      obtain ⟨read', passed', m, e, hheld, -, hread, hpassed⟩ :=
        h.collapse f (holdsBelow_factor _) (Nat.zero_le _) (by simp)
      obtain ⟨e', hyield, htree⟩ := e.exists_sum
      rw [← hyield] at hread
      rw [← htree] at hpassed
      rw [← hread, ← hpassed]
      cases hheld with
      | @group read'' _ _ hheld =>
        have hgroup : read'' ++ (ParseTree.group e').yield = read'' ++ [.opening] ++ e'.yield ++ [.closing] := by
          simp [ParseTree.yield]
        rw [← hgroup]
        exact .after hheld (.group e')

/-- Reading terminals keeps what is held back an explanation of what has been read and passed on. -/
theorem Reading.acceptAll {read ts : List Terminal} {passed out : Postfix} {c last : Conversion}
    (h : Reading read passed c) (hc : c.acceptAll ts = some (out, last)) :
    Reading (read ++ ts) (passed ++ out) last := by
  induction ts generalizing read passed out c with
  | nil =>
    cases hc
    simpa using h
  | cons t ts ih =>
    obtain ⟨first, next, rest, hf, hr, rfl⟩ := acceptAll_cons_eq_some_iff.1 hc
    have hlast := ih (h.accept hf) hr
    simpa using hlast

/-- What has been read up to a legal end is a sum, and what has been passed on, with what the end releases, is its listing. -/
theorem Reading.finish {read : List Terminal} {passed released : Postfix} {c : Conversion} (h : Reading read passed c)
    (hc : c.finish = .ok released) :
    ∃ e : ParseTree .sum, e.yield = read ∧ e.toTree.postorder = passed ++ released := by
  cases h with
  | awaiting h => cases hc
  | @after read passed pending h f =>
    obtain ⟨-, hrelease⟩ := finish_eq_ok_iff.1 hc
    obtain ⟨ops, rfl, rfl⟩ := releaseAll_eq_some_iff.1 hrelease
    rw [← List.append_nil (ops.map Pending.operator)] at h
    obtain ⟨read', passed', m, e, hheld, -, hread, hpassed⟩ :=
      h.collapse f (holdsBelow_factor _) (Nat.zero_le _) (by simp)
    obtain ⟨e', hyield, htree⟩ := e.exists_sum
    cases hheld
    exact ⟨e', by rw [hyield]; exact hread, by rw [htree]; exact hpassed⟩

/-! ## Tokens -/

/-- Where an operand is expected, a value is passed on, a parenthesis is held back, and everything else is an error. -/
theorem result_step_operand_expected (table : Variables) (pending : List Pending) (token : Token) :
    (step table ⟨pending, true⟩ token).result =
      match token with
      | .identifier name => (table.resolve name).map fun v => ([.operand v], ⟨pending, false⟩)
      | .literal v _ => .ok ([.operand v], ⟨pending, false⟩)
      | .openParen => .ok ([], ⟨.paren :: pending, true⟩)
      | .run _ | .closeParen => .error .invalidExpression := by
  unfold step
  rw [Calculation.result_bind_of_ok (Calculation.result_write _)]
  dsimp only
  rw [if_pos rfl]
  cases token with
  | identifier name =>
    dsimp only
    rw [Calculation.result_bind, Calculation.result_ofExcept]
    cases table.resolve name with
    | error e => rfl
    | ok v => rfl
  | literal v sign => rfl
  | run text => rfl
  | openParen => rfl
  | closeParen => rfl

/-- Where an operator is expected, an operator is held back, the sign of a literal being one, a closing parenthesis ends the
latest group, and everything else is an error. -/
theorem result_step_operator_expected (table : Variables) (pending : List Pending) (token : Token) :
    (step table ⟨pending, false⟩ token).result =
      match token with
      | .run text => (Operator.ofRun text).map fun op =>
          ((releaseFor op pending).1, ⟨.operator op :: (releaseFor op pending).2, true⟩)
      | .closeParen =>
        match releaseGroup pending with
        | some (released, kept) => .ok (released, ⟨kept, false⟩)
        | none => .error .invalidExpression
      | .literal v (some sign) =>
        .ok ((releaseFor sign pending).1 ++ [.operand v.natAbs], ⟨.operator sign :: (releaseFor sign pending).2, false⟩)
      | .identifier _ | .literal _ none | .openParen => .error .invalidExpression := by
  unfold step
  rw [Calculation.result_bind_of_ok (Calculation.result_write _)]
  dsimp only
  rw [if_neg Bool.false_ne_true]
  cases token with
  | identifier name => rfl
  | literal v sign => cases sign <;> rfl
  | run text =>
    dsimp only
    rw [Calculation.result_bind, Calculation.result_ofExcept]
    cases Operator.ofRun text with
    | error e => rfl
    | ok op => rfl
  | openParen => rfl
  | closeParen =>
    dsimp only
    cases releaseGroup pending with
    | none => rfl
    | some parts => rfl

/-- Where an operand is expected, a token is converted as its terminal is read. -/
theorem result_step_expecting {table : Variables} {pending : List Pending} {token : Token} {out : List Item}
    {next : Conversion} :
    (step table ⟨pending, true⟩ token).result = .ok (out, next) ↔
      ∃ ts, token.terminals table false = some ts ∧ acceptAll ⟨pending, true⟩ ts = some (out, next) := by
  rw [result_step_operand_expected]
  cases token with
  | identifier name =>
    cases h : table.lookup name <;> simp [Token.terminals, Variables.resolve, h, acceptAll, accept, Except.map]
  | literal v sign => cases sign <;> simp [Token.terminals, acceptAll, accept]
  | run text => simp [Token.terminals, acceptAll, accept]
  | openParen => simp [Token.terminals, acceptAll, accept]
  | closeParen => simp [Token.terminals, acceptAll, accept]

/-- Where an operator is expected, a token is converted as its terminals are read, a signed literal as two. -/
theorem result_step_after {table : Variables} {pending : List Pending} {token : Token} {out : List Item}
    {next : Conversion} :
    (step table ⟨pending, false⟩ token).result = .ok (out, next) ↔
      ∃ ts, token.terminals table true = some ts ∧ acceptAll ⟨pending, false⟩ ts = some (out, next) := by
  rw [result_step_operator_expected]
  cases token with
  | identifier name => cases h : table.lookup name <;> simp [Token.terminals, h, acceptAll, accept]
  | literal v sign => cases sign <;> simp [Token.terminals, acceptAll, accept]
  | run text =>
    cases h : Operator.ofRun? text <;> simp [Token.terminals, h, Operator.ofRun, acceptAll, accept, Except.map]
  | openParen => simp [Token.terminals, acceptAll, accept]
  | closeParen => cases h : releaseGroup pending <;> simp [Token.terminals, h, acceptAll, accept]

/-- A token is converted as the terminals are read that it stands for at its place. -/
theorem result_step_eq_ok_iff {table : Variables} {c next : Conversion} {token : Token} {out : List Item} :
    (c.step table token).result = .ok (out, next) ↔
      ∃ ts, token.terminals table (!c.expectsOperand) = some ts ∧ c.acceptAll ts = some (out, next) := by
  obtain ⟨pending, expects⟩ := c
  cases expects with
  | true => exact result_step_expecting
  | false => exact result_step_after

/-- After a value or a closing parenthesis an operator is expected, and an operand after the other terminals. -/
theorem expectsOperand_of_accept {c next : Conversion} {t : Terminal} {out : List Item}
    (h : c.accept t = some (out, next)) : next.expectsOperand = !t.endsOperand := by
  obtain ⟨pending, expects⟩ := c
  cases expects with
  | true => cases t <;> cases h <;> rfl
  | false =>
    cases t with
    | value v => cases h
    | operator op => cases h; rfl
    | opening => cases h
    | closing =>
      obtain ⟨⟨released, kept⟩, -, heq⟩ := Option.map_eq_some_iff.1 h
      cases heq
      rfl

/-- After a token that ends an operand an operator is expected, and an operand after the other tokens. -/
theorem expectsOperand_of_step {table : Variables} {c next : Conversion} {token : Token} {out : List Item}
    (h : (c.step table token).result = .ok (out, next)) : next.expectsOperand = !token.endsOperand := by
  obtain ⟨ts, hts, hread⟩ := result_step_eq_ok_iff.1 h
  obtain ⟨first, last, rfl, hlast⟩ := Token.exists_terminals_eq_append hts
  obtain ⟨_, middle, _, -, hread, -⟩ := acceptAll_append_eq_some_iff.1 hread
  obtain ⟨_, next', _, haccept, hnil, -⟩ := acceptAll_cons_eq_some_iff.1 hread
  cases hnil
  rw [expectsOperand_of_accept haccept, hlast]

/-! ## Lexemes -/

/-- To convert a lexeme and then others is to convert the token that it is, unless it is an error, and then the others. -/
theorem result_consume_cons (table : Variables) (c : Conversion) (lexeme : Lexeme) (lexemes : List Lexeme) :
    (c.consume table (lexeme :: lexemes)).result =
      lexeme >>= fun token => (c.step table token).result >>= fun first =>
        (fun rest => (first.1 ++ rest.1, rest.2)) <$> (first.2.consume table lexemes).result := by
  rw [consume, Calculation.result_bind, Calculation.result_ofExcept]
  cases lexeme with
  | error e => rfl
  | ok token =>
    rw [Calculation.ok_bind, Calculation.ok_bind, Calculation.result_bind]
    cases (c.step table token).result with
    | error e => rfl
    | ok first =>
      rw [Calculation.ok_bind, Calculation.ok_bind, Calculation.result_bind]
      cases (first.2.consume table lexemes).result with
      | error e => rfl
      | ok rest => rfl

/-- To convert lexemes in two parts is to convert the first part and go on with the second in the state that it leaves. -/
theorem result_consume_append (table : Variables) (c : Conversion) (xs ys : List Lexeme) :
    (c.consume table (xs ++ ys)).result =
      (c.consume table xs).result >>= fun first =>
        (fun rest => (first.1 ++ rest.1, rest.2)) <$> (first.2.consume table ys).result := by
  induction xs generalizing c with
  | nil =>
    rw [List.nil_append, consume, Calculation.result_pure, Calculation.ok_bind]
    cases (c.consume table ys).result with
    | error e => rfl
    | ok rest => rfl
  | cons x xs ih =>
    rw [List.cons_append, result_consume_cons, result_consume_cons]
    cases x with
    | error e => rfl
    | ok token =>
      rw [Calculation.ok_bind, Calculation.ok_bind]
      cases (c.step table token).result with
      | error e => rfl
      | ok first =>
        rw [Calculation.ok_bind, Calculation.ok_bind, ih]
        cases (first.2.consume table xs).result with
        | error e => rfl
        | ok middle =>
          cases hrest : (middle.2.consume table ys).result with
          | error e => simp [hrest]
          | ok rest => simp [hrest]

/-- Lexemes in a row are converted when the first ones are and then the rest. -/
theorem result_consume_append_eq_ok_iff {table : Variables} {c last : Conversion} {xs ys : List Lexeme} {out : List Item} :
    (c.consume table (xs ++ ys)).result = .ok (out, last) ↔
      ∃ first next rest, (c.consume table xs).result = .ok (first, next) ∧
        (next.consume table ys).result = .ok (rest, last) ∧ out = first ++ rest := by
  rw [result_consume_append]
  constructor
  · intro h
    cases hfirst : (c.consume table xs).result with
    | error e =>
      rw [hfirst] at h
      cases h
    | ok middle =>
      obtain ⟨first, next⟩ := middle
      rw [hfirst, Calculation.ok_bind] at h
      cases hrest : (next.consume table ys).result with
      | error e =>
        rw [hrest] at h
        cases h
      | ok all =>
        rw [hrest] at h
        cases h
        exact ⟨first, next, all.1, rfl, hrest, rfl⟩
  · rintro ⟨first, next, rest, hfirst, hrest, rfl⟩
    rw [hfirst, Calculation.ok_bind, hrest]
    rfl

/-- To convert lexemes is to convert the first, which is a token, and then the others. -/
theorem result_consume_cons_eq_ok_iff {table : Variables} {c last : Conversion} {lexeme : Lexeme} {lexemes : List Lexeme}
    {out : List Item} :
    (c.consume table (lexeme :: lexemes)).result = .ok (out, last) ↔
      ∃ token first next rest, lexeme = .ok token ∧ (c.step table token).result = .ok (first, next) ∧
        (next.consume table lexemes).result = .ok (rest, last) ∧ out = first ++ rest := by
  cases lexeme with
  | error e => simp [consume, Calculation.result_bind]
  | ok token =>
    rw [consume, Calculation.result_bind_of_ok (Calculation.result_ofExcept _), Calculation.result_bind_eq_ok_iff]
    constructor
    · rintro ⟨⟨first, next⟩, hs, h⟩
      obtain ⟨⟨rest, last'⟩, hc, heq⟩ := Calculation.result_bind_eq_ok_iff.1 h
      cases heq
      exact ⟨token, first, next, rest, rfl, hs, hc, rfl⟩
    · rintro ⟨_, first, next, rest, heq, hs, hc, rfl⟩
      cases heq
      exact ⟨(first, next), hs, Calculation.result_bind_eq_ok_iff.2 ⟨(rest, last), hc, rfl⟩⟩

/-- Lexemes that are converted are tokens. -/
theorem exists_tokens_of_consume {table : Variables} {c last : Conversion} {lexemes : List Lexeme} {out : List Item}
    (h : (c.consume table lexemes).result = .ok (out, last)) : ∃ tokens : List Token, lexemes = tokens.map .ok := by
  induction lexemes generalizing c out with
  | nil => exact ⟨[], rfl⟩
  | cons lexeme lexemes ih =>
    obtain ⟨token, first, next, rest, rfl, -, hc, -⟩ := result_consume_cons_eq_ok_iff.1 h
    obtain ⟨tokens, rfl⟩ := ih hc
    exact ⟨token :: tokens, rfl⟩

/-- A sequence of tokens is converted as the terminals are read that it stands for. -/
theorem result_consume_eq_ok_iff {table : Variables} {c last : Conversion} {tokens : List Token} {out : List Item} :
    (c.consume table (tokens.map .ok)).result = .ok (out, last) ↔
      ∃ ts, Token.listTerminals table (!c.expectsOperand) tokens = some ts ∧ c.acceptAll ts = some (out, last) := by
  induction tokens generalizing c out with
  | nil => simp [consume, Token.listTerminals, acceptAll]
  | cons token tokens ih =>
    rw [List.map_cons, result_consume_cons_eq_ok_iff]
    constructor
    · rintro ⟨_, first, next, rest, heq, hs, hc, rfl⟩
      cases heq
      obtain ⟨ts, htoken, hread⟩ := result_step_eq_ok_iff.1 hs
      obtain ⟨us, hus, hread'⟩ := ih.1 hc
      rw [expectsOperand_of_step hs, Bool.not_not] at hus
      exact ⟨ts ++ us, Token.listTerminals_cons_eq_some_iff.2 ⟨ts, us, htoken, hus, rfl⟩,
        acceptAll_append_eq_some_iff.2 ⟨first, next, rest, hread, hread', rfl⟩⟩
    · rintro ⟨_, hts, hboth⟩
      obtain ⟨ts, us, htoken, hus, rfl⟩ := Token.listTerminals_cons_eq_some_iff.1 hts
      obtain ⟨first, next, rest, hread, hread', rfl⟩ := acceptAll_append_eq_some_iff.1 hboth
      have hs := result_step_eq_ok_iff.2 ⟨ts, htoken, hread⟩
      refine ⟨token, first, next, rest, rfl, hs, ih.2 ⟨us, ?_, hread'⟩, rfl⟩
      rw [expectsOperand_of_step hs, Bool.not_not]
      exact hus

end Conversion

/-! ## Whole sequences -/

namespace Postfix

/-- The postfix form of lexemes is what they pass on and then what the end of the input does. -/
theorem result_ofLexemes (table : Variables) (lexemes : List Lexeme) :
    (ofLexemes table lexemes).result =
      (Conversion.start.consume table lexemes).result >>= fun all => (all.1 ++ ·) <$> all.2.finish := by
  rw [ofLexemes, Calculation.result_bind]
  cases (Conversion.start.consume table lexemes).result with
  | error e => rfl
  | ok all =>
    rw [Calculation.ok_bind, Calculation.ok_bind, Calculation.result_bind, Calculation.result_ofExcept]
    cases all.2.finish with
    | error e => rfl
    | ok released => rfl

/-- Lexemes have a postfix form when they are converted and the conversion may end. -/
theorem result_ofLexemes_eq_ok_iff {table : Variables} {lexemes : List Lexeme} {items : Postfix} :
    (ofLexemes table lexemes).result = .ok items ↔
      ∃ passed last released, (Conversion.start.consume table lexemes).result = .ok (passed, last) ∧
        last.finish = .ok released ∧ items = passed ++ released := by
  rw [ofLexemes, Calculation.result_bind_eq_ok_iff]
  constructor
  · rintro ⟨⟨passed, last⟩, hc, h⟩
    obtain ⟨released, hr, heq⟩ := Calculation.result_bind_eq_ok_iff.1 h
    cases heq
    exact ⟨passed, last, released, hc, hr, rfl⟩
  · rintro ⟨passed, last, released, hc, hr, rfl⟩
    exact ⟨(passed, last), hc, Calculation.result_bind_eq_ok_iff.2 ⟨released, hr, rfl⟩⟩

/-- Lexemes that have a postfix form are all tokens. -/
theorem exists_tokens_of_ofLexemes {table : Variables} {lexemes : List Lexeme} {items : Postfix}
    (h : (ofLexemes table lexemes).result = .ok items) : ∃ tokens : List Token, lexemes = tokens.map .ok := by
  obtain ⟨passed, last, released, hconsume, -, -⟩ := result_ofLexemes_eq_ok_iff.1 h
  exact Conversion.exists_tokens_of_consume hconsume

/-- The postfix form of tokens is the listing of the sum that their terminals make. -/
theorem exists_sum_of_ofLexemes {table : Variables} {tokens : List Token} {items : Postfix}
    (h : (ofLexemes table (tokens.map .ok)).result = .ok items) :
    ∃ e : ParseTree .sum, Token.listTerminals table false tokens = some e.yield ∧ items = e.toTree.postorder := by
  obtain ⟨passed, last, released, hc, hr, rfl⟩ := result_ofLexemes_eq_ok_iff.1 h
  obtain ⟨ts, hts, hread⟩ := Conversion.result_consume_eq_ok_iff.1 hc
  obtain ⟨e, hyield, htree⟩ := ((Conversion.Reading.awaiting .start).acceptAll hread).finish hr
  refine ⟨e, ?_, htree.symm⟩
  rw [hyield]
  exact hts

/-- Tokens whose terminals make a sum have the listing of it as their postfix form. -/
theorem result_ofLexemes_of_yield {table : Variables} {tokens : List Token} {e : ParseTree .sum}
    (h : Token.listTerminals table false tokens = some e.yield) :
    (ofLexemes table (tokens.map .ok)).result = .ok e.toTree.postorder := by
  obtain ⟨passed, ops, -, hread, hlist⟩ := Conversion.readsAs_yield e [] (Conversion.holdsBelow_nil _)
  refine result_ofLexemes_eq_ok_iff.2 ⟨passed, _, ops.map .operator,
    Conversion.result_consume_eq_ok_iff.2 ⟨e.yield, h, hread⟩, ?_, hlist.symm⟩
  exact Conversion.finish_eq_ok_iff.2 ⟨rfl, Conversion.releaseAll_eq_some_iff.2 ⟨ops, by simp, rfl⟩⟩

/-- Tokens are converted exactly when each of them stands for something and the terminals they stand for are a sentence of
the grammar. The parse tree is then the only one, and the postfix form is the listing of its expression. -/
theorem result_ofLexemes_tokens_eq_ok_iff (table : Variables) (tokens : List Token) (items : Postfix) :
    (ofLexemes table (tokens.map .ok)).result = .ok items ↔
      (∀ token ∈ tokens, token.Resolves table) ∧
        ∃ e : ParseTree .sum, Token.listTerminals table false tokens = some e.yield ∧ items = e.toTree.postorder ∧
          ∀ e' : ParseTree .sum, Token.listTerminals table false tokens = some e'.yield → e' = e := by
  constructor
  · intro h
    obtain ⟨e, hyield, htree⟩ := exists_sum_of_ofLexemes h
    refine ⟨(Token.exists_listTerminals_iff false).1 ⟨_, hyield⟩, e, hyield, htree, ?_⟩
    intro e' hyield'
    exact ParseTree.yield_injective (Option.some.inj (hyield'.symm.trans hyield))
  · rintro ⟨-, e, hyield, rfl, -⟩
    exact result_ofLexemes_of_yield hyield

end Postfix

end IntegerCalculator
