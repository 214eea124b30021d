import IntegerCalculator.Proofs.Grammar

/-!
# Runs of operator characters

A run stands for an operator in two cases only: it is `*` or `/` alone, or it is one or more signs, and then the parity of its
minus signs decides (`Operator.ofRun?_eq_some_iff`). So the order of the characters does not matter
(`Operator.ofRun?_eq_of_perm`), and signs side by side multiply like the units that they stand for
(`Operator.exists_ofRun?_append`).

One sign after the other is read in `Operator.signAfter`, so the statements about it are inductions on the run, for both signs
that may have been read before.
-/

namespace IntegerCalculator

namespace Operator

/-- The text is one or more signs. -/
def IsSignRun (run : List Char) : Prop := run ≠ [] ∧ ∀ c ∈ run, c = '+' ∨ c = '-'

instance (run : List Char) : Decidable (IsSignRun run) :=
  decidable_of_iff ((!run.isEmpty && run.all fun c => c == '+' || c == '-') = true) (by simp [IsSignRun])

/-- What an operator makes of zero and one. For an additive operator this is the unit that its sign stands for, and it is zero
for the others. -/
def unit (op : Operator) : Int := op.exact 0 1

/-! ## Runs of signs -/

/-- The sign that is left of a run of signs. -/
theorem signAfter_of_signs {run : List Char} (h : ∀ c ∈ run, c = '+' ∨ c = '-') :
    signAfter add run = some (if run.count '-' % 2 = 0 then add else subtract) ∧
      signAfter subtract run = some (if run.count '-' % 2 = 0 then subtract else add) := by
  induction run with
  | nil => exact ⟨rfl, rfl⟩
  | cons c run ih =>
    obtain ⟨hadd, hsub⟩ := ih fun d hd => h d (by simp [hd])
    rcases h c (by simp) with rfl | rfl
    · have hcount : ('+' :: run).count '-' = run.count '-' := List.count_cons_of_ne (by decide)
      rw [hcount]
      exact ⟨hadd, hsub⟩
    · have hcount : ('-' :: run).count '-' = run.count '-' + 1 := List.count_cons_self
      rw [hcount]
      rcases Nat.mod_two_eq_zero_or_one (run.count '-') with hpar | hpar
      · have hnext : (run.count '-' + 1) % 2 = 1 := by omega
        rw [hpar] at hadd hsub
        rw [hnext]
        exact ⟨hsub, hadd⟩
      · have hnext : (run.count '-' + 1) % 2 = 0 := by omega
        rw [hpar] at hadd hsub
        rw [hnext]
        exact ⟨hsub, hadd⟩

/-- Only a run of signs leaves a sign. -/
theorem signs_of_signAfter {sign op : Operator} {run : List Char} (h : signAfter sign run = some op) :
    ∀ c ∈ run, c = '+' ∨ c = '-' := by
  induction run generalizing sign with
  | nil => simp
  | cons c run ih =>
    unfold signAfter at h
    split at h
    · next heq => cases heq
    · next heq =>
      cases heq
      exact List.forall_mem_cons.2 ⟨.inl rfl, ih h⟩
    · next heq =>
      cases heq
      exact List.forall_mem_cons.2 ⟨.inr rfl, ih h⟩
    · cases h

/-- A run of signs stands for the sign that is left of it. -/
theorem ofRun?_of_signs {run : List Char} (hne : run ≠ []) (h : ∀ c ∈ run, c = '+' ∨ c = '-') :
    ofRun? run = some (if run.count '-' % 2 = 0 then add else subtract) := by
  rw [← (signAfter_of_signs h).1]
  cases run with
  | nil => exact absurd rfl hne
  | cons c run =>
    rcases h c (by simp) with rfl | rfl
    · rfl
    · rfl

/-! ## Runs of any characters -/

/-- A run that stands for an operator is `*` or `/` alone, or a run of signs. -/
theorem ofRun?_cases {run : List Char} {op : Operator} (h : ofRun? run = some op) :
    (run = ['*'] ∧ op = multiply) ∨ (run = ['/'] ∧ op = divide) ∨ IsSignRun run := by
  unfold ofRun? at h
  split at h
  · cases h
    exact .inl ⟨rfl, rfl⟩
  · cases h
    exact .inr (.inl ⟨rfl, rfl⟩)
  · exact .inr (.inr ⟨List.cons_ne_nil _ _, List.forall_mem_cons.2 ⟨.inl rfl, signs_of_signAfter h⟩⟩)
  · exact .inr (.inr ⟨List.cons_ne_nil _ _, List.forall_mem_cons.2 ⟨.inr rfl, signs_of_signAfter h⟩⟩)
  · cases h

/-- The runs that stand for an operator, and the operators that they stand for. -/
theorem ofRun?_eq_some_iff {run : List Char} {op : Operator} :
    ofRun? run = some op ↔ (run = ['*'] ∧ op = multiply) ∨ (run = ['/'] ∧ op = divide) ∨
      (IsSignRun run ∧ op = if run.count '-' % 2 = 0 then add else subtract) := by
  constructor
  · intro h
    rcases ofRun?_cases h with hmultiply | hdivide | hsigns
    · exact .inl hmultiply
    · exact .inr (.inl hdivide)
    · rw [ofRun?_of_signs hsigns.1 hsigns.2, Option.some.injEq] at h
      exact .inr (.inr ⟨hsigns, h.symm⟩)
  · rintro (⟨rfl, rfl⟩ | ⟨rfl, rfl⟩ | ⟨hsigns, rfl⟩)
    · rfl
    · rfl
    · exact ofRun?_of_signs hsigns.1 hsigns.2

theorem IsSignRun.of_perm {run other : List Char} (h : IsSignRun run) (hperm : run.Perm other) : IsSignRun other :=
  ⟨fun hnil => h.1 (List.perm_nil.1 (hnil ▸ hperm)), fun c hc => h.2 c (hperm.mem_iff.2 hc)⟩

/-- The order of the characters of a run does not matter. -/
theorem ofRun?_eq_of_perm {run other : List Char} (h : run.Perm other) : ofRun? run = ofRun? other := by
  have hto : ∀ {r s : List Char} {op : Operator}, r.Perm s → ofRun? r = some op → ofRun? s = some op := by
    intro r s op hperm hr
    rcases ofRun?_eq_some_iff.1 hr with ⟨rfl, rfl⟩ | ⟨rfl, rfl⟩ | ⟨hsigns, rfl⟩
    · rw [← List.singleton_perm.1 hperm]
      rfl
    · rw [← List.singleton_perm.1 hperm]
      rfl
    · rw [hperm.count_eq]
      exact ofRun?_of_signs (hsigns.of_perm hperm).1 (hsigns.of_perm hperm).2
  exact Option.ext fun op => ⟨hto h, hto h.symm⟩

theorem IsSignRun.append {run other : List Char} (h : IsSignRun run) (h' : IsSignRun other) : IsSignRun (run ++ other) :=
  ⟨List.append_ne_nil_of_left_ne_nil h.1 other, List.forall_mem_append.2 ⟨h.2, h'.2⟩⟩

/-- Two runs of signs side by side stand for the product of the signs that they stand for. -/
theorem exists_ofRun?_append {run other : List Char} (h : IsSignRun run) (h' : IsSignRun other) :
    ∃ o p q, ofRun? run = some o ∧ ofRun? other = some p ∧ ofRun? (run ++ other) = some q ∧ q.unit = o.unit * p.unit := by
  have hboth := h.append h'
  refine ⟨_, _, _, ofRun?_of_signs h.1 h.2, ofRun?_of_signs h'.1 h'.2, ofRun?_of_signs hboth.1 hboth.2, ?_⟩
  rw [List.count_append, Nat.add_mod]
  rcases Nat.mod_two_eq_zero_or_one (run.count '-') with hrun | hrun
  · rcases Nat.mod_two_eq_zero_or_one (other.count '-') with hother | hother
    · rw [hrun, hother]
      rfl
    · rw [hrun, hother]
      rfl
  · rcases Nat.mod_two_eq_zero_or_one (other.count '-') with hother | hother
    · rw [hrun, hother]
      rfl
    · rw [hrun, hother]
      rfl

/-! ## Runs that stand for no operator -/

/-- A run that stands for no operator is an invalid expression, and nothing else can be wrong with a run. -/
theorem ofRun_eq_error_iff {run : List Char} {e : Error} :
    ofRun run = .error e ↔ ofRun? run = none ∧ e = .invalidExpression := by
  unfold ofRun
  split
  · next h => simp [h]
  · next h => simp [h, eq_comm]

/-- The runs that stand for no operator. -/
theorem ofRun?_eq_none_iff {run : List Char} : ofRun? run = none ↔ run ≠ ['*'] ∧ run ≠ ['/'] ∧ ¬IsSignRun run := by
  constructor
  · intro hnone
    refine ⟨?_, ?_, ?_⟩
    · rintro rfl
      cases hnone
    · rintro rfl
      cases hnone
    · intro hsigns
      rw [ofRun?_of_signs hsigns.1 hsigns.2] at hnone
      cases hnone
  · rintro ⟨hstar, hslash, hsigns⟩
    rw [Option.eq_none_iff_forall_ne_some]
    intro op hop
    rcases ofRun?_cases hop with ⟨h, -⟩ | ⟨h, -⟩ | h
    · exact hstar h
    · exact hslash h
    · exact hsigns h

/-- A star or a slash beside another character stands for no operator. -/
theorem ofRun?_eq_none_of_mem {run : List Char} (h : '*' ∈ run ∨ '/' ∈ run) (hlength : 2 ≤ run.length) : ofRun? run = none := by
  refine ofRun?_eq_none_iff.2 ⟨?_, ?_, ?_⟩
  · rintro rfl
    exact absurd hlength (by decide)
  · rintro rfl
    exact absurd hlength (by decide)
  · rintro ⟨-, hsigns⟩
    rcases h with hmem | hmem
    · exact absurd (hsigns _ hmem) (by decide)
    · exact absurd (hsigns _ hmem) (by decide)

/-- A run stands for an operator when it is a star, a slash, or one or more signs. A star is a multiplication, a slash a division,
and signs are a subtraction if the number of minus signs is odd and an addition if it is even; every other run is an invalid
expression. So signs side by side stand for the product of the signs, the order of the characters does not matter, and a star or
a slash beside another character is an invalid expression. -/
theorem ofRun_by_parity (run : List Char) :
    (∀ op, ofRun run = .ok op ↔ (run = ['*'] ∧ op = multiply) ∨ (run = ['/'] ∧ op = divide) ∨
        (IsSignRun run ∧ op = if run.count '-' % 2 = 0 then add else subtract)) ∧
      (ofRun run = .error .invalidExpression ↔ run ≠ ['*'] ∧ run ≠ ['/'] ∧ ¬IsSignRun run) ∧
      (∀ other, IsSignRun run → IsSignRun other → ∃ o p q, ofRun run = .ok o ∧ ofRun other = .ok p ∧
        ofRun (run ++ other) = .ok q ∧ q.unit = o.unit * p.unit) ∧
      (∀ other, run.Perm other → ofRun other = ofRun run) ∧
      ('*' ∈ run ∨ '/' ∈ run → 2 ≤ run.length → ofRun run = .error .invalidExpression) := by
  refine ⟨fun op => Token.ofRun_eq_ok_iff.trans ofRun?_eq_some_iff, ?_, ?_, ?_, ?_⟩
  · rw [ofRun_eq_error_iff, and_iff_left rfl]
    exact ofRun?_eq_none_iff
  · intro other h h'
    obtain ⟨o, p, q, ho, hp, hq, hunit⟩ := exists_ofRun?_append h h'
    exact ⟨o, p, q, Token.ofRun_eq_ok_iff.2 ho, Token.ofRun_eq_ok_iff.2 hp, Token.ofRun_eq_ok_iff.2 hq, hunit⟩
  · intro other hperm
    rw [ofRun, ofRun, ofRun?_eq_of_perm hperm]
  · intro hmem hlength
    exact ofRun_eq_error_iff.2 ⟨ofRun?_eq_none_of_mem hmem hlength, rfl⟩

/-- Three signs with two minus signs, alone, in another order and before one more minus sign, and a star after two signs. -/
theorem ofRun_by_parity_of_signs_and_star :
    (IsSignRun "-+-".toList ∧ IsSignRun ['-'] ∧ ofRun "-+-".toList = .ok add ∧
        ∃ o p q, ofRun "-+-".toList = .ok o ∧ ofRun ['-'] = .ok p ∧ ofRun ("-+-".toList ++ ['-']) = .ok q ∧
          q.unit = o.unit * p.unit) ∧
      ("-+-".toList.Perm "--+".toList ∧ ofRun "--+".toList = ofRun "-+-".toList) ∧
      ('*' ∈ "--*".toList ∧ 2 ≤ "--*".toList.length ∧ ofRun "--*".toList = .error .invalidExpression) := by
  obtain ⟨hok, -, hproduct, hperm, -⟩ := ofRun_by_parity "-+-".toList
  obtain ⟨-, -, -, -, hmixed⟩ := ofRun_by_parity "--*".toList
  have hsigns : IsSignRun "-+-".toList := by decide
  have hminus : IsSignRun ['-'] := by decide
  have hstar : '*' ∈ "--*".toList := by decide
  have hother : "-+-".toList.Perm "--+".toList := by decide
  exact ⟨⟨hsigns, hminus, (hok add).2 (.inr (.inr ⟨hsigns, rfl⟩)), hproduct _ hsigns hminus⟩, ⟨hother, hperm _ hother⟩,
    hstar, by decide, hmixed (.inl hstar) (by decide)⟩

end Operator

end IntegerCalculator
