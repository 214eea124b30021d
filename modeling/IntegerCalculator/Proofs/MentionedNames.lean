import IntegerCalculator.Proofs.Context

/-!
# Names that a line mentions

The names that a text mentions are its maximal runs of letters (`mentioned`), and these are the names that it is read as, in
order (`Lexeme.filterMap_name?_scan`). A line asks the table for no others. So a second table may give all other names any values,
and it may even give values to mentioned names that have none in the first: if it keeps the values of those that have one, the
line has the value or the error that it had, unless that error was a name without a value
(`Variables.result_evaluate_of_kept_values`).
-/

namespace IntegerCalculator

/-- The maximal runs of letters of a text, in order. -/
def mentioned (s : List Char) : List (List Char) := (s.splitOnP fun c => !c.isAlpha).filter (!·.isEmpty)

/-! ## The names of a text, part by part -/

theorem mentioned_nil : mentioned [] = [] := rfl

/-- A character that is no letter parts the names before it from the names after it. -/
theorem mentioned_append_cons {c : Char} (hc : c.isAlpha = false) (s t : List Char) :
    mentioned (s ++ c :: t) = mentioned s ++ mentioned t := by
  unfold mentioned
  rw [List.splitOnP_append_cons s t (by simp [hc]), List.filter_append]

/-- A character that is no letter belongs to no name. -/
theorem mentioned_cons {c : Char} (hc : c.isAlpha = false) (s : List Char) : mentioned (c :: s) = mentioned s :=
  mentioned_append_cons hc [] s

/-- A text without letters in front adds no name. -/
theorem mentioned_append_of_no_letters {w : List Char} (hw : ∀ c ∈ w, c.isAlpha = false) (s : List Char) :
    mentioned (w ++ s) = mentioned s := by
  induction w with
  | nil => rfl
  | cons c w ih =>
    obtain ⟨hc, hrest⟩ := List.forall_mem_cons.1 hw
    rw [List.cons_append, mentioned_cons hc, ih hrest]

/-- A name mentions itself. -/
theorem mentioned_of_isName {name : List Char} (h : isName name = true) : mentioned name = [name] := by
  obtain ⟨hne, hletters⟩ := isName_iff.1 h
  unfold mentioned
  rw [List.splitOnP_eq_singleton (fun c hc => by simp [hletters c hc])]
  simp [hne]

/-- A name in front is the first name that the text mentions, if no letter follows it. -/
theorem mentioned_name_append {name rest : List Char} (h : isName name = true)
    (hrest : ∀ c, rest.head? = some c → c.isAlpha = false) : mentioned (name ++ rest) = name :: mentioned rest := by
  cases rest with
  | nil => rw [List.append_nil, mentioned_of_isName h, mentioned_nil]
  | cons c rest =>
    have hc := hrest c rfl
    rw [mentioned_append_cons hc, mentioned_of_isName h, mentioned_cons hc]
    rfl

/-! ## The names that a text is read as -/

namespace Lexeme

/-- The name that a lexeme is, if it is one. -/
def name? : Lexeme → Option (List Char)
  | .ok (.identifier name) => some name
  | _ => none

theorem name?_eq_some_iff {lexeme : Lexeme} {name : List Char} :
    name? lexeme = some name ↔ lexeme = .ok (.identifier name) := by
  unfold name?
  split
  · simp
  · next hother => simpa using hother name

/-- What is taken where no letter stands mentions no name. -/
theorem mentioned_longest {c : Char} (ha : c.isAlpha = false) (cs : List Char) :
    mentioned (longest c cs).2 = mentioned (c :: cs) := by
  have hdigits : mentioned (cs.dropWhile Char.isDigit) = mentioned cs := by
    have hnone : ∀ d ∈ cs.takeWhile Char.isDigit, d.isAlpha = false := by
      intro d hd
      exact isAlpha_eq_false_of_isDigit (List.all_eq_true.1 List.all_takeWhile d hd)
    rw [← mentioned_append_of_no_letters hnone, List.takeWhile_append_dropWhile]
  have hrun : mentioned (cs.drop (leadingRun cs).length) = mentioned cs := by
    have hnone : ∀ d ∈ leadingRun cs, d.isAlpha = false := fun d hd => (of_mem_leadingRun hd).2.1
    rw [← mentioned_append_of_no_letters hnone, leadingRun_append_drop]
  rw [mentioned_cons ha]
  simp only [longest, ha, Bool.false_eq_true, if_false]
  repeat' split
  all_goals first | rfl | exact hdigits | exact hrun

/-- The names that a text is read as are those that it mentions. -/
theorem filterMap_name?_scan (s : List Char) : (scan s).filterMap name? = mentioned s := by
  fun_induction scan s with
  | case1 => rfl
  | case2 c cs hb ih => rw [ih, mentioned_cons (isAlpha_eq_false_of_isBoundary (isBoundary_of_isBlank hb))]
  | case3 c cs hb ih =>
    by_cases ha : c.isAlpha = true
    · have hlongest : longest c cs = (.ok (.identifier (c :: cs.takeWhile Char.isAlpha)), cs.dropWhile Char.isAlpha) := by
        rw [longest, if_pos ha]
      have hname : isName (c :: cs.takeWhile Char.isAlpha) = true := by simp [isName, ha]
      have hrest : ∀ d, (cs.dropWhile Char.isAlpha).head? = some d → d.isAlpha = false := by
        intro d hd
        have hhead := List.head?_dropWhile_not Char.isAlpha cs
        rwa [hd] at hhead
      have htext : c :: cs = (c :: cs.takeWhile Char.isAlpha) ++ cs.dropWhile Char.isAlpha :=
        congrArg (c :: ·) List.takeWhile_append_dropWhile.symm
      rw [hlongest] at ih ⊢
      rw [htext, mentioned_name_append hname hrest, ← ih]
      rfl
    · rw [Bool.not_eq_true] at ha
      have hnone : name? (longest c cs).1 = none := by
        rw [Option.eq_none_iff_forall_ne_some]
        intro name hname
        exact longest_ne_identifier ha cs name (name?_eq_some_iff.1 hname)
      rw [List.filterMap_cons_none hnone, ih, mentioned_longest ha]

/-- A text is read as a name, among others, when it mentions the name. -/
theorem identifier_mem_scan_iff {s name : List Char} : .ok (.identifier name) ∈ scan s ↔ name ∈ mentioned s := by
  rw [← filterMap_name?_scan, List.mem_filterMap]
  constructor
  · intro hmem
    exact ⟨_, hmem, rfl⟩
  · rintro ⟨lexeme, hmem, hname⟩
    rwa [name?_eq_some_iff.1 hname] at hmem

end Lexeme

/-! ## Tables that agree on the names of a line -/

namespace Variables

variable {t u : Variables} {line : List Char}

/-- A line has the same value or the same error with a table that keeps the values of the mentioned names, or it has failed by a
name without a value. -/
theorem result_evaluate_of_extends (h : ∀ name ∈ mentioned line, ∀ v, t.lookup name = some v → u.lookup name = some v) :
    (u.evaluate line).result = (t.evaluate line).result ∨ (t.evaluate line).result = .error .unknownVariable := by
  have hlexemes : ∀ name v, .ok (.identifier name) ∈ Lexeme.scan line → t.lookup name = some v → u.lookup name = some v :=
    fun name v hmem => h name (Lexeme.identifier_mem_scan_iff.1 hmem) v
  rw [result_evaluate_eq_scan, result_evaluate_eq_scan]
  rcases Postfix.result_ofLexemes_of_extends hlexemes with hsame | hunbound
  · rw [hsame]
    exact Or.inl rfl
  · rw [hunbound]
    exact Or.inr rfl

/-- A line has the same value or the same error with every two tables that give the mentioned names the same values. -/
theorem result_evaluate_congr (h : ∀ name ∈ mentioned line, t.lookup name = u.lookup name) :
    (t.evaluate line).result = (u.evaluate line).result := by
  have hfrom : ∀ name ∈ mentioned line, ∀ v, t.lookup name = some v → u.lookup name = some v :=
    fun name hmem v hv => (h name hmem).symm.trans hv
  have hback : ∀ name ∈ mentioned line, ∀ v, u.lookup name = some v → t.lookup name = some v :=
    fun name hmem v hv => (h name hmem).trans hv
  rcases result_evaluate_of_extends hfrom with hsame | hunbound
  · exact hsame.symm
  · rcases result_evaluate_of_extends hback with hsame | hunbound'
    · exact hsame
    · rw [hunbound, hunbound']

/-- A table may be replaced by any table that keeps the values of those mentioned names that have one: if the line has not failed
by a name without a value, it has the same value or the same error, whatever values the other table gives to names that the line
does not mention or that had none. -/
theorem result_evaluate_of_kept_values
    (h : ∀ name ∈ mentioned line, ∀ v, t.lookup name = some v → u.lookup name = some v)
    (hbound : (t.evaluate line).result ≠ .error .unknownVariable) :
    (u.evaluate line).result = (t.evaluate line).result :=
  (result_evaluate_of_extends h).resolve_right hbound

/-- `x` keeps its value, `z` gets one and `w` loses its own. The line fails at the literal, before it comes to `z`, so it is the
same error with both tables, although `z` alone would be another one. -/
theorem result_evaluate_before_unbound_name :
    let t := (empty.store ['x'] 5).store ['w'] 1
    let u := (empty.store ['x'] 5).store ['z'] (-3)
    (∀ name ∈ mentioned "x 2 + z".toList, ∀ v, t.lookup name = some v → u.lookup name = some v) ∧
      (t.evaluate "z".toList).result = .error .unknownVariable ∧
      (t.evaluate "x 2 + z".toList).result = .error .invalidExpression ∧
      (u.evaluate "x 2 + z".toList).result = (t.evaluate "x 2 + z".toList).result := by
  intro t u
  have hkept : ∀ name ∈ mentioned "x 2 + z".toList, ∀ v, t.lookup name = some v → u.lookup name = some v := by
    have hnames : mentioned "x 2 + z".toList = [['x'], ['z']] := by decide
    rw [hnames, List.forall_mem_cons, List.forall_mem_singleton]
    refine ⟨fun v hv => hv, fun v hv => ?_⟩
    have hunbound : t.lookup ['z'] = none := by decide
    rw [hunbound] at hv
    cases hv
  have hunknown : (t.evaluate "z".toList).result = .error .unknownVariable := by decide +kernel
  have herror : (t.evaluate "x 2 + z".toList).result = .error .invalidExpression := by decide +kernel
  have hbound : (t.evaluate "x 2 + z".toList).result ≠ .error .unknownVariable := by
    rw [herror]
    decide
  exact ⟨hkept, hunknown, herror, result_evaluate_of_kept_values hkept hbound⟩

end Variables

end IntegerCalculator
