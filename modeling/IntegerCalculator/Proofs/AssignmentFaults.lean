import IntegerCalculator.Proofs.AssignmentLine
import IntegerCalculator.Proofs.LongestMatch

/-!
# Faults of assignment lines

Every text that is taken for an assignment is decided (`Variables.Decides`): what stands before its first equals sign has to be
a name, then the line has to have one equals sign with a term after it, and then the term has to have a value. The first of
these that fails gives the error, and the table stays as it was; where none fails the name has the value of the term, and every
other name the value it had (`Variables.value_assign_eq_iff`).

The program parts the line at every equals sign and trims each part. Only the first equals sign and the number of them matter:
the part before the first one is what stands there without the blanks around it (`assignmentParts_append_cons`), and the number
of parts is one more than the number of equals signs.
-/

namespace IntegerCalculator

/-! ## The parts of a line -/

/-- What stands before the first equals sign of the trimmed line, without the blanks before the sign; the whole trimmed line if
it has no equals sign. -/
def beforeEquals (line : List Char) : List Char := trimEnd ((trim line).takeWhile (· != '='))

/-- What stands after the first equals sign of the trimmed line, without the blanks after the sign. -/
def afterEquals (line : List Char) : List Char := (((trim line).dropWhile (· != '=')).drop 1).dropWhile isBlank

/-- A text without equals sign has one part, which is all of it. -/
theorem assignmentParts_of_not_mem {line : List Char} (h : '=' ∉ line) : assignmentParts line = [trim line] := by
  rw [assignmentParts, List.splitOn_eq_singleton h]
  rfl

/-- The first part of a text is what stands before its first equals sign. -/
theorem assignmentParts_append_cons {left : List Char} (h : '=' ∉ left) (right : List Char) :
    assignmentParts (left ++ '=' :: right) = trim left :: assignmentParts right := by
  rw [assignmentParts, List.splitOn_append_cons_self_of_not_mem h]
  rfl

/-- Trimming takes no equals sign away. -/
theorem count_equals_trim (line : List Char) : (trim line).count '=' = line.count '=' := by
  obtain ⟨before, after, hbefore, hafter, hline⟩ := exists_eq_append_trim line
  have hb := List.count_eq_zero.2 (equals_not_mem_of_blanks hbefore)
  have ha := List.count_eq_zero.2 (equals_not_mem_of_blanks hafter)
  have hcount := congrArg (List.count '=') hline
  rw [List.count_append, List.count_append, hb, ha] at hcount
  omega

/-- Up to an equals sign a text without one is taken and dropped whole. -/
theorem takeWhile_dropWhile_of_not_mem {s : List Char} (h : '=' ∉ s) (rest : List Char)
    (hrest : ∀ c, rest.head? = some c → c = '=') :
    (s ++ rest).takeWhile (· != '=') = s ∧ (s ++ rest).dropWhile (· != '=') = rest := by
  refine takeWhile_dropWhile_append ?_ ?_
  · intro c hc
    rw [bne_iff_ne]
    rintro rfl
    exact h hc
  · intro c hc
    rw [hrest c hc]
    rfl

/-- Without equals sign the whole trimmed line stands before it. -/
theorem beforeEquals_of_not_mem {line : List Char} (h : '=' ∉ line) : beforeEquals line = trim line := by
  have htrim : '=' ∉ trim line := by
    rw [← List.count_eq_zero, count_equals_trim]
    exact List.count_eq_zero.2 h
  have htake := (takeWhile_dropWhile_of_not_mem htrim [] (by simp)).1
  rw [List.append_nil] at htake
  rw [beforeEquals, htake, trim, trimEnd_trimEnd]

/-- With an equals sign, what stands before it and after it are the texts there without the blanks around them. -/
theorem beforeEquals_afterEquals_append_cons {left : List Char} (h : '=' ∉ left) (right : List Char) :
    beforeEquals (left ++ '=' :: right) = trim left ∧ afterEquals (left ++ '=' :: right) = trim right := by
  have hleft : '=' ∉ left.dropWhile isBlank := fun hmem => h ((List.dropWhile_sublist _).subset hmem)
  obtain ⟨htake, hdrop⟩ := takeWhile_dropWhile_of_not_mem hleft ('=' :: trimEnd right) (by simp)
  rw [beforeEquals, afterEquals, trim_append_cons (by decide), htake, hdrop]
  exact ⟨rfl, dropWhile_trimEnd right⟩

/-- A text has one part more than it has equals signs. The first part is what stands before the first equals sign; where there
is one equals sign, the other part is what stands after it. -/
theorem exists_assignmentParts_eq (line : List Char) :
    ∃ rest, assignmentParts line = beforeEquals line :: rest ∧ rest.length = (trim line).count '=' ∧
      ((trim line).count '=' = 1 → rest = [afterEquals line]) := by
  rw [count_equals_trim]
  by_cases hmem : '=' ∈ line
  · obtain ⟨left, right, rfl, hleft⟩ := List.eq_append_cons_of_mem hmem
    obtain ⟨hbefore, hafter⟩ := beforeEquals_afterEquals_append_cons hleft right
    have hcount : (left ++ '=' :: right).count '=' = right.count '=' + 1 := by
      rw [List.count_append, List.count_cons_self, List.count_eq_zero.2 hleft, Nat.zero_add]
    rw [hbefore, hafter, hcount]
    refine ⟨assignmentParts right, assignmentParts_append_cons hleft right, ?_, ?_⟩
    · rw [assignmentParts, List.length_map, length_splitOn]
    · intro hone
      exact assignmentParts_of_not_mem (List.count_eq_zero.1 (Nat.succ.inj hone))
  · rw [beforeEquals_of_not_mem hmem, List.count_eq_zero.2 hmem]
    exact ⟨[], assignmentParts_of_not_mem hmem, rfl, fun hone => absurd hone (by decide)⟩

/-! ## The terms of a line -/

/-- The text is one or more digits, with or without one sign before them, and denotes the integer. -/
inductive SignedNumeral : List Char → Int → Prop where
  | unsigned {digits : List Char} (hne : digits ≠ []) (hdigits : ∀ c ∈ digits, c.isDigit = true) :
    SignedNumeral digits (digitsValue digits)
  | plus {digits : List Char} (hne : digits ≠ []) (hdigits : ∀ c ∈ digits, c.isDigit = true) :
    SignedNumeral ('+' :: digits) (digitsValue digits)
  | minus {digits : List Char} (hne : digits ≠ []) (hdigits : ∀ c ∈ digits, c.isDigit = true) :
    SignedNumeral ('-' :: digits) (-(digitsValue digits : Int))

/-- The signed numerals are the texts that are read as an integer, and denote this integer. -/
theorem integer?_eq_some_iff {s : List Char} {v : Int} : integer? s = some v ↔ SignedNumeral s v := by
  constructor
  · intro h
    unfold integer? at h
    split at h
    all_goals
      obtain ⟨hdigits, hv⟩ := Option.ite_none_right_eq_some.1 h
      cases hv
      obtain ⟨hne, hdigits⟩ := isDigits_iff.1 hdigits
    · exact .plus hne hdigits
    · exact .minus hne hdigits
    · exact .unsigned hne hdigits
  · intro h
    cases h with
    | unsigned hne hdigits => exact integer?_of_isDigits (isDigits_iff.2 ⟨hne, hdigits⟩)
    | plus hne hdigits => exact if_pos (isDigits_iff.2 ⟨hne, hdigits⟩)
    | minus hne hdigits => exact if_pos (isDigits_iff.2 ⟨hne, hdigits⟩)

/-- The texts that are not read as an integer are those that are no signed numeral. -/
theorem integer?_eq_none_iff {s : List Char} : integer? s = none ↔ ∀ v, ¬SignedNumeral s v := by
  rw [Option.eq_none_iff_forall_ne_some]
  exact forall_congr' fun v => not_congr integer?_eq_some_iff

/-- A signed numeral is no name, since its digits are no letters. -/
theorem SignedNumeral.isName_eq_false {s : List Char} {v : Int} (h : SignedNumeral s v) : isName s = false := by
  obtain ⟨c, hmem, hdigit⟩ : ∃ c ∈ s, c.isDigit = true := by
    cases h
    all_goals
      next hne hdigits =>
        obtain ⟨c, hc⟩ := List.exists_mem_of_ne_nil _ hne
        exact ⟨c, by simp [hc], hdigits c hc⟩
  rw [← Bool.not_eq_true, isName_iff]
  rintro ⟨-, hletters⟩
  have hletter := hletters c hmem
  rw [isAlpha_eq_false_of_isDigit hdigit] at hletter
  cases hletter

namespace Variables

/-- The term has the value: it is a name with this value, or a signed numeral that denotes it. -/
def TermHasValue (table : Variables) (term : List Char) (v : Int) : Prop :=
  isName term = true ∧ table.lookup term = some v ∨ SignedNumeral term v

/-- What becomes of an assignment line and of the table with it. -/
inductive Decides (table : Variables) (line : List Char) : Except Error Unit → Variables → Prop where
  | noName (hname : isName (beforeEquals line) = false) : Decides table line (.error .invalidIdentifier) table
  | noTerm (hname : isName (beforeEquals line) = true)
    (hform : (trim line).count '=' ≠ 1 ∨ isName (afterEquals line) = false ∧ ∀ v, ¬SignedNumeral (afterEquals line) v) :
    Decides table line (.error .invalidAssignment) table
  | noValue (hname : isName (beforeEquals line) = true) (hcount : (trim line).count '=' = 1)
    (hterm : isName (afterEquals line) = true) (hlookup : table.lookup (afterEquals line) = none) :
    Decides table line (.error .unknownVariable) table
  | assigned {v : Int} {after : Variables} (hname : isName (beforeEquals line) = true) (hcount : (trim line).count '=' = 1)
    (hvalue : table.TermHasValue (afterEquals line) v)
    (hafter : ∀ name, after.lookup name = if beforeEquals line = name then some v else table.lookup name) :
    Decides table line (.ok ()) after

/-- A name without a value is a fault of its own. -/
theorem termValue_of_unbound {table : Variables} {term : List Char} (hname : isName term = true)
    (hlookup : table.lookup term = none) : table.termValue term = .error .unknownVariable := by
  rw [termValue, if_pos hname, resolve, hlookup]

/-- What is neither a name nor a signed numeral is no term. -/
theorem termValue_of_no_term {table : Variables} {term : List Char} (hname : isName term = false)
    (hnumeral : ∀ v, ¬SignedNumeral term v) : table.termValue term = .error .invalidAssignment := by
  simp only [termValue, hname, Bool.false_eq_true, if_false, integer?_eq_none_iff.2 hnumeral]

/-- A term with a value gives it. -/
theorem TermHasValue.termValue_eq {table : Variables} {term : List Char} {v : Int} (h : table.TermHasValue term v) :
    table.termValue term = .ok v := by
  rcases h with ⟨hname, hlookup⟩ | hnumeral
  · rw [termValue, if_pos hname, resolve, hlookup]
  · simp only [termValue, hnumeral.isName_eq_false, Bool.false_eq_true, if_false, integer?_eq_some_iff.2 hnumeral]

/-- What an assignment line holds is told by what stands before and after its first equals sign and the number of these. -/
theorem assignment_eq (table : Variables) (line : List Char) :
    table.assignment line =
      if isName (beforeEquals line) = true then
        if (trim line).count '=' = 1 then (table.termValue (afterEquals line)).map fun v => (beforeEquals line, v)
        else .error .invalidAssignment
      else .error .invalidIdentifier := by
  obtain ⟨rest, hparts, hlength, hrest⟩ := exists_assignmentParts_eq line
  rw [assignment, hparts, List.headD_cons]
  cases hname : isName (beforeEquals line) with
  | false => rfl
  | true =>
    by_cases hcount : (trim line).count '=' = 1
    · rw [if_pos hcount, hrest hcount]
      rfl
    · rw [if_neg hcount]
      rcases rest with _ | ⟨part, _ | ⟨other, rest⟩⟩
      · rfl
      · exact absurd hlength.symm hcount
      · rfl

/-- What the program does with an assignment line is what becomes of it. -/
theorem decides_value_assign (table : Variables) (line : List Char) (threshold : Threshold) :
    table.Decides line ((table.assign line).value threshold).1 ((table.assign line).value threshold).2 := by
  rw [value_assign, assignment_eq]
  cases hname : isName (beforeEquals line) with
  | false => exact .noName hname
  | true =>
    rw [if_pos rfl]
    by_cases hcount : (trim line).count '=' = 1
    · rw [if_pos hcount]
      by_cases hvalue : ∃ v, table.TermHasValue (afterEquals line) v
      · obtain ⟨v, hvalue⟩ := hvalue
        rw [hvalue.termValue_eq]
        exact .assigned hname hcount hvalue fun name => lookup_store table (beforeEquals line) name v
      · simp only [TermHasValue, exists_or, not_or, not_exists, not_and] at hvalue
        obtain ⟨hunbound, hnumeral⟩ := hvalue
        cases hterm : isName (afterEquals line) with
        | false =>
          rw [termValue_of_no_term hterm hnumeral]
          exact .noTerm hname (.inr ⟨hterm, hnumeral⟩)
        | true =>
          have hlookup : table.lookup (afterEquals line) = none :=
            Option.eq_none_iff_forall_ne_some.2 fun v => hunbound v hterm
          rw [termValue_of_unbound hterm hlookup]
          exact .noValue hname hcount hterm hlookup
    · rw [if_neg hcount]
      exact .noTerm hname (.inl hcount)

/-- What becomes of an assignment line is what the program does with it. -/
theorem Decides.value_assign_eq {table after : Variables} {line : List Char} {result : Except Error Unit}
    (h : table.Decides line result after) (threshold : Threshold) :
    (table.assign line).value threshold = (result, after) := by
  rw [value_assign, assignment_eq]
  cases h with
  | noName hname => rw [hname, if_neg Bool.false_ne_true]
  | noTerm hname hform =>
    rw [if_pos hname]
    by_cases hcount : (trim line).count '=' = 1
    · obtain ⟨hterm, hnumeral⟩ := hform.resolve_left (not_not_intro hcount)
      rw [if_pos hcount, termValue_of_no_term hterm hnumeral]
      rfl
    · rw [if_neg hcount]
  | noValue hname hcount hterm hlookup =>
    rw [if_pos hname, if_pos hcount, termValue_of_unbound hterm hlookup]
    rfl
  | @assigned v _ hname hcount hvalue hafter =>
    have hstore : table.store (beforeEquals line) v = after :=
      ext_lookup fun name => (lookup_store table (beforeEquals line) name v).trans (hafter name).symm
    rw [if_pos hname, if_pos hcount, hvalue.termValue_eq]
    exact Prod.ext rfl hstore

/-- The result of any text that is taken for an assignment, and the table after it, are decided by the first fault of the text:
no name before the first equals sign, not one equals sign or no term after it, a name without a value as the term. With a fault
the table is the old one; without fault it differs from the old one in the name alone, which has the value of the term. -/
theorem value_assign_eq_iff (table after : Variables) (line : List Char) (result : Except Error Unit)
    (threshold : Threshold) :
    (table.assign line).value threshold = (result, after) ↔ table.Decides line result after := by
  constructor
  · intro h
    have hdecides := decides_value_assign table line threshold
    rwa [h] at hdecides
  · intro h
    exact h.value_assign_eq threshold

end Variables

end IntegerCalculator
