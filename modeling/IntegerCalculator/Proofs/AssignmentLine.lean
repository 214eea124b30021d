import IntegerCalculator.Session

/-!
# Assignment lines

A line assigns when it is `name = term` (`Equates`): it has one equals sign, a name stands before it and a term with a value
after it, and blanks stand around both as one likes. Such a line is answered silently and gives the name the value of the term
(`Session.answer_of_equates`); every other line leaves the session as it was. So what a line did to the session is told by the
line, its answer and the session before it (`Session.answer_cases`).
-/

namespace IntegerCalculator

/-- The line is `name = term`, with blanks around both as one likes. -/
def Equates (line name term : List Char) : Prop :=
  ∃ left right, line = left ++ '=' :: right ∧ '=' ∉ left ∧ '=' ∉ right ∧ trim left = name ∧ trim right = term

/-! ## The parts of a line -/

/-- A list has one piece more than it has separators. -/
theorem length_splitOn (c : Char) (s : List Char) : (s.splitOn c).length = s.count c + 1 := by
  induction s with
  | nil => rfl
  | cons d s ih =>
    rw [List.splitOn_cons_eq_if_modifyHead, List.count_cons]
    split
    · rw [List.length_cons, ih]
    · rw [List.length_modifyHead, ih, Nat.add_zero]

/-- A list has two pieces when it has the separator once, and they are what stands before and after it. -/
theorem splitOn_eq_pair_iff {c : Char} {s left right : List Char} :
    s.splitOn c = [left, right] ↔ s = left ++ c :: right ∧ c ∉ left ∧ c ∉ right := by
  constructor
  · intro h
    have hs : s = left ++ c :: right := by
      have hjoined : [c].intercalate (s.splitOn c) = s := List.intercalate_splitOn c
      rw [← hjoined, h]
      simp [List.intercalate]
    have hcount := length_splitOn c s
    rw [h, hs, List.count_append, List.count_cons_self, List.length_cons, List.length_singleton] at hcount
    refine ⟨hs, List.count_eq_zero.1 ?_, List.count_eq_zero.1 ?_⟩ <;> omega
  · rintro ⟨rfl, hleft, hright⟩
    rw [List.splitOn_append_cons_self_of_not_mem hleft, List.splitOn_eq_singleton hright]

/-- Blanks hold no equals sign. -/
theorem equals_not_mem_of_blanks {blanks : List Char} (h : ∀ c ∈ blanks, isBlank c = true) : '=' ∉ blanks := by
  intro hmem
  exact absurd (h '=' hmem) (by decide)

/-- A name holds no equals sign. -/
theorem equals_not_mem_of_isName {name : List Char} (h : isName name = true) : '=' ∉ name := by
  intro hmem
  exact absurd ((isName_iff.1 h).2 '=' hmem) (by decide)

/-- A name has no blanks around it. -/
theorem trim_of_isName {name : List Char} (h : isName name = true) : trim name = name :=
  trim_eq_self (isBlank_eq_false_of_mem_name h)

/-- The trimmed line has two parts when the line has one equals sign, and they are the trimmed texts before and after it. -/
theorem assignmentParts_trim_eq_pair_iff {line name term : List Char} :
    assignmentParts (trim line) = [name, term] ↔ Equates line name term := by
  constructor
  · intro h
    rw [assignmentParts, List.map_eq_cons_iff] at h
    obtain ⟨left, rest, hsplit, hleft, hrest⟩ := h
    obtain ⟨right, hrest, hright⟩ := List.map_eq_singleton_iff.1 hrest
    rw [hrest] at hsplit
    obtain ⟨htrim, hl, hr⟩ := splitOn_eq_pair_iff.1 hsplit
    obtain ⟨before, after, hbefore, hafter, hline⟩ := exists_eq_append_trim line
    refine ⟨before ++ left, right ++ after, ?_, ?_, ?_, ?_, ?_⟩
    · rw [hline, htrim]
      simp
    · simp [equals_not_mem_of_blanks hbefore, hl]
    · simp [equals_not_mem_of_blanks hafter, hr]
    · rw [trim_blanks_append hbefore, hleft]
    · rw [trim_append_blanks right hafter, hright]
  · rintro ⟨left, right, rfl, hl, hr, rfl, rfl⟩
    obtain ⟨after, hafter, hright⟩ := exists_eq_trimEnd_append right
    have hleft : left.takeWhile isBlank ++ left.dropWhile isBlank = left := List.takeWhile_append_dropWhile
    have hbefore : ∀ c ∈ left.takeWhile isBlank, isBlank c = true := List.all_eq_true.1 List.all_takeWhile
    have hsplit : (trim (left ++ '=' :: right)).splitOn '=' = [left.dropWhile isBlank, trimEnd right] := by
      rw [splitOn_eq_pair_iff, trim_append_cons (by decide)]
      refine ⟨rfl, ?_, ?_⟩
      · intro hmem
        exact hl ((List.dropWhile_sublist _).subset hmem)
      · intro hmem
        exact hr (by rw [hright]; exact List.mem_append_left _ hmem)
    have htrimLeft : trim (left.dropWhile isBlank) = trim left := by
      rw [← trim_blanks_append hbefore, hleft]
    have htrimRight : trim (trimEnd right) = trim right := by
      rw [← trim_append_blanks _ hafter, ← hright]
    rw [assignmentParts, hsplit, List.map_cons, List.map_cons, List.map_nil, htrimLeft, htrimRight]

/-- The name and the term of a line are determined by the line. -/
theorem Equates.unique {line name term name' term' : List Char} (h : Equates line name term)
    (h' : Equates line name' term') : name = name' ∧ term = term' := by
  have hparts := assignmentParts_trim_eq_pair_iff.2 h
  rw [assignmentParts_trim_eq_pair_iff.2 h'] at hparts
  cases hparts
  exact ⟨rfl, rfl⟩

theorem Equates.equals_mem {line name term : List Char} (h : Equates line name term) : '=' ∈ line := by
  obtain ⟨left, right, rfl, -⟩ := h
  simp

/-! ## What a line asks for -/

/-- A line that is `name = term` with a name is an assignment. -/
theorem Equates.ofText_eq {line name term : List Char} (h : Equates line name term) (hname : isName name = true) :
    Line.ofText line = .assignment (trim line) := by
  obtain ⟨left, right, rfl, -, -, rfl, -⟩ := h
  have htrim : trim (left ++ '=' :: right) = left.dropWhile isBlank ++ '=' :: trimEnd right := trim_append_cons (by decide) _ _
  refine Line.ofText_eq_assignment_iff.2 ⟨rfl, ?_, ?_⟩
  · rw [htrim]
    simp
  · -- the line starts with the first letter of the name
    obtain ⟨after, -, hleft⟩ := exists_eq_trimEnd_append (left.dropWhile isBlank)
    change left.dropWhile isBlank = trim left ++ after at hleft
    rw [htrim, hleft]
    cases hletters : trim left with
    | nil =>
      rw [hletters] at hname
      cases hname
    | cons c cs =>
      rw [hletters, isName, List.all_cons, Bool.and_eq_true, Bool.and_eq_true] at hname
      intro hhead
      obtain rfl := Option.some.inj hhead
      exact absurd hname.2.1 (by decide)

namespace Variables

/-- The parts of a line make an assignment when they are a name and a term with a value. -/
theorem assignment_eq_ok_iff {table : Variables} {text name : List Char} {v : Int} :
    table.assignment text = .ok (name, v) ↔
      ∃ term, assignmentParts text = [name, term] ∧ isName name = true ∧ table.termValue term = .ok v := by
  constructor
  · intro h
    unfold assignment at h
    dsimp only at h
    split at h
    · cases h
    · next hname =>
      split at h
      · next first term hparts =>
        rw [hparts, List.headD_cons, Bool.not_eq_true', Bool.not_eq_false] at hname
        cases hvalue : table.termValue term with
        | error e =>
          rw [hvalue] at h
          cases h
        | ok value =>
          rw [hvalue] at h
          cases h
          exact ⟨term, hparts, hname, hvalue⟩
      · cases h
  · rintro ⟨term, hparts, hname, hvalue⟩
    simp [assignment, hparts, hname, hvalue, Except.map]

/-- The result of an assignment line and the table after it, whatever is logged. -/
theorem value_assign (table : Variables) (line : List Char) (threshold : Threshold) :
    (table.assign line).value threshold =
      match table.assignment line with
      | .error e => (.error e, table)
      | .ok (name, v) => (.ok (), table.store name v) := by
  unfold assign
  cases table.assignment line with
  | error e => rfl
  | ok r => rfl

end Variables

/-- No command is answered silently. -/
theorem answerCommand_ne_silent (command : List Char) : answerCommand command ≠ .ok .silent := by
  unfold answerCommand
  split
  · simp
  · split <;> simp

/-- An expression that is not rejected is answered by a value. -/
theorem map_value_ne {reply : Reply} (h : ∀ v, reply ≠ .value v) (result : Except Error Int) :
    result.map Reply.value ≠ .ok reply := by
  cases result with
  | error e => simp [Except.map]
  | ok v => simpa [Except.map, eq_comm] using h v

namespace Session

/-- The answer to a line and the session after it, whatever is logged. -/
theorem value_answer (session : Session) (line : List Char) (threshold : Threshold) :
    (session.answer line).value threshold =
      match Line.ofText line with
      | .blank => (.ok .silent, session)
      | .command text => (answerCommand text, session)
      | .assignment text =>
        match session.table.assignment text with
        | .error e => (.error e, session)
        | .ok (name, v) => (.ok .silent, { session with table := session.table.store name v })
      | .expression text => (((session.table.evaluate text).run.value threshold).map .value, session) := by
  unfold answer
  cases Line.ofText line with
  | blank => rfl
  | command text => rfl
  | assignment text =>
    dsimp only
    rw [Logged.value_bind, Variables.value_assign]
    cases session.table.assignment text with
    | error e => rfl
    | ok r => rfl
  | expression text => rfl

/-- An assignment line whose term has a value is answered silently, and its name has the value of the term after it. -/
theorem answer_of_equates {session : Session} {line name term : List Char} {v : Int} (h : Equates line name term)
    (hname : isName name = true) (hvalue : session.table.termValue term = .ok v) (threshold : Threshold) :
    (session.answer line).value threshold = (.ok .silent, { session with table := session.table.store name v }) := by
  have hassignment : session.table.assignment (trim line) = .ok (name, v) :=
    Variables.assignment_eq_ok_iff.2 ⟨term, assignmentParts_trim_eq_pair_iff.2 h, hname, hvalue⟩
  rw [value_answer, h.ofText_eq hname]
  simp only [hassignment]

/-- A line is an assignment of a term with a value, which is answered silently and gives its name this value; or it leaves the
session as it was, and is not answered silently if it is `name = term`. -/
theorem answer_cases (session : Session) (line : List Char) (threshold : Threshold) :
    (∃ name term v, Equates line name term ∧ isName name = true ∧ session.table.termValue term = .ok v ∧
        (session.answer line).value threshold = (.ok .silent, { session with table := session.table.store name v })) ∨
      ((session.answer line).value threshold).2 = session ∧
        ∀ name term, Equates line name term → ((session.answer line).value threshold).1 ≠ .ok .silent := by
  rw [value_answer]
  cases hkind : Line.ofText line with
  | blank =>
    refine .inr ⟨rfl, ?_⟩
    intro name term hequates
    have hblank := List.all_eq_true.1 (Line.ofText_eq_blank_iff.1 hkind) '=' hequates.equals_mem
    exact absurd hblank (by decide)
  | command text => exact .inr ⟨rfl, fun _ _ _ => answerCommand_ne_silent text⟩
  | assignment text =>
    obtain ⟨rfl, -, -⟩ := Line.ofText_eq_assignment_iff.1 hkind
    cases hassignment : session.table.assignment (trim line) with
    | error e =>
      refine .inr ⟨by simp only [hassignment], ?_⟩
      intro name term _
      simp [hassignment]
    | ok r =>
      obtain ⟨name, v⟩ := r
      obtain ⟨term, hparts, hname, hvalue⟩ := Variables.assignment_eq_ok_iff.1 hassignment
      exact .inl ⟨name, term, v, assignmentParts_trim_eq_pair_iff.1 hparts, hname, hvalue, by simp only [hassignment]⟩
  | expression text => exact .inr ⟨rfl, fun _ _ _ => map_value_ne (by simp) _⟩

end Session

end IntegerCalculator
