import IntegerCalculator.Proofs.AssignmentLine

/-!
# Dialogues

A session answers lines one after the other (`Session.dialogue`). Of all the lines, only the assignments that are accepted
leave a trace in the session. So any other lines can be left out of a dialogue (`Thinning`) without a change to the remaining
answers or to the session at the end, and what a name means at the end is decided by the last accepted assignment to it: it has
the value that the term of this line had then (`Session.dialogue_remembers_assignments`).

Each statement about a whole dialogue is an induction on its lines over one step of it, which either stores a value or leaves
the session as it was.
-/

namespace IntegerCalculator

/-- A line that a session has answered: the session before it, the line, and the answer. -/
structure Exchange where
  before : Session
  line : List Char
  answer : Except Error Reply

/-- Answers lines one after the other: what was said, and the session at the end. -/
def Session.dialogue (session : Session) : List (List Char) → Logged (List Exchange × Session)
  | [] => return ([], session)
  | line :: lines => do
    let (answer, next) ← session.answer line
    let (rest, last) ← next.dialogue lines
    return (⟨session, line, answer⟩ :: rest, last)

/-- The line is an assignment of the term to the name, and was accepted. -/
def Exchange.Assigns (x : Exchange) (name term : List Char) : Prop :=
  Equates x.line name term ∧ x.answer = .ok .silent

/-- Some lines of a dialogue are left out, none of which is an accepted assignment. -/
inductive Thinning : List Exchange → List Exchange → Prop where
  | nil : Thinning [] []
  | keep (x : Exchange) {all kept : List Exchange} (h : Thinning all kept) : Thinning (x :: all) (x :: kept)
  | drop (x : Exchange) (hx : ∀ name term, ¬x.Assigns name term) {all kept : List Exchange} (h : Thinning all kept) :
    Thinning (x :: all) kept

/-- All names that the table binds are one or more letters. -/
def Variables.BindsNames (table : Variables) : Prop := ∀ name v, table.lookup name = some v → isName name = true

namespace Session

variable (session : Session) (threshold : Threshold)

/-! ## One line -/

/-- The line with the answer of the session to it. -/
def exchange (line : List Char) : Exchange := ⟨session, line, ((session.answer line).value threshold).1⟩

/-- The session after a line. -/
def next (line : List Char) : Session := ((session.answer line).value threshold).2

variable {session threshold}

/-- A line that is no accepted assignment leaves the session as it was. -/
theorem next_of_not_assigns {line : List Char} (h : ∀ name term, ¬(session.exchange threshold line).Assigns name term) :
    session.next threshold line = session := by
  rcases session.answer_cases line threshold with ⟨name, term, v, hequates, -, -, hanswer⟩ | ⟨hnext, -⟩
  · exact absurd ⟨hequates, congrArg Prod.fst hanswer⟩ (h name term)
  · exact hnext

/-- An accepted assignment gives its name the value that its term has, and the name is a name. -/
theorem next_of_assigns {line name term : List Char} (h : (session.exchange threshold line).Assigns name term) :
    ∃ v, isName name = true ∧ session.table.termValue term = .ok v ∧
      session.next threshold line = { session with table := session.table.store name v } := by
  obtain ⟨hline, hsilent⟩ := h
  rcases session.answer_cases line threshold with ⟨name', term', v, hequates, hname, hvalue, hanswer⟩ | ⟨-, hloud⟩
  · obtain ⟨rfl, rfl⟩ := hequates.unique hline
    exact ⟨v, hname, hvalue, congrArg Prod.snd hanswer⟩
  · exact absurd hsilent (hloud name term hline)

/-- A line that does not assign to a name leaves the value of the name as it was. -/
theorem lookup_next_of_not_assigns {line name : List Char}
    (h : ∀ term, ¬(session.exchange threshold line).Assigns name term) :
    (session.next threshold line).table.lookup name = session.table.lookup name := by
  by_cases hassigns : ∃ name' term, (session.exchange threshold line).Assigns name' term
  · obtain ⟨name', term, hassigns⟩ := hassigns
    obtain ⟨v, -, -, hnext⟩ := next_of_assigns hassigns
    have hne : name' ≠ name := by
      rintro rfl
      exact h term hassigns
    rw [hnext]
    exact (Variables.lookup_store _ _ _ _).trans (if_neg hne)
  · rw [next_of_not_assigns fun name' term hx => hassigns ⟨name', term, hx⟩]

/-- After an accepted assignment its name has the value that the term had before it. -/
theorem lookup_next_of_assigns {line name term : List Char} (h : (session.exchange threshold line).Assigns name term) :
    ∃ v, session.table.termValue term = .ok v ∧ (session.next threshold line).table.lookup name = some v := by
  obtain ⟨v, -, hvalue, hnext⟩ := next_of_assigns h
  refine ⟨v, hvalue, ?_⟩
  rw [hnext]
  exact (Variables.lookup_store _ _ _ _).trans (if_pos rfl)

/-- A line binds no text that is no name. -/
theorem bindsNames_next (h : session.table.BindsNames) (line : List Char) :
    (session.next threshold line).table.BindsNames := by
  intro name v hlookup
  by_cases hassigns : ∃ term, (session.exchange threshold line).Assigns name term
  · obtain ⟨term, hassigns⟩ := hassigns
    obtain ⟨-, hname, -⟩ := next_of_assigns hassigns
    exact hname
  · rw [lookup_next_of_not_assigns fun term hx => hassigns ⟨term, hx⟩] at hlookup
    exact h name v hlookup

/-! ## Whole dialogues -/

theorem value_dialogue_nil (session : Session) (threshold : Threshold) :
    (session.dialogue []).value threshold = ([], session) := rfl

/-- A dialogue is its first line and the dialogue of the others, in the session after the first. -/
theorem value_dialogue_cons (session : Session) (line : List Char) (lines : List (List Char)) (threshold : Threshold) :
    (session.dialogue (line :: lines)).value threshold =
      (session.exchange threshold line :: (((session.next threshold line).dialogue lines).value threshold).1,
        (((session.next threshold line).dialogue lines).value threshold).2) := rfl

/-- A thinned dialogue is the dialogue of the lines that are left, and ends in the same session. -/
theorem dialogue_of_thinning {lines : List (List Char)} {kept : List Exchange}
    (h : Thinning ((session.dialogue lines).value threshold).1 kept) :
    (session.dialogue (kept.map Exchange.line)).value threshold = (kept, ((session.dialogue lines).value threshold).2) := by
  induction lines generalizing session kept with
  | nil =>
    cases h
    rfl
  | cons line lines ih =>
    rw [value_dialogue_cons] at h ⊢
    cases h with
    | @keep _ _ kept h =>
      change (session.dialogue (line :: kept.map Exchange.line)).value threshold = _
      rw [value_dialogue_cons, ih h]
    | drop _ hx h =>
      rw [next_of_not_assigns hx] at h ⊢
      exact ih h

/-- A name that no line of a dialogue assigns to keeps its value. -/
theorem lookup_dialogue_of_not_assigns {lines : List (List Char)} {name : List Char}
    (h : ∀ x ∈ ((session.dialogue lines).value threshold).1, ∀ term, ¬x.Assigns name term) :
    ((session.dialogue lines).value threshold).2.table.lookup name = session.table.lookup name := by
  induction lines generalizing session with
  | nil => rfl
  | cons line lines ih =>
    rw [value_dialogue_cons] at h ⊢
    obtain ⟨hfirst, hrest⟩ := List.forall_mem_cons.1 h
    exact (ih hrest).trans (lookup_next_of_not_assigns hfirst)

/-- At the end of a dialogue a name has the value that the term of the last assignment to it had then. -/
theorem lookup_dialogue_of_assigns {lines : List (List Char)} {name term : List Char} {earlier later : List Exchange}
    {x : Exchange} (h : ((session.dialogue lines).value threshold).1 = earlier ++ x :: later) (hx : x.Assigns name term)
    (hlater : ∀ y ∈ later, ∀ term', ¬y.Assigns name term') :
    ∃ v, x.before.table.termValue term = .ok v ∧
      ((session.dialogue lines).value threshold).2.table.lookup name = some v := by
  induction lines generalizing session earlier with
  | nil => exact absurd h.symm (by simp [value_dialogue_nil])
  | cons line lines ih =>
    rw [value_dialogue_cons] at h ⊢
    cases earlier with
    | nil =>
      obtain ⟨rfl, rfl⟩ := List.cons.inj h
      obtain ⟨v, hvalue, hlookup⟩ := lookup_next_of_assigns hx
      exact ⟨v, hvalue, (lookup_dialogue_of_not_assigns hlater).trans hlookup⟩
    | cons y earlier =>
      obtain ⟨-, hrest⟩ := List.cons.inj h
      exact ih hrest

/-- At the end of a dialogue a name has a value if it had one before or some line assigned one to it. -/
theorem exists_lookup_dialogue_iff (session : Session) (lines : List (List Char)) (threshold : Threshold) (name : List Char) :
    (∃ v, ((session.dialogue lines).value threshold).2.table.lookup name = some v) ↔
      (∃ v, session.table.lookup name = some v) ∨
        ∃ x ∈ ((session.dialogue lines).value threshold).1, ∃ term, x.Assigns name term := by
  induction lines generalizing session with
  | nil => simp [value_dialogue_nil]
  | cons line lines ih =>
    rw [value_dialogue_cons, ih]
    simp only [List.mem_cons, exists_eq_or_imp]
    by_cases hassigns : ∃ term, (session.exchange threshold line).Assigns name term
    · obtain ⟨term, hassigns⟩ := hassigns
      obtain ⟨v, -, hlookup⟩ := lookup_next_of_assigns hassigns
      exact iff_of_true (Or.inl ⟨v, hlookup⟩) (Or.inr (Or.inl ⟨term, hassigns⟩))
    · rw [lookup_next_of_not_assigns fun term hx => hassigns ⟨term, hx⟩]
      simp [hassigns]

/-- A dialogue binds no text that is no name. -/
theorem bindsNames_dialogue (h : session.table.BindsNames) (lines : List (List Char)) :
    ((session.dialogue lines).value threshold).2.table.BindsNames := by
  induction lines generalizing session with
  | nil => exact h
  | cons line lines ih => exact ih (bindsNames_next h line)

/-- The new session binds no name. -/
theorem bindsNames_new : new.table.BindsNames := by
  intro name v h
  cases h

/-- In a dialogue with a new session only the accepted assignments matter. Any other lines can be left out of it, and the
answers to the remaining lines are the same, as is the session at the end. A name has a value at the end when some line is an
accepted assignment to it, and then it is the value that the term of the last such line had just before that line. Whatever has a
value is one or more letters. -/
theorem dialogue_remembers_assignments (threshold : Threshold) (lines : List (List Char)) :
    let result := (new.dialogue lines).value threshold
    (∀ kept, Thinning result.1 kept →
        (new.dialogue (kept.map Exchange.line)).value threshold = (kept, result.2)) ∧
      (∀ name, (∃ v, result.2.table.lookup name = some v) ↔ ∃ x ∈ result.1, ∃ term, x.Assigns name term) ∧
      (∀ name term earlier x later, result.1 = earlier ++ x :: later → x.Assigns name term →
        (∀ y ∈ later, ∀ term', ¬y.Assigns name term') →
          ∃ v, x.before.table.termValue term = .ok v ∧ result.2.table.lookup name = some v) ∧
      ∀ name v, result.2.table.lookup name = some v → name ≠ [] ∧ ∀ c ∈ name, c.isAlpha = true := by
  refine ⟨fun kept h => dialogue_of_thinning h, fun name => ?_, fun name term earlier x later h hx hlater =>
    lookup_dialogue_of_assigns h hx hlater, fun name v h => isName_iff.1 (bindsNames_dialogue bindsNames_new lines name v h)⟩
  have hiff := exists_lookup_dialogue_iff new lines threshold name
  simpa [new, Variables.lookup_empty] using hiff

/-- `y` is given the value of `x`, and then `x` another one. The lines between are rejected, a leave-taking and blank: without
them the dialogue goes the same way, and `y` keeps the value that `x` had. -/
theorem dialogue_of_copied_value :
    let lines := ["x = 5".toList, "y = x".toList, "y = z".toList, "/exit".toList, " ".toList, "x = 7".toList]
    let first : Session := { table := Variables.empty.store ['x'] 5 }
    let second : Session := { table := first.table.store ['y'] 5 }
    let last : Session := { table := second.table.store ['x'] 7 }
    let kept : List Exchange := [⟨new, "x = 5".toList, .ok .silent⟩, ⟨first, "y = x".toList, .ok .silent⟩,
      ⟨second, "x = 7".toList, .ok .silent⟩]
    Thinning ((new.dialogue lines).value none).1 kept ∧ (new.dialogue (kept.map Exchange.line)).value none = (kept, last) ∧
      ∃ v, first.table.termValue ['x'] = .ok v ∧ last.table.lookup ['y'] = some v := by
  intro lines first second last kept
  have hrejected : ∀ name term, ¬(⟨second, "y = z".toList, .error .unknownVariable⟩ : Exchange).Assigns name term := by
    rintro name term ⟨-, hanswer⟩
    cases hanswer
  have hleft : ∀ name term, ¬(⟨second, "/exit".toList, .ok .farewell⟩ : Exchange).Assigns name term := by
    rintro name term ⟨-, hanswer⟩
    cases hanswer
  have hblank : ∀ name term, ¬(⟨second, " ".toList, .ok .silent⟩ : Exchange).Assigns name term := by
    rintro name term ⟨hline, -⟩
    have hmem : '=' ∈ [' '] := hline.equals_mem
    exact absurd hmem (by decide)
  have hother : ∀ term, ¬(⟨second, "x = 7".toList, .ok .silent⟩ : Exchange).Assigns ['y'] term := by
    rintro term ⟨hline, -⟩
    have hx : Equates "x = 7".toList ['x'] ['7'] := ⟨['x', ' '], [' ', '7'], rfl, by decide, by decide, rfl, rfl⟩
    exact absurd (hx.unique hline).1 (by decide)
  have hthin : Thinning ((new.dialogue lines).value none).1 kept :=
    .keep _ (.keep _ (.drop _ hrejected (.drop _ hleft (.drop _ hblank (.keep _ .nil)))))
  obtain ⟨hthinned, -, hlast, -⟩ := dialogue_remembers_assignments none lines
  refine ⟨hthin, hthinned kept hthin, ?_⟩
  have hcopy : Equates "y = x".toList ['y'] ['x'] := ⟨['y', ' '], [' ', 'x'], rfl, by decide, by decide, rfl, rfl⟩
  refine hlast ['y'] ['x'] [⟨new, "x = 5".toList, .ok .silent⟩] ⟨first, "y = x".toList, .ok .silent⟩
    [⟨second, "y = z".toList, .error .unknownVariable⟩, ⟨second, "/exit".toList, .ok .farewell⟩,
      ⟨second, " ".toList, .ok .silent⟩, ⟨second, "x = 7".toList, .ok .silent⟩] rfl ⟨hcopy, rfl⟩ ?_
  simpa using ⟨hrejected ['y'], hleft ['y'], hblank ['y'], hother⟩

end Session

end IntegerCalculator
