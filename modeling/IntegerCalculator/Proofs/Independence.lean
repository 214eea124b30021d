import IntegerCalculator.Proofs.AssignmentFaults
import IntegerCalculator.Proofs.Dialogue
import IntegerCalculator.Proofs.MentionedNames
import IntegerCalculator.Proofs.Observation

/-!
# Independent lines

A line writes at most one name, which stands before its equals sign (`writtenName`), and reads at most the names that it mentions,
after its equals sign if it has one (`readNames`). So a session is the same after a line in all names that the line does not write
(`Session.lookup_next_of_not_written`), and the answer to a line and the value that it writes are the same in sessions that agree
on the names that it reads (`Session.answer_of_agree`). Two lines of which neither writes what the other reads or writes can
therefore be said in either order (`Session.answer_comm`).
-/

namespace IntegerCalculator

/-- What stands before the equals sign of an assignment line, if it is a name. -/
def writtenName (line : List Char) : Option (List Char) :=
  match Line.ofText line with
  | .assignment text => if isName (beforeEquals text) then some (beforeEquals text) else none
  | _ => none

/-- The names that an expression line mentions, or an assignment line after its equals sign. -/
def readNames (line : List Char) : List (List Char) :=
  match Line.ofText line with
  | .assignment text => mentioned (afterEquals text)
  | .expression text => mentioned text
  | _ => []

/-- The name that each of two lines writes, if it writes one, is neither written nor read by the other. -/
def Independent (first second : List Char) : Prop :=
  (∀ name, writtenName first = some name → writtenName second ≠ some name ∧ name ∉ readNames second) ∧
    ∀ name, writtenName second = some name → writtenName first ≠ some name ∧ name ∉ readNames first

theorem Independent.symm {first second : List Char} (h : Independent first second) : Independent second first :=
  ⟨h.2, h.1⟩

/-! ## What a line writes -/

/-- The line `name = term` writes the name. -/
theorem Equates.writtenName_eq {line name term : List Char} (h : Equates line name term) (hname : isName name = true) :
    writtenName line = some name := by
  have hkind := h.ofText_eq hname
  obtain ⟨left, right, rfl, hleft, -, rfl, -⟩ := h
  have hbefore : beforeEquals (trim (left ++ '=' :: right)) = trim left := by
    rw [beforeEquals, trim_trim]
    exact (beforeEquals_afterEquals_append_cons hleft right).1
  rw [writtenName, hkind]
  simp only [hbefore, hname, if_true]

/-! ## What a line reads -/

namespace Variables

variable {t u : Variables}

/-- A term has the same value with every two tables that give the names in it the same values. -/
theorem termValue_congr {term : List Char} (h : ∀ name ∈ mentioned term, t.lookup name = u.lookup name) :
    t.termValue term = u.termValue term := by
  unfold termValue
  split
  · next hname =>
    have hsame := h term (by rw [mentioned_of_isName hname]; exact List.mem_singleton_self term)
    rw [resolve, resolve, hsame]
  · rfl

/-- An assignment has the same value or the same fault with every two tables that give the names after its equals sign the same
values. -/
theorem assignment_congr {text : List Char} (h : ∀ name ∈ mentioned (afterEquals text), t.lookup name = u.lookup name) :
    t.assignment text = u.assignment text := by
  rw [assignment_eq, assignment_eq, termValue_congr h]

end Variables

namespace Session

variable {session s u : Session} {threshold : Threshold} {line first second name : List Char}

/-- A line leaves the value of every name that it does not write. -/
theorem lookup_next_of_not_written (h : writtenName line ≠ some name) :
    (session.next threshold line).table.lookup name = session.table.lookup name := by
  refine lookup_next_of_not_assigns ?_
  intro term hassigns
  obtain ⟨-, hname, -⟩ := next_of_assigns hassigns
  exact h (hassigns.1.writtenName_eq hname)

/-- Sessions that agree on the names that a line reads give it the same answer, and after it they agree on every name that they
agreed on before. -/
theorem answer_of_agree (h : ∀ name ∈ readNames line, s.table.lookup name = u.table.lookup name) :
    ((s.answer line).value threshold).1 = ((u.answer line).value threshold).1 ∧
      ∀ name, s.table.lookup name = u.table.lookup name →
        (s.next threshold line).table.lookup name = (u.next threshold line).table.lookup name := by
  unfold next
  unfold readNames at h
  rw [value_answer, value_answer]
  cases hkind : Line.ofText line with
  | blank => exact ⟨rfl, fun _ hname => hname⟩
  | command text => exact ⟨rfl, fun _ hname => hname⟩
  | assignment text =>
    rw [hkind] at h
    dsimp only at h ⊢
    rw [Variables.assignment_congr h]
    cases u.table.assignment text with
    | error e => exact ⟨rfl, fun _ hname => hname⟩
    | ok stored =>
      obtain ⟨target, v⟩ := stored
      refine ⟨rfl, fun name hname => ?_⟩
      dsimp only
      rw [Variables.lookup_store, Variables.lookup_store, hname]
  | expression text =>
    rw [hkind] at h
    dsimp only at h ⊢
    have hvalue : (s.table.evaluate text).run.value threshold = (u.table.evaluate text).run.value threshold := by
      rw [Calculation.value_run_eq_result (s.table.onlyObserved_evaluate text),
        Calculation.value_run_eq_result (u.table.onlyObserved_evaluate text), Variables.result_evaluate_congr h]
    rw [hvalue]
    exact ⟨rfl, fun _ hname => hname⟩

/-! ## Two lines in either order -/

/-- After a line the names that another one reads have the values that they had, if it does not write any of them. -/
theorem agree_after (h : ∀ name, writtenName first = some name → name ∉ readNames second) :
    ∀ name ∈ readNames second, (session.next threshold first).table.lookup name = session.table.lookup name := by
  intro name hname
  refine lookup_next_of_not_written ?_
  intro hwritten
  exact h name hwritten hname

/-- A name that the second of two independent lines does not write has the same value after them in either order. -/
theorem lookup_next_next (h : Independent first second) (hname : writtenName second ≠ some name) :
    ((session.next threshold first).next threshold second).table.lookup name =
      ((session.next threshold second).next threshold first).table.lookup name := by
  have hagree : ∀ name ∈ readNames first, (session.next threshold second).table.lookup name = session.table.lookup name :=
    agree_after fun name hwritten => (h.2 name hwritten).2
  have hkept : (session.next threshold second).table.lookup name = session.table.lookup name :=
    lookup_next_of_not_written hname
  calc ((session.next threshold first).next threshold second).table.lookup name
      = (session.next threshold first).table.lookup name := lookup_next_of_not_written hname
    _ = ((session.next threshold second).next threshold first).table.lookup name :=
      ((answer_of_agree hagree).2 name hkept).symm

/-- Two sessions with the same values of all names are the same. -/
theorem ext_table (h : ∀ name, s.table.lookup name = u.table.lookup name) : s = u := by
  have htable := Variables.ext_lookup h
  cases s
  cases u
  exact congrArg Session.mk htable

/-- Two independent lines lead to the same session in either order. -/
theorem next_comm (h : Independent first second) (session : Session) (threshold : Threshold) :
    (session.next threshold first).next threshold second = (session.next threshold second).next threshold first := by
  refine ext_table ?_
  intro name
  by_cases hname : writtenName second = some name
  · have hfirst := (h.2 name hname).1
    exact (lookup_next_next h.symm hfirst).symm
  · exact lookup_next_next h hname

/-- A line is answered after a line that is independent of it as it is before it. -/
theorem answer_next (h : Independent first second) (session : Session) (threshold : Threshold) :
    (((session.next threshold first).answer second).value threshold).1 = ((session.answer second).value threshold).1 :=
  (answer_of_agree (agree_after fun name hwritten => (h.1 name hwritten).2)).1

/-- Two lines of which neither writes a name that the other writes or reads get the same answers in either order, which are those
to each of them alone, and lead to the same session. -/
theorem answer_comm (h : Independent first second) (session : Session) (threshold : Threshold) :
    let afterFirst := (session.answer first).value threshold
    let afterSecond := (session.answer second).value threshold
    ((afterFirst.2.answer second).value threshold).1 = afterSecond.1 ∧
      ((afterSecond.2.answer first).value threshold).1 = afterFirst.1 ∧
      ((afterFirst.2.answer second).value threshold).2 = ((afterSecond.2.answer first).value threshold).2 :=
  ⟨answer_next h session threshold, answer_next h.symm session threshold, next_comm h session threshold⟩

/-- `y = x` reads `x` and writes `y`; the product reads `x` too and fails at `z`, which neither line writes. So it may be said
before the assignment or after it. -/
theorem answer_comm_of_shared_reading :
    let session : Session := { table := Variables.empty.store ['x'] 5 }
    let first := "y = x".toList
    let second := "x * 2 + z".toList
    let next : Session := { table := session.table.store ['y'] 5 }
    Independent first second ∧
      (session.answer first).value none = (.ok .silent, next) ∧
      (session.answer second).value none = (.error .unknownVariable, session) ∧
      (next.answer second).value none = (.error .unknownVariable, next) := by
  intro session first second next
  have hindependent : Independent first second := by
    have hwritten : writtenName first = some ['y'] := by decide +kernel
    have hother : writtenName second = none := by decide +kernel
    have hread : readNames second = [['x'], ['z']] := by decide +kernel
    refine ⟨?_, ?_⟩
    · intro name hname
      obtain rfl := Option.some.inj (hwritten.symm.trans hname)
      rw [hother, hread]
      decide
    · intro name hname
      rw [hother] at hname
      cases hname
  have hfirst : (session.answer first).value none = (.ok .silent, next) := by decide +kernel
  have hsecond : (session.answer second).value none = (.error .unknownVariable, session) := by decide +kernel
  obtain ⟨hsame, -, hlast⟩ := answer_comm hindependent session none
  simp only [hfirst, hsecond] at hsame hlast
  exact ⟨hindependent, hfirst, hsecond, Prod.ext hsame hlast⟩

end Session

end IntegerCalculator
