import IntegerCalculator.Proofs.AssignmentFaults
import IntegerCalculator.Proofs.Dialogue
import IntegerCalculator.Proofs.Resumption

/-!
# Saved sessions

A session is saved as one line for each name that has a value, `name = value` with the value in decimals (`savedLine`). The new
session answers such lines silently and has the same table after them, in whatever order they stand, if all names of the table
are one or more letters (`Session.dialogue_savedLine`); and a table that lines and streams have led to has no other names
(`Session.Reachable.bindsNames`). So every session can be restored (`Session.Reachable.dialogue_savedLine_of_perm`).
-/

namespace IntegerCalculator

/-- The line that assigns the value of an entry to its name. -/
def savedLine (entry : List Char × Int) : List Char := entry.1 ++ " = ".toList ++ decimal entry.2

/-- A session that lines and streams lead to from the new one. -/
inductive Session.Reachable : Session → Prop where
  | fresh : Reachable new
  | answer {session : Session} (h : Reachable session) (line : List Char) (threshold : Threshold) :
    Reachable ((session.answer line).value threshold).2
  | run {session : Session} (h : Reachable session) (bytes : List UInt8) (threshold : Threshold) :
    Reachable ((session.run bytes).value threshold).session

/-! ## Saved lines -/

/-- The text of an integer is a term with this value. -/
theorem Variables.termValue_decimal (table : Variables) (v : Int) : table.termValue (decimal v) = .ok v :=
  TermHasValue.termValue_eq (Or.inr (integer?_eq_some_iff.1 (integer?_decimal v)))

/-- A saved line equates the name and the text of the value. -/
theorem equates_savedLine {name : List Char} (h : isName name = true) (v : Int) :
    Equates (savedLine (name, v)) name (decimal v) := by
  have hspace : ∀ c ∈ [' '], isBlank c = true := List.forall_mem_singleton.2 (by decide)
  refine ⟨name ++ [' '], [' '] ++ decimal v, by simp [savedLine], ?_, ?_, ?_, ?_⟩
  · intro hmem
    rcases List.mem_append.1 hmem with hmem | hmem
    · exact equals_not_mem_of_isName h hmem
    · exact absurd hmem (by decide)
  · intro hmem
    rcases List.mem_append.1 hmem with hmem | hmem
    · exact absurd hmem (by decide)
    · exact absurd (eq_minus_or_isDigit_of_mem_decimal hmem) (by decide)
  · rw [trim_append_blanks name hspace, trim_of_isName h]
  · rw [trim_blanks_append hspace, trim_eq_self fun c hc => isBlank_eq_false_of_mem_decimal hc]

namespace Session

variable {session : Session} {threshold : Threshold}

/-- Saved lines are answered silently one after the other, and their names get their values. -/
theorem dialogue_savedLine (session : Session) {entries : List (List Char × Int)}
    (h : ∀ entry ∈ entries, isName entry.1 = true) (threshold : Threshold) :
    ((session.dialogue (entries.map savedLine)).value threshold).1.map Exchange.answer =
        List.replicate entries.length (.ok .silent) ∧
      ((session.dialogue (entries.map savedLine)).value threshold).2.table =
        entries.foldl (fun t p => t.store p.1 p.2) session.table := by
  induction entries generalizing session with
  | nil => exact ⟨rfl, rfl⟩
  | cons entry entries ih =>
    obtain ⟨hname, hrest⟩ := List.forall_mem_cons.1 h
    have hanswer := answer_of_equates (equates_savedLine hname entry.2) hname (session.table.termValue_decimal entry.2) threshold
    have hfirst : (session.exchange threshold (savedLine entry)).answer = .ok .silent := congrArg Prod.fst hanswer
    have hnext : session.next threshold (savedLine entry) = { session with table := session.table.store entry.1 entry.2 } :=
      congrArg Prod.snd hanswer
    obtain ⟨hanswers, htable⟩ := ih (session.next threshold (savedLine entry)) hrest
    rw [List.map_cons, value_dialogue_cons, List.map_cons, hfirst, hanswers, List.length_cons, List.replicate_succ]
    rw [htable, hnext]
    exact ⟨rfl, rfl⟩

/-! ## Sessions that are reached -/

/-- A line of a stream binds no text that is no name. -/
theorem bindsNames_turn (h : session.table.BindsNames) (line : List UInt8) :
    ((session.turn line).value threshold).session.table.BindsNames := by
  rw [value_turn]
  split
  · exact h
  · next text _ =>
    have hnext : ((session.answer text).value threshold).2.table.BindsNames := bindsNames_next h text
    split <;> exact hnext

/-- A run on lines binds no text that is no name. -/
theorem bindsNames_runLines (h : session.table.BindsNames) (lines : List (List UInt8)) :
    ((session.runLines lines).value threshold).session.table.BindsNames := by
  induction lines generalizing session with
  | nil => exact h
  | cons line lines ih =>
    have hturn : ((session.turn line).value threshold).session.table.BindsNames := bindsNames_turn h line
    rw [value_runLines_cons]
    split
    · exact hturn
    · exact ih hturn

/-- No session that is reached binds a text that is no name. -/
theorem Reachable.bindsNames (h : Reachable session) : session.table.BindsNames := by
  induction h with
  | fresh => exact bindsNames_new
  | answer _ line threshold ih => exact bindsNames_next ih line
  | run _ bytes threshold ih => exact bindsNames_runLines ih (byteLines bytes)

/-- A session that is reached can be saved and restored. The new session answers the saved lines of its table silently, in
whatever order they stand, and has the same table after them; and from there on it answers all lines as the saved session
does. -/
theorem Reachable.dialogue_savedLine_of_perm (h : Reachable session) {entries : List (List Char × Int)}
    (hperm : entries.Perm session.table.entries) (threshold : Threshold) :
    let restored := (new.dialogue (entries.map savedLine)).value threshold
    restored.1.map Exchange.answer = List.replicate entries.length (.ok .silent) ∧ restored.2.table = session.table ∧
      ∀ lines threshold', ((restored.2.dialogue lines).value threshold').1.map Exchange.answer =
        ((session.dialogue lines).value threshold').1.map Exchange.answer := by
  intro restored
  have hnames : ∀ entry ∈ entries, isName entry.1 = true := by
    intro entry hentry
    have hlookup := (Variables.findEntry_eq_some_iff session.table.nodup_names).2 (hperm.mem_iff.1 hentry)
    exact h.bindsNames entry.1 entry.2 hlookup
  obtain ⟨hanswers, htable⟩ := new.dialogue_savedLine hnames threshold
  have hsame : restored.2.table = session.table := htable.trans (Variables.ofList_of_perm hperm)
  have hsession : restored.2 = session := congrArg Session.mk hsame
  exact ⟨hanswers, hsame, fun lines threshold' => by rw [hsession]⟩

/-- A negative value and one beyond every machine word are saved against the order of the names, from a session that a run has
left and a line has changed. -/
theorem dialogue_savedLine_of_swapped_entries :
    let session : Session := { table := (Variables.empty.store ['x'] (-5)).store ['Y'] 99999999999999999999 }
    let restored := (new.dialogue ["x = -5".toList, "Y = 99999999999999999999".toList]).value none
    Reachable session ∧ [(['x'], -5), (['Y'], 99999999999999999999)].Perm session.table.entries ∧
      restored.1.map Exchange.answer = [.ok .silent, .ok .silent] ∧ restored.2.table = session.table ∧
      ((restored.2.dialogue ["Y / x".toList, "x = y".toList]).value none).1.map Exchange.answer =
        ((session.dialogue ["Y / x".toList, "x = y".toList]).value none).1.map Exchange.answer := by
  intro session restored
  have hrun : ((new.run "x = 7\nx = -5\n/exit\n".toUTF8.toList).value none).session =
      { table := Variables.empty.store ['x'] (-5) } := by
    decide +kernel
  have hreach : Reachable session :=
    .answer (hrun ▸ .run .fresh "x = 7\nx = -5\n/exit\n".toUTF8.toList none) "Y=+99999999999999999999".toList none
  have hperm : [(['x'], -5), (['Y'], 99999999999999999999)].Perm session.table.entries := .swap _ _ []
  obtain ⟨hanswers, htable, hlater⟩ := hreach.dialogue_savedLine_of_perm hperm none
  exact ⟨hreach, hperm, hanswers, htable, hlater ["Y / x".toList, "x = y".toList] none⟩

end Session

end IntegerCalculator
