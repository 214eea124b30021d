import IntegerCalculator.Proofs.Compositional
import IntegerCalculator.Proofs.Dialogue
import IntegerCalculator.Session.Run

/-!
# The log only observes

Whatever the log shows, the calculator computes the same: results, output, outcome and sessions do not depend on the threshold,
and the log at a level holds those entries of the most detailed log that are at least as grave, in the same order
(`Logged.OnlyObserved`). Steps that only write events have this property, and so has one computation after another. One step
asks for the threshold and does more where the log is detailed: it reads a line again for the log. This step cannot fail, since
the line has been read before (`Lexeme.onlyObserved_reportLine`), so the expression goes the same way with it and without it.
-/

namespace IntegerCalculator

/-- The computation gives the same value whatever is logged. At each level it writes those events that are at least as grave
among the ones it writes at the most detailed level, and it writes nothing where nothing is admitted. -/
structure Logged.OnlyObserved {α : Type} (x : Logged α) : Prop where
  value_eq : ∀ t u : Threshold, x.value t = x.value u
  log_level : ∀ level : Level, x.log (some level) = (x.log (some .trace)).filter fun e => e.level.detail ≤ level.detail
  log_none : x.log none = []

/-! ## Logged computations -/

namespace Logged.OnlyObserved

variable {α β : Type} {x : Logged α} {f : α → Logged β}

/-- At each threshold the events are written that it admits. -/
theorem log_eq (h : x.OnlyObserved) (t : Threshold) :
    x.log t = (x.log (some .trace)).filter fun e => t.admits e.level := by
  cases t with
  | none =>
    rw [h.log_none]
    exact (List.filter_eq_nil_iff.2 fun _ _ => Bool.false_ne_true).symm
  | some level => exact h.log_level level

/-- A computation with the same value at all thresholds that writes what each of them admits is only observed. -/
theorem of_log_eq (hvalue : ∀ t u : Threshold, x.value t = x.value u)
    (hlog : ∀ t : Threshold, x.log t = (x.log (some .trace)).filter fun e => t.admits e.level) : x.OnlyObserved := by
  refine ⟨hvalue, fun level => hlog (some level), ?_⟩
  rw [hlog none]
  exact List.filter_eq_nil_iff.2 fun _ _ => Bool.false_ne_true

theorem pure (a : α) : (Pure.pure a : Logged α).OnlyObserved := ⟨fun _ _ => rfl, fun _ => rfl, rfl⟩

theorem write (e : Event) : (Logged.write e).OnlyObserved := by
  refine of_log_eq (fun _ _ => rfl) ?_
  intro t
  rw [log_write, log_write, Threshold.admits_trace, if_pos rfl, List.filter_cons, List.filter_nil]

/-- One computation after another is only observed if both are. -/
theorem bind (hx : x.OnlyObserved) (hf : (f (x.value none)).OnlyObserved) : (x >>= f).OnlyObserved := by
  refine of_log_eq ?_ ?_
  · intro t u
    rw [value_bind, value_bind, hx.value_eq t none, hx.value_eq u none]
    exact hf.value_eq t u
  · intro t
    rw [log_bind, log_bind, hx.value_eq t none, hx.value_eq (some .trace) none, List.filter_append, hx.log_eq t, hf.log_eq t]

end Logged.OnlyObserved

/-! ## Calculations -/

namespace Calculation

open Logged (OnlyObserved)

variable {α β : Type}

/-- The result of a calculation that is only observed is its value at any threshold. -/
theorem value_run_eq_result {x : Calculation α} (h : x.run.OnlyObserved) (t : Threshold) : x.run.value t = x.result :=
  h.value_eq t none

theorem onlyObserved_pure (a : α) : (pure a : Calculation α).run.OnlyObserved := .pure _

theorem onlyObserved_ofExcept (r : Except Error α) : (ofExcept r).run.OnlyObserved := .pure r

theorem onlyObserved_write (e : Event) : (write e).run.OnlyObserved := by
  have hwrite := Logged.OnlyObserved.write e
  exact ⟨fun _ _ => rfl, hwrite.log_level, hwrite.log_none⟩

/-- One calculation after another is only observed if the first is, and the second after each result of the first. -/
theorem onlyObserved_bind {x : Calculation α} {f : α → Calculation β} (hx : x.run.OnlyObserved)
    (hf : ∀ a, x.result = .ok a → (f a).run.OnlyObserved) : (x >>= f).run.OnlyObserved := by
  have hvalue : x.run.value none = x.result := rfl
  rw [ExceptT.run_bind]
  refine hx.bind ?_
  rw [hvalue]
  cases hresult : x.result with
  | ok a => exact hf a hresult
  | error e => exact .pure _

/-- Work for the log that is done only where events of a level are written is only observed, if it always succeeds and writes no
event graver than that. -/
theorem onlyObserved_whenAdmitted {level : Level} {x : Calculation Unit} (hx : x.run.OnlyObserved) (hok : x.result = .ok ())
    (hlog : ∀ e ∈ x.run.log (some .trace), level.detail ≤ e.level.detail) :
    (admits level >>= fun admitted => if admitted then x else pure ()).run.OnlyObserved := by
  have hrun : ∀ t : Threshold, (admits level >>= fun admitted => if admitted then x else pure ()).run.value t = .ok () ∧
      (admits level >>= fun admitted => if admitted then x else pure ()).run.log t =
        if t.admits level then x.run.log t else [] := by
    intro t
    rw [ExceptT.run_bind, Logged.value_bind, Logged.log_bind]
    have hvalue : (admits level).run.value t = .ok (t.admits level) := rfl
    have hnothing : (admits level).run.log t = [] := rfl
    rw [hvalue, hnothing]
    cases t.admits level with
    | true => exact ⟨(value_run_eq_result hx t).trans hok, rfl⟩
    | false => exact ⟨rfl, rfl⟩
  refine .of_log_eq ?_ ?_
  · intro t u
    rw [(hrun t).1, (hrun u).1]
  · intro t
    rw [(hrun t).2, (hrun (some .trace)).2, Threshold.admits_trace, if_pos rfl]
    split
    · exact hx.log_eq t
    · next hadmits =>
      refine (List.filter_eq_nil_iff.2 ?_).symm
      intro e he hadmits'
      exact hadmits (Threshold.admits_of_detail_le (hlog e he) hadmits')

end Calculation

open Calculation

/-! ## Expressions -/

/-- The parts of a conversion and of an evaluation are only observed, and so are both as a whole. -/
theorem Calculation.compositional_onlyObserved : Compositional fun _ x => x.run.OnlyObserved where
  ofExcept := onlyObserved_ofExcept
  write := fun _ => onlyObserved_write _
  bind := fun hx hf => onlyObserved_bind hx fun a _ => hf a

/-- To read a line again for the log cannot fail, and only writes what the threshold admits anyway. -/
theorem Lexeme.onlyObserved_reportLine {line : List Char} {lexemes : List Lexeme} (h : ofLine line = .ok lexemes) :
    (reportLine line).run.OnlyObserved := by
  -- the second reading gives the lexemes of the first one
  unfold reportLine
  rw [h, ofExcept_ok, pure_bind]
  cases allTokens? lexemes with
  | none =>
    refine onlyObserved_whenAdmitted (onlyObserved_pure _) rfl ?_
    intro e he
    cases he
  | some tokens =>
    refine onlyObserved_whenAdmitted (onlyObserved_write _) rfl ?_
    intro e he
    obtain rfl := List.mem_singleton.1 he
    exact Nat.le_refl _

theorem Variables.onlyObserved_evaluate (table : Variables) (line : List Char) : (table.evaluate line).run.OnlyObserved := by
  refine onlyObserved_bind (onlyObserved_ofExcept _) fun lexemes hlexemes => ?_
  refine onlyObserved_bind (Lexeme.onlyObserved_reportLine hlexemes) fun _ _ => ?_
  refine onlyObserved_bind (compositional_onlyObserved.ofLexemes table lexemes) fun items _ => ?_
  exact onlyObserved_bind (onlyObserved_write _) fun _ _ => compositional_onlyObserved.value items

/-! ## Sessions -/

open Logged (OnlyObserved)

theorem Variables.onlyObserved_assign (table : Variables) (line : List Char) : (table.assign line).OnlyObserved := by
  unfold assign
  split
  · exact .pure _
  · exact (OnlyObserved.write _).bind (.pure _)

namespace Session

theorem onlyObserved_answer (session : Session) (line : List Char) : (session.answer line).OnlyObserved := by
  unfold answer
  split
  · exact .pure _
  · exact .pure _
  · exact (session.table.onlyObserved_assign _).bind (.pure _)
  · exact (session.table.onlyObserved_evaluate _).bind (.pure _)

theorem onlyObserved_dialogue (session : Session) (lines : List (List Char)) : (session.dialogue lines).OnlyObserved := by
  induction lines generalizing session with
  | nil => exact .pure _
  | cons line lines ih => exact (session.onlyObserved_answer line).bind ((ih _).bind (.pure _))

theorem onlyObserved_turn (session : Session) (line : List UInt8) : (session.turn line).OnlyObserved := by
  unfold turn
  split
  · exact .pure _
  · next text _ =>
    refine (session.onlyObserved_answer text).bind ?_
    generalize (session.answer text).value none = answered
    obtain ⟨result, next⟩ := answered
    dsimp only
    split
    · exact (OnlyObserved.write _).bind (.pure _)
    · exact .pure _
    · exact (OnlyObserved.write _).bind (.pure _)

theorem onlyObserved_runLines (session : Session) (lines : List (List UInt8)) : (session.runLines lines).OnlyObserved := by
  induction lines generalizing session with
  | nil => exact ((OnlyObserved.write _).bind (.write _)).bind (.pure _)
  | cons line lines ih =>
    refine (session.onlyObserved_turn line).bind ?_
    split
    · exact .pure _
    · exact (ih _).bind (.pure _)

theorem onlyObserved_run (session : Session) (bytes : List UInt8) : (session.run bytes).OnlyObserved :=
  (OnlyObserved.write _).bind (session.onlyObserved_runLines _)

end Session

/-- The log only observes. The value or error of every line with every table, the answers to all lines of a dialogue and the
session after it, and the output, the session and the ending of a run on any bytes are the same whatever is logged; and the log
of each at a level holds the entries of its most detailed log that are at least as grave, in their order. -/
theorem log_only_observes :
    (∀ (table : Variables) (line : List Char), (table.evaluate line).run.OnlyObserved) ∧
      (∀ (session : Session) (lines : List (List Char)), (session.dialogue lines).OnlyObserved) ∧
      ∀ (session : Session) (bytes : List UInt8), (session.run bytes).OnlyObserved :=
  ⟨Variables.onlyObserved_evaluate, Session.onlyObserved_dialogue, Session.onlyObserved_run⟩

end IntegerCalculator
