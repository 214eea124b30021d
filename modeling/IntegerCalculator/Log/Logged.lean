import IntegerCalculator.Log.Event

/-!
# Computations that report to the log

A logged computation is told the threshold of the log and gives a value together with the events that it wrote, in order. An
event below the threshold is not written, and a computation may ask whether events of a level are, so as to spare the work of
making one. A calculation is a logged computation that may fail, and what it wrote before it failed stays written.
-/

namespace IntegerCalculator

/-- A computation that writes events to a log of some threshold. -/
def Logged (α : Type) : Type := Threshold → α × List Event

namespace Logged

variable {α β : Type}

/-- The value of a computation at a threshold. -/
def value (x : Logged α) (threshold : Threshold) : α := (x threshold).1

/-- What a computation writes at a threshold. -/
def log (x : Logged α) (threshold : Threshold) : List Event := (x threshold).2

/-- The events of both lists, the first list not being copied when nothing follows it. -/
def followedBy (before after : List Event) : List Event :=
  match after with
  | [] => before
  | _ :: _ => before ++ after

instance : Monad Logged where
  pure a := fun _ => (a, [])
  bind x f := fun threshold =>
    let (a, before) := x threshold
    let (b, after) := f a threshold
    (b, followedBy before after)

/-- Writes an event, if the threshold admits its level. -/
def write (e : Event) : Logged Unit := fun threshold => ((), if threshold.admits e.level then [e] else [])

theorem followedBy_eq_append (before after : List Event) : followedBy before after = before ++ after := by
  cases after <;> simp [followedBy]

@[simp] theorem log_pure (a : α) (t : Threshold) : (pure a : Logged α).log t = [] := rfl

@[simp] theorem value_bind (x : Logged α) (f : α → Logged β) (t : Threshold) :
    (x >>= f).value t = (f (x.value t)).value t := rfl

@[simp] theorem log_bind (x : Logged α) (f : α → Logged β) (t : Threshold) :
    (x >>= f).log t = x.log t ++ (f (x.value t)).log t := followedBy_eq_append _ _

@[simp] theorem log_write (e : Event) (t : Threshold) :
    (write e).log t = if t.admits e.level then [e] else [] := rfl

/-- Grouping computations differently changes neither what they give nor what they write. -/
instance : LawfulMonad Logged :=
  LawfulMonad.mk' Logged
    (fun _ => rfl)
    (fun _ _ => funext fun _ => Prod.ext rfl (followedBy_eq_append _ _))
    (fun _ _ _ => funext fun _ => Prod.ext rfl (by simp [bind, followedBy_eq_append]))

end Logged

/-- A logged computation that may fail. -/
abbrev Calculation (α : Type) : Type := ExceptT Error Logged α

namespace Calculation

variable {α : Type}

/-- A calculation that writes nothing. -/
def ofExcept (result : Except Error α) : Calculation α := fun _ => (result, [])

/-- Writes an event. -/
def write (e : Event) : Calculation Unit := fun threshold => (.ok (), (Logged.write e threshold).2)

/-- Asks whether events of the level are written. -/
def admits (level : Level) : Calculation Bool := fun threshold => (.ok (threshold.admits level), [])

/-- The result of a calculation, which is taken where nothing is written. -/
def result (x : Calculation α) : Except Error α := (x none).1

variable {β : Type}

@[simp] theorem result_pure (a : α) : (pure a : Calculation α).result = .ok a := rfl

@[simp] theorem result_ofExcept (r : Except Error α) : (ofExcept r).result = r := rfl

@[simp] theorem result_write (e : Event) : (write e).result = .ok () := rfl

/-- A calculation that succeeds without writing is the pure one. -/
theorem ofExcept_ok (a : α) : ofExcept (.ok a) = pure a := rfl

@[simp] theorem ok_bind (a : α) (f : α → Except Error β) : (.ok a >>= f) = f a := rfl

@[simp] theorem error_bind (e : Error) (f : α → Except Error β) : (.error e >>= f) = .error e := rfl

/-- The result of two calculations in a row is the error of the first, or else the result of the second. -/
theorem result_bind (x : Calculation α) (f : α → Calculation β) :
    (x >>= f).result = x.result >>= fun a => (f a).result := by
  change (x >>= f).run.value none = (x.run.value none >>= fun a => (f a).run.value none)
  rw [ExceptT.run_bind, Logged.value_bind]
  cases x.run.value none with
  | ok a => rfl
  | error e => rfl

theorem result_bind_of_ok {x : Calculation α} {f : α → Calculation β} {a : α} (h : x.result = .ok a) :
    (x >>= f).result = (f a).result := by
  rw [result_bind, h, ok_bind]

theorem result_bind_of_error {x : Calculation α} {f : α → Calculation β} {e : Error} (h : x.result = .error e) :
    (x >>= f).result = .error e := by
  rw [result_bind, h, error_bind]

/-- Two calculations in a row succeed when the first does and then the second. -/
theorem result_bind_eq_ok_iff {x : Calculation α} {f : α → Calculation β} {b : β} :
    (x >>= f).result = .ok b ↔ ∃ a, x.result = .ok a ∧ (f a).result = .ok b := by
  rw [result_bind]
  cases x.result with
  | ok a => simp
  | error e => simp

end Calculation

end IntegerCalculator
