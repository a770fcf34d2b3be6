/-
  What a computation of the machine comes to: the events it reports on the way,
  and then a value or a panic.

  A panic ends the computation but not the log: events reported before it stay.
  Failures that a caller can recover from are values here, an `Except Error` in
  the result.

  * `Outcome` is a lawful monad; `Outcome.log` reports an event,
    `Outcome.halt` stops, and `Outcome.require` stops unless a condition holds;
  * `result_bind` and `events_bind` say what the two parts of a sequence are: the
    log never matters to a result;
  * `bind_eq_ok_iff` and `bind_eq_error_iff` say when a sequence comes to a value
    and when to a panic.
-/
import DemandPaging.Panic
import DemandPaging.Event

namespace DemandPaging

/-- The events that a computation reports, and its value or the panic that ended
    it. -/
@[ext] structure Outcome (α : Type) where
  /-- The events reported, in order. -/
  events : List Event
  /-- The value, or the cause of the panic. -/
  result : Except Panic α

namespace Outcome

variable {α β γ : Type}

/-- A value, with nothing to report. -/
protected def pure (a : α) : Outcome α :=
  ⟨[], .ok a⟩

/-- One computation after another; a panic of the first is the panic of both. -/
protected def bind (x : Outcome α) (f : α → Outcome β) : Outcome β :=
  match x.result with
  | .ok a => ⟨x.events ++ (f a).events, (f a).result⟩
  | .error p => ⟨x.events, .error p⟩

instance : Monad Outcome where
  pure := Outcome.pure
  bind := Outcome.bind

/-- Report an event. -/
def log (event : Event) : Outcome Unit :=
  ⟨[event], .ok ()⟩

/-- Stop the machine. -/
def halt (cause : Panic) : Outcome α :=
  ⟨[], .error cause⟩

/-- Stop the machine unless a condition holds. -/
def require (condition : Prop) [Decidable condition] (cause : Panic) : Outcome Unit :=
  if condition then pure () else halt cause

/-! ## The two parts of a computation -/

@[simp] theorem result_pure (a : α) : (pure a : Outcome α).result = .ok a := rfl

@[simp] theorem events_pure (a : α) : (pure a : Outcome α).events = [] := rfl

@[simp] theorem result_log (event : Event) : (log event).result = .ok () := rfl

@[simp] theorem events_log (event : Event) : (log event).events = [event] := rfl

@[simp] theorem result_halt (cause : Panic) : (halt cause : Outcome α).result = .error cause := rfl

@[simp] theorem events_halt (cause : Panic) : (halt cause : Outcome α).events = [] := rfl

theorem result_bind (x : Outcome α) (f : α → Outcome β) :
    (x >>= f).result = match x.result with
      | .ok a => (f a).result
      | .error p => .error p := by
  change (Outcome.bind x f).result = _
  unfold Outcome.bind
  cases x.result <;> rfl

theorem events_bind (x : Outcome α) (f : α → Outcome β) :
    (x >>= f).events = x.events ++ match x.result with
      | .ok a => (f a).events
      | .error _ => [] := by
  change (Outcome.bind x f).events = _
  unfold Outcome.bind
  cases x.result <;> simp

theorem bind_eq_ok_iff {x : Outcome α} {f : α → Outcome β} {b : β} :
    (x >>= f).result = .ok b ↔ ∃ a, x.result = .ok a ∧ (f a).result = .ok b := by
  rw [result_bind]
  cases x.result <;> simp

theorem bind_eq_error_iff {x : Outcome α} {f : α → Outcome β} {p : Panic} :
    (x >>= f).result = .error p ↔
      x.result = .error p ∨ ∃ a, x.result = .ok a ∧ (f a).result = .error p := by
  rw [result_bind]
  cases x.result <;> simp

/-! ## Conditions -/

section

variable {condition : Prop} [Decidable condition] {cause : Panic}

@[simp] theorem require_of_true (h : condition) : require condition cause = pure () :=
  if_pos h

@[simp] theorem require_of_false (h : ¬condition) : require condition cause = halt cause :=
  if_neg h

theorem require_eq_ok_iff : (require condition cause).result = .ok () ↔ condition := by
  by_cases h : condition <;> simp [h]

end

/-! ## Laws -/

@[simp] theorem pure_bind (a : α) (f : α → Outcome β) : (pure a >>= f) = f a := rfl

@[simp] theorem halt_bind (cause : Panic) (f : α → Outcome β) :
    (halt cause >>= f) = halt cause := rfl

@[simp] theorem result_log_bind (event : Event) (f : Unit → Outcome β) :
    (log event >>= f).result = (f ()).result := rfl

theorem bind_pure (x : Outcome α) : (x >>= pure) = x := by
  ext1
  · rw [events_bind]; cases x.result <;> simp
  · rw [result_bind]; cases x.result <;> rfl

theorem bind_assoc (x : Outcome α) (f : α → Outcome β) (g : β → Outcome γ) :
    (x >>= f >>= g) = (x >>= fun a => f a >>= g) := by
  ext1
  · simp only [events_bind, result_bind]
    cases x.result <;> simp
  · simp only [result_bind]
    cases x.result <;> simp

instance : LawfulMonad Outcome :=
  LawfulMonad.mk' Outcome (fun x => bind_pure x) pure_bind bind_assoc

theorem result_map (f : α → β) (x : Outcome α) :
    (f <$> x).result = match x.result with
      | .ok a => .ok (f a)
      | .error p => .error p := by
  rw [← bind_pure_comp, result_bind]
  rfl

@[simp] theorem map_halt (f : α → β) (cause : Panic) : f <$> halt cause = halt cause := rfl

theorem map_eq_ok_iff {f : α → β} {x : Outcome α} {b : β} :
    (f <$> x).result = .ok b ↔ ∃ a, x.result = .ok a ∧ f a = b := by
  rw [result_map]
  cases x.result <;> simp

end Outcome

end DemandPaging
