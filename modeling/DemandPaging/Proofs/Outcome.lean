/-
  When a computation comes to a value: what a `do` block needs besides
  `Outcome.bind_eq_ok_iff`.

  * `require_result_iff`: a condition lets the computation go on exactly if it
    holds;
  * `exists_bind`: a sequence comes to a value if its parts do, and to the same as its second
    part (`result_bind_of`);
  * `Completes` is coming to a value, whichever, and `Completes.bind` goes through
    a sequence from front to back; a computation that comes to none panics (`not_iff`).
-/
import DemandPaging.Outcome

namespace DemandPaging.Outcome

variable {α β : Type}

theorem require_result_iff {condition : Prop} [Decidable condition] {cause : Panic} {u : Unit} :
    (require condition cause).result = .ok u ↔ condition :=
  require_eq_ok_iff

theorem result_bind_of {x : Outcome α} {f : α → Outcome β} {a : α} (h : x.result = .ok a) :
    (x >>= f).result = (f a).result := by
  rw [result_bind, h]

theorem exists_bind {x : Outcome α} {f : α → Outcome β} {a : α} (hx : x.result = .ok a)
    (hf : ∃ b, (f a).result = .ok b) : ∃ b, (x >>= f).result = .ok b := by
  obtain ⟨b, hb⟩ := hf
  exact ⟨b, bind_eq_ok_iff.2 ⟨a, hx, hb⟩⟩

/-- What the value of a computation computes to is known of it. -/
theorem exists_of_any {x : Outcome α} {p : α → Bool} (h : x.result.toOption.any p = true) :
    ∃ a, x.result = .ok a ∧ p a = true := by
  cases hx : x.result with
  | error cause => rw [hx] at h; cases h
  | ok a =>
    rw [hx] at h
    exact ⟨a, rfl, h⟩

/-- A computation comes to a value; it does not panic. -/
def Completes (x : Outcome α) : Prop :=
  ∃ a, x.result = .ok a

namespace Completes

variable {x : Outcome α} {f : α → Outcome β} {a : α}

theorem of_eq (h : x.result = .ok a) : x.Completes :=
  ⟨a, h⟩

protected theorem pure (a : α) : (pure a : Outcome α).Completes :=
  ⟨a, rfl⟩

theorem require {condition : Prop} [Decidable condition] {cause : Panic} (h : condition) :
    (require condition cause).Completes :=
  ⟨(), require_eq_ok_iff.2 h⟩

theorem log (event : Event) : (log event).Completes :=
  ⟨(), rfl⟩

theorem not_iff : ¬x.Completes ↔ ∃ cause, x.result = .error cause := by
  unfold Completes
  cases x.result <;> simp

protected theorem bind (hx : x.Completes) (hf : ∀ a, x.result = .ok a → (f a).Completes) :
    (x >>= f).Completes := by
  obtain ⟨a, ha⟩ := hx
  exact exists_bind ha (hf a ha)

theorem bind_of (hx : x.result = .ok a) (hf : (f a).Completes) : (x >>= f).Completes :=
  exists_bind hx hf

end Completes

end DemandPaging.Outcome
