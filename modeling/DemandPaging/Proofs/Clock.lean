/-
  Sweeps of the clock, whatever the access tests answer.

  * `candidate_of_pick`: the victim is a candidate;
  * `pick_state`: what every access test keeps, the sweep keeps;
  * `pick_rel`: tests that answer alike make sweeps that end alike;
  * `pick_hand_lt`: the hand stays on the frames;
  * `exists_rotate` and `rotate_inj`: a turn of the hand comes to every frame, and to each once;
  * `exists_pick`: there is a victim as soon as there is a candidate.
-/
import Mathlib.Data.Nat.ModEq
import DemandPaging.Frame.Clock

namespace DemandPaging.Clock

variable {σ : Type} {n : Nat} {candidate : Nat → Bool} {test : Nat → σ → Bool × σ}

theorem candidate_of_sweep {steps hand : Nat} {passed : Option Nat} {state : σ} {frame : Nat}
    (hpassed : ∀ g, passed = some g → candidate g = true)
    (h : (sweep n candidate test steps hand passed state).victim = some frame) :
    candidate frame = true := by
  induction steps generalizing hand passed state with
  | zero =>
    cases passed with
    | none => simp [sweep] at h
    | some g =>
      simp only [sweep, Option.some.injEq] at h
      exact h ▸ hpassed g rfl
  | succ steps ih =>
    simp only [sweep] at h
    split at h
    · rename_i hc
      split at h
      · refine ih (fun g hg => ?_) h
        cases passed with
        | none =>
          simp only [Option.none_or, Option.some.injEq] at hg
          exact hg ▸ hc
        | some g' => exact hpassed g (by simpa using hg)
      · simp only [Option.some.injEq] at h
        exact h ▸ hc
    · exact ih hpassed h

theorem sweep_state {P : σ → Prop} (hP : ∀ frame s, P s → P (test frame s).2) {steps hand : Nat}
    {passed : Option Nat} {state : σ} (h : P state) :
    P (sweep n candidate test steps hand passed state).state := by
  induction steps generalizing hand passed state with
  | zero => cases passed <;> exact h
  | succ steps ih =>
    have htest := hP hand state h
    simp only [sweep]
    split
    · split
      · rename_i heq; rw [heq] at htest
        exact ih htest
      · rename_i heq; rw [heq] at htest
        exact htest
    · exact ih h

/-- Sweeps go the same way as long as the tests answer alike. -/
theorem sweep_rel {τ : Type} {test' : Nat → τ → Bool × τ} {R : σ → τ → Prop}
    (hR : ∀ frame s t, R s t →
      (test frame s).1 = (test' frame t).1 ∧ R (test frame s).2 (test' frame t).2)
    {steps hand : Nat} {passed : Option Nat} {s : σ} {t : τ} (h : R s t) :
    (sweep n candidate test steps hand passed s).victim =
        (sweep n candidate test' steps hand passed t).victim ∧
      (sweep n candidate test steps hand passed s).hand =
        (sweep n candidate test' steps hand passed t).hand ∧
      R (sweep n candidate test steps hand passed s).state
        (sweep n candidate test' steps hand passed t).state := by
  induction steps generalizing hand passed s t with
  | zero => cases passed <;> exact ⟨rfl, rfl, h⟩
  | succ steps ih =>
    obtain ⟨hanswer, hstate⟩ := hR hand s t h
    simp only [sweep]
    split
    · rcases hs : test hand s with ⟨answer, s'⟩
      rcases ht : test' hand t with ⟨answer', t'⟩
      rw [hs, ht] at hanswer hstate
      obtain rfl : answer = answer' := hanswer
      cases answer with
      | true => exact ih hstate
      | false => exact ⟨rfl, rfl, hstate⟩
    · exact ih h

theorem sweep_hand_lt {steps hand : Nat} {passed : Option Nat} {state : σ} (h : hand < n) :
    (sweep n candidate test steps hand passed state).hand < n := by
  have hpos : 0 < n := Nat.lt_of_le_of_lt (Nat.zero_le _) h
  induction steps generalizing hand passed state with
  | zero =>
    cases passed with
    | none => exact h
    | some g => exact Nat.mod_lt _ hpos
  | succ steps ih =>
    have hnext : (hand + 1) % n < n := Nat.mod_lt _ hpos
    simp only [sweep]
    split
    · split
      · exact ih hnext
      · exact hnext
    · exact ih hnext

theorem exists_sweep_of_passed {steps hand g : Nat} {state : σ} :
    ∃ frame, (sweep n candidate test steps hand (some g) state).victim = some frame := by
  induction steps generalizing hand state with
  | zero => exact ⟨g, rfl⟩
  | succ steps ih =>
    simp only [sweep]
    split
    · split
      · exact ih
      · exact ⟨hand, rfl⟩
    · exact ih

/-- A sweep finds a victim if it comes to a candidate. -/
theorem exists_sweep {steps hand k : Nat} {passed : Option Nat} {state : σ} (hk : k < steps)
    (hhand : hand < n) (hc : candidate ((hand + k) % n) = true) :
    ∃ frame, (sweep n candidate test steps hand passed state).victim = some frame := by
  induction steps generalizing hand k passed state with
  | zero => omega
  | succ steps ih =>
    have hnext : (hand + 1) % n < n := Nat.mod_lt _ (Nat.lt_of_le_of_lt (Nat.zero_le _) hhand)
    simp only [sweep]
    split
    · split
      · cases passed with
        | none => exact exists_sweep_of_passed
        | some g => exact exists_sweep_of_passed
      · exact ⟨hand, rfl⟩
    · rename_i hnot
      cases k with
      | zero =>
        rw [Nat.add_zero, Nat.mod_eq_of_lt hhand] at hc
        exact absurd hc hnot
      | succ k =>
        refine ih (k := k) (by omega) hnext ?_
        rw [Nat.mod_add_mod]
        rwa [Nat.add_assoc, Nat.add_comm 1 k]

/-! ## Whole sweeps -/

theorem candidate_of_pick {hand frame : Nat} {state : σ}
    (h : (pick n candidate test hand state).victim = some frame) : candidate frame = true :=
  candidate_of_sweep (fun _ hg => by cases hg) h

theorem pick_state {P : σ → Prop} (hP : ∀ frame s, P s → P (test frame s).2) {hand : Nat}
    {state : σ} (h : P state) : P (pick n candidate test hand state).state :=
  sweep_state hP h

theorem pick_rel {τ : Type} {test' : Nat → τ → Bool × τ} {R : σ → τ → Prop}
    (hR : ∀ frame s t, R s t →
      (test frame s).1 = (test' frame t).1 ∧ R (test frame s).2 (test' frame t).2)
    {hand : Nat} {s : σ} {t : τ} (h : R s t) :
    (pick n candidate test hand s).victim = (pick n candidate test' hand t).victim ∧
      (pick n candidate test hand s).hand = (pick n candidate test' hand t).hand ∧
      R (pick n candidate test hand s).state (pick n candidate test' hand t).state :=
  sweep_rel hR h

theorem pick_hand_lt {hand : Nat} {state : σ} (h : hand < n) :
    (pick n candidate test hand state).hand < n :=
  sweep_hand_lt h

/-- From the hand it takes less than a turn to come to a frame. -/
theorem exists_rotate {hand frame : Nat} (hhand : hand < n) (hframe : frame < n) :
    ∃ k < n, (hand + k) % n = frame := by
  refine ⟨(frame + (n - hand)) % n, Nat.mod_lt _ (Nat.lt_of_le_of_lt (Nat.zero_le _) hhand), ?_⟩
  rw [Nat.add_mod_mod, show hand + (frame + (n - hand)) = frame + n by omega, Nat.add_mod_right,
    Nat.mod_eq_of_lt hframe]

/-- In less than a turn the hand does not come back to a frame. -/
theorem rotate_inj {hand i j : Nat} (hi : i < n) (hj : j < n)
    (h : (hand + i) % n = (hand + j) % n) : i = j :=
  Nat.ModEq.eq_of_lt_of_lt (Nat.ModEq.add_left_cancel' hand h) hi hj

theorem exists_pick {hand frame : Nat} {state : σ} (hhand : hand < n) (hframe : frame < n)
    (hc : candidate frame = true) :
    ∃ victim, (pick n candidate test hand state).victim = some victim := by
  obtain ⟨k, hk, rfl⟩ := exists_rotate hhand hframe
  exact exists_sweep (by omega) hhand hc

end DemandPaging.Clock
