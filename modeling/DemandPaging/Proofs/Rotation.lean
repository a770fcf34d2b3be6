/-
  The sweep of the clock in closed form, whatever the access tests answer.

  From the hand on, the candidates come round in a fixed order.  The tests are made on them in
  that order, twice over, until one answers no.

  * `candidatesFrom`: the candidates in the order in which the hand comes to them, and
    `candidatesFrom_next`: what the order is once the hand is past the first of them;
  * `chase`: the tests made on a list of frames, up to the first that answers no;
  * `pick_eq`: where the clock stops, and what the tests leave behind;
  * `FrameTable.candidates` and `FrameTable.pickVictim_eq`: the same of the frames of a table.
-/
import Mathlib.Data.List.Rotate
import DemandPaging.Machine.Eviction
import DemandPaging.Proofs.Frames

namespace DemandPaging

variable {σ : Type} {n : Nat} {test : Nat → σ → Bool × σ}

namespace Clock

variable {hand : Nat} {candidate : Nat → Bool}

/-! ## The order of the frames -/

/-- The frames that the hand comes to in `steps` steps. -/
def visits (n hand steps : Nat) : List Nat :=
  (List.range steps).map fun i => (hand + i) % n

/-- The candidates among `n` frames, in the order in which the hand comes to them. -/
def candidatesFrom (n : Nat) (candidate : Nat → Bool) (hand : Nat) : List Nat :=
  ((List.range n).rotate hand).filter candidate

theorem mem_visits {c steps : Nat} : c ∈ visits n hand steps ↔ ∃ i < steps, (hand + i) % n = c := by
  simp [visits]

theorem visits_succ (hhand : hand < n) (steps : Nat) :
    visits n hand (steps + 1) = hand :: visits n ((hand + 1) % n) steps := by
  unfold visits
  rw [List.range_succ_eq_map, List.map_cons, List.map_map, Nat.add_zero, Nat.mod_eq_of_lt hhand]
  congr 1
  refine List.map_congr_left fun i _ => ?_
  rw [Function.comp_apply, Nat.mod_add_mod, Nat.succ_eq_add_one, Nat.add_assoc, Nat.add_comm 1 i]

theorem visits_turn : visits n hand n = (List.range n).rotate hand := by
  apply List.ext_getElem
  · simp [visits]
  · intro i _ _
    simp [visits, List.getElem_rotate, Nat.add_comm]

theorem visits_two_turns :
    visits n hand (2 * n) = (List.range n).rotate hand ++ (List.range n).rotate hand := by
  rw [← visits_turn, visits, Nat.two_mul, List.range_add, List.map_append, List.map_map]
  congr 1
  refine List.map_congr_left fun i _ => ?_
  rw [Function.comp_apply, ← Nat.add_assoc, Nat.add_right_comm, Nat.add_mod_right]

theorem rotate_range_mod (k : Nat) : (List.range n).rotate (k % n) = (List.range n).rotate k := by
  simpa using List.rotate_mod (List.range n) k

theorem mem_candidatesFrom {c : Nat} :
    c ∈ candidatesFrom n candidate hand ↔ c < n ∧ candidate c = true := by
  rw [candidatesFrom, List.mem_filter, List.mem_rotate, List.mem_range]

theorem nodup_candidatesFrom : (candidatesFrom n candidate hand).Nodup :=
  (List.nodup_rotate.2 List.nodup_range).filter _

/-- Past the first candidate, the others come in the same order and that one comes last. -/
theorem candidatesFrom_next {c : Nat} {rest : List Nat}
    (h : candidatesFrom n candidate hand = c :: rest) :
    candidatesFrom n candidate ((c + 1) % n) = rest ++ [c] := by
  obtain ⟨before, after, hturn, hbefore, hc, rfl⟩ := List.filter_eq_cons_iff.1 h
  have hlength : before.length < ((List.range n).rotate hand).length := by
    rw [hturn, List.length_append, List.length_cons]
    omega
  have hcount : c = (before.length + hand) % n := by
    have hget : ((List.range n).rotate hand)[before.length] = c := by simp [hturn]
    rw [List.getElem_rotate, List.getElem_range, List.length_range] at hget
    exact hget.symm
  have hnext : (List.range n).rotate ((c + 1) % n) = after ++ (before ++ [c]) := by
    calc (List.range n).rotate ((c + 1) % n)
        = (List.range n).rotate (hand + (before ++ [c]).length) := by
          rw [hcount, Nat.mod_add_mod, rotate_range_mod, List.length_append,
            List.length_singleton, Nat.add_comm before.length, Nat.add_assoc]
      _ = (before ++ [c] ++ after).rotate (before ++ [c]).length := by
          rw [← List.rotate_rotate, hturn, List.append_assoc, List.singleton_append]
      _ = after ++ (before ++ [c]) := List.rotate_append_length_eq _ _
  rw [candidatesFrom, hnext, List.filter_append, List.filter_append,
    List.filter_eq_nil_iff.2 hbefore, List.nil_append, List.filter_singleton, hc, cond_true]

/-! ## The tests in order -/

/-- Make the tests on the given frames, up to the first that answers no: the frame that it was
    made on, and what the tests left behind. -/
def chase (test : Nat → σ → Bool × σ) : List Nat → σ → Option Nat × σ
  | [], state => (none, state)
  | c :: rest, state =>
    match test c state with
    | (true, state) => chase test rest state
    | (false, state) => (some c, state)

theorem mem_of_chase {frames : List Nat} {c : Nat} {state : σ}
    (h : (chase test frames state).1 = some c) : c ∈ frames := by
  induction frames generalizing state with
  | nil => cases h
  | cons d rest ih =>
    simp only [chase] at h
    split at h
    · exact List.mem_cons_of_mem _ (ih h)
    · cases h
      exact List.mem_cons_self

/-- Where a sweep ends depends on the candidates that it comes to alone. -/
theorem sweep_eq (hhand : hand < n) (steps : Nat) (passed : Option Nat) (state : σ) :
    sweep n candidate test steps hand passed state =
      let frames := (visits n hand steps).filter candidate
      let found := chase test frames state
      let victim := found.1.or (passed.or frames.head?)
      ⟨victim, victim.elim ((hand + steps) % n) fun c => (c + 1) % n, found.2⟩ := by
  induction steps generalizing hand passed state with
  | zero =>
    cases passed with
    | none => simp [sweep, visits, chase, Nat.mod_eq_of_lt hhand]
    | some frame => simp [sweep, visits, chase]
  | succ steps ih =>
    have hnext : (hand + 1) % n < n := Nat.mod_lt _ (Nat.lt_of_le_of_lt (Nat.zero_le _) hhand)
    have hlast : ((hand + 1) % n + steps) % n = (hand + (steps + 1)) % n := by
      rw [Nat.mod_add_mod, Nat.add_assoc, Nat.add_comm 1 steps]
    rw [sweep, visits_succ hhand, List.filter_cons]
    dsimp only
    split
    · rw [chase]
      rcases test hand state with ⟨_ | _, state'⟩
      · rfl
      · simp only [ih hnext, hlast, List.head?_cons, Option.or_assoc, Option.some_or]
    · simp only [ih hnext, hlast]

/-- The clock takes the first candidate whose test answers no, in two turns, and else the first
    candidate.  The hand stops behind the victim, and stays where it is if there is none. -/
theorem pick_eq (hhand : hand < n ∨ n = 0) (state : σ) :
    pick n candidate test hand state =
      let frames := candidatesFrom n candidate hand
      let found := chase test (frames ++ frames) state
      let victim := found.1.or frames.head?
      ⟨victim, victim.elim hand fun c => (c + 1) % n, found.2⟩ := by
  rcases hhand with hhand | rfl
  · have hturns : (hand + 2 * n) % n = hand := by
      rw [Nat.two_mul, ← Nat.add_assoc, Nat.add_mod_right, Nat.add_mod_right,
        Nat.mod_eq_of_lt hhand]
    rw [pick, sweep_eq hhand, hturns, visits_two_turns, List.filter_append]
    dsimp only
    rw [Option.none_or, List.head?_append, Option.or_self]
    rfl
  · rfl

end Clock

/-! ## The frames of a table -/

namespace FrameTable

variable {table : FrameTable n}

/-- The frames that the clock may choose, in the order in which the hand comes to them. -/
def candidates (table : FrameTable n) : List Frame :=
  (Clock.candidatesFrom n (fun frame => table.isCandidate ⟨frame⟩) table.hand).map Frame.mk

theorem lt_of_isCandidate {frame : Frame} (h : table.isCandidate frame = true) :
    frame.index < n := by
  simp only [isCandidate, Bool.and_eq_true] at h
  exact Pool.lt_of_isAllocated h.1.1

theorem mem_candidates {frame : Frame} :
    frame ∈ table.candidates ↔ table.isCandidate frame = true := by
  simp only [candidates, List.mem_map, Clock.mem_candidatesFrom]
  constructor
  · rintro ⟨i, ⟨-, hi⟩, rfl⟩
    exact hi
  · exact fun h => ⟨frame.index, ⟨lt_of_isCandidate h, h⟩, rfl⟩

theorem nodup_candidates : table.candidates.Nodup :=
  Clock.nodup_candidatesFrom.map fun _ _ h => congrArg Frame.index h

theorem pickVictim_eq (hhand : table.hand < n ∨ n = 0) (state : σ) :
    table.pickVictim test state =
      let order := Clock.candidatesFrom n (fun frame => table.isCandidate ⟨frame⟩) table.hand
      let found := Clock.chase test (order ++ order) state
      let victim := (found.1.map Frame.mk).or table.candidates.head?
      (victim, { table with hand := victim.elim table.hand fun frame => (frame.index + 1) % n },
        found.2) := by
  rw [pickVictim, Clock.pick_eq hhand, candidates]
  dsimp only
  rw [List.head?_map, ← Option.map_or]
  congr 3
  generalize Option.or _ _ = victim
  cases victim <;> rfl

end FrameTable

end DemandPaging
