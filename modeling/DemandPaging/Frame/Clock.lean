/-
  The clock: a hand that goes round the frames and picks the one to reclaim.

  The hand skips frames that are no candidates.  Of a candidate it asks whether
  its page was accessed, which also makes the page count as not accessed until
  it is touched again.  The first candidate that was not accessed is the victim.
  Two turns are enough unless pages are touched again behind the hand; then the
  victim is the first candidate that the hand passed.

  The sweep knows nothing about pages: what a frame's access test answers, and
  what it does, is given to it, and may depend on all tests before it.
-/

namespace DemandPaging.Clock

variable {σ : Type}

/-- Where a sweep ended. -/
structure Stop (σ : Type) where
  /-- The frame to reclaim, if there was a candidate. -/
  victim : Option Nat
  /-- The frame that the hand points to. -/
  hand : Nat
  /-- What the access tests left behind. -/
  state : σ

/-- Examine up to `steps` of `n` frames from `hand` on, when `passed` is the
    first candidate that the hand has passed. -/
def sweep (n : Nat) (candidate : Nat → Bool) (test : Nat → σ → Bool × σ) :
    (steps hand : Nat) → (passed : Option Nat) → σ → Stop σ
  | 0, hand, none, state => ⟨none, hand, state⟩
  | 0, _, some frame, state => ⟨some frame, (frame + 1) % n, state⟩
  | steps + 1, hand, passed, state =>
    let next := (hand + 1) % n
    if candidate hand then
      match test hand state with
      | (true, state) => sweep n candidate test steps next (passed.or (some hand)) state
      | (false, state) => ⟨some hand, next, state⟩
    else sweep n candidate test steps next passed state

/-- Pick a victim among `n` frames: a sweep of at most two turns. -/
def pick (n : Nat) (candidate : Nat → Bool) (test : Nat → σ → Bool × σ) (hand : Nat)
    (state : σ) : Stop σ :=
  sweep n candidate test (2 * n) hand none state

end DemandPaging.Clock
