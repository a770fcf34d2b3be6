/-
  The pool of frames for user processes.

  The pool tells which frames are handed out and which of those are pinned; what
  they hold is no business of it.  Freeing a frame unpins it.
-/
import DemandPaging.Frame.Placement
import DemandPaging.Outcome

namespace DemandPaging

/-- A pool of `n` frames, placed by the policy `π`. -/
structure Pool (π : Type) (n : Nat) where
  /-- What is known about each frame. -/
  coreMap : Vector CoreEntry n
  /-- How free frames are chosen. -/
  policy : π
  /-- The number of frames handed out. -/
  inUse : Nat

namespace Pool

variable {π : Type} {n : Nat}

/-- The pool with all frames free. -/
def ofPolicy (policy : π) (n : Nat) : Pool π n :=
  ⟨Vector.replicate n {}, policy, 0⟩

/-- What is known about a frame, which must be part of the pool. -/
def entry (pool : Pool π n) (frame : Frame) : Outcome CoreEntry :=
  match pool.coreMap[frame.index]? with
  | some entry => pure entry
  | none => Outcome.halt (.frameNotInPool frame)

/-- Whether a frame is handed out.  Frames that are not part of the pool are
    not. -/
def isAllocated (pool : Pool π n) (frame : Frame) : Bool :=
  match pool.coreMap[frame.index]? with
  | some entry => entry.allocated
  | none => false

/-- Whether a frame is known to be pinned. -/
def hasPin (pool : Pool π n) (frame : Frame) : Bool :=
  match pool.coreMap[frame.index]? with
  | some entry => entry.pinned
  | none => false

/-- Whether a frame, which must be part of the pool, is pinned. -/
def isPinned (pool : Pool π n) (frame : Frame) : Outcome Bool := do
  let entry ← pool.entry frame
  return entry.pinned

/-- Record what is known about a frame. -/
def setEntry (pool : Pool π n) (frame : Frame) (entry : CoreEntry) : Pool π n :=
  { pool with coreMap := pool.coreMap.setIfInBounds frame.index entry }

/-- Hand out the frame that the placement policy chooses.  There is none when
    every frame is in use, or when the policy finds none. -/
def alloc [PlacementPolicy π] (pool : Pool π n) : Outcome (Option Frame × Pool π n) :=
  if pool.inUse = n then pure (none, pool)
  else
    match PlacementPolicy.place pool.policy pool.coreMap.toArray with
    | (none, policy) => pure (none, { pool with policy := policy })
    | (some index, policy) =>
      match pool.coreMap[index]? with
      | none => Outcome.halt (.indexOutOfBounds n index)
      | some entry => do
        Outcome.require (!entry.allocated) .placementTaken
        let pool := pool.setEntry ⟨index⟩ { allocated := true }
        return (some ⟨index⟩, { pool with policy := policy, inUse := pool.inUse + 1 })

/-- Take a frame back, which must be handed out. -/
def dealloc (pool : Pool π n) (frame : Frame) : Outcome (Pool π n) := do
  let entry ← pool.entry frame
  Outcome.require entry.allocated (.frameDoubleFree frame)
  return { pool.setEntry frame {} with inUse := pool.inUse - 1 }

/-- Pin or unpin a frame, which must be handed out. -/
def setPinned (pool : Pool π n) (frame : Frame) (pinned : Bool) : Outcome (Pool π n) := do
  let entry ← pool.entry frame
  Outcome.require entry.allocated (.pinningFreeFrame frame)
  return pool.setEntry frame { entry with pinned := pinned }

end Pool

end DemandPaging
