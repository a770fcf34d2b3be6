/-
  The frame table: the pool of user frames, the page that each frame holds, and
  the hand of the clock.

  A frame is tracked while the table knows what it holds.  The candidates for
  reclaiming are the frames that are allocated, tracked and not pinned.
-/
import DemandPaging.Page
import DemandPaging.Frame.Pool

namespace DemandPaging

/-- What a frame holds: a page of a process, the process named by its place among
    the address spaces. -/
structure Owner where
  /-- The process. -/
  process : Nat
  /-- The page. -/
  page : Page
  deriving DecidableEq, Repr

/-- What the manager knows about `n` frames. -/
structure FrameTable (n : Nat) where
  /-- Which frames are in use. -/
  pool : Pool NextFit n
  /-- What each frame holds. -/
  owners : Vector (Option Owner) n
  /-- The next frame that the clock examines. -/
  hand : Nat := 0

namespace FrameTable

variable {n : Nat}

/-- The table of frames that are all free. -/
def blank (n : Nat) : FrameTable n :=
  { pool := Pool.ofPolicy {} n, owners := Vector.replicate n none }

/-- What a frame holds, as far as the table knows. -/
def owner? (table : FrameTable n) (frame : Frame) : Option Owner :=
  match table.owners[frame.index]? with
  | some owner => owner
  | none => none

/-- Whether the table knows what a frame holds. -/
def isTracked (table : FrameTable n) (frame : Frame) : Bool :=
  (table.owner? frame).isSome

/-- Whether the clock may choose a frame. -/
def isCandidate (table : FrameTable n) (frame : Frame) : Bool :=
  table.pool.isAllocated frame && !table.pool.hasPin frame && table.isTracked frame

/-- Record what a frame holds. -/
def setOwner (table : FrameTable n) (frame : Frame) (owner : Option Owner) : FrameTable n :=
  { table with owners := table.owners.setIfInBounds frame.index owner }

/-- Hand out a free frame, if there is one. -/
def alloc (table : FrameTable n) : Outcome (Option Frame × FrameTable n) := do
  let (frame, pool) ← table.pool.alloc
  return (frame, { table with pool := pool })

/-- Pin or unpin a frame, which must be allocated. -/
def setPinned (table : FrameTable n) (frame : Frame) (pinned : Bool) :
    Outcome (FrameTable n) := do
  let pool ← table.pool.setPinned frame pinned
  return { table with pool := pool }

/-- Return a frame to the pool, which must be tracked. -/
def release (table : FrameTable n) (frame : Frame) : Outcome (FrameTable n) := do
  Outcome.require (frame.index < n) (.indexOutOfBounds n frame.index)
  Outcome.require (table.isTracked frame) (.untrackedRelease frame)
  let pool ← table.pool.dealloc frame
  return { table.setOwner frame none with pool := pool }

end FrameTable

end DemandPaging
