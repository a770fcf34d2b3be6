/-
  The virtual memory manager: physical memory, the swap space, the frame table
  and the address spaces of the processes.

  A `Machine n` has `n` user frames.  Each request to it is a function to the
  machine afterwards and an answer, which is an error where the request was
  turned down.
-/
import DemandPaging.AddressSpace
import DemandPaging.Config
import DemandPaging.Frame.Memory
import DemandPaging.Frame.Table
import DemandPaging.Stats
import DemandPaging.Swap.Space

namespace DemandPaging

/-- A virtual memory manager with `n` user frames. -/
structure Machine (n : Nat) where
  /-- The limits of user stacks. -/
  config : Config
  /-- The contents of the frames. -/
  memory : Memory n
  /-- Where evicted pages go. -/
  swap : SwapSpace
  /-- What the frames hold. -/
  frames : FrameTable n
  /-- What was done so far. -/
  stats : Stats := {}
  /-- The processes' memory. -/
  spaces : AddressSpaces := {}

namespace Machine

variable {n : Nat}

/-- Set up a manager of `n` user frames that swaps to `swap`. -/
def start (config : Config) (n : Nat) (swap : SwapSpace) : Outcome (Machine n) := do
  Outcome.log (.started n swap.capacity config.stackSize)
  return { config := config, memory := .blank n, swap := swap, frames := .blank n }

/-- The memory of a process. -/
def space (machine : Machine n) (process : Nat) : AddressSpace :=
  machine.spaces.get process

/-- Replace the table of a process. -/
def setTable (machine : Machine n) (process : Nat) (table : PageTable) : Machine n :=
  { machine with
    spaces := machine.spaces.set process { machine.space process with table := table } }

/-- Replace the directory of a process. -/
def setDirectory (machine : Machine n) (process : Nat) (directory : Directory) : Machine n :=
  { machine with
    spaces := machine.spaces.set process { machine.space process with directory := directory } }

/-- Set up the memory of one more process, which starts without pages. -/
def spawn (machine : Machine n) (pid : Nat) (traits : DirectoryTraits) : Machine n :=
  { machine with spaces := machine.spaces.push { pid := pid, directory := .ofTraits traits } }

/-- Return a frame to the pool, which must be tracked. -/
def free (machine : Machine n) (frame : Frame) : Outcome (Machine n) := do
  let frames ← machine.frames.release frame
  return { machine with frames := frames }

/-- Keep the clock from reclaiming a frame, which must be allocated. -/
def pin (machine : Machine n) (frame : Frame) : Outcome (Machine n) := do
  let frames ← machine.frames.setPinned frame true
  return { machine with frames := frames }

/-- Let the clock reclaim a frame, which must be allocated. -/
def unpin (machine : Machine n) (frame : Frame) : Outcome (Machine n) := do
  let frames ← machine.frames.setPinned frame false
  return { machine with frames := frames }

@[simp] theorem space_setTable (machine : Machine n) (process other : Nat) (table : PageTable) :
    (machine.setTable process table).space other =
      if process = other then { machine.space process with table := table }
      else machine.space other :=
  machine.spaces.get_set process other _

@[simp] theorem space_setDirectory (machine : Machine n) (process other : Nat)
    (directory : Directory) :
    (machine.setDirectory process directory).space other =
      if process = other then { machine.space process with directory := directory }
      else machine.space other :=
  machine.spaces.get_set process other _

end Machine

end DemandPaging
