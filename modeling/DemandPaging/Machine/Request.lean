/-
  What is asked of the manager: requests and their answers.

  `Machine.perform` carries out one request.  A request that panics has no answer
  and leaves no machine behind.
-/
import DemandPaging.Machine.Mapping
import DemandPaging.Machine.Teardown
import DemandPaging.Machine.UserAccess

namespace DemandPaging

/-- What is asked of the manager. -/
inductive Request where
  /-- Set up the memory of one more process. -/
  | spawn (pid : Nat) (traits : DirectoryTraits)
  /-- Give a process a page of zeros right away, while someone else may add the
      page. -/
  | mapNewPage (process : Nat) (page : Page) (writable intruding : Bool)
  /-- Map a segment into the memory of a process. -/
  | mapSegment (process : Nat) (segment : Segment)
  /-- Resolve a fault of a process. -/
  | fault (process : Nat) (fault : PageFault)
  /-- Load bytes for a process, with at most `limit` handled faults. -/
  | load (process address length stackPointer limit : Nat)
  /-- Store bytes for a process, with at most `limit` handled faults. -/
  | store (process address : Nat) (data : Bytes) (stackPointer limit : Nat)
  /-- Tear down the memory of a process. -/
  | destroy (process : Nat)
  /-- Keep the clock from reclaiming a frame. -/
  | pin (frame : Frame)
  /-- Let the clock reclaim a frame. -/
  | unpin (frame : Frame)
  /-- Run the clock without reclaiming a frame. -/
  | pickVictim
  /-- From now on there is no memory to map the given pages of a process. -/
  | refuse (process : Nat) (pages : List Page)

/-- What the manager answers. -/
inductive Answer where
  /-- The request was carried out. -/
  | done
  /-- The request was turned down. -/
  | failed (error : Error)
  /-- The process set up has this number. -/
  | spawned (process : Nat)
  /-- How a load ended, with the bytes loaded. -/
  | loaded (access : UserAccess Bytes)
  /-- How a store ended, with the number of bytes stored. -/
  | stored (access : UserAccess Nat)
  /-- What a teardown gave back. -/
  | released (released : Released)
  /-- The frame that the clock chose. -/
  | victim (frame : Option Frame)
  deriving DecidableEq

/-- The answer to a request that has no value to return. -/
def Answer.ofResult : Except Error Unit → Answer
  | .ok () => done
  | .error e => failed e

namespace Machine

variable {n : Nat}

/-- Carry out a request. -/
def perform (machine : Machine n) : Request → Outcome (Answer × Machine n)
  | .spawn pid traits => return (.spawned machine.spaces.size, machine.spawn pid traits)
  | .mapNewPage process page writable intruding => do
    let (result, machine) ← machine.mapNewPage process page writable intruding
    return (.ofResult result, machine)
  | .mapSegment process segment => do
    let (result, machine) ← machine.mapSegment process segment
    return (.ofResult result, machine)
  | .fault process fault => do
    let (result, machine) ← machine.handleFault process fault
    return (.ofResult result, machine)
  | .load process address length stackPointer limit => do
    let (access, machine) ← machine.load limit process address length stackPointer
    return (.loaded access, machine)
  | .store process address data stackPointer limit => do
    let (access, machine) ← machine.store limit process address data stackPointer
    return (.stored access, machine)
  | .destroy process => do
    let (released, machine) ← machine.destroy process
    return (.released released, machine)
  | .pin frame => do
    let machine ← machine.pin frame
    return (.done, machine)
  | .unpin frame => do
    let machine ← machine.unpin frame
    return (.done, machine)
  | .pickVictim =>
    let (frame, machine) := machine.pickVictim
    return (.victim frame, machine)
  | .refuse process pages =>
    return (.done, machine.setDirectory process
      { (machine.space process).directory with refused := pages })

end Machine

end DemandPaging
