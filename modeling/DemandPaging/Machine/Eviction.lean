/-
  Finding a frame for a page, at the expense of another page if none is free.

  A frame handed out is pinned until its page is in place.  The victim loses its
  mapping first, so that its dirty bit is final.  A clean page that came from a
  file is dropped; every other page goes to swap.  When swap is full, the
  victim's mapping is put back and the request fails.
-/
import DemandPaging.Frame.Clock
import DemandPaging.Machine.Basic

namespace DemandPaging

variable {n : Nat}

/-- Run the clock: the frame to reclaim, if any may be, the table with the hand moved on, and what
    the access tests left behind. -/
def FrameTable.pickVictim {σ : Type} (table : FrameTable n) (test : Nat → σ → Bool × σ)
    (state : σ) : Option Frame × FrameTable n × σ :=
  let stop := Clock.pick n (fun frame => table.isCandidate ⟨frame⟩) test table.hand state
  (stop.victim.map Frame.mk, { table with hand := stop.hand }, stop.state)

/-- Whether the page in a frame was accessed; if it was, it counts as not
    accessed from now on. -/
def FrameTable.accessTest (table : FrameTable n) (frame : Nat) (spaces : AddressSpaces) :
    Bool × AddressSpaces :=
  match table.owner? ⟨frame⟩ with
  | none => (false, spaces)
  | some owner =>
    let space := spaces.get owner.process
    if space.directory.isAccessed owner.page then
      (true, spaces.set owner.process
        { space with directory := space.directory.setAccessed owner.page false })
    else (false, spaces)

namespace Machine

/-- Run the clock over the pages in frames: the frame to reclaim, if any may be. -/
def pickVictim (machine : Machine n) : Option Frame × Machine n :=
  let (victim, frames, spaces) :=
    machine.frames.pickVictim machine.frames.accessTest machine.spaces
  (victim, { machine with frames := frames, spaces := spaces })

/-- Whose page a frame holds and what the table of its owner says of it, which
    must be that it is in this frame. -/
def victimRecord (machine : Machine n) (frame : Frame) : Outcome (Owner × PageRecord) :=
  match machine.frames.owner? frame with
  | none => Outcome.halt (.victimWithoutOwner frame)
  | some owner =>
    let space := machine.space owner.process
    match space.table.get? owner.page with
    | none => Outcome.halt (.victimWithoutEntry owner.page space.pid)
    | some record => do
      Outcome.require (record.status = .resident frame)
        (.victimElsewhere frame owner.page space.pid record.status)
      return (owner, record)

/-- Decide where an evicted page goes, and reserve a slot if it goes to swap. -/
def chooseEviction (machine : Machine n) (record : PageRecord) (dirty : Bool) :
    Outcome (Except Error Eviction × Machine n) :=
  if record.origin.isSome && !dirty then pure (.ok .discarded, machine)
  else do
    let (slot, swap) ← machine.swap.allocate
    return (slot.map .swapped, { machine with swap := swap })

/-- Put back the mapping of a page that keeps its frame after all. -/
def restoreMapping (machine : Machine n) (owner : Owner) (frame : Frame)
    (writable accessed dirty : Bool) : Outcome (Machine n) := do
  let (mapped, directory) ←
    (machine.space owner.process).directory.map owner.page frame writable
  Outcome.require mapped (.restoreRefused owner.page)
  return machine.setDirectory owner.process
    ((directory.setAccessed owner.page accessed).setDirty owner.page dirty)

/-- Save the contents of a frame as its eviction asks for. -/
def saveContents (machine : Machine n) (frame : Frame) : Eviction → Outcome (Machine n)
  | .swapped slot => do
    let contents ← machine.memory.get frame
    let swap ← machine.swap.write slot contents
    return { machine with swap := swap, stats := machine.stats.countSwapOut }
  | .discarded => return { machine with stats := machine.stats.countDiscard }

/-- Take a frame away from the page that it holds.  The frame stays allocated. -/
def takeFrame (machine : Machine n) (frame : Frame) :
    Outcome (Except Error Unit × Machine n) := do
  let (owner, record) ← machine.victimRecord frame
  let page := owner.page
  let directory := (machine.space owner.process).directory
  let accessed := directory.isAccessed page
  let cleared := directory.clear page
  let dirty := cleared.isDirty page || record.dirty
  let machine := machine.setDirectory owner.process cleared
  let (eviction, machine) ← machine.chooseEviction record dirty
  match eviction with
  | .error e =>
    let machine ← machine.restoreMapping owner frame record.writable accessed dirty
    return (.error e, machine)
  | .ok eviction =>
    let machine ← machine.saveContents frame eviction
    let space := machine.space owner.process
    match ← space.table.markEvicted page eviction dirty with
    | .error e => Outcome.halt (.evictionRejected page e)
    | .ok table =>
      Outcome.log (.evicted page space.pid frame eviction)
      let machine := machine.setTable owner.process table
      return (.ok (), { machine with frames := machine.frames.setOwner frame none })

/-- Reclaim a frame, of which there must be one that is not pinned. -/
def evict (machine : Machine n) : Outcome (Except Error Frame × Machine n) :=
  match machine.pickVictim with
  | (none, _) => Outcome.halt .everyFramePinned
  | (some frame, machine) => do
    let (taken, machine) ← machine.takeFrame frame
    return (taken.map fun _ => frame, machine)

/-- A free frame, or a reclaimed one if none is free. -/
def obtainFrame (machine : Machine n) : Outcome (Except Error Frame × Machine n) := do
  let (free, frames) ← machine.frames.alloc
  let machine := { machine with frames := frames }
  match free with
  | some frame => return (.ok frame, machine)
  | none => machine.evict

/-- Get a pinned frame for a page of a process, filled with zeros if `zero` is
    set. -/
def allocate (machine : Machine n) (process : Nat) (page : Page) (zero : Bool) :
    Outcome (Except Error Frame × Machine n) := do
  let (obtained, machine) ← machine.obtainFrame
  match obtained with
  | .error e => return (.error e, machine)
  | .ok frame =>
    let frames ← machine.frames.setPinned frame true
    let frames := frames.setOwner frame (some ⟨process, page⟩)
    Outcome.log (.frameAssigned frame page (machine.space process).pid)
    let memory ← if zero then machine.memory.clear frame else pure machine.memory
    return (.ok frame, { machine with frames := frames, memory := memory })

end Machine

end DemandPaging
