/-
  Page faults: bringing a page in from wherever it is, and growing the stack.

  `Machine.judge` decides from the address space alone what a fault asks for:
  it is rejected, or concerns a page with a record, or is a push that adds a page
  of zeros to the stack.  A page that is not in a frame is then brought in: it
  gets a frame (`allocate`), the frame gets the page's contents (`fill`), and the
  page is mapped and recorded as resident (`install`).  If a step fails, the
  frame is given back and the page stays where it was.
-/
import DemandPaging.Machine.Eviction

namespace DemandPaging

/-- A fault raised by a user access. -/
structure PageFault where
  /-- The address touched. -/
  address : Nat
  /-- Whether the access was a store. -/
  write : Bool
  /-- The user stack pointer at the time. -/
  stackPointer : Nat
  deriving DecidableEq, Repr

/-- What a fault asks for. -/
inductive Verdict where
  /-- The access is not allowed, for the reason that the event tells. -/
  | rejected (error : Error) (event : Event)
  /-- The page has a record. -/
  | known (page : Page) (record : PageRecord)
  /-- The stack grows to the page. -/
  | stackGrowth (page : Page)

namespace Machine

variable {n : Nat}

/-- What a fault of a process asks for. -/
def judge (machine : Machine n) (process : Nat) (fault : PageFault) : Verdict :=
  let space := machine.space process
  if !isUserAddress fault.address then
    .rejected .invalidAccess (.kernelFault space.pid fault.address)
  else
    let page := Page.containing fault.address
    match space.table.get? page with
    | some record =>
      if fault.write && !record.writable then .rejected .readOnly (.readOnlyWrite space.pid page)
      else .known page record
    | none =>
      if machine.config.isStackAccess fault.address fault.stackPointer then .stackGrowth page
      else .rejected .invalidAccess
        (.invalidAccess space.pid fault.address fault.stackPointer)

/-- Fill a frame with the contents of a page that is not in a frame.  A frame
    for a page of zeros was filled when it was allocated.  If the file of the
    page is too short, the frame is given back. -/
def fill (machine : Machine n) (process : Nat) (page : Page) (record : PageRecord)
    (frame : Frame) : Outcome (Except Error Unit × Machine n) :=
  match record.status with
  | .zero | .resident _ => return (.ok (), machine)
  | .swapped slot => do
    let (contents, swap) ← machine.swap.read slot
    let memory ← machine.memory.put frame contents
    return (.ok (), { machine with memory := memory, swap := swap })
  | .fileBacked span =>
    match record.origin with
    | none => Outcome.halt (.backedWithoutFile page)
    | some origin => do
      let bytes := origin.file.readAt span.offset span.length
      if bytes.size = span.length then
        let memory ← machine.memory.put frame (Contents.ofBytes bytes)
        return (.ok (), { machine with memory := memory })
      else
        let memory ← machine.memory.update frame fun contents => contents.overwrite 0 bytes
        let machine ← { machine with memory := memory }.free frame
        Outcome.log (.shortRead (machine.space process).pid page span.offset)
        return (.error .fileRead, machine)

/-- Let go of the place that a page came in from. -/
def leaveSource (machine : Machine n) : PageStatus → Outcome (Machine n)
  | .swapped slot => do
    let swap ← machine.swap.free slot
    return { machine with swap := swap, stats := machine.stats.countSwapIn }
  | .fileBacked _ => return { machine with stats := machine.stats.countFileLoad }
  | .zero | .resident _ => return machine

/-- Map a page to the frame that holds its contents, and record it as resident.
    The page comes in clean. -/
def install (machine : Machine n) (process : Nat) (page : Page) (record : PageRecord)
    (frame : Frame) : Outcome (Except Error Unit × Machine n) := do
  let (mapped, directory) ← (machine.space process).directory.map page frame record.writable
  if !mapped then
    let machine ← machine.free frame
    return (.error .outOfMemory, machine)
  else
    let machine := machine.setDirectory process (directory.setDirty page false)
    let table ← (machine.space process).table.markResident page frame
    let machine ← (machine.setTable process table).leaveSource record.status
    let machine ← machine.unpin frame
    return (.ok (), machine)

/-- Bring in a page that is not in a frame. -/
def bringIn (machine : Machine n) (process : Nat) (page : Page) (record : PageRecord) :
    Outcome (Except Error Unit × Machine n) := do
  let (allocated, machine) ← machine.allocate process page (record.status = .zero)
  match allocated with
  | .error e => return (.error e, machine)
  | .ok frame =>
    let (filled, machine) ← machine.fill process page record frame
    match filled with
    | .error e => return (.error e, machine)
    | .ok () => machine.install process page record frame

/-- Resolve a fault of a process.  On success the page is mapped and the access
    can be tried again. -/
def handleFault (machine : Machine n) (process : Nat) (fault : PageFault) :
    Outcome (Except Error Unit × Machine n) :=
  match machine.judge process fault with
  | .rejected error event => do
    Outcome.log event
    return (.error error, machine)
  | .known page record =>
    if record.status.isResident then return (.ok (), machine)
    else machine.bringIn process page record
  | .stackGrowth page =>
    match (machine.space process).table.insertZero page true with
    | .error e => return (.error e, machine)
    | .ok table => do
      let machine := machine.setTable process table
      Outcome.log (.stackGrown (machine.space process).pid page)
      machine.bringIn process page { status := .zero, writable := true }

end Machine

end DemandPaging
