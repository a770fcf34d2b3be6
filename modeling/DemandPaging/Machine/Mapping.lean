/-
  New pages of a process: one page of zeros at once, or a segment of pages that
  come in when they are touched.
-/
import DemandPaging.Machine.Eviction
import DemandPaging.Table.Segment

namespace DemandPaging

/-- A table when an intruder, if there is one, has added a page of zeros to it,
    writable or not as the intruder says. -/
def PageTable.intruded (table : PageTable) (page : Page) : (intruder : Option Bool) → PageTable
  | some writable => (table.insertZero page writable).toOption.getD table
  | none => table

namespace Machine

variable {n : Nat}

/-- Put a page into a frame of zeros that was allocated for it.  If the page
    cannot be mapped or has got a record meanwhile, the frame is given back.

    An `intruder` adds a page of zeros under the same address as soon as the
    mapping is made. -/
def placeNewPage (machine : Machine n) (process : Nat) (page : Page) (frame : Frame)
    (writable : Bool) (intruder : Option Bool) : Outcome (Except Error Unit × Machine n) := do
  let space := machine.space process
  let (mapped, directory) ← space.directory.map page frame writable
  if !mapped then
    let machine ← machine.free frame
    return (.error .outOfMemory, machine)
  else
    let machine := machine.setDirectory process directory
    let table := space.table.intruded page intruder
    let machine := machine.setTable process table
    match table.insertResident page frame writable with
    | .error e =>
      let machine := machine.setDirectory process (directory.clear page)
      let machine ← machine.free frame
      return (.error e, machine)
    | .ok table =>
      let machine := machine.setTable process table
      let machine ← machine.unpin frame
      return (.ok (), machine)

/-- Give a process a resident page of zeros right away, unless the page is
    taken.  An `intruder` adds the page meanwhile, as in `placeNewPage`. -/
def mapNewPageAgainst (machine : Machine n) (process : Nat) (page : Page) (writable : Bool)
    (intruder : Option Bool) : Outcome (Except Error Unit × Machine n) := do
  if (machine.space process).table.contains page then return (.error .alreadyMapped, machine)
  else
    let (allocated, machine) ← machine.allocate process page true
    match allocated with
    | .error e => return (.error e, machine)
    | .ok frame => machine.placeNewPage process page frame writable intruder

/-- Give a process a resident page of zeros right away, unless the page is
    taken.  With `intruding`, someone else adds the same page meanwhile. -/
def mapNewPage (machine : Machine n) (process : Nat) (page : Page)
    (writable intruding : Bool) : Outcome (Except Error Unit × Machine n) :=
  machine.mapNewPageAgainst process page writable (if intruding then some writable else none)

/-- Map a segment into the memory of a process. -/
def mapSegment (machine : Machine n) (process : Nat) (segment : Segment) :
    Outcome (Except Error Unit × Machine n) := do
  let (mapped, table) ← (machine.space process).table.mapSegment segment
  return (mapped, machine.setTable process table)

end Machine

end DemandPaging
