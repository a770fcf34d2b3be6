/-
  Teardown of a page table: its frames and slots are given back.

  All pages are taken out of the table first, which leaves it empty, and are then
  dealt with in rising order.  A resident page loses its mapping and its frame
  goes to whoever `release` is; a swapped page's slot becomes free.
-/
import DemandPaging.Table.Basic
import DemandPaging.Directory.Basic
import DemandPaging.Swap.Space

namespace DemandPaging

/-- What a teardown gave back. -/
structure Released where
  /-- The frames. -/
  frames : Nat := 0
  /-- The swap slots. -/
  slots : Nat := 0
  deriving DecidableEq, Repr

/-- The state of a teardown, where `σ` is that of whoever takes the frames. -/
structure Teardown (σ : Type) where
  /-- What was given back so far. -/
  released : Released := {}
  /-- The process's table, without the pages that are dealt with. -/
  table : PageTable
  /-- The process's mappings. -/
  directory : Directory
  /-- The swap space. -/
  swap : SwapSpace
  /-- Whoever takes the frames. -/
  receiver : σ

variable {σ : Type}

/-- Give back what the contents of a page take up. -/
def Teardown.giveBack (release : σ → Frame → Outcome σ) (state : Teardown σ) (page : Page) :
    PageStatus → Outcome (Teardown σ)
  | .resident frame => do
    let receiver ← release state.receiver frame
    return { state with
      released := { state.released with frames := state.released.frames + 1 }
      directory := state.directory.clear page
      receiver := receiver }
  | .swapped slot => do
    let swap ← state.swap.free slot
    return { state with
      released := { state.released with slots := state.released.slots + 1 }
      swap := swap }
  | .zero | .fileBacked _ => return state

/-- Give back what the given pages take up, one after the other. -/
def Teardown.giveBackAll (release : σ → Frame → Outcome σ) :
    List (Page × PageRecord) → Teardown σ → Outcome (Teardown σ)
  | [], state => return state
  | (page, record) :: rest, state => do
    let state ← state.giveBack release page record.status
    giveBackAll release rest state

/-- Give back all that a table's pages take up. -/
def PageTable.teardown (table : PageTable) (release : σ → Frame → Outcome σ)
    (directory : Directory) (swap : SwapSpace) (receiver : σ) : Outcome (Teardown σ) :=
  let (pages, table) := table.takeAll
  Teardown.giveBackAll release pages
    { table := table, directory := directory, swap := swap, receiver := receiver }

theorem PageTable.teardown_eq (table : PageTable) (release : σ → Frame → Outcome σ)
    (directory : Directory) (swap : SwapSpace) (receiver : σ) :
    table.teardown release directory swap receiver =
      Teardown.giveBackAll release table.records.toList
        { table := {}, directory := directory, swap := swap, receiver := receiver } := rfl

end DemandPaging
