/-
  The end of a process: all that its pages take up is given back.
-/
import DemandPaging.Machine.Basic
import DemandPaging.Table.Teardown

namespace DemandPaging.Machine

variable {n : Nat}

/-- Free every frame and swap slot of a process and forget its pages.  None of
    its frames may be freed already. -/
def releaseProcess (machine : Machine n) (process : Nat) : Outcome (Released × Machine n) := do
  let space := machine.space process
  let done ← space.table.teardown FrameTable.release space.directory machine.swap machine.frames
  return (done.released, { machine with
    frames := done.receiver
    swap := done.swap
    spaces := machine.spaces.set process
      { space with table := done.table, directory := done.directory } })

/-- Tear down the memory of a process. -/
def destroy (machine : Machine n) (process : Nat) : Outcome (Released × Machine n) := do
  let (released, machine) ← machine.releaseProcess process
  Outcome.log (.tornDown (machine.space process).pid released.frames released.slots)
  return (released, machine)

end DemandPaging.Machine
