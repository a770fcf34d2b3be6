/-
  Swap space: a block device used as an array of page-sized slots.

  A slot takes `sectorsPerPage` sectors in a row, the first slot from sector
  zero on; sectors left over at the end of the device are not used.  A failing
  transfer is a panic, since the page would be lost.

  Sector numbers are 32-bit words.  The count of sectors runs one step ahead of
  the transfers, and one step more to find that the page is done.
-/
import DemandPaging.Swap.Slots
import DemandPaging.Block.Registry

namespace DemandPaging

/-- The first sector of a slot. -/
def Slot.firstSector (slot : Slot) : Outcome Nat :=
  Word.mul32 slot.index sectorsPerPage

/-- A block device used for swap. -/
structure SwapSpace where
  /-- The device. -/
  device : Device
  /-- Its slots. -/
  slots : Slots

namespace SwapSpace

/-- Use all of a device for swap. -/
def ofDevice (device : Device) : Outcome SwapSpace := do
  let capacity := device.size / sectorsPerPage
  Outcome.log (.swapSelected device.name capacity)
  return { device := device, slots := { capacity := capacity } }

/-- Claim the swap device of a registry, which must have one. -/
def ofRegistry (registry : Registry) : Outcome (SwapSpace × Registry) :=
  match registry.take? .swap with
  | none => Outcome.halt .noSwapDevice
  | some (device, registry) => do
    let swap ← ofDevice device
    return (swap, registry)

/-- The number of slots. -/
def capacity (swap : SwapSpace) : Nat :=
  swap.slots.capacity

/-- Write sectors in a row for a slot, from sector `sector` on. -/
def writeSectors (slot : Slot) (device : Device) (sector : Nat) : List Sector → Outcome Device
  | [] => do
    let _ ← Word.add32 sector 1
    return device
  | contents :: rest => do
    let next ← Word.add32 sector 1
    match ← device.writeSector sector contents with
    | (.error e, _) => Outcome.halt (.swapWriteFailed slot sector e)
    | (.ok (), device) => writeSectors slot device next rest

/-- Read `count` sectors in a row for a slot, from sector `sector` on. -/
def readSectors (slot : Slot) (device : Device) (sector : Nat) :
    Nat → Outcome (List Sector × Device)
  | 0 => do
    let _ ← Word.add32 sector 1
    return ([], device)
  | count + 1 => do
    let next ← Word.add32 sector 1
    match ← device.read sector sectorSize with
    | (.error e, _) => Outcome.halt (.swapReadFailed slot sector e)
    | (.ok contents, device) =>
      let (rest, device) ← readSectors slot device next count
      return (contents :: rest, device)

/-- Write a page into a slot, which must be occupied. -/
def write (swap : SwapSpace) (slot : Slot) (contents : Contents) : Outcome SwapSpace := do
  swap.slots.requireOccupied slot
  let first ← slot.firstSector
  let device ← writeSectors slot swap.device first contents.sectors
  return { swap with device := device }

/-- Read the page in a slot, which must be occupied. -/
def read (swap : SwapSpace) (slot : Slot) : Outcome (Contents × SwapSpace) := do
  swap.slots.requireOccupied slot
  let first ← slot.firstSector
  let (sectors, device) ← readSectors slot swap.device first sectorsPerPage
  return (Contents.ofSectors sectors, { swap with device := device })

/-- Reserve a slot for a page. -/
def allocate (swap : SwapSpace) : Outcome (Except Error Slot × SwapSpace) := do
  let (slot, slots) ← swap.slots.allocate
  return (slot, { swap with slots := slots })

/-- Release a slot, which must be occupied. -/
def free (swap : SwapSpace) (slot : Slot) : Outcome SwapSpace := do
  let slots ← swap.slots.free slot
  return { swap with slots := slots }

end SwapSpace

end DemandPaging
