/-
  Causes for which the machine stops.

  A panic is no answer to a request: it tells that a caller broke a rule or that
  the manager's own records disagree.  `Panic.message` holds the wording of
  each.
-/
import DemandPaging.Page
import DemandPaging.Location
import DemandPaging.Error

namespace DemandPaging

/-- Why the machine stopped. -/
inductive Panic where
  /-- A sum does not fit in a word. -/
  | addOverflow
  /-- A product does not fit in a word. -/
  | multiplyOverflow
  /-- An index is not below the length of what it indexes. -/
  | indexOutOfBounds (length index : Nat)
  /-- A page was named by an address that is not the start of one. -/
  | unalignedPage (address : Nat)
  /-- The frame is not part of physical memory. -/
  | frameOutOfRange (frame : Frame) (frames : Nat)
  /-- The frame number does not fit in a directory entry. -/
  | frameTooLarge (frame : Frame)
  /-- The frame is not part of the pool. -/
  | frameNotInPool (frame : Frame)
  /-- The frame was free already. -/
  | frameDoubleFree (frame : Frame)
  /-- A free frame cannot be pinned or unpinned. -/
  | pinningFreeFrame (frame : Frame)
  /-- The placement policy chose a frame that is in use. -/
  | placementTaken
  /-- The frame table records no page for the frame. -/
  | untrackedRelease (frame : Frame)
  /-- There is no frame to reclaim. -/
  | everyFramePinned
  /-- The frame chosen for eviction has no owner. -/
  | victimWithoutOwner (frame : Frame)
  /-- The page chosen for eviction is not in its owner's table. -/
  | victimWithoutEntry (page : Page) (pid : Nat)
  /-- The page chosen for eviction is somewhere else. -/
  | victimElsewhere (frame : Frame) (page : Page) (pid : Nat) (status : PageStatus)
  /-- The mapping taken away for an eviction could not be put back. -/
  | restoreRefused (page : Page)
  /-- The owner's table did not accept the eviction. -/
  | evictionRejected (page : Page) (error : Error)
  /-- The slot is not part of the swap space. -/
  | slotOutOfBounds (slot : Slot) (slots : Nat)
  /-- The slot was free already. -/
  | slotDoubleFree (slot : Slot)
  /-- The slot was chosen for a page while it holds another. -/
  | slotHandedOutTwice (slot : Slot)
  /-- The slot holds no page. -/
  | slotUnassigned (slot : Slot)
  /-- The swap device failed to store a sector. -/
  | swapWriteFailed (slot : Slot) (sector : Nat) (error : DeviceError)
  /-- The swap device failed to return a sector. -/
  | swapReadFailed (slot : Slot) (sector : Nat) (error : DeviceError)
  /-- No swap device has been registered. -/
  | noSwapDevice
  /-- The sector is past the end of the device. -/
  | sectorPastEnd (device : String) (sector sectors : Nat)
  /-- The transfer is not one sector long. -/
  | transferSize (device : String) (length : Nat)
  /-- Foreign devices are never written. -/
  | foreignWrite (device : String)
  /-- The file span is longer than a page. -/
  | spanTooLong (length : Nat)
  /-- A page that was modified cannot be dropped. -/
  | discardingDirty (page : Page)
  /-- A page without a file cannot be dropped. -/
  | discardingWithoutFile (page : Page)
  /-- A page that is not in the table cannot become resident. -/
  | residentWithoutEntry (page : Page)
  /-- A page is in its file but has none. -/
  | backedWithoutFile (page : Page)
  /-- A segment must cover whole pages. -/
  | segmentNotWholePages
  /-- A segment must start at a page boundary of its file. -/
  | segmentOffsetUnaligned (offset : Nat)
  /-- The stack limit exceeds user space. -/
  | stackTooLarge (size : Nat)
  /-- The system's manager was set up twice. -/
  | alreadyInitialized
  /-- The system's manager was asked for before it was set up. -/
  | notInitialized
  deriving DecidableEq, Repr

/-- The wording of a panic. -/
def Panic.message : Panic → String
  | addOverflow => "attempt to add with overflow"
  | multiplyOverflow => "attempt to multiply with overflow"
  | indexOutOfBounds length index =>
    s!"index out of bounds: the len is {length} but the index is {index}"
  | unalignedPage address => Hex.text address ++ " is not page aligned"
  | frameOutOfRange frame frames => frame.text ++ s!" out of range ({frames} frames)"
  | frameTooLarge frame =>
    "frame number " ++ Hex.text frame.index ++ " does not fit in a page table entry"
  | frameNotInPool frame => frame.text ++ " is not part of the user pool"
  | frameDoubleFree frame => "double free of user " ++ frame.text
  | pinningFreeFrame frame => "pinning free user " ++ frame.text
  | placementTaken => "assertion failed"
  | untrackedRelease frame => "frame table: release of untracked " ++ frame.text
  | everyFramePinned => "frame table: every frame is pinned, nothing to evict"
  | victimWithoutOwner frame => "frame table: victim " ++ frame.text ++ " has no owner"
  | victimWithoutEntry page pid =>
    "frame table: " ++ page.text ++ s!" of process {pid} has no entry"
  | victimElsewhere frame page pid status =>
    "frame table: " ++ frame.text ++ " holds " ++ page.text ++ s!" of process {pid}, which is " ++
      status.debugText
  | restoreRefused page => "frame table: could not restore mapping of " ++ page.text
  | evictionRejected page error => "frame table: evicting " ++ page.text ++ ": " ++ error.message
  | slotOutOfBounds slot slots => slot.text ++ s!" out of bounds ({slots} slots)"
  | slotDoubleFree slot => "double free of " ++ slot.text
  | slotHandedOutTwice slot => slot.text ++ " handed out while occupied"
  | slotUnassigned slot => "access to unassigned " ++ slot.text
  | swapWriteFailed slot sector error =>
    "swap: writing " ++ slot.text ++ s!" (sector {sector}) failed: " ++ error.message
  | swapReadFailed slot sector error =>
    "swap: reading " ++ slot.text ++ s!" (sector {sector}) failed: " ++ error.message
  | noSwapDevice => "swap: no swap device registered"
  | sectorPastEnd device sector sectors =>
    s!"{device}: sector {sector} past end of device ({sectors} sectors)"
  | transferSize device length => s!"{device}: transfer of {length} bytes is not one sector"
  | foreignWrite device => s!"{device}: refusing to write to a foreign device"
  | spanTooLong length => s!"file span of {length} bytes does not fit in a page"
  | discardingDirty page => "discarding dirty " ++ page.text
  | discardingWithoutFile page => "discarding " ++ page.text ++ ", which has no backing file"
  | residentWithoutEntry page => page.text ++ " made resident without a page table entry"
  | backedWithoutFile page => page.text ++ " is file backed without a file"
  | segmentNotWholePages => "segment is not a whole number of pages"
  | segmentOffsetUnaligned offset =>
    "segment offset " ++ Hex.text offset ++ " is not page aligned"
  | stackTooLarge size => "stack of " ++ Hex.text size ++ " bytes does not fit in user space"
  | alreadyInitialized => "vm: already initialized"
  | notInitialized => "Virtual memory not initialized."

end DemandPaging
