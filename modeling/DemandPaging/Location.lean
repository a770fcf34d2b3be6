/-
  Where the contents of a page are.

  A page is in a frame of physical memory, in a slot of the swap device, in a
  span of a file, or nowhere because it is still all zeros (`PageStatus`).  When
  its frame is reclaimed it goes to a slot, or is dropped because its file
  still has it (`Eviction`).
-/

namespace DemandPaging

/-- A frame of physical memory, by its index. -/
structure Frame where
  /-- The frames below this one. -/
  index : Nat
  deriving DecidableEq, Repr

/-- A page-sized slot of the swap device, by its index. -/
structure Slot where
  /-- The slots below this one. -/
  index : Nat
  deriving DecidableEq, Repr

/-- The bytes of a file that a page starts with.  The rest of the page is
    zero. -/
structure FileSpan where
  /-- The place of the first byte in the file. -/
  offset : Nat
  /-- How many bytes of the page come from the file. -/
  length : Nat
  deriving DecidableEq, Repr

/-- Where the contents of a page are. -/
inductive PageStatus where
  /-- Not touched yet: the page is all zeros. -/
  | zero
  /-- In a frame. -/
  | resident (frame : Frame)
  /-- In a slot of the swap device. -/
  | swapped (slot : Slot)
  /-- In its file: not loaded yet, or dropped while it was clean. -/
  | fileBacked (span : FileSpan)
  deriving DecidableEq, Repr

/-- Where a page went when its frame was reclaimed. -/
inductive Eviction where
  /-- Written to a slot of the swap device. -/
  | swapped (slot : Slot)
  /-- Dropped; its file still has it. -/
  | discarded
  deriving DecidableEq, Repr

/-! ## Texts -/

/-- How messages name a frame. -/
def Frame.text (frame : Frame) : String :=
  "frame " ++ toString frame.index

/-- How messages name a slot. -/
def Slot.text (slot : Slot) : String :=
  "swap slot " ++ toString slot.index

/-- A frame written as a value. -/
def Frame.debugText (frame : Frame) : String :=
  "FrameNumber(" ++ toString frame.index ++ ")"

/-- A slot written as a value. -/
def Slot.debugText (slot : Slot) : String :=
  "SwapSlot(" ++ toString slot.index ++ ")"

/-- A file span written as a value. -/
def FileSpan.debugText (span : FileSpan) : String :=
  "FileSpan \x7b offset: " ++ toString span.offset ++ ", length: " ++ toString span.length ++
    " \x7d"

/-- A page status written as a value. -/
def PageStatus.debugText : PageStatus → String
  | zero => "Zero"
  | resident frame => "Resident(" ++ frame.debugText ++ ")"
  | swapped slot => "Swapped(" ++ slot.debugText ++ ")"
  | fileBacked span => "FileBacked(" ++ span.debugText ++ ")"

/-- An eviction written as a value. -/
def Eviction.debugText : Eviction → String
  | swapped slot => "Swapped(" ++ slot.debugText ++ ")"
  | discarded => "Discarded"

end DemandPaging
