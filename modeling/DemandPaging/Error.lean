/-
  Failures that a caller can recover from: those of the virtual memory manager
  (`Error`) and those that a block device reports (`DeviceError`).  Broken
  invariants are not among them; they stop the machine (`Panic`).
-/

namespace DemandPaging

/-- Why the virtual memory manager turned a request down. -/
inductive Error where
  /-- Every swap slot is occupied, so no frame could be reclaimed. -/
  | swapExhausted
  /-- The address is neither mapped nor a valid stack access. -/
  | invalidAccess
  /-- A write to a page that is mapped read-only. -/
  | readOnly
  /-- The file has fewer bytes than the page needs. -/
  | fileRead
  /-- The directory had no memory for the mapping. -/
  | outOfMemory
  /-- The page is in the table already. -/
  | alreadyMapped
  /-- The page is not in a frame. -/
  | notResident
  deriving DecidableEq, Repr

/-- The wording of an error. -/
def Error.message : Error → String
  | swapExhausted => "swap space exhausted"
  | invalidAccess => "invalid memory access"
  | readOnly => "write to read-only page"
  | fileRead => "short read from backing file"
  | outOfMemory => "out of memory for page mapping"
  | alreadyMapped => "page already mapped"
  | notResident => "page not resident"

/-- Why a block device did not complete a transfer. -/
inductive DeviceError where
  /-- The sector lies past the end of the disk. -/
  | sectorOutOfBounds
  /-- The buffer is not exactly one sector long. -/
  | bufferInvalid
  /-- The device failed. -/
  | deviceFailure
  deriving DecidableEq, Repr

/-- The wording of a device error. -/
def DeviceError.message : DeviceError → String
  | sectorOutOfBounds => "sector past the end of the device"
  | bufferInvalid => "buffer is not one sector long"
  | deviceFailure => "device failed the transfer"

end DemandPaging
