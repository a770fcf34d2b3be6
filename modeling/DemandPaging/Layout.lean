/-
  Sizes and the layout of the address space.

  User addresses lie below `kernelBase`, the user stack grows down from it, and
  all of memory is cut into pages of `pageSize` bytes.  Addresses are natural
  numbers below `wordLimit`, sector numbers natural numbers below
  `sectorLimit`.

  * `pageOffset`, `pageRoundDown` split an address into its place in a page and
    the start of that page (`pageRoundDown_add_pageOffset`);
  * `isUserAddress` holds of the addresses below the kernel.
-/

namespace DemandPaging

/-! ## Sizes -/

/-- Bytes in a kilobyte. -/
abbrev kilobyte : Nat := 1024

/-- Bytes in a megabyte. -/
abbrev megabyte : Nat := 1048576

/-- Bytes in a gigabyte. -/
abbrev gigabyte : Nat := 1073741824

/-- Bytes in a sector of a block device. -/
abbrev sectorSize : Nat := 512

/-- Bytes in a page, and in the frame that holds one. -/
abbrev pageSize : Nat := 4096

/-- Sectors that make up one page. -/
abbrev sectorsPerPage : Nat := 8

/-- The largest frame number that a directory entry has room for. -/
abbrev maxFrameNumber : Nat := 1048575

/-- Addresses, sizes and file offsets are 64-bit words. -/
abbrev wordLimit : Nat := 18446744073709551616

/-- Sector numbers and transfer counts are 32-bit words. -/
abbrev sectorLimit : Nat := 4294967296

/-! ## The address space -/

/-- The first kernel address; user memory lies below it. -/
abbrev kernelBase : Nat := 0x80000000

/-- How far a user stack may grow unless configured otherwise. -/
abbrev defaultStackSize : Nat := 8388608

/-- How far below the stack pointer a push may store, unless configured
    otherwise: the instruction that pushes all registers stores 32 bytes before
    the pointer moves. -/
abbrev defaultPushMargin : Nat := 32

/-- The place of an address within its page. -/
def pageOffset (address : Nat) : Nat :=
  address % pageSize

/-- The start of the page that an address lies in. -/
def pageRoundDown (address : Nat) : Nat :=
  address - pageOffset address

/-- Whether an address belongs to user memory. -/
def isUserAddress (address : Nat) : Bool :=
  address < kernelBase

theorem pageOffset_lt (address : Nat) : pageOffset address < pageSize :=
  Nat.mod_lt _ (by decide)

theorem pageRoundDown_add_pageOffset (address : Nat) :
    pageRoundDown address + pageOffset address = address :=
  Nat.sub_add_cancel (Nat.mod_le _ _)

end DemandPaging
