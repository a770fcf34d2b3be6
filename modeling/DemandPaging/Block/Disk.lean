/-
  A disk in memory: sectors that start out as zeros and keep what is written to
  them.

  A transfer is of exactly one sector and names one that the disk has.  The
  sector is checked before the length.

  * `Disk.read_eq` and `Disk.writeSector_eq` say when a transfer is refused, and
    what it yields and leaves otherwise.
-/
import DemandPaging.Contents
import DemandPaging.Error

namespace DemandPaging

/-- A disk in memory. -/
structure Disk where
  /-- The contents of each sector. -/
  sectors : Array Sector

namespace Disk

/-- A disk of zeros. -/
def blank (sectors : Nat) : Disk :=
  ⟨Array.replicate sectors Sector.zero⟩

/-- The number of sectors on a disk. -/
def size (disk : Disk) : Nat :=
  disk.sectors.size

/-- What a transfer of `length` bytes from a sector yields. -/
def read (disk : Disk) (sector length : Nat) : Except DeviceError Sector :=
  match disk.sectors[sector]? with
  | none => .error .sectorOutOfBounds
  | some contents => if length = sectorSize then .ok contents else .error .bufferInvalid

/-- The disk after a sector got new contents. -/
def writeSector (disk : Disk) (sector : Nat) (contents : Sector) : Except DeviceError Disk :=
  if h : sector < disk.sectors.size then .ok ⟨disk.sectors.set sector contents h⟩
  else .error .sectorOutOfBounds

/-- The disk after a transfer of `data` to a sector. -/
def write (disk : Disk) (sector : Nat) (data : Bytes) : Except DeviceError Disk :=
  if h : data.size = sectorSize then disk.writeSector sector ⟨data, h⟩
  else if sector < disk.size then .error .bufferInvalid
  else .error .sectorOutOfBounds

theorem write_toArray (disk : Disk) (sector : Nat) (contents : Sector) :
    disk.write sector contents.toArray = disk.writeSector sector contents := by
  simp [write]

theorem read_eq (disk : Disk) (sector length : Nat) :
    disk.read sector length =
      if sector < disk.size then
        if length = sectorSize then .ok (disk.sectors[sector]?.getD Sector.zero)
        else .error .bufferInvalid
      else .error .sectorOutOfBounds := by
  unfold read size
  by_cases h : sector < disk.sectors.size <;> simp [h]

theorem writeSector_eq (disk : Disk) (sector : Nat) (contents : Sector) :
    disk.writeSector sector contents =
      if sector < disk.size then .ok ⟨disk.sectors.setIfInBounds sector contents⟩
      else .error .sectorOutOfBounds := by
  unfold writeSector size
  by_cases h : sector < disk.sectors.size <;> simp [h, Array.setIfInBounds]

end Disk

end DemandPaging
