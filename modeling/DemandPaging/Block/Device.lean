/-
  Block devices: a drive and what the kernel knows about it.

  A transfer must name a sector of the device, be one sector long and, if it is
  a write, not go to a foreign device; breaking these rules is a panic, found in
  this order before the drive is asked.  Transfers are counted when they
  succeed.
-/
import DemandPaging.Block.Kind
import DemandPaging.Block.Drive
import DemandPaging.Word

namespace DemandPaging

/-- A block device. -/
structure Device where
  /-- The number the registry gave to the device. -/
  index : Nat := 0
  /-- How messages name the device. -/
  name : String
  /-- What the device is used for. -/
  kind : DeviceKind
  /-- The sectors of the device, as far as the kernel knows. -/
  size : Nat
  /-- Where its sectors are stored. -/
  drive : Drive
  /-- The sectors read from it. -/
  reads : Nat := 0
  /-- The sectors written to it. -/
  writes : Nat := 0

namespace Device

/-- Stop unless a transfer names a sector of the device. -/
def requireSector (device : Device) (sector : Nat) : Outcome Unit :=
  Outcome.require (sector < device.size) (.sectorPastEnd device.name sector device.size)

/-- Read a sector into a buffer of `length` bytes. -/
def read (device : Device) (sector length : Nat) :
    Outcome (Except DeviceError Sector × Device) := do
  device.requireSector sector
  Outcome.require (length = sectorSize) (.transferSize device.name length)
  match device.drive.read sector length with
  | (.error e, drive) => return (.error e, { device with drive := drive })
  | (.ok contents, drive) =>
    let reads ← Word.add32 device.reads 1
    return (.ok contents, { device with drive := drive, reads := reads })

/-- Write new contents to a sector. -/
def writeSector (device : Device) (sector : Nat) (contents : Sector) :
    Outcome (Except DeviceError Unit × Device) := do
  device.requireSector sector
  Outcome.require (device.kind ≠ .foreign) (.foreignWrite device.name)
  match device.drive.writeSector sector contents with
  | (.error e, drive) => return (.error e, { device with drive := drive })
  | (.ok (), drive) =>
    let writes ← Word.add32 device.writes 1
    return (.ok (), { device with drive := drive, writes := writes })

/-- Write `data` to a sector. -/
def write (device : Device) (sector : Nat) (data : Bytes) :
    Outcome (Except DeviceError Unit × Device) :=
  if h : data.size = sectorSize then device.writeSector sector ⟨data, h⟩
  else do
    device.requireSector sector
    Outcome.halt (.transferSize device.name data.size)

theorem write_toArray (device : Device) (sector : Nat) (contents : Sector) :
    device.write sector contents.toArray = device.writeSector sector contents := by
  simp [write]

end Device

end DemandPaging
