/-
  The registry of block devices: the devices found at boot, until their users
  claim them.

  Devices are numbered in the order in which they are registered, and numbers
  are never used again.  A claim takes the first device of a kind out of the
  registry.
-/
import DemandPaging.Block.Device

namespace DemandPaging

/-- The devices found at boot that nobody has claimed yet. -/
structure Registry where
  /-- The devices, in the order of registration. -/
  devices : List Device := []
  /-- The number of the next device. -/
  nextIndex : Nat := 0

namespace Registry

/-- Add a device and tell its number. -/
def register (registry : Registry) (device : Device) : Outcome (Nat × Registry) := do
  let index := registry.nextIndex
  Outcome.log (.deviceRegistered device.name device.kind device.size)
  return (index, {
    devices := registry.devices ++ [{ device with index := index }]
    nextIndex := index + 1 })

/-- Claim the first device of a kind. -/
def take? (registry : Registry) (kind : DeviceKind) : Option (Device × Registry) :=
  match registry.devices.find? (fun device => device.kind = kind) with
  | none => none
  | some device => some (device, {
      registry with
      devices := registry.devices.eraseP fun device => device.kind = kind })

/-- The number of devices that nobody has claimed. -/
def size (registry : Registry) : Nat :=
  registry.devices.length

/-- Whether all devices have been claimed. -/
def isEmpty (registry : Registry) : Bool :=
  registry.devices.isEmpty

end Registry

end DemandPaging
