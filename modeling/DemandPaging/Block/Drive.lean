/-
  A disk drive: a disk together with the faults it will show.

  A `FaultPlan` marks sectors as faulty and says of each transfer that meets a
  faulty sector, counted from zero, whether it fails.  A transfer that fails
  does not reach the disk.
-/
import DemandPaging.Block.Disk

namespace DemandPaging

/-- The transfers of a drive that fail. -/
structure FaultPlan where
  /-- The sectors whose transfers may fail. -/
  faulty : Nat → Bool
  /-- Whether a transfer fails that meets a faulty sector, by the number of such
      transfers before it. -/
  fails : Nat → Bool

namespace FaultPlan

/-- No transfer fails. -/
def none : FaultPlan :=
  ⟨fun _ => false, fun _ => false⟩

/-- The transfers of the given sectors fail, except the first `spared`. -/
def sectors (bad : List Nat) (spared : Nat) : FaultPlan :=
  ⟨fun sector => bad.contains sector, fun met => spared ≤ met⟩

/-- All transfers fail, except the first `spared`. -/
def broken (spared : Nat) : FaultPlan :=
  ⟨fun _ => true, fun met => spared ≤ met⟩

end FaultPlan

/-- A disk and the faults it will show. -/
structure Drive where
  /-- What is stored. -/
  disk : Disk
  /-- The transfers that fail. -/
  plan : FaultPlan := .none
  /-- The transfers so far that met a faulty sector. -/
  met : Nat := 0

namespace Drive

/-- Whether a transfer of a sector fails, and the drive that has taken note of
    it. -/
def attempt (drive : Drive) (sector : Nat) : Bool × Drive :=
  if drive.plan.faulty sector then (drive.plan.fails drive.met, { drive with met := drive.met + 1 })
  else (false, drive)

/-- A transfer of `length` bytes from a sector. -/
def read (drive : Drive) (sector length : Nat) : Except DeviceError Sector × Drive :=
  match drive.attempt sector with
  | (true, drive) => (.error .deviceFailure, drive)
  | (false, drive) => (drive.disk.read sector length, drive)

/-- A transfer of new contents to a sector. -/
def writeSector (drive : Drive) (sector : Nat) (contents : Sector) :
    Except DeviceError Unit × Drive :=
  match drive.attempt sector with
  | (true, drive) => (.error .deviceFailure, drive)
  | (false, drive) =>
    match drive.disk.writeSector sector contents with
    | .ok disk => (.ok (), { drive with disk := disk })
    | .error e => (.error e, drive)

end Drive

end DemandPaging
