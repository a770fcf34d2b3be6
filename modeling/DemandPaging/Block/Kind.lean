/-
  What a block device is used for.
-/

namespace DemandPaging

/-- What a block device is used for. -/
inductive DeviceKind where
  /-- Holds the kernel image. -/
  | kernel
  /-- Holds a file system. -/
  | fileSystem
  /-- Free for tests and experiments. -/
  | scratch
  /-- Backing store for evicted pages. -/
  | swap
  /-- Unidentified contents. -/
  | raw
  /-- Belongs to another operating system; never written. -/
  | foreign
  deriving DecidableEq, Repr

/-- How messages name a kind of device. -/
def DeviceKind.text : DeviceKind → String
  | kernel => "kernel"
  | fileSystem => "file system"
  | scratch => "scratch"
  | swap => "swap"
  | raw => "raw"
  | foreign => "foreign"

end DemandPaging
