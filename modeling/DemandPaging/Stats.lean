/-
  Counts of what the pager did.
-/

namespace DemandPaging

/-- Counts of what the pager did. -/
structure Stats where
  /-- Frames reclaimed by the clock. -/
  evictions : Nat := 0
  /-- Evicted pages written to swap. -/
  swapOuts : Nat := 0
  /-- Evicted file pages dropped without a write. -/
  discards : Nat := 0
  /-- Pages read back from swap. -/
  swapIns : Nat := 0
  /-- Pages loaded from a file. -/
  fileLoads : Nat := 0
  deriving DecidableEq, Repr

namespace Stats

/-- Count an eviction to swap. -/
def countSwapOut (stats : Stats) : Stats :=
  { stats with evictions := stats.evictions + 1, swapOuts := stats.swapOuts + 1 }

/-- Count an eviction without a write. -/
def countDiscard (stats : Stats) : Stats :=
  { stats with evictions := stats.evictions + 1, discards := stats.discards + 1 }

/-- Count a page read back from swap. -/
def countSwapIn (stats : Stats) : Stats :=
  { stats with swapIns := stats.swapIns + 1 }

/-- Count a page loaded from a file. -/
def countFileLoad (stats : Stats) : Stats :=
  { stats with fileLoads := stats.fileLoads + 1 }

end Stats

end DemandPaging
