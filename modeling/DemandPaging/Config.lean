/-
  The limits of user stacks.
-/
import DemandPaging.Word

namespace DemandPaging

/-- The limits of user stacks. -/
structure Config where
  /-- How far a stack may grow, downward from the top of user space. -/
  stackSize : Nat := defaultStackSize
  /-- How far below the stack pointer an access still counts as a push. -/
  pushMargin : Nat := defaultPushMargin
  deriving DecidableEq, Repr

namespace Config

/-- Limit stacks to a size, which must fit in user space. -/
def withStackSize (config : Config) (size : Nat) : Outcome Config := do
  Outcome.require (size ≤ kernelBase) (.stackTooLarge size)
  return { config with stackSize := size }

/-- Let pushes store this far below the stack pointer. -/
def withPushMargin (config : Config) (margin : Nat) : Config :=
  { config with pushMargin := margin }

/-- Whether an access to an address looks like a push below the given stack
    pointer, within the region reserved for the stack. -/
def isStackAccess (config : Config) (address stackPointer : Nat) : Bool :=
  kernelBase - config.stackSize ≤ address &&
    stackPointer ≤ Word.saturatingAdd address config.pushMargin

end Config

end DemandPaging
