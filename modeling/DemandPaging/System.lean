/-
  The one virtual memory manager of a system.

  The manager is set up once, with the swap device that a registry holds, and is
  asked for afterwards; doing it twice or asking too early is a panic.
-/
import DemandPaging.Machine.Basic

namespace DemandPaging

/-- A system, which may have its manager already. -/
structure System where
  /-- The number of user frames and the manager, once it is set up. -/
  manager : Option ((n : Nat) × Machine n) := none

namespace System

/-- Set up the manager of a system that has none, with the swap device of a
    registry. -/
def init (system : System) (config : Config) (frames : Nat) (registry : Registry) :
    Outcome (System × Registry) := do
  let (swap, registry) ← SwapSpace.ofRegistry registry
  let machine ← Machine.start config frames swap
  Outcome.require system.manager.isNone .alreadyInitialized
  return ({ manager := some ⟨frames, machine⟩ }, registry)

/-- The manager of a system, which must be set up. -/
def machine (system : System) : Outcome ((n : Nat) × Machine n) :=
  match system.manager with
  | some manager => return manager
  | none => Outcome.halt .notInitialized

end System

end DemandPaging
