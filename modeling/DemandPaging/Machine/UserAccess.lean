/-
  Loads and stores of processes that are paged on demand.

  The whole access is tried; if it faults, the fault is handled and the whole
  access is tried again.  It ends when it is carried out, when a fault is
  rejected, or when it faults once more after `limit` handled faults.
-/
import DemandPaging.Directory.Access
import DemandPaging.Machine.Fault

namespace DemandPaging

/-- How a user access ended. -/
inductive UserAccess (α : Type) where
  /-- It was carried out after this many faults. -/
  | done (faults : Nat) (value : α)
  /-- Its last fault, included in the count, was turned down. -/
  | failed (faults : Nat) (error : Error)
  /-- It faulted again after this many handled faults. -/
  | gaveUp (faults : Nat)
  deriving DecidableEq, Repr

namespace Machine

variable {n : Nat} {α : Type}

/-- Try to load for a process, without handling a fault. -/
def tryLoad (machine : Machine n) (process address length : Nat) :
    Outcome (Except AccessFault Bytes × Machine n) := do
  let loaded ← (machine.space process).directory.load machine.memory address length
  let machine := machine.setDirectory process loaded.directory
  match loaded.fault with
  | none => return (.ok loaded.bytes, machine)
  | some fault => return (.error fault, machine)

/-- Try to store for a process, without handling a fault.  The answer is the
    number of bytes stored. -/
def tryStore (machine : Machine n) (process address : Nat) (data : Bytes) :
    Outcome (Except AccessFault Nat × Machine n) := do
  let stored ← (machine.space process).directory.store machine.memory address data
  let machine := { machine.setDirectory process stored.directory with memory := stored.memory }
  match stored.fault with
  | none => return (.ok data.size, machine)
  | some fault => return (.error fault, machine)

/-- Carry out an access of a process, after `faults` handled faults and with at
    most `limit` more. -/
def retry (attempt : Machine n → Outcome (Except AccessFault α × Machine n))
    (process stackPointer : Nat) :
    (limit faults : Nat) → Machine n → Outcome (UserAccess α × Machine n)
  | limit, faults, machine => do
    let (tried, machine) ← attempt machine
    match tried with
    | .ok value => return (.done faults value, machine)
    | .error fault =>
      match limit with
      | 0 => return (.gaveUp faults, machine)
      | limit + 1 =>
        let (handled, machine) ←
          machine.handleFault process ⟨fault.address, fault.write, stackPointer⟩
        match handled with
        | .error e => return (.failed (faults + 1) e, machine)
        | .ok () => retry attempt process stackPointer limit (faults + 1) machine

/-- Load `length` bytes for a process. -/
def load (machine : Machine n) (limit process address length stackPointer : Nat) :
    Outcome (UserAccess Bytes × Machine n) :=
  retry (fun machine => machine.tryLoad process address length) process stackPointer limit 0
    machine

/-- Store `data` for a process. -/
def store (machine : Machine n) (limit process address : Nat) (data : Bytes)
    (stackPointer : Nat) : Outcome (UserAccess Nat × Machine n) :=
  retry (fun machine => machine.tryStore process address data) process stackPointer limit 0
    machine

end Machine

end DemandPaging
