/-
  The address spaces of the processes.

  An address space is the table of a process's pages and the directory that maps
  those in frames.  `AddressSpaces` holds one for every process number; those
  not set up yet are empty.

  * `AddressSpaces.get_set`: setting one address space changes no other.
-/
import DemandPaging.Table.Basic
import DemandPaging.Directory.Basic

namespace DemandPaging

/-- The memory of a process as the manager sees it. -/
structure AddressSpace where
  /-- How messages name the process. -/
  pid : Nat := 0
  /-- Where every page is. -/
  table : PageTable := {}
  /-- The mappings of the pages in frames. -/
  directory : Directory := {}

/-- An address space without pages. -/
def AddressSpace.empty : AddressSpace := {}

/-- The address spaces of the processes, by number. -/
structure AddressSpaces where
  /-- Those set up so far. -/
  spaces : Array AddressSpace := #[]

namespace AddressSpaces

/-- The number of address spaces set up. -/
def size (all : AddressSpaces) : Nat :=
  all.spaces.size

/-- The address space of a process. -/
def get (all : AddressSpaces) (process : Nat) : AddressSpace :=
  all.spaces[process]?.getD .empty

/-- Give a process an address space. -/
def set (all : AddressSpaces) (process : Nat) (space : AddressSpace) : AddressSpaces :=
  if h : process < all.spaces.size then ⟨all.spaces.set process space h⟩
  else ⟨(all.spaces ++ Array.replicate (process - all.spaces.size) AddressSpace.empty).push space⟩

/-- Set up one more address space. -/
def push (all : AddressSpaces) (space : AddressSpace) : AddressSpaces :=
  ⟨all.spaces.push space⟩

theorem get_set (all : AddressSpaces) (process other : Nat) (space : AddressSpace) :
    (all.set process space).get other = if process = other then space else all.get other := by
  unfold set
  split
  · rename_i h
    by_cases ho : process = other
    · subst ho; simp [get, h]
    · simp [get, ho]
  · rename_i h
    have hsize : (all.spaces ++ Array.replicate (process - all.spaces.size)
        AddressSpace.empty).size = process := by simp; omega
    simp only [get, Array.getElem?_push, hsize]
    by_cases ho : process = other
    · simp [ho]
    · rw [if_neg (fun h => ho h.symm), if_neg ho]
      by_cases hlt : other < all.spaces.size
      · rw [Array.getElem?_append_left hlt]
      · have hnone : all.spaces[other]? = none := by simp; omega
        rw [Array.getElem?_append_right (Nat.le_of_not_lt hlt), Array.getElem?_replicate, hnone]
        split <;> rfl

@[simp] theorem get_set_self (all : AddressSpaces) (process : Nat) (space : AddressSpace) :
    (all.set process space).get process = space := by
  simp [get_set]

theorem get_set_of_ne (all : AddressSpaces) {process other : Nat} (space : AddressSpace)
    (h : process ≠ other) : (all.set process space).get other = all.get other := by
  simp [get_set, h]

theorem size_set (all : AddressSpaces) (process : Nat) (space : AddressSpace) :
    (all.set process space).size = max all.size (process + 1) := by
  unfold set size
  split
  · rw [Array.size_set]
    omega
  · rw [Array.size_push, Array.size_append, Array.size_replicate]
    omega

theorem get_push (all : AddressSpaces) (space : AddressSpace) (other : Nat) :
    (all.push space).get other = if other = all.size then space else all.get other := by
  by_cases h : other = all.spaces.size <;> simp [get, push, size, Array.getElem?_push, h]

end AddressSpaces

end DemandPaging
