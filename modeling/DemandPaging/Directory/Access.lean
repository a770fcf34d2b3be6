/-
  Loads and stores of user code, as the memory management unit carries them out.

  An access runs upwards through the pages that its range overlaps, one piece
  per page.  A piece sets the accessed bit of its page, a store also the dirty
  bit.  The first page that does not allow the access ends it with a fault; what
  was copied before stays copied.

  * `pieces` cuts a range at page boundaries (`Cut`, `cut_pieces`): no part
    crosses one, and the parts make up the whole;
  * `Directory.touch` is one translation;
  * `Directory.load` and `Directory.store` are whole accesses.
-/
import DemandPaging.Frame.Memory
import DemandPaging.Directory.Basic
import DemandPaging.Word

namespace DemandPaging

/-- A user access that could not be carried out. -/
structure AccessFault where
  /-- The lowest address whose page does not allow the access. -/
  address : Nat
  /-- Whether the access was a store. -/
  write : Bool
  deriving DecidableEq, Repr

/-- A part of an access, within one page. -/
structure Piece where
  /-- How far into the access the part begins. -/
  start : Nat
  /-- The bytes in the part. -/
  length : Nat
  deriving DecidableEq, Repr

/-- At most `count` pieces of the `remaining` bytes of an access to `address`, of
    which `start` are done. -/
def piecesFrom (address : Nat) : (count start remaining : Nat) → List Piece
  | 0, _, _ => []
  | _ + 1, _, 0 => []
  | count + 1, start, remaining + 1 =>
    let length := min (pageSize - pageOffset (address + start)) (remaining + 1)
    ⟨start, length⟩ :: piecesFrom address count (start + length) (remaining + 1 - length)

/-- The parts of an access to `length` bytes from `address` on, in rising
    order.  Each has at least one byte, so there are no more than `length`. -/
def pieces (address length : Nat) : List Piece :=
  piecesFrom address length 0 length

/-- Pieces that cut the bytes from `start` to `stop` of an access to `address`,
    without a gap.  None is empty or crosses a page boundary, and each ends with
    its page or with the bytes. -/
inductive Cut (address stop : Nat) : Nat → List Piece → Prop where
  | nil : Cut address stop stop []
  | cons (start length : Nat) (rest : List Piece) (hpos : 0 < length)
      (hstop : start + length ≤ stop)
      (hfits : pageOffset (address + start) + length ≤ pageSize)
      (hends : pageOffset (address + start) + length = pageSize ∨ start + length = stop)
      (hrest : Cut address stop (start + length) rest) :
      Cut address stop start (⟨start, length⟩ :: rest)

theorem cut_piecesFrom {address count start remaining : Nat} (h : remaining ≤ count) :
    Cut address (start + remaining) start (piecesFrom address count start remaining) := by
  induction count generalizing start remaining with
  | zero =>
    obtain rfl : remaining = 0 := by omega
    exact .nil
  | succ count ih =>
    cases remaining with
    | zero => exact .nil
    | succ remaining =>
      have hoffset := pageOffset_lt (address + start)
      rw [piecesFrom]
      generalize hlength : min (pageSize - pageOffset (address + start)) (remaining + 1) = length
      have hrest := @ih (start + length) (remaining + 1 - length) (by omega)
      have hstop : start + length + (remaining + 1 - length) = start + (remaining + 1) := by omega
      rw [hstop] at hrest
      exact .cons start length _ (by omega) (by omega) (by omega) (by omega) hrest

/-- The parts of an access cut it at the page boundaries. -/
theorem cut_pieces (address length : Nat) : Cut address length 0 (pieces address length) := by
  have hcut : Cut address (0 + length) 0 (pieces address length) :=
    cut_piecesFrom (Nat.le_refl length)
  rwa [Nat.zero_add] at hcut

namespace Directory

/-- Translate an address for a load or a store.  The page's bits take note of
    it. -/
def touch (directory : Directory) (address : Nat) (write : Bool) :
    Except AccessFault (Frame × Directory) :=
  let page := Page.containing address
  match directory.entries.get? page with
  | none => .error ⟨address, write⟩
  | some entry =>
    if !entry.has .present || (write && !entry.has .writable) then .error ⟨address, write⟩
    else
      let touched := (entry.set .accessed true).set .dirty (entry.has .dirty || write)
      .ok (entry.frame, { directory with entries := directory.entries.insert page touched })

/-- How far a load came. -/
structure Loaded where
  /-- The fault that ended the load, if one did. -/
  fault : Option AccessFault
  /-- The bytes loaded. -/
  bytes : Bytes
  /-- The directory, with the bits of the pages touched. -/
  directory : Directory

/-- How far a store came. -/
structure Stored (n : Nat) where
  /-- The fault that ended the store, if one did. -/
  fault : Option AccessFault
  /-- The directory, with the bits of the pages touched. -/
  directory : Directory
  /-- Memory, with the bytes stored. -/
  memory : Memory n

variable {n : Nat}

/-- Load the given pieces of an access to `address`, after the bytes in
    `done`. -/
def loadPieces (memory : Memory n) (address : Nat) :
    List Piece → Directory → Bytes → Outcome Loaded
  | [], directory, done => return ⟨none, done, directory⟩
  | piece :: rest, directory, done => do
    let target ← Word.add address piece.start
    match directory.touch target false with
    | .error fault => return ⟨some fault, done, directory⟩
    | .ok (frame, directory) =>
      let contents ← memory.get frame
      loadPieces memory address rest directory
        (done ++ contents.slice (pageOffset target) piece.length)

/-- Store the given pieces of `data` to `address`. -/
def storePieces (address : Nat) (data : Bytes) :
    List Piece → Directory → Memory n → Outcome (Stored n)
  | [], directory, memory => return ⟨none, directory, memory⟩
  | piece :: rest, directory, memory => do
    let target ← Word.add address piece.start
    match directory.touch target true with
    | .error fault => return ⟨some fault, directory, memory⟩
    | .ok (frame, directory) =>
      let memory ← memory.update frame fun contents =>
        contents.overwrite (pageOffset target)
          (data.extract piece.start (piece.start + piece.length))
      storePieces address data rest directory memory

/-- Load `length` bytes from `address` on. -/
def load (directory : Directory) (memory : Memory n) (address length : Nat) : Outcome Loaded :=
  loadPieces memory address (pieces address length) directory #[]

/-- Store `data` from `address` on. -/
def store (directory : Directory) (memory : Memory n) (address : Nat) (data : Bytes) :
    Outcome (Stored n) :=
  storePieces address data (pieces address data.size) directory memory

end Directory

end DemandPaging
