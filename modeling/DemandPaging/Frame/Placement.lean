/-
  Which free frame an allocation gets.

  A placement policy looks at the core map, which says of each frame whether it
  is allocated and whether it is pinned, and chooses a frame.  `NextFit` resumes
  its search where the last one succeeded, so that frames are not reused right
  after they are freed; `Script` gives choices laid down in advance.
-/

namespace DemandPaging

/-- What the pool knows about a frame. -/
structure CoreEntry where
  /-- The frame is in use. -/
  allocated : Bool := false
  /-- The frame must not be reclaimed. -/
  pinned : Bool := false
  deriving DecidableEq, Repr

/-- The entry that a byte stands for: its lowest bit tells whether the frame is
    allocated, the next one whether it is pinned. -/
def CoreEntry.ofByte (byte : Nat) : CoreEntry :=
  ⟨byte.testBit 0, byte.testBit 1⟩

/-- A way to choose the frame for an allocation. -/
class PlacementPolicy (π : Type) where
  /-- The index of the chosen frame, if there is one, and the policy's state
      afterwards. -/
  place : π → Array CoreEntry → Option Nat × π

/-- Whether a core map has a frame at an index and the frame is free. -/
def isFreeAt (coreMap : Array CoreEntry) (index : Nat) : Bool :=
  match coreMap[index]? with
  | some entry => !entry.allocated
  | none => false

/-- Next fit: the first free frame from the place where the last search
    succeeded. -/
structure NextFit where
  /-- Where the next search begins. -/
  position : Nat := 0
  deriving DecidableEq, Repr

/-- The order in which next fit looks at the frames of a core map: from its
    position to the end, then from the beginning. -/
def NextFit.order (policy : NextFit) (frames : Nat) : List Nat :=
  let start := min policy.position frames
  List.range' start (frames - start) ++ List.range start

instance : PlacementPolicy NextFit where
  place policy coreMap :=
    match (policy.order coreMap.size).find? (isFreeAt coreMap) with
    | some index => (some index, ⟨(index + 1) % coreMap.size⟩)
    | none => (none, policy)

/-- Choices laid down in advance; after the last there are none. -/
structure Script where
  /-- The choices still to come. -/
  choices : List (Option Nat)
  deriving DecidableEq, Repr

instance : PlacementPolicy Script where
  place script _ :=
    match script.choices with
    | choice :: rest => (choice, ⟨rest⟩)
    | [] => (none, script)

end DemandPaging
