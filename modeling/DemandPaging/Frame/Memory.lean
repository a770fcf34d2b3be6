/-
  Physical memory: the bytes of a fixed number of frames.

  Naming a frame that memory does not have is a panic.
-/
import DemandPaging.Contents
import DemandPaging.Outcome

namespace DemandPaging

/-- The contents of `n` frames. -/
structure Memory (n : Nat) where
  /-- The bytes of each frame. -/
  frames : Vector Contents n

namespace Memory

variable {n : Nat}

/-- Memory whose frames are all zero. -/
def blank (n : Nat) : Memory n :=
  ⟨Vector.replicate n Contents.zero⟩

/-- The contents of a frame, which must be part of memory. -/
def get (memory : Memory n) (frame : Frame) : Outcome Contents :=
  match memory.frames[frame.index]? with
  | some contents => pure contents
  | none => Outcome.halt (.frameOutOfRange frame n)

/-- Memory with new contents in a frame, which must be part of it. -/
def put (memory : Memory n) (frame : Frame) (contents : Contents) : Outcome (Memory n) :=
  if h : frame.index < n then pure ⟨memory.frames.set frame.index contents h⟩
  else Outcome.halt (.frameOutOfRange frame n)

/-- Change the contents of a frame, which must be part of memory. -/
def update (memory : Memory n) (frame : Frame) (f : Contents → Contents) :
    Outcome (Memory n) := do
  let contents ← memory.get frame
  memory.put frame (f contents)

/-- Fill a frame, which must be part of memory, with zeros. -/
def clear (memory : Memory n) (frame : Frame) : Outcome (Memory n) :=
  memory.put frame Contents.zero

theorem get_eq (memory : Memory n) (frame : Frame) :
    memory.get frame =
      if frame.index < n then pure (memory.frames[frame.index]?.getD Contents.zero)
      else Outcome.halt (.frameOutOfRange frame n) := by
  unfold get
  by_cases h : frame.index < n <;> simp [h]

end Memory

end DemandPaging
