/-
  The slots of the swap space: which of them hold a page, and which one the next
  page gets.

  The slot released last is handed out first; when none has been released, the
  lowest slot never handed out is next.  A slot holds one page at most, so none
  is listed twice among the occupied ones.

  * `occupy` and `release` are what changes when a slot gets a page and when it
    loses it; only a slot that holds none can get one.
-/
import DemandPaging.Outcome

namespace DemandPaging

/-- The slots of the swap space. -/
structure Slots where
  /-- The number of slots. -/
  capacity : Nat
  /-- The slots that hold a page, the latest first. -/
  occupied : List Slot := []
  /-- A slot holds one page. -/
  occupied_nodup : occupied.Nodup := by exact List.nodup_nil
  /-- The slots released since they were last handed out, the latest first. -/
  released : List Slot := []
  /-- Slots from this index on have never been handed out. -/
  fresh : Nat := 0

namespace Slots

/-- Whether a slot holds a page. -/
def isOccupied (slots : Slots) (slot : Slot) : Bool :=
  slots.occupied.contains slot

/-- The number of slots that hold a page. -/
def inUse (slots : Slots) : Nat :=
  slots.occupied.length

/-- The slot that the next page gets, and the slots without it among the
    free. -/
def next? (slots : Slots) : Option (Slot × Slots) :=
  match slots.released with
  | slot :: released => some (slot, { slots with released := released })
  | [] =>
    if slots.fresh < slots.capacity then
      some (⟨slots.fresh⟩, { slots with fresh := slots.fresh + 1 })
    else none

/-- The slots, when one that held no page gets one. -/
def occupy (slots : Slots) (slot : Slot) (h : slot ∉ slots.occupied) : Slots :=
  { slots with
    occupied := slot :: slots.occupied
    occupied_nodup := List.nodup_cons.2 ⟨h, slots.occupied_nodup⟩ }

/-- The slots, when one lost its page.  It is the next one to be handed out. -/
def release (slots : Slots) (slot : Slot) : Slots :=
  { slots with
    occupied := slots.occupied.erase slot
    occupied_nodup := slots.occupied_nodup.erase slot
    released := slot :: slots.released }

/-- Reserve a slot for a page. -/
def allocate (slots : Slots) : Outcome (Except Error Slot × Slots) := do
  match slots.next? with
  | none =>
    Outcome.log (.swapFull slots.capacity)
    return (.error .swapExhausted, slots)
  | some (slot, slots) =>
    if h : slot ∈ slots.occupied then Outcome.halt (.slotHandedOutTwice slot)
    else return (.ok slot, slots.occupy slot h)

/-- Stop unless a slot is part of the swap space. -/
def requireInBounds (slots : Slots) (slot : Slot) : Outcome Unit :=
  Outcome.require (slot.index < slots.capacity) (.slotOutOfBounds slot slots.capacity)

/-- Stop unless a slot holds a page. -/
def requireOccupied (slots : Slots) (slot : Slot) : Outcome Unit := do
  slots.requireInBounds slot
  Outcome.require (slots.isOccupied slot) (.slotUnassigned slot)

/-- Release a slot, which must hold a page. -/
def free (slots : Slots) (slot : Slot) : Outcome Slots := do
  slots.requireInBounds slot
  Outcome.require (slots.isOccupied slot) (.slotDoubleFree slot)
  return slots.release slot

section

variable (slots : Slots) (slot : Slot)

@[simp] theorem fresh_occupy (h : slot ∉ slots.occupied) :
    (slots.occupy slot h).fresh = slots.fresh := rfl

@[simp] theorem released_occupy (h : slot ∉ slots.occupied) :
    (slots.occupy slot h).released = slots.released := rfl

@[simp] theorem occupied_occupy (h : slot ∉ slots.occupied) :
    (slots.occupy slot h).occupied = slot :: slots.occupied := rfl

@[simp] theorem capacity_release : (slots.release slot).capacity = slots.capacity := rfl

@[simp] theorem fresh_release : (slots.release slot).fresh = slots.fresh := rfl

@[simp] theorem released_release :
    (slots.release slot).released = slot :: slots.released := rfl

@[simp] theorem occupied_release :
    (slots.release slot).occupied = slots.occupied.erase slot := rfl

end

end Slots

end DemandPaging
