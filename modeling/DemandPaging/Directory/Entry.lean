/-
  The directory entry: what the memory management unit knows about a page,
  packed into a 32-bit word.

  The low bits are flags and the upper twenty the number of a frame.

  * `has_set` and `frame_set`: setting a flag changes that flag alone;
  * `has_setFrame` and `frame_setFrame`: setting the frame changes no flag.
-/
import DemandPaging.Outcome
import DemandPaging.Layout

namespace DemandPaging

/-- The flags of a directory entry. -/
inductive Flag where
  /-- The page is in a frame. -/
  | present
  /-- The page may be written. -/
  | writable
  /-- User code may touch the page. -/
  | user
  /-- Writes go through the cache. -/
  | writeThrough
  /-- The page is not cached. -/
  | cacheDisabled
  /-- The page was touched. -/
  | accessed
  /-- The page was written. -/
  | dirty
  /-- Selects an entry of the page attribute table. -/
  | attributeTable
  /-- The translation is the same in all address spaces. -/
  | shared
  deriving DecidableEq, Repr

/-- The bit of the word that holds a flag. -/
def Flag.position : Flag → Nat
  | present => 0
  | writable => 1
  | user => 2
  | writeThrough => 3
  | cacheDisabled => 4
  | accessed => 5
  | dirty => 6
  | attributeTable => 7
  | shared => 8

/-- The lowest bit of the frame number. -/
abbrev frameShift : Nat := 12

/-- A directory entry. -/
structure DirectoryEntry where
  /-- The packed word. -/
  word : BitVec 32
  deriving DecidableEq, Repr

namespace DirectoryEntry

/-- The entry of a page that was never mapped. -/
def empty : DirectoryEntry :=
  ⟨0#32⟩

/-- Whether a flag is set. -/
def has (entry : DirectoryEntry) (flag : Flag) : Bool :=
  entry.word.getLsbD flag.position

/-- The entry with a flag set or cleared. -/
def set (entry : DirectoryEntry) (flag : Flag) (on : Bool) : DirectoryEntry :=
  let mask := 1#32 <<< flag.position
  if on then ⟨entry.word ||| mask⟩ else ⟨entry.word &&& ~~~mask⟩

/-- The frame that an entry points at. -/
def frame (entry : DirectoryEntry) : Frame :=
  ⟨(entry.word >>> frameShift).toNat⟩

/-- The entry pointing at a frame, of whose number the low twenty bits are
    kept. -/
def setFrame (entry : DirectoryEntry) (frame : Frame) : DirectoryEntry :=
  ⟨(entry.word &&& 0xFFF#32) ||| (BitVec.ofNat 32 frame.index <<< frameShift)⟩

/-- The entry of a user page in a frame, whose number must fit. -/
def userPage (frame : Frame) (writable : Bool) : Outcome DirectoryEntry := do
  Outcome.require (frame.index ≤ maxFrameNumber) (.frameTooLarge frame)
  return (((empty.set .present true).set .user true).set .writable writable).setFrame frame

/-! ## Reading back -/

theorem position_lt (flag : Flag) : flag.position < frameShift := by
  cases flag <;> decide

theorem position_inj {f g : Flag} : f.position = g.position ↔ f = g := by
  cases f <;> cases g <;> decide

theorem getLsbD_set (entry : DirectoryEntry) (flag : Flag) (on : Bool) (i : Nat) :
    (entry.set flag on).word.getLsbD i =
      if i = flag.position then on else entry.word.getLsbD i := by
  have hp : flag.position < 32 := Nat.lt_trans (position_lt flag) (by decide)
  generalize hq : flag.position = p at *
  cases on
  · simp only [set, hq, Bool.false_eq_true, if_false, BitVec.getLsbD_and, BitVec.getLsbD_not,
      BitVec.getLsbD_shiftLeft, BitVec.getLsbD_one]
    by_cases h : i = p
    · subst h; simp [hp]
    · by_cases hl : i < 32
      · by_cases hi : i < p
        · simp [h, hi, hl]
        · have : i - p ≠ 0 := by omega
          simp [h, this, hl]
      · simp [h, hl, BitVec.getLsbD_of_ge entry.word i (by omega)]
  · simp only [set, hq, if_true, BitVec.getLsbD_or, BitVec.getLsbD_shiftLeft, BitVec.getLsbD_one]
    by_cases h : i = p
    · subst h; simp [hp]
    · by_cases hi : i < p
      · simp [h, hi]
      · have : i - p ≠ 0 := by omega
        simp [h, this]

theorem has_set (entry : DirectoryEntry) (flag other : Flag) (on : Bool) :
    (entry.set flag on).has other = if other = flag then on else entry.has other := by
  simp [has, getLsbD_set, position_inj]

theorem frame_set (entry : DirectoryEntry) (flag : Flag) (on : Bool) :
    (entry.set flag on).frame = entry.frame := by
  have h : (entry.set flag on).word >>> frameShift = entry.word >>> frameShift := by
    apply BitVec.eq_of_getLsbD_eq
    intro i _
    have hp := position_lt flag
    have hne : frameShift + i ≠ flag.position := by omega
    simp [BitVec.getLsbD_ushiftRight, getLsbD_set, hne]
  simp [frame, h]

theorem has_setFrame (entry : DirectoryEntry) (frame : Frame) (flag : Flag) :
    (entry.setFrame frame).has flag = entry.has flag := by
  have hp := position_lt flag
  have hlow : ∀ j : Fin frameShift, (0xFFF#32).getLsbD j.val = true := by decide
  have hbit := hlow ⟨flag.position, hp⟩
  simp only [frameShift] at hp
  simp only [has, setFrame, BitVec.getLsbD_or, BitVec.getLsbD_and, BitVec.getLsbD_shiftLeft, hbit]
  simp [hp]

theorem frame_setFrame (entry : DirectoryEntry) {frame : Frame}
    (h : frame.index ≤ maxFrameNumber) : (entry.setFrame frame).frame = frame := by
  have hlt : frame.index < 2 ^ 20 := by simp only [maxFrameNumber] at h; omega
  have hword : (entry.setFrame frame).word >>> frameShift = BitVec.ofNat 32 frame.index := by
    apply BitVec.eq_of_getLsbD_eq
    intro i hi
    have hhigh : (0xFFF#32).getLsbD (frameShift + i) = false := by
      by_cases hr : frameShift + i < 32
      · have hall : ∀ j : Fin 32, frameShift ≤ j.val → (0xFFF#32).getLsbD j.val = false := by
          decide
        exact hall ⟨frameShift + i, hr⟩ (Nat.le_add_right _ _)
      · exact BitVec.getLsbD_of_ge _ _ (by omega)
    simp only [setFrame, BitVec.getLsbD_ushiftRight, BitVec.getLsbD_or, BitVec.getLsbD_and, hhigh,
      BitVec.getLsbD_shiftLeft, BitVec.getLsbD_ofNat, Nat.add_sub_cancel_left]
    by_cases hr : frameShift + i < 32
    · simp [hr, hi]
    · have hz : frame.index.testBit i = false :=
        Nat.testBit_lt_two_pow (Nat.lt_of_lt_of_le hlt
          (Nat.pow_le_pow_right (by decide) (by simp only [frameShift] at hr; omega)))
      simp [hr, hz]
  simp only [DirectoryEntry.frame, hword, BitVec.toNat_ofNat]
  exact congrArg Frame.mk (Nat.mod_eq_of_lt (Nat.lt_of_lt_of_le hlt (by decide)))

end DirectoryEntry

end DemandPaging
