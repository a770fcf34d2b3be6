/-
  The bytes that an access copies.

  An address stands for a byte of memory, a `Cell`, if its page is in a frame.  A load copies the
  bytes that the addresses of its range stand for, and a store replaces them.  Addresses of pages
  that share a frame stand for the same bytes; what was stored there last is there.

  * `Reads` and `Writes` are the bytes that a load and a store have copied when they came some
    way; these are all there is to tell (`Reads.eq`, `Writes.eq`);
  * `Reads.step` and `Writes.step`: a piece copies the bytes of its part of the range.
-/
import Mathlib.Data.Nat.Find
import DemandPaging.Proofs.Walk

namespace DemandPaging

variable {n : Nat}

/-! ## Bytes of memory -/

/-- A byte of memory. -/
structure Cell where
  /-- The frame that the byte lies in. -/
  frame : Frame
  /-- Its place there. -/
  offset : Fin pageSize
  deriving DecidableEq

/-- What a byte of memory is. -/
def Memory.byte (memory : Memory n) (cell : Cell) : UInt8 :=
  (memory.contents cell.frame)[cell.offset]

/-- Memory is known by its bytes. -/
theorem Memory.ext_byte {memory memory' : Memory n}
    (h : ∀ cell, memory.byte cell = memory'.byte cell) : memory = memory' := by
  obtain ⟨frames⟩ := memory
  obtain ⟨frames'⟩ := memory'
  congr 1
  refine Vector.ext fun k hk => Vector.ext fun i hi => ?_
  simpa [byte, contents, hk] using h ⟨⟨k⟩, ⟨i, hi⟩⟩

namespace Directory

/-- The byte of memory that an address stands for, if its page is in a frame. -/
def cell? (directory : Directory) (address : Nat) : Option Cell :=
  (directory.translate (.containing address)).map fun frame =>
    ⟨frame, ⟨pageOffset address, pageOffset_lt address⟩⟩

/-- Pages are only mapped to frames that memory has. -/
def Inside (directory : Directory) (n : Nat) : Prop :=
  ∀ page frame, directory.translate page = some frame → frame.index < n

variable {directory : Directory} {address start length : Nat} {frame : Frame}

theorem cell?_eq_some_iff {cell : Cell} : directory.cell? address = some cell ↔
    directory.translate (.containing address) = some cell.frame ∧
      pageOffset address = cell.offset := by
  obtain ⟨g, o⟩ := cell
  simp only [cell?, Option.map_eq_some_iff, Cell.mk.injEq, Fin.ext_iff]
  constructor
  · rintro ⟨_, htranslate, rfl, hoffset⟩
    exact ⟨htranslate, hoffset⟩
  · rintro ⟨htranslate, hoffset⟩
    exact ⟨g, htranslate, rfl, hoffset⟩

/-- What the addresses within a piece stand for. -/
theorem cell?_piece (hframe : directory.translate (.containing (address + start)) = some frame)
    (hfits : pageOffset (address + start) + length ≤ pageSize) {j : Nat} (hj : j < length) :
    directory.cell? (address + (start + j)) =
      some ⟨frame, ⟨pageOffset (address + start) + j, by omega⟩⟩ := by
  obtain ⟨hpage, hoffset⟩ := Page.containing_add (address + start) (j := j) (by omega)
  rw [cell?_eq_some_iff, ← Nat.add_assoc, hpage]
  exact ⟨hframe, hoffset⟩

/-! ## What pieces copy -/

variable {memory memory' memory₁ memory₂ : Memory n} {data bytes bytes' : Bytes} {count : Nat}

/-- A load copied these bytes, and its range begins with them. -/
structure Reads (directory : Directory) (memory : Memory n) (address count : Nat) (bytes : Bytes) :
    Prop where
  size_eq : bytes.size = count
  getElem?_eq : ∀ i, i < count → bytes[i]? = (directory.cell? (address + i)).map memory.byte

/-- A store copied `count` bytes of `data`.  The byte of memory that an address stands for is the
    one copied last, as pages may share a frame; all others are as they were. -/
structure Writes (directory : Directory) (memory : Memory n) (address : Nat) (data : Bytes)
    (count : Nat) (memory' : Memory n) : Prop where
  copied : ∀ i cell, i < count → directory.cell? (address + i) = some cell →
    (∀ j, i < j → j < count → directory.cell? (address + j) ≠ some cell) →
      data[i]? = some (memory'.byte cell)
  kept : ∀ cell, (∀ i, i < count → directory.cell? (address + i) ≠ some cell) →
    memory'.byte cell = memory.byte cell

theorem Reads.zero : directory.Reads memory address 0 #[] :=
  ⟨rfl, fun _ hi => absurd hi (Nat.not_lt_zero _)⟩

theorem Writes.zero : directory.Writes memory address data 0 memory :=
  ⟨fun _ _ hi => absurd hi (Nat.not_lt_zero _), fun _ _ => rfl⟩

theorem Reads.eq (h : directory.Reads memory address count bytes)
    (h' : directory.Reads memory address count bytes') : bytes = bytes' := by
  refine Array.ext_getElem? fun i => ?_
  rcases Nat.lt_or_ge i count with hlt | hge
  · rw [h.getElem?_eq i hlt, h'.getElem?_eq i hlt]
  · rw [Array.getElem?_eq_none (h.size_eq ▸ hge), Array.getElem?_eq_none (h'.size_eq ▸ hge)]

theorem Writes.eq (h : directory.Writes memory address data count memory₁)
    (h' : directory.Writes memory address data count memory₂) : memory₁ = memory₂ := by
  refine Memory.ext_byte fun cell => ?_
  by_cases hany : ∃ i, i < count ∧ directory.cell? (address + i) = some cell
  · obtain ⟨i, hi, hcell, hlast⟩ : ∃ i, i < count ∧ directory.cell? (address + i) = some cell ∧
        ∀ j, i < j → j < count → directory.cell? (address + j) ≠ some cell := by
      obtain ⟨k, hk⟩ := hany
      have hspec := Nat.findGreatest_spec
        (P := fun i => i < count ∧ directory.cell? (address + i) = some cell) (Nat.le_of_lt hk.1) hk
      exact ⟨_, hspec.1, hspec.2, fun j hj hlt hcell =>
        Nat.findGreatest_is_greatest hj (Nat.le_of_lt hlt) ⟨hlt, hcell⟩⟩
    exact Option.some.inj ((h.copied i cell hi hcell hlast).symm.trans
      (h'.copied i cell hi hcell hlast))
  · have hnone (i : Nat) (hi : i < count) : directory.cell? (address + i) ≠ some cell :=
      fun hcell => hany ⟨i, hi, hcell⟩
    rw [h.kept cell hnone, h'.kept cell hnone]

/-- What a piece of a load copies. -/
def LoadsPiece (memory : Memory n) (address : Nat) (frame : Frame) (start length : Nat)
    (bytes bytes' : Bytes) : Prop :=
  bytes' = bytes ++ (memory.contents frame).slice (pageOffset (address + start)) length

/-- What a piece of a store copies. -/
def StoresPiece (address : Nat) (data : Bytes) (frame : Frame) (start length : Nat)
    (memory memory' : Memory n) : Prop :=
  (memory.update frame fun contents => contents.overwrite (pageOffset (address + start))
    (data.extract start (start + length))) = pure memory'

section

variable (hframe : directory.translate (.containing (address + start)) = some frame)
  (hfits : pageOffset (address + start) + length ≤ pageSize)

include hframe hfits

theorem Reads.step (h : directory.Reads memory address start bytes)
    (hpiece : LoadsPiece memory address frame start length bytes bytes') :
    directory.Reads memory address (start + length) bytes' := by
  obtain rfl := hpiece
  refine ⟨by rw [Array.size_append, Contents.size_slice hfits, h.size_eq], fun i hi => ?_⟩
  rcases Nat.lt_or_ge i start with hlt | hge
  · rw [Array.getElem?_append_left (by rw [h.size_eq]; exact hlt), h.getElem?_eq i hlt]
  · obtain ⟨j, rfl⟩ := Nat.exists_eq_add_of_le hge
    have hj : j < length := by omega
    rw [Array.getElem?_append_right (by rw [h.size_eq]; exact hge), h.size_eq,
      Nat.add_sub_cancel_left, Contents.getElem?_slice hfits hj, cell?_piece hframe hfits hj]
    rfl

/-- A piece of a store replaces the bytes that its addresses stand for. -/
theorem byte_piece (hpiece : StoresPiece address data frame start length memory memory')
    (hle : start + length ≤ data.size) (cell : Cell) :
    (∃ j, j < length ∧ directory.cell? (address + (start + j)) = some cell ∧
        data[start + j]? = some (memory'.byte cell)) ∨
      (∀ j, j < length → directory.cell? (address + (start + j)) ≠ some cell) ∧
        memory'.byte cell = memory.byte cell := by
  obtain ⟨-, hcontents⟩ := Memory.update_cases (congrArg Outcome.result hpiece)
  have hsize : (data.extract start (start + length)).size = length := by
    rw [Array.size_extract]; omega
  by_cases hin : ∃ j, j < length ∧ directory.cell? (address + (start + j)) = some cell
  · obtain ⟨j, hj, hcell⟩ := hin
    refine .inl ⟨j, hj, hcell, ?_⟩
    rw [cell?_piece hframe hfits hj] at hcell
    obtain rfl := Option.some.inj hcell
    rw [Memory.byte, hcontents, if_pos rfl]
    simp only [Fin.getElem_fin, Contents.getElem_overwrite, hsize]
    rw [dif_pos (by omega), Array.getElem_extract, Array.getElem?_eq_getElem (by omega)]
    simp only [Nat.add_sub_cancel_left]
  · refine .inr ⟨fun j hj hcell => hin ⟨j, hj, hcell⟩, ?_⟩
    obtain ⟨g, o⟩ := cell
    rw [Memory.byte, hcontents, Memory.byte]
    by_cases hg : frame = g
    · subst hg
      rw [if_pos rfl, Fin.getElem_fin, Contents.getElem_overwrite, dif_neg]
      · rfl
      rw [hsize]
      rintro ⟨hle', hlt⟩
      refine hin ⟨o - pageOffset (address + start), hlt, ?_⟩
      rw [cell?_piece hframe hfits hlt]
      simp only [Option.some.injEq, Cell.mk.injEq, Fin.ext_iff, true_and]
      exact Nat.add_sub_cancel' hle'
    · rw [if_neg hg]

theorem Writes.step (hle : start + length ≤ data.size)
    (h : directory.Writes memory address data start memory₁)
    (hpiece : StoresPiece address data frame start length memory₁ memory₂) :
    directory.Writes memory address data (start + length) memory₂ := by
  constructor
  · intro i cell hi hcell hlast
    rcases byte_piece hframe hfits hpiece hle cell with ⟨j, hj, hcell', hbyte⟩ | ⟨hout, hbyte⟩
    · -- a byte of the piece is in the cell; the last byte there is of the piece too
      have hij : i = start + j := by
        by_contra hne
        rcases Nat.lt_or_gt_of_ne hne with hlt | hgt
        · exact hlast _ hlt (by omega) hcell'
        · obtain ⟨k, rfl⟩ := Nat.exists_eq_add_of_le (show start ≤ i by omega)
          rw [cell?_piece hframe hfits (by omega)] at hcell
          rw [cell?_piece hframe hfits hj, ← hcell] at hcell'
          simp only [Option.some.injEq, Cell.mk.injEq, Fin.mk.injEq, true_and] at hcell'
          omega
      exact hij ▸ hbyte
    · have hlt : i < start := by
        by_contra hge
        obtain ⟨k, rfl⟩ := Nat.exists_eq_add_of_le (Nat.le_of_not_lt hge)
        exact hout k (by omega) hcell
      rw [hbyte]
      exact h.copied i cell hlt hcell fun j hij hj => hlast j hij (by omega)
  · intro cell hnone
    rcases byte_piece hframe hfits hpiece hle cell with ⟨j, hj, hcell, -⟩ | ⟨-, hbyte⟩
    · exact absurd hcell (hnone _ (by omega))
    · rw [hbyte]
      exact h.kept cell fun i hi => hnone i (by omega)

end

end Directory

end DemandPaging
