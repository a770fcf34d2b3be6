/-
  Which pages an access touches before it faults.

  A range of addresses overlaps `pagesTouched` pages, which follow one another.
  An access touches them in this order, up to the first that does not permit it.

  * `Directory.touches_loadPieces` and `Directory.touches_storePieces`: loads and
    stores are walks from page to page (`Touches`);
  * `tryLoad_attempted` and `tryStore_attempted`: an attempt of an access either
    touches all its pages, or some, and the next one does not permit it.
-/
import DemandPaging.Proofs.Access

namespace DemandPaging

/-- The number of pages that a range of addresses overlaps. -/
def pagesTouched (address length : Nat) : Nat :=
  if length = 0 then 0 else (address + length - 1) / pageSize + 1 - address / pageSize

theorem exists_pagesTouched_eq (address : Nat) {length : Nat} (h : 0 < length) :
    ∃ count, pagesTouched address length = count + 1 := by
  refine ⟨(address + length - 1) / pageSize - address / pageSize, ?_⟩
  simp only [pagesTouched, pageSize]
  split <;> omega

/-- A piece takes an access to the end of its range or to the start of the next page. -/
theorem pagesTouched_piece {address remaining length : Nat} (hpos : 0 < length)
    (hle : length ≤ remaining) (hfits : pageOffset address + length ≤ pageSize)
    (hends : pageOffset address + length = pageSize ∨ length = remaining) :
    pagesTouched address remaining = pagesTouched (address + length) (remaining - length) + 1 ∧
      (pagesTouched (address + length) (remaining - length) = 0 ∨
        (address + length) / pageSize = address / pageSize + 1) := by
  simp only [pagesTouched, pageOffset, pageSize] at *
  constructor
  · split <;> split <;> omega
  · split <;> omega

/-- An access that stays within a page touches one page at most. -/
theorem pagesTouched_le_one {address length : Nat} (h : pageOffset address + length ≤ pageSize) :
    pagesTouched address length ≤ 1 := by
  simp only [pagesTouched, pageOffset, pageSize] at *
  split <;> omega

namespace Directory

variable {n : Nat} {directory directory' : Directory} {write : Bool}

/-- A page is in a frame, and may be written if it is to be written. -/
def Permits (directory : Directory) (page : Page) (write : Bool) : Prop :=
  (∃ frame, directory.translate page = some frame) ∧
    (write = true → directory.has page .writable = true)

/-- Touching `count` pages from the page number `first` on, until one does not permit it. -/
inductive Touches (write : Bool) :
    Nat → Nat → Directory → Option AccessFault → Directory → Prop where
  | done (first : Nat) (directory : Directory) : Touches write first 0 directory none directory
  | stopped (first count : Nat) (directory : Directory) (address : Nat) (fault : AccessFault)
      (hpage : address / pageSize = first) (h : directory.touch address write = .error fault) :
      Touches write first (count + 1) directory (some fault) directory
  | touched (first count : Nat) (directory next last : Directory) (address : Nat) (frame : Frame)
      (fault : Option AccessFault) (hpage : address / pageSize = first)
      (h : directory.touch address write = .ok (frame, next))
      (hrest : Touches write (first + 1) count next fault last) :
      Touches write first (count + 1) directory fault last

/-- The walk ends at a page that does not permit the access. -/
theorem Touches.of_fault {address remaining : Nat} {fault : AccessFault} (hpos : 0 < remaining)
    (h : directory.touch address write = .error fault) :
    Touches write (address / pageSize) (pagesTouched address remaining) directory (some fault)
      directory := by
  obtain ⟨count, hcount⟩ := exists_pagesTouched_eq address hpos
  rw [hcount]
  exact .stopped _ _ directory address fault rfl h

/-- After a piece the walk goes on with the next page, if there is more to do. -/
theorem Touches.of_piece {address remaining length : Nat} {next : Directory} {frame : Frame}
    {fault : Option AccessFault}
    (hpos : 0 < length) (hle : length ≤ remaining)
    (hfits : pageOffset address + length ≤ pageSize)
    (hends : pageOffset address + length = pageSize ∨ length = remaining)
    (h : directory.touch address write = .ok (frame, next))
    (hrest : Touches write ((address + length) / pageSize)
      (pagesTouched (address + length) (remaining - length)) next fault directory') :
    Touches write (address / pageSize) (pagesTouched address remaining) directory fault
      directory' := by
  obtain ⟨hcount, hnext⟩ := pagesTouched_piece hpos hle hfits hends
  rw [hcount]
  refine .touched _ _ directory next directory' address frame fault rfl h ?_
  rcases hnext with hzero | hnext
  · rw [hzero] at hrest ⊢
    cases hrest
    exact .done _ _
  · rwa [← hnext]

theorem touches_loadPieces {memory : Memory n} {address start stop : Nat} {pieces : List Piece}
    {done : Bytes} {loaded : Loaded} (hcut : Cut address stop start pieces)
    (h : (loadPieces memory address pieces directory done).result = .ok loaded) :
    Touches false ((address + start) / pageSize) (pagesTouched (address + start) (stop - start))
      directory loaded.fault loaded.directory := by
  induction hcut generalizing directory done with
  | nil =>
    cases h
    rw [Nat.sub_self]
    exact .done _ _
  | cons start length rest hpos hstop hfits hends hrest ih =>
    simp only [loadPieces, Outcome.bind_eq_ok_iff, Word.add_eq_ok_iff] at h
    obtain ⟨_, ⟨-, rfl⟩, h⟩ := h
    split at h
    · rename_i fault htouch
      cases h
      exact .of_fault (by omega) htouch
    · rename_i frame next htouch
      obtain ⟨contents, -, h⟩ := Outcome.bind_eq_ok_iff.1 h
      have hlast := ih h
      rw [← Nat.add_assoc, ← Nat.sub_sub] at hlast
      exact .of_piece hpos (by omega) hfits (by omega) htouch hlast

theorem touches_storePieces {memory : Memory n} {address start stop : Nat} {pieces : List Piece}
    {data : Bytes} {stored : Stored n} (hcut : Cut address stop start pieces)
    (h : (storePieces address data pieces directory memory).result = .ok stored) :
    Touches true ((address + start) / pageSize) (pagesTouched (address + start) (stop - start))
      directory stored.fault stored.directory := by
  induction hcut generalizing directory memory with
  | nil =>
    cases h
    rw [Nat.sub_self]
    exact .done _ _
  | cons start length rest hpos hstop hfits hends hrest ih =>
    simp only [storePieces, Outcome.bind_eq_ok_iff, Word.add_eq_ok_iff] at h
    obtain ⟨_, ⟨-, rfl⟩, h⟩ := h
    split at h
    · rename_i fault htouch
      cases h
      exact .of_fault (by omega) htouch
    · rename_i frame next htouch
      obtain ⟨memory', -, h⟩ := Outcome.bind_eq_ok_iff.1 h
      have hlast := ih h
      rw [← Nat.add_assoc, ← Nat.sub_sub] at hlast
      exact .of_piece hpos (by omega) hfits (by omega) htouch hlast

/-- What touching the pages from `first` on, `count` of them, leaves behind. -/
structure Touched (directory directory' : Directory) (write : Bool) (first count : Nat) :
    Prop where
  permits : ∀ i < count, directory.Permits ⟨first + i⟩ write
  traits_eq : directory'.toDirectoryTraits = directory.toDirectoryTraits
  translate_eq : ∀ q, directory'.translate q = directory.translate q
  writable_eq : ∀ q, directory'.has q .writable = directory.has q .writable
  accessed_iff : ∀ q, directory'.has q .accessed = true ↔
    (∃ i < count, ⟨first + i⟩ = q) ∨ directory.has q .accessed = true

/-- One more page was touched before all others. -/
theorem Touched.cons {address first count : Nat} {frame : Frame} {next : Directory}
    (hpage : address / pageSize = first) (h : directory.touch address write = .ok (frame, next))
    (hrest : next.Touched directory' write (first + 1) count) :
    directory.Touched directory' write first (count + 1) := by
  obtain ⟨hmapped, hwritable, htraits, htranslate, hhas⟩ := touch_cases h
  have hcontaining : Page.containing address = ⟨first⟩ := congrArg Page.mk hpage
  rw [hcontaining] at hmapped hwritable hhas
  constructor
  · intro i hi
    cases i with
    | zero => exact ⟨⟨frame, hmapped⟩, hwritable⟩
    | succ i =>
      obtain ⟨⟨g, hg⟩, hw⟩ := hrest.permits i (by omega)
      rw [show first + 1 + i = first + (i + 1) by omega] at hg hw
      refine ⟨⟨g, (htranslate _).symm.trans hg⟩, fun h => ?_⟩
      have := hw h
      rw [hhas] at this
      simpa using this
  · exact hrest.traits_eq.trans htraits
  · intro q
    rw [hrest.translate_eq, htranslate]
  · intro q
    rw [hrest.writable_eq, hhas]
    simp
  · intro q
    rw [hrest.accessed_iff, hhas]
    constructor
    · rintro (⟨i, hi, rfl⟩ | hq)
      · exact .inl ⟨i + 1, by omega, by rw [Nat.add_assoc, Nat.add_comm 1 i]⟩
      · split at hq
        · rename_i h
          exact .inl ⟨0, Nat.succ_pos _, h.1⟩
        · exact .inr (by simpa using hq)
    · rintro (⟨i, hi, rfl⟩ | hq)
      · cases i with
        | zero => exact .inr (by simp)
        | succ i => exact .inl ⟨i, by omega, by rw [Nat.add_assoc, Nat.add_comm 1 i]⟩
      · refine .inr ?_
        split
        · rfl
        · simpa using hq

/-- A walk touches all its pages, or it touches some, and the next one does not permit it. -/
theorem Touches.cases {first count : Nat} {fault : Option AccessFault}
    (h : Touches write first count directory fault directory') :
    fault = none ∧ directory.Touched directory' write first count ∨
      ∃ j < count, ∃ address, fault = some ⟨address, write⟩ ∧
        Page.containing address = ⟨first + j⟩ ∧ directory.Touched directory' write first j ∧
          ¬directory.Permits ⟨first + j⟩ write := by
  have hstart : ∀ (d : Directory) first, d.Touched d write first 0 := fun d first =>
    ⟨fun i hi => by omega, rfl, fun _ => rfl, fun _ => rfl, fun q => by simp⟩
  induction h with
  | done first directory => exact .inl ⟨rfl, hstart directory first⟩
  | stopped first count directory address fault hpage h =>
    obtain ⟨rfl, hrefused⟩ := touch_error h
    have hcontaining : Page.containing address = ⟨first⟩ := congrArg Page.mk hpage
    refine .inr ⟨0, Nat.succ_pos _, address, rfl, hcontaining, hstart directory first, ?_⟩
    rintro ⟨⟨frame, hframe⟩, hwritable⟩
    rw [hcontaining] at hrefused
    rw [Nat.add_zero] at hframe hwritable
    rcases hrefused with hnone | ⟨hw, hno⟩
    · rw [hframe] at hnone
      cases hnone
    · rw [hwritable hw] at hno
      cases hno
  | touched first count directory next last address frame fault hpage h hrest ih =>
    rcases ih with ⟨hfault, htouched⟩ | ⟨j, hj, target, hfault, htarget, htouched, hnot⟩
    · exact .inl ⟨hfault, .cons hpage h htouched⟩
    · have hsame : first + 1 + j = first + (j + 1) := by omega
      rw [hsame] at htarget hnot
      refine .inr ⟨j + 1, by omega, target, hfault, htarget, .cons hpage h htouched, ?_⟩
      obtain ⟨-, -, -, htranslate, hhas⟩ := touch_cases h
      rintro ⟨⟨g, hg⟩, hwritable⟩
      refine hnot ⟨⟨g, (htranslate _).trans hg⟩, fun hw => ?_⟩
      rw [hhas]
      simpa using hwritable hw

end Directory

namespace Machine

variable {n : Nat} {m m' : Machine n} {process first count : Nat} {write : Bool}

/-- A page is in a frame, and may be written if it is to be written. -/
def Permits (m : Machine n) (o : Owner) (write : Bool) : Prop :=
  (∃ frame, m.translate o = some frame) ∧ (write = true → m.flag o .writable = true)

/-- The page at place `i` of an access that begins with page number `first`. -/
def accessPage (process first i : Nat) : Owner :=
  ⟨process, ⟨first + i⟩⟩

/-- The first `count` pages of an access were touched, which leaves its marks on them alone. -/
structure Touched (m m' : Machine n) (process first : Nat) (write : Bool) (count : Nat) :
    Prop where
  frames_eq : m'.frames = m.frames
  permits : ∀ a < count, m.Permits (accessPage process first a) write
  permits_iff : ∀ o, m'.Permits o write ↔ m.Permits o write
  accessed_iff : ∀ o, m'.flag o .accessed = true ↔
    (∃ a < count, accessPage process first a = o) ∨ m.flag o .accessed = true

theorem touched_of_directory {directory : Directory} (memory : Memory n)
    (h : (m.space process).directory.Touched directory write first count) :
    m.Touched (m.duringAccess process directory memory) process first write count where
  frames_eq := rfl
  permits := h.permits
  permits_iff := by
    intro o
    unfold Permits
    rw [translate_duringAccess, flag_duringAccess, h.translate_eq, h.writable_eq]
    split
    · rename_i hp; rw [hp]; rfl
    · rfl
  accessed_iff := by
    intro o
    rw [flag_duringAccess]
    by_cases hp : process = o.process
    · rw [if_pos hp, h.accessed_iff, hp]
      simp only [accessPage, Owner.eq_iff, true_and]
      rfl
    · rw [if_neg hp]
      simp [accessPage, Owner.eq_iff, hp]

/-- How an attempt of an access ends that is to touch `count` pages of a process from page number
    `first` on: all were touched, or some were and the next one does not permit it. -/
inductive Attempted {α : Type} (m m' : Machine n) (process first count : Nat) (write : Bool) :
    Except AccessFault α → Prop where
  | whole (value : α) : Attempted m m' process first count write (.ok value)
  | stopped (j : Nat) (hj : j < count) (htouched : m.Touched m' process first write j)
      (address : Nat) (hpage : Page.containing address = ⟨first + j⟩)
      (hnot : ¬m.Permits (accessPage process first j) write) :
      Attempted m m' process first count write (.error ⟨address, write⟩)

/-- If an attempt touches no page but one that permits the access, it goes through. -/
theorem Attempted.of_permits {α : Type} {res : Except AccessFault α}
    (h : m.Attempted m' process first count write res) (hcount : count ≤ 1)
    (hpermits : m.Permits ⟨process, ⟨first⟩⟩ write) : ∃ value, res = .ok value := by
  cases h with
  | whole value => exact ⟨value, rfl⟩
  | stopped j hj htouched address hpage hnot =>
    obtain rfl : j = 0 := by omega
    exact absurd hpermits hnot

theorem attempted_of_touches {α : Type} {directory : Directory} {fault : Option AccessFault}
    (memory : Memory n) (value : α)
    (h : Directory.Touches write first count (m.space process).directory fault directory) :
    m.Attempted (m.duringAccess process directory memory) process first count write
      (fault.elim (.ok value) .error) := by
  rcases h.cases with ⟨rfl, -⟩ | ⟨j, hj, target, rfl, hpage, htouched, hnot⟩
  · exact .whole value
  · exact .stopped j hj (touched_of_directory memory htouched) target hpage hnot

theorem tryLoad_attempted {address length : Nat} {res : Except AccessFault Bytes}
    (h : (m.tryLoad process address length).result = .ok (res, m')) :
    m.Attempted m' process (address / pageSize) (pagesTouched address length) false res := by
  obtain ⟨⟨fault, bytes, directory⟩, hload, h⟩ := Outcome.bind_eq_ok_iff.1 h
  have hattempted := attempted_of_touches m.memory bytes
    (Directory.touches_loadPieces (cut_pieces address length) hload)
  cases fault with
  | none => cases h; exact hattempted
  | some fault => cases h; exact hattempted

theorem tryStore_attempted {address : Nat} {data : Bytes} {res : Except AccessFault Nat}
    (h : (m.tryStore process address data).result = .ok (res, m')) :
    m.Attempted m' process (address / pageSize) (pagesTouched address data.size) true res := by
  obtain ⟨⟨fault, directory, memory⟩, hstore, h⟩ := Outcome.bind_eq_ok_iff.1 h
  have hattempted := attempted_of_touches memory data.size
    (Directory.touches_storePieces (cut_pieces address data.size) hstore)
  cases fault with
  | none => cases h; exact hattempted
  | some fault => cases h; exact hattempted

end Machine

end DemandPaging
