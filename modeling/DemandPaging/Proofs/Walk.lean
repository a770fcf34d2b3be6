/-
  How far an access comes, however it is cut.

  A piece of an access marks the entry of its page: as accessed, and a store also as dirty.  More
  pieces of the same page add nothing.  So the marks, and the address of a fault, do not show how
  the access was cut.

  * `Page.Overlaps` says that a range has a byte in a page;
  * `DirectoryEntry.mark` is the mark that a piece leaves, and `Marked` what all of them leave;
    `touch_of_permits` and `touch_of_not_permits` tell the translation of an address by it;
  * `Reaches` is how far an access comes: the range and the directory alone decide it
    (`Reaches.unique`);
  * `Walk` is an access in pieces of any size, and `Walk.reaches` says of all of them how far they
    come.
-/
import DemandPaging.Proofs.Attempt

namespace DemandPaging

/-! ## Ranges and pages -/

/-- A range of addresses has a byte in a page. -/
def Page.Overlaps (page : Page) (address length : Nat) : Prop :=
  ∃ i, i < length ∧ .containing (address + i) = page

instance (page : Page) (address length : Nat) : Decidable (page.Overlaps address length) :=
  inferInstanceAs (Decidable (∃ i, i < length ∧ .containing (address + i) = page))

theorem Page.not_overlaps_zero (page : Page) (address : Nat) : ¬page.Overlaps address 0 := by
  rintro ⟨i, hi, -⟩
  exact Nat.not_lt_zero i hi

/-- All addresses of a piece are in the page that it begins in. -/
theorem Page.containing_piece {address start length i : Nat}
    (hfits : pageOffset (address + start) + length ≤ pageSize) (hge : start ≤ i)
    (hlt : i < start + length) :
    Page.containing (address + i) = .containing (address + start) := by
  have hsame := (containing_add (address + start) (j := i - start) (by omega)).1
  rwa [show address + start + (i - start) = address + i by omega] at hsame

/-- A range that goes on within a page overlaps that page too. -/
theorem Page.overlaps_add {page : Page} {address start length : Nat} (hpos : 0 < length)
    (hfits : pageOffset (address + start) + length ≤ pageSize) :
    page.Overlaps address (start + length) ↔
      page.Overlaps address start ∨ .containing (address + start) = page := by
  constructor
  · rintro ⟨i, hi, hpage⟩
    rcases Nat.lt_or_ge i start with hlt | hge
    · exact .inl ⟨i, hlt, hpage⟩
    · exact .inr (containing_piece hfits hge hi ▸ hpage)
  · rintro (⟨i, hi, hpage⟩ | hpage)
    · exact ⟨i, by omega, hpage⟩
    · exact ⟨start, by omega, hpage⟩

/-- A range begins in the page of its first byte and goes on as a range of its own. -/
theorem Page.overlaps_succ {page : Page} {address length : Nat} :
    page.Overlaps address (length + 1) ↔
      .containing address = page ∨ page.Overlaps (address + 1) length := by
  constructor
  · rintro ⟨i, hi, hpage⟩
    cases i with
    | zero => exact .inl hpage
    | succ i =>
      exact .inr ⟨i, by omega, by rwa [show address + 1 + i = address + (i + 1) by omega]⟩
  · rintro (hpage | ⟨i, hi, hpage⟩)
    · exact ⟨0, Nat.succ_pos _, hpage⟩
    · exact ⟨i + 1, by omega, by rwa [show address + (i + 1) = address + 1 + i by omega]⟩

/-! ## Marks -/

/-- What an access leaves in the entry of a page. -/
def DirectoryEntry.mark (entry : DirectoryEntry) (write : Bool) : DirectoryEntry :=
  (entry.set .accessed true).set .dirty (entry.has .dirty || write)

namespace DirectoryEntry

variable {entry : DirectoryEntry} {write : Bool}

theorem has_mark {flag : Flag} : (entry.mark write).has flag =
    if flag = .accessed ∨ flag = .dirty ∧ write = true then true else entry.has flag := by
  cases flag <;> cases write <;> simp [mark, has_set]

theorem frame_mark : (entry.mark write).frame = entry.frame := by
  rw [mark, frame_set, frame_set]

/-- A second access of the same kind leaves no further mark. -/
@[simp] theorem mark_mark : (entry.mark write).mark write = entry.mark write := by
  have haccessed : (entry.mark write).set .accessed true = entry.mark write :=
    set_of_has (by rw [has_mark, if_pos (.inl rfl)])
  rw [mark, haccessed]
  refine set_of_has ?_
  cases write <;> simp [has_mark]

end DirectoryEntry

namespace Directory

variable {directory directory' last : Directory} {address start length stop : Nat} {write : Bool}
  {page : Page} {frame : Frame}

/-- A page was accessed. -/
def mark (directory : Directory) (page : Page) (write : Bool) : Directory :=
  { directory with entries := directory.entries.modify page fun entry => entry.mark write }

theorem touch_of_permits (h : directory.Permits (.containing address) write) :
    ∃ frame, directory.translate (.containing address) = some frame ∧
      directory.touch address write = .ok (frame, directory.mark (.containing address) write) := by
  obtain ⟨⟨frame, hframe⟩, hwrite⟩ := h
  refine ⟨frame, hframe, ?_⟩
  generalize hpage : Page.containing address = page at *
  cases he : directory.entries.get? page with
  | none => simp [translate, he] at hframe
  | some entry =>
    have hpresent : entry.has .present = true := by
      by_contra hp
      simp [translate, he, hp] at hframe
    have hallowed : (write && !entry.has .writable) = false := by
      cases write with
      | false => rfl
      | true => simpa [has, he] using hwrite rfl
    obtain rfl : entry.frame = frame := by simpa [translate, he, hpresent] using hframe
    simp [touch, mark, PageMap.modify, hpage, he, hpresent, hallowed, DirectoryEntry.mark]

theorem touch_of_not_permits (h : ¬directory.Permits (.containing address) write) :
    directory.touch address write = .error ⟨address, write⟩ := by
  cases htouch : directory.touch address write with
  | error fault => rw [(touch_error htouch).1]
  | ok found =>
    obtain ⟨frame, next⟩ := found
    obtain ⟨hframe, hwrite, -⟩ := touch_cases htouch
    exact absurd ⟨⟨_, hframe⟩, hwrite⟩ h

/-- Marks move no page. -/
theorem translate_of_marks {marked : Prop} [Decidable marked]
    (h : directory'.entries.get? page = if marked then
      (directory.entries.get? page).map fun entry => entry.mark write
      else directory.entries.get? page) : directory'.translate page = directory.translate page := by
  rw [translate, h, translate]
  by_cases hmarked : marked
  · cases directory.entries.get? page <;>
      simp [hmarked, DirectoryEntry.has_mark, DirectoryEntry.frame_mark]
  · rw [if_neg hmarked]

theorem translate_mark (q : Page) :
    (directory.mark page write).translate q = directory.translate q :=
  translate_of_marks (directory.entries.get?_modify page q _)

/-- The pages that a range overlaps were accessed, and no others. -/
structure Marked (directory directory' : Directory) (address length : Nat) (write : Bool) :
    Prop where
  traits_eq : directory'.toDirectoryTraits = directory.toDirectoryTraits
  get?_eq : ∀ page, directory'.entries.get? page =
    if page.Overlaps address length then
      (directory.entries.get? page).map fun entry => entry.mark write
    else directory.entries.get? page

namespace Marked

theorem zero (directory : Directory) (address : Nat) (write : Bool) :
    directory.Marked directory address 0 write :=
  ⟨rfl, fun page => (if_neg (page.not_overlaps_zero address)).symm⟩

/-- Going on within a page marks that page too. -/
theorem step (h : directory.Marked directory' address start write) (hpos : 0 < length)
    (hfits : pageOffset (address + start) + length ≤ pageSize) :
    directory.Marked (directory'.mark (.containing (address + start)) write) address
      (start + length) write := by
  refine ⟨h.traits_eq, fun page => ?_⟩
  rw [mark, PageMap.get?_modify, h.get?_eq]
  by_cases hbefore : page.Overlaps address start <;>
    by_cases hpage : Page.containing (address + start) = page <;>
      simp [Page.overlaps_add hpos hfits, hbefore, hpage, Function.comp_def]

theorem eq (h : directory.Marked directory' address length write)
    (h' : directory.Marked last address length write) : directory' = last := by
  obtain ⟨_, _⟩ := directory'
  obtain ⟨_, _⟩ := last
  obtain rfl := h.traits_eq.trans h'.traits_eq.symm
  congr 1
  exact PageMap.ext_get? fun page => (h.get?_eq page).trans (h'.get?_eq page).symm

theorem translate_eq (h : directory.Marked directory' address length write) (page : Page) :
    directory'.translate page = directory.translate page :=
  translate_of_marks (h.get?_eq page)

theorem has_eq (h : directory.Marked directory' address length write) (page : Page) (flag : Flag) :
    directory'.has page flag =
      if page.Overlaps address length ∧ (directory.entries.get? page).isSome ∧
        (flag = .accessed ∨ flag = .dirty ∧ write = true) then true
      else directory.has page flag := by
  rw [has, h.get?_eq, has]
  by_cases hpage : page.Overlaps address length
  · cases directory.entries.get? page <;> simp [hpage, DirectoryEntry.has_mark]
  · simp [hpage]

theorem permits_iff (h : directory.Marked directory' address length write) {other : Bool} :
    directory'.Permits page other ↔ directory.Permits page other := by
  simp [Permits, h.translate_eq, h.has_eq]

end Marked

/-! ## How far an access comes -/

/-- An access to `length` bytes from `address` on comes `done` bytes far.  The pages of these
    permit it and are marked; if there are more bytes, the page of the next one does not permit
    it, which is the fault. -/
structure Reaches (directory : Directory) (address length : Nat) (write : Bool) (done : Nat)
    (fault : Option AccessFault) (directory' : Directory) : Prop where
  done_le : done ≤ length
  permits : ∀ i, i < done → directory.Permits (.containing (address + i)) write
  refused : done < length → ¬directory.Permits (.containing (address + done)) write
  fault_eq : fault = if done < length then some ⟨address + done, write⟩ else none
  marked : directory.Marked directory' address done write

namespace Reaches

variable {done done' : Nat} {fault fault' : Option AccessFault}

/-- How far an access comes depends on the range alone. -/
theorem done_eq (h : directory.Reaches address length write done fault directory')
    (h' : directory.Reaches address length write done' fault' last) : done = done' := by
  have := h.done_le
  have := h'.done_le
  rcases Nat.lt_trichotomy done done' with hlt | heq | hgt
  · exact absurd (h'.permits done hlt) (h.refused (by omega))
  · exact heq
  · exact absurd (h.permits done' hgt) (h'.refused (by omega))

theorem unique (h : directory.Reaches address length write done fault directory')
    (h' : directory.Reaches address length write done' fault' last) :
    done = done' ∧ fault = fault' ∧ directory' = last := by
  obtain rfl := h.done_eq h'
  exact ⟨rfl, h.fault_eq.trans h'.fault_eq.symm, h.marked.eq h'.marked⟩

theorem fault_eq_none_iff (h : directory.Reaches address length write done fault directory') :
    fault = none ↔ ∀ page : Page, page.Overlaps address length → directory.Permits page write := by
  rw [h.fault_eq]
  constructor
  · rintro hnone page ⟨i, hi, rfl⟩
    split at hnone
    · cases hnone
    · exact h.permits i (by omega)
  · intro hall
    exact if_neg fun hlt => h.refused hlt (hall _ ⟨done, hlt, rfl⟩)

/-- The bits of the pages that overlap the part done are set, and nothing else changes. -/
theorem has_eq (h : directory.Reaches address length write done fault directory') (page : Page)
    (flag : Flag) : directory'.has page flag =
      if page.Overlaps address done ∧ (flag = .accessed ∨ flag = .dirty ∧ write = true) then true
      else directory.has page flag := by
  rw [h.marked.has_eq]
  by_cases hpage : page.Overlaps address done
  · obtain ⟨i, hi, rfl⟩ := hpage
    obtain ⟨frame, hframe⟩ := (h.permits i hi).1
    have hentry : (directory.entries.get? (.containing (address + i))).isSome = true := by
      cases he : directory.entries.get? (.containing (address + i)) with
      | none => simp [translate, he] at hframe
      | some entry => rfl
    simp only [hentry, true_and]
  · simp only [hpage, false_and, if_false]

end Reaches

/-! ## Accesses in pieces of any size -/

/-- An access goes on from byte `start` of its range, in pieces that stay within a page each.
    `copy` says what a piece makes of the bytes loaded or of the memory stored into. -/
inductive Walk {σ : Type} (write : Bool) (address stop : Nat)
    (copy : Frame → Nat → Nat → σ → σ → Prop) :
    Nat → Directory → σ → Option AccessFault → Directory → σ → Prop
  | done (directory : Directory) (s : σ) :
      Walk write address stop copy stop directory s none directory s
  | fault (start : Nat) (directory : Directory) (s : σ) (hlt : start < stop)
      (hrefused : ¬directory.Permits (.containing (address + start)) write) :
      Walk write address stop copy start directory s (some ⟨address + start, write⟩) directory s
  | piece (start length : Nat) (directory : Directory) (frame : Frame) (s s₁ t : σ)
      (fault : Option AccessFault) (last : Directory) (hpos : 0 < length)
      (hle : start + length ≤ stop)
      (hfits : pageOffset (address + start) + length ≤ pageSize)
      (hpermits : directory.Permits (.containing (address + start)) write)
      (hframe : directory.translate (.containing (address + start)) = some frame)
      (hcopy : copy frame start length s s₁)
      (hrest : Walk write address stop copy (start + length)
        (directory.mark (.containing (address + start)) write) s₁ fault last t) :
      Walk write address stop copy start directory s fault last t

/-- What the pieces keep up holds of the part done, however the access is cut. -/
theorem Walk.reaches {σ : Type} {copy : Frame → Nat → Nat → σ → σ → Prop} {P : Nat → σ → Prop}
    {middle : Directory} {fault : Option AccessFault} {s t : σ}
    (h : Walk write address stop copy start middle s fault last t) (hstart : start ≤ stop)
    (hmarked : directory.Marked middle address start write)
    (hpermits : ∀ i, i < start → directory.Permits (.containing (address + i)) write)
    (hcopy : ∀ frame start length s s₁,
      directory.translate (.containing (address + start)) = some frame →
      pageOffset (address + start) + length ≤ pageSize → start + length ≤ stop →
      copy frame start length s s₁ → P start s → P (start + length) s₁)
    (hP : P start s) : ∃ done, directory.Reaches address stop write done fault last ∧ P done t := by
  induction h with
  | done middle s =>
    exact ⟨stop, ⟨Nat.le_refl _, hpermits, fun h => absurd h (Nat.lt_irrefl _),
      (if_neg (Nat.lt_irrefl _)).symm, hmarked⟩, hP⟩
  | fault start middle s hlt hrefused =>
    exact ⟨start, ⟨hstart, hpermits, fun _ => mt hmarked.permits_iff.2 hrefused,
      (if_pos hlt).symm, hmarked⟩, hP⟩
  | piece start length middle frame s s₁ t fault last hpos hle hfits hpage hframe hpiece hrest ih =>
    refine ih hle (hmarked.step hpos hfits) (fun i hi => ?_) ?_
    · rcases Nat.lt_or_ge i start with hlt | hge
      · exact hpermits i hlt
      · exact Page.containing_piece hfits hge hi ▸ hmarked.permits_iff.1 hpage
    · exact hcopy frame start length s s₁ (hmarked.translate_eq _ ▸ hframe) hfits hle hpiece hP

end Directory

end DemandPaging
