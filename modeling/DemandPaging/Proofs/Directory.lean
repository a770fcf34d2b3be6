/-
  What the directory operations do to the translations and to the flags.

  * `map_cases`: mapping a page either changes nothing, or replaces the entry of
    that page by a fresh one (`Fresh`);
  * `touch_cases` and `touch_error`: a translation that succeeds finds the frame
    and leaves its mark in the accessed and dirty bits alone; one that fails
    names the address.
-/
import DemandPaging.Directory.Access

namespace DemandPaging

/-! ## Fresh entries -/

/-- What a mapping just made looks like: nothing was accessed, and the page is
    dirty only if mapping makes it so. -/
structure DirectoryEntry.Fresh (entry : DirectoryEntry) (frame : Frame)
    (writable dirty : Bool) : Prop where
  present : entry.has .present = true
  writable_eq : entry.has .writable = writable
  accessed : entry.has .accessed = false
  dirty_eq : entry.has .dirty = dirty
  frame_eq : entry.frame = frame

theorem DirectoryEntry.has_empty (flag : Flag) : empty.has flag = false := by
  cases flag <;> decide

theorem DirectoryEntry.fresh_userPage {frame : Frame} {writable : Bool} {entry : DirectoryEntry}
    (h : (userPage frame writable).result = .ok entry) : entry.Fresh frame writable false := by
  simp only [userPage, Outcome.bind_eq_ok_iff, Outcome.result_pure, Except.ok.injEq] at h
  obtain ⟨_, hle, rfl⟩ := h
  have hle : frame.index ≤ maxFrameNumber := Outcome.require_eq_ok_iff.1 hle
  refine ⟨?_, ?_, ?_, ?_, frame_setFrame _ hle⟩ <;>
    simp [has_setFrame, has_set, has_empty]

theorem DirectoryEntry.exists_userPage {frame : Frame} (writable : Bool)
    (h : frame.index ≤ maxFrameNumber) : ∃ entry, (userPage frame writable).result = .ok entry := by
  simp [userPage, Outcome.require_of_true h]

theorem DirectoryEntry.ext_getLsbD {entry entry' : DirectoryEntry}
    (h : ∀ i, entry.word.getLsbD i = entry'.word.getLsbD i) : entry = entry' := by
  cases entry
  cases entry'
  exact congrArg DirectoryEntry.mk (BitVec.eq_of_getLsbD_eq fun i _ => h i)

/-- Setting a flag to what it is changes nothing. -/
theorem DirectoryEntry.set_of_has {entry : DirectoryEntry} {flag : Flag} {on : Bool}
    (h : entry.has flag = on) : entry.set flag on = entry := by
  refine ext_getLsbD fun i => ?_
  rw [getLsbD_set]
  split
  · rename_i hi
    rw [hi, ← h, has]
  · rfl

@[simp] theorem DirectoryEntry.set_set (entry : DirectoryEntry) (flag : Flag) (on : Bool) :
    (entry.set flag on).set flag on = entry.set flag on :=
  set_of_has (by rw [has_set, if_pos rfl])

theorem DirectoryEntry.Fresh.setDirty {entry : DirectoryEntry} {frame : Frame}
    {writable dirty : Bool} (h : entry.Fresh frame writable dirty) (on : Bool) :
    (entry.set .dirty on).Fresh frame writable on := by
  refine ⟨?_, ?_, ?_, ?_, ?_⟩
  · simpa [has_set] using h.present
  · simpa [has_set] using h.writable_eq
  · simpa [has_set] using h.accessed
  · simp [has_set]
  · rw [frame_set, h.frame_eq]

namespace Directory

/-! ## Mapping a page -/

/-- Replace the entry of a page. -/
def setEntry (directory : Directory) (page : Page) (entry : DirectoryEntry) : Directory :=
  { directory with entries := directory.entries.insert page entry }

variable {directory directory' : Directory} {page q : Page} {frame : Frame} {writable : Bool}

@[simp] theorem traits_clear :
    (directory.clear page).toDirectoryTraits = directory.toDirectoryTraits := rfl

theorem translate_setEntry {entry : DirectoryEntry} (h : entry.has .present = true) :
    (directory.setEntry page entry).translate q =
      if page = q then some entry.frame else directory.translate q := by
  by_cases hq : page = q <;> simp [translate, setEntry, PageMap.get?_insert, hq, h]

theorem has_setEntry {entry : DirectoryEntry} {flag : Flag} :
    (directory.setEntry page entry).has q flag =
      if page = q then entry.has flag else directory.has q flag := by
  by_cases hq : page = q <;> simp [has, setEntry, PageMap.get?_insert, hq]

theorem map_cases {mapped : Bool} (h : (directory.map page frame writable).result =
    .ok (mapped, directory')) :
    mapped = false ∧ page ∈ directory.refused ∧ directory' = directory ∨
      mapped = true ∧ page ∉ directory.refused ∧ ∃ entry : DirectoryEntry,
        entry.Fresh frame writable directory.mapsDirty ∧
          directory' = directory.setEntry page entry := by
  cases mapped with
  | true =>
    obtain ⟨hr, entry, he, rfl⟩ := map_eq_ok_iff.1 h
    have hf := DirectoryEntry.fresh_userPage he
    refine .inr ⟨rfl, hr, _, ?_, rfl⟩
    cases hd : directory.mapsDirty with
    | true => simpa using hf.setDirty true
    | false => simpa using hf
  | false =>
    unfold map at h
    by_cases hr : page ∈ directory.refused
    · simp only [List.contains_eq_mem, hr, decide_true, if_true, Outcome.result_pure,
        Except.ok.injEq, Prod.mk.injEq, true_and] at h
      exact .inl ⟨rfl, hr, h.symm⟩
    · rw [if_neg (by simpa using hr)] at h
      obtain ⟨_, -, h⟩ := Outcome.bind_eq_ok_iff.1 h
      simp at h

theorem exists_map (directory : Directory) (page : Page) (writable : Bool)
    (h : frame.index ≤ maxFrameNumber) :
    ∃ mapped directory', (directory.map page frame writable).result = .ok (mapped, directory') := by
  obtain ⟨entry, he⟩ := DirectoryEntry.exists_userPage writable h
  unfold map
  split
  · exact ⟨_, _, rfl⟩
  · exact ⟨_, _, Outcome.bind_eq_ok_iff.2 ⟨entry, he, rfl⟩⟩

/-! ## Flags of mapped pages -/

theorem has_present_iff : directory.has page .present = (directory.translate page).isSome := by
  unfold has translate
  cases directory.entries.get? page with
  | none => rfl
  | some entry => cases h : entry.has .present <;> simp [h]

/-- Setting a flag of a page that is mapped. -/
theorem has_set_of_some {flag other : Flag} {on : Bool}
    (h : (directory.entries.get? page).isSome = true) :
    (directory.set page flag on).has q other =
      if page = q ∧ other = flag then on else directory.has q other := by
  rw [has_set]
  by_cases hq : page = q
  · subst hq; simp [h]
  · simp [hq]

theorem has_setAccessed {flag : Flag} (on : Bool) (h : flag ≠ .accessed) :
    (directory.setAccessed page on).has q flag = directory.has q flag := by
  simp [setAccessed, has_set, h]

@[simp] theorem translate_setAccessed (on : Bool) :
    (directory.setAccessed page on).translate q = directory.translate q :=
  directory.translate_set page q on (by decide)

@[simp] theorem translate_setDirty (on : Bool) :
    (directory.setDirty page on).translate q = directory.translate q :=
  directory.translate_set page q on (by decide)

/-! ## Translating an address -/

theorem touch_cases {address : Nat} {write : Bool}
    (h : directory.touch address write = .ok (frame, directory')) :
    directory.translate (.containing address) = some frame ∧
      (write = true → directory.has (.containing address) .writable = true) ∧
      directory'.toDirectoryTraits = directory.toDirectoryTraits ∧
      (∀ q, directory'.translate q = directory.translate q) ∧
      ∀ q flag, directory'.has q flag =
        if .containing address = q ∧ flag = .accessed then true
        else if .containing address = q ∧ flag = .dirty then directory.has q .dirty || write
        else directory.has q flag := by
  unfold touch at h
  generalize Page.containing address = page at *
  cases he : directory.entries.get? page with
  | none => simp [he] at h
  | some entry =>
    simp only [he] at h
    split at h
    · cases h
    · rename_i hallowed
      simp only [Except.ok.injEq, Prod.mk.injEq] at h
      obtain ⟨rfl, rfl⟩ := h
      simp only [Bool.or_eq_true, Bool.not_eq_true', Bool.and_eq_true, not_or, not_and,
        Bool.not_eq_false] at hallowed
      refine ⟨by simp [translate, he, hallowed.1], by simpa [has, he] using hallowed.2, rfl,
        ?_, ?_⟩
      · intro q
        by_cases hq : page = q
        · subst hq
          simp [translate, he, hallowed.1, DirectoryEntry.has_set, DirectoryEntry.frame_set]
        · simp [translate, PageMap.get?_insert, hq]
      · intro q flag
        by_cases hq : page = q
        · subst hq
          cases flag <;> simp [has, he, DirectoryEntry.has_set]
        · simp [has, PageMap.get?_insert, hq]

theorem touch_error {address : Nat} {write : Bool} {fault : AccessFault}
    (h : directory.touch address write = .error fault) :
    fault = ⟨address, write⟩ ∧ (directory.translate (.containing address) = none ∨
      write = true ∧ directory.has (.containing address) .writable = false) := by
  unfold touch at h
  generalize Page.containing address = page at *
  cases he : directory.entries.get? page with
  | none =>
    simp only [he, Except.error.injEq] at h
    exact ⟨h.symm, .inl (by simp [translate, he])⟩
  | some entry =>
    simp only [he] at h
    split at h
    · rename_i hrefused
      simp only [Except.error.injEq] at h
      refine ⟨h.symm, ?_⟩
      simp only [Bool.or_eq_true, Bool.not_eq_true', Bool.and_eq_true] at hrefused
      rcases hrefused with hp | ⟨hw, hr⟩
      · exact .inl (by simp [translate, he, hp])
      · exact .inr ⟨hw, by simpa [has, he] using hr⟩
    · cases h

end Directory

end DemandPaging
