/-
  Page directories: the mappings of one process that the memory management unit
  follows.

  Mapping a page replaces its entry; taking the mapping away leaves the accessed
  and dirty bits readable until the page is mapped again.  A page that was never
  mapped has no bits, and setting one does nothing.

  Three traits describe what the world around a directory does to it: it may
  have no memory for some pages (`refused`), its process may touch every present
  page again at once (`busy`), and mapping a page may make it dirty
  (`mapsDirty`).  A directory with none of them is plain.

  * `has_set` is what setting a bit does to all bits of all pages, and
    `translate_set` that it moves no page;
  * `translate_clear` and `has_clear`: taking a mapping away changes nothing but
    that the page is present;
  * `map_eq_ok_iff` says when a page is mapped and what its entry is then.
-/
import DemandPaging.PageMap
import DemandPaging.Directory.Entry

namespace DemandPaging

/-- What the world around a directory does to it. -/
structure DirectoryTraits where
  /-- The pages for which there is no memory to map them. -/
  refused : List Page := []
  /-- Present pages are touched again as soon as they count as not accessed. -/
  busy : Bool := false
  /-- Mapping a page makes it dirty. -/
  mapsDirty : Bool := false
  deriving DecidableEq

/-- The mappings of one process. -/
structure Directory extends DirectoryTraits where
  /-- The entry of each page that was ever mapped. -/
  entries : PageMap DirectoryEntry := .empty

namespace Directory

/-- The directory that no page was ever mapped in. -/
def ofTraits (traits : DirectoryTraits) : Directory :=
  { traits with }

/-- A directory that refuses no page, whose pages are only touched by loads and
    stores and get dirty only by stores. -/
def IsPlain (directory : Directory) : Prop :=
  directory.toDirectoryTraits = {}

/-- Whether the entry of a page has a flag set. -/
def has (directory : Directory) (page : Page) (flag : Flag) : Bool :=
  match directory.entries.get? page with
  | some entry => entry.has flag
  | none => false

/-- Set or clear a flag in the entry of a page, if it has one. -/
def set (directory : Directory) (page : Page) (flag : Flag) (on : Bool) : Directory :=
  { directory with entries := directory.entries.modify page fun entry => entry.set flag on }

/-- The frame that a page is mapped to, if it is present. -/
def translate (directory : Directory) (page : Page) : Option Frame :=
  match directory.entries.get? page with
  | some entry => if entry.has .present then some entry.frame else none
  | none => none

/-- Whether a page is present and may be written. -/
def isWritable (directory : Directory) (page : Page) : Bool :=
  directory.has page .present && directory.has page .writable

/-- The number of pages that are present. -/
def mappedPages (directory : Directory) : Nat :=
  directory.entries.count fun entry => entry.has .present

/-- Whether a page was touched since it last counted as not accessed. -/
def isAccessed (directory : Directory) (page : Page) : Bool :=
  if directory.busy then (directory.translate page).isSome else directory.has page .accessed

/-- Whether a page was written since it was last clean. -/
def isDirty (directory : Directory) (page : Page) : Bool :=
  directory.has page .dirty

/-- Make a page count as accessed or not. -/
def setAccessed (directory : Directory) (page : Page) (on : Bool) : Directory :=
  directory.set page .accessed on

/-- Make a page count as dirty or clean. -/
def setDirty (directory : Directory) (page : Page) (on : Bool) : Directory :=
  directory.set page .dirty on

/-- Take the mapping of a page away. -/
def clear (directory : Directory) (page : Page) : Directory :=
  directory.set page .present false

/-- Map a page to a frame.  The answer tells whether there was memory for the
    mapping; if there was none, nothing changes. -/
def map (directory : Directory) (page : Page) (frame : Frame) (writable : Bool) :
    Outcome (Bool × Directory) :=
  if directory.refused.contains page then pure (false, directory)
  else do
    let entry ← DirectoryEntry.userPage frame writable
    let entry := if directory.mapsDirty then entry.set .dirty true else entry
    return (true, { directory with entries := directory.entries.insert page entry })

/-! ## What the operations change -/

theorem get?_set (directory : Directory) (page q : Page) (flag : Flag) (on : Bool) :
    (directory.set page flag on).entries.get? q =
      if page = q then (directory.entries.get? q).map fun entry => entry.set flag on
      else directory.entries.get? q :=
  directory.entries.get?_modify page q _

theorem has_set (directory : Directory) (page q : Page) (flag other : Flag) (on : Bool) :
    (directory.set page flag on).has q other =
      if page = q ∧ other = flag ∧ (directory.entries.get? q).isSome then on
      else directory.has q other := by
  simp only [has, get?_set]
  by_cases hq : page = q
  · cases h : directory.entries.get? q with
    | none => simp [hq]
    | some entry => simp [hq, DirectoryEntry.has_set]
  · simp [hq]

theorem translate_set (directory : Directory) (page q : Page) {flag : Flag} (on : Bool)
    (h : flag ≠ .present) : (directory.set page flag on).translate q = directory.translate q := by
  simp only [translate, get?_set]
  by_cases hq : page = q
  · cases directory.entries.get? q with
    | none => simp
    | some entry =>
      have h' : Flag.present ≠ flag := h.symm
      simp [hq, DirectoryEntry.has_set, DirectoryEntry.frame_set, h']
  · simp [hq]

theorem translate_clear (directory : Directory) (page q : Page) :
    (directory.clear page).translate q = if page = q then none else directory.translate q := by
  simp only [translate, clear, get?_set]
  by_cases hq : page = q
  · cases directory.entries.get? q with
    | none => simp
    | some entry => simp [hq, DirectoryEntry.has_set]
  · simp [hq]

theorem has_clear (directory : Directory) (page q : Page) {flag : Flag} (h : flag ≠ .present) :
    (directory.clear page).has q flag = directory.has q flag := by
  simp [clear, has_set, h]

theorem map_eq_ok_iff {directory directory' : Directory} {page : Page} {frame : Frame}
    {writable : Bool} :
    (directory.map page frame writable).result = .ok (true, directory') ↔
      page ∉ directory.refused ∧ ∃ entry,
        (DirectoryEntry.userPage frame writable).result = .ok entry ∧
        directory' = { directory with
          entries := directory.entries.insert page
            (if directory.mapsDirty then entry.set .dirty true else entry) } := by
  unfold map
  by_cases hr : page ∈ directory.refused
  · simp [hr]
  · simp only [List.contains_eq_mem, hr, decide_false, Bool.false_eq_true, if_false,
      Outcome.bind_eq_ok_iff, Outcome.result_pure, Except.ok.injEq, Prod.mk.injEq, true_and,
      not_false_eq_true, eq_comm (a := directory')]

end Directory

end DemandPaging
