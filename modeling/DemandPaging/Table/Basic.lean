/-
  Page tables: where every page of a process is, in a frame or not.

  A record tells where the contents of a page are, whether the page may be
  written, whether it was ever found modified when it lost its frame, and which
  file it came from.  A page has one record, made by the first request that
  names it.

  * `insert_eq_ok_iff`: a record is made exactly for a page that has none;
  * `markResident_eq_ok_iff`: a page that is brought in keeps all of its record
    but the status.
-/
import DemandPaging.Contents
import DemandPaging.PageMap
import DemandPaging.Outcome

namespace DemandPaging

/-- The file that a page came from, and its span there. -/
structure FileOrigin where
  /-- The bytes of the file. -/
  file : Bytes
  /-- The bytes that the page starts with. -/
  span : FileSpan
  deriving DecidableEq

/-- What is known about a page. -/
structure PageRecord where
  /-- Where the contents are. -/
  status : PageStatus
  /-- Whether the process may write the page. -/
  writable : Bool
  /-- The page was modified when it lost its frame, once at least.  It no longer
      matches its file and always goes to swap. -/
  dirty : Bool := false
  /-- The file that the page came from, if it came from one. -/
  origin : Option FileOrigin := none
  deriving DecidableEq

/-- A record written as a value. -/
def PageRecord.debugText (record : PageRecord) : String :=
  let origin := match record.origin with
    | some origin => "Some(" ++ origin.span.debugText ++ ")"
    | none => "None"
  "PageEntry \x7b status: " ++ record.status.debugText ++
    ", writable: " ++ toString record.writable ++
    ", dirty: " ++ toString record.dirty ++
    ", origin: " ++ origin ++ " \x7d"

/-- Whether the contents of a page are in a frame. -/
def PageStatus.isResident : PageStatus → Bool
  | resident _ => true
  | _ => false

/-- The pages of a process. -/
structure PageTable where
  /-- The record of each page. -/
  records : PageMap PageRecord := .empty

namespace PageTable

/-- What is known about a page. -/
def get? (table : PageTable) (page : Page) : Option PageRecord :=
  table.records.get? page

/-- Where the contents of a page are. -/
def lookup (table : PageTable) (page : Page) : Option PageStatus :=
  (table.get? page).map PageRecord.status

/-- Whether a page has a record. -/
def contains (table : PageTable) (page : Page) : Bool :=
  table.records.contains page

/-- The number of pages. -/
def size (table : PageTable) : Nat :=
  table.records.size

/-- The number of pages that are in a frame. -/
def residentPages (table : PageTable) : Nat :=
  table.records.count fun record => record.status.isResident

/-- Make the record of a page that has none. -/
def insert (table : PageTable) (page : Page) (record : PageRecord) : Except Error PageTable :=
  if table.contains page then .error .alreadyMapped
  else .ok ⟨table.records.insert page record⟩

/-- Add a page of zeros. -/
def insertZero (table : PageTable) (page : Page) (writable : Bool) : Except Error PageTable :=
  table.insert page { status := .zero, writable := writable }

/-- Add a page that starts with a span of a file, at most a page long. -/
def insertFileBacked (table : PageTable) (page : Page) (origin : FileOrigin) (writable : Bool) :
    Outcome (Except Error PageTable) := do
  Outcome.require (origin.span.length ≤ pageSize) (.spanTooLong origin.span.length)
  return table.insert page
    { status := .fileBacked origin.span, writable := writable, origin := some origin }

/-- Add a page that is in a frame. -/
def insertResident (table : PageTable) (page : Page) (frame : Frame) (writable : Bool) :
    Except Error PageTable :=
  table.insert page { status := .resident frame, writable := writable }

/-- Record that a page, which must be in a frame, lost it; `dirty` tells whether
    it was modified there.  Only a page that was never modified and has a file
    can be dropped. -/
def markEvicted (table : PageTable) (page : Page) (eviction : Eviction) (dirty : Bool) :
    Outcome (Except Error PageTable) := do
  match table.get? page with
  | none => return .error .notResident
  | some record =>
    if !record.status.isResident then return .error .notResident
    else
      let record := { record with dirty := record.dirty || dirty }
      match eviction with
      | .swapped slot =>
        return .ok ⟨table.records.insert page { record with status := .swapped slot }⟩
      | .discarded =>
        Outcome.require (!record.dirty) (.discardingDirty page)
        match record.origin with
        | none => Outcome.halt (.discardingWithoutFile page)
        | some origin =>
          return .ok ⟨table.records.insert page { record with status := .fileBacked origin.span }⟩

/-- Record that a page, which must have a record, is in a frame. -/
def markResident (table : PageTable) (page : Page) (frame : Frame) : Outcome PageTable :=
  match table.get? page with
  | none => Outcome.halt (.residentWithoutEntry page)
  | some record =>
    return ⟨table.records.insert page { record with status := .resident frame }⟩

/-- Take all records out of a table, in rising order of their pages. -/
def takeAll (table : PageTable) : List (Page × PageRecord) × PageTable :=
  (table.records.toList, {})

/-! ## What the operations change -/

theorem insert_eq_ok_iff {table table' : PageTable} {page : Page} {record : PageRecord} :
    table.insert page record = .ok table' ↔
      table.get? page = none ∧ table' = ⟨table.records.insert page record⟩ := by
  unfold insert contains PageMap.contains get?
  cases table.records.get? page <;> simp [eq_comm]

theorem get?_mk_insert (records : PageMap PageRecord) (page q : Page) (record : PageRecord) :
    (PageTable.mk (records.insert page record)).get? q =
      if page = q then some record else (PageTable.mk records).get? q :=
  records.get?_insert page q record

theorem markResident_eq_ok_iff {table table' : PageTable} {page : Page} {frame : Frame} :
    (table.markResident page frame).result = .ok table' ↔
      ∃ record, table.get? page = some record ∧
        table' = ⟨table.records.insert page { record with status := .resident frame }⟩ := by
  unfold markResident
  cases table.get? page <;> simp [eq_comm]

end PageTable

end DemandPaging
