/-
  Segments: a run of pages that starts with bytes of a file and goes on with
  zeros.

  A segment is a whole number of pages and starts at a page boundary of its
  file.  It is mapped as a whole or not at all: if one of its pages is taken,
  the table stays as it is.  Nothing is read until the pages are touched.
-/
import DemandPaging.Table.Basic
import DemandPaging.Page.Address

namespace DemandPaging

/-- A run of pages, filled from a file and then with zeros. -/
structure Segment where
  /-- The bytes of the file. -/
  file : Bytes
  /-- The place in the file of the first byte. -/
  offset : Nat
  /-- The first page. -/
  base : Page
  /-- The bytes that come from the file. -/
  fileBytes : Nat
  /-- The zeros after them. -/
  zeroBytes : Nat
  /-- Whether the process may write the pages. -/
  writable : Bool

namespace Segment

/-- The number of pages of a segment, which must be whole pages at a page
    boundary of the file. -/
def pageCount (segment : Segment) : Outcome Nat := do
  let size ← Word.add segment.fileBytes segment.zeroBytes
  Outcome.require (size % pageSize = 0) .segmentNotWholePages
  Outcome.require (segment.offset % pageSize = 0)
    (.segmentOffsetUnaligned segment.offset)
  return size / pageSize

end Segment

namespace PageTable

/-- Whether one of `count` pages is in the table, beginning with the one `index`
    pages above `base`. -/
def anyTaken (table : PageTable) (base : Page) (index : Nat) : (count : Nat) → Outcome Bool
  | 0 => return false
  | count + 1 => do
    let page ← base.above index
    if table.contains page then return true
    else anyTaken table base (index + 1) count

/-- Add `count` pages of a segment, beginning with the one `index` pages above
    its base, when the file is read from `offset` on and `remaining` bytes come
    from it. -/
def insertSegment (table : PageTable) (segment : Segment) (index offset remaining : Nat) :
    (count : Nat) → Outcome (Except Error Unit × PageTable)
  | 0 => return (.ok (), table)
  | count + 1 => do
    let page ← segment.base.above index
    let length := min remaining pageSize
    let inserted ←
      if 0 < length then
        table.insertFileBacked page ⟨segment.file, ⟨offset, length⟩⟩ segment.writable
      else pure (table.insertZero page segment.writable)
    match inserted with
    | .error e => return (.error e, table)
    | .ok table =>
      let offset ← Word.add offset length
      insertSegment table segment (index + 1) offset (remaining - length) count

/-- Map a segment, unless one of its pages is taken. -/
def mapSegment (table : PageTable) (segment : Segment) :
    Outcome (Except Error Unit × PageTable) := do
  let count ← segment.pageCount
  if ← table.anyTaken segment.base 0 count then return (.error .alreadyMapped, table)
  else table.insertSegment segment 0 segment.offset segment.fileBytes count

end PageTable

end DemandPaging
