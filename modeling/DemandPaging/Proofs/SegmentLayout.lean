/-
  Where the bytes of a segment come to lie.

  * `Segment.record_eq`: the `k`-th page is backed by the span of the file that the segment has
    for it, or is all zeros;
  * `FlatMemory.byte?_addSegment`: the bytes of the file lie one after the other from the base of
    the segment on, then come the zeros;
  * `mapSegment_layout`: what is recorded of the pages of a segment once it is mapped, and what a
    process loads from them.
-/
import DemandPaging.Proofs.Transparency
import DemandPaging.Proofs.Segments

namespace DemandPaging

namespace Segment

variable {segment : Segment} {k i : Nat}

/-- The `i`-th byte of a segment, if its file is long enough to have it. -/
def byte? (segment : Segment) (i : Nat) : Option UInt8 :=
  if i < segment.fileBytes then segment.file[segment.offset + i]? else some 0

theorem isSome_byte? (i : Nat) (h : segment.offset + segment.fileBytes ≤ segment.file.size) :
    (segment.byte? i).isSome = true := by
  unfold byte?
  split
  · rw [Array.getElem?_eq_getElem (by omega), Option.isSome_some]
  · rfl

/-- The span of the file that the `k`-th page of a segment starts with. -/
def span (segment : Segment) (k : Nat) : FileSpan :=
  ⟨segment.offset + k * pageSize, min pageSize (segment.fileBytes - k * pageSize)⟩

theorem record_eq (segment : Segment) (k : Nat) :
    segment.record k = if k * pageSize < segment.fileBytes then
      { status := .fileBacked (segment.span k), writable := segment.writable, dirty := false,
        origin := some ⟨segment.file, segment.span k⟩ }
    else { status := .zero, writable := segment.writable, dirty := false, origin := none } := by
  rw [record, recordAt, span, Nat.min_comm]
  by_cases h : k * pageSize < segment.fileBytes
  · rw [if_pos h, if_pos (by simp only [pageSize] at *; omega)]
  · rw [if_neg h, if_neg (by omega)]

theorem covers_page (hk : k < segment.pages) : segment.Covers (segment.page k) :=
  ⟨Nat.le_add_right _ _, Nat.add_lt_add_left hk _⟩

/-- The `i`-th byte of a segment lies in this page. -/
theorem containing_base_add (segment : Segment) (i : Nat) :
    Page.containing (segment.base.base + i) = segment.page (i / pageSize) := by
  ext
  simp only [Page.containing, Page.base, page, pageSize]
  omega

theorem records_page (hk : k < segment.pages) :
    segment.records segment.pages (segment.page k) = some (segment.record k) := by
  have hin : segment.base.number ≤ (segment.page k).number ∧
      (segment.page k).number < segment.base.number + segment.pages :=
    ⟨Nat.le_add_right _ _, Nat.add_lt_add_left hk _⟩
  have hindex : (segment.page k).number - segment.base.number = k := Nat.add_sub_cancel_left _ _
  rw [records, if_pos hin, hindex]

theorem records_of_not_covers {page : Page} (h : ¬segment.Covers page) :
    segment.records segment.pages page = none :=
  if_neg h

end Segment

/-- The bytes of a segment lie one after the other. -/
theorem FlatMemory.byte?_addSegment {memory : FlatMemory} {process i : Nat} {segment : Segment}
    (hi : i < segment.pages * pageSize)
    (hfile : segment.offset + segment.fileBytes ≤ segment.file.size) :
    (memory.addSegment process segment).byte? process (segment.base.base + i) =
      segment.byte? i := by
  have hpage : i / pageSize < segment.pages := Nat.div_lt_of_lt_mul (by rwa [Nat.mul_comm])
  have hindex : (segment.page (i / pageSize)).number - segment.base.number = i / pageSize :=
    Nat.add_sub_cancel_left _ _
  have hplace : i / pageSize * pageSize + pageOffset (segment.base.base + i) = i := by
    simp only [pageOffset, Page.base, pageSize]
    omega
  rw [byte?, addSegment, segment.containing_base_add, if_pos ⟨rfl, Segment.covers_page hpage⟩,
    Option.map_some, Segment.byte?, hindex]
  simp only [Segment.contents, Vector.getElem_ofFn, hplace]
  split
  · rw [Array.getElem?_eq_getElem (by omega), Array.getD_eq_getD_getElem?,
      Array.getElem?_eq_getElem (by omega), Option.getD_some]
  · rfl

namespace Machine

variable {n : Nat} {m m' : Machine n} {process : Nat} {segment : Segment}

/-- What comes of a segment that is mapped. -/
theorem added_of_mapSegment (h : (m.mapSegment process segment).result = .ok (.ok (), m')) :
    segment.pages * pageSize = segment.fileBytes + segment.zeroBytes ∧
      m.Added m' fun x =>
        if process = x.process then segment.records segment.pages x.page else none := by
  rcases mapSegment_cases h with ⟨hres, -⟩ | ⟨count, hcount, -, hadded⟩
  · cases hres
  · have hpages : segment.pages = count := by
      rw [Segment.pages, ← hcount]
      exact Nat.mul_div_cancel _ (by decide)
    rw [hpages]
    exact ⟨hcount, hadded⟩

/-- The pages of a segment that is mapped are new and start out with its bytes of the file
    followed by zeros, and nothing else changes.  If the file is long enough, these bytes are what
    a process loads from the segment. -/
theorem mapSegment_layout (h : (m.mapSegment process segment).result = .ok (.ok (), m')) :
    (∀ k, k < segment.pages → m.record? ⟨process, segment.page k⟩ = none ∧
      m'.record? ⟨process, segment.page k⟩ = some (if k * pageSize < segment.fileBytes then
          { status := .fileBacked ⟨segment.offset + k * pageSize,
              min pageSize (segment.fileBytes - k * pageSize)⟩,
            writable := segment.writable, dirty := false,
            origin := some ⟨segment.file, ⟨segment.offset + k * pageSize,
              min pageSize (segment.fileBytes - k * pageSize)⟩⟩ }
        else { status := .zero, writable := segment.writable, dirty := false, origin := none })) ∧
      (∀ o, ¬(process = o.process ∧ segment.Covers o.page) → m'.record? o = m.record? o) ∧
      m.SameButTable m' process ∧
      (segment.offset + segment.fileBytes ≤ segment.file.size →
        (∀ i, i < segment.fileBytes + segment.zeroBytes →
          FlatMemory.byte? m'.flat process (segment.base.base + i) =
            if i < segment.fileBytes then segment.file[segment.offset + i]? else some 0) ∧
        (m.Sound none → ∀ limit i length stackPointer faults bytes m'',
          i + length ≤ segment.fileBytes + segment.zeroBytes →
          (m'.load limit process (segment.base.base + i) length stackPointer).result =
            .ok (.done faults bytes, m'') →
          bytes.size = length ∧ ∀ j, j < length → bytes[j]? =
            if i + j < segment.fileBytes then segment.file[segment.offset + (i + j)]?
            else some 0)) := by
  obtain ⟨hsize, hadded⟩ := added_of_mapSegment h
  obtain ⟨table, -, hm⟩ := mapSegment_eq_ok_iff.1 h
  have hbytes (hfile : segment.offset + segment.fileBytes ≤ segment.file.size) (i : Nat)
      (hi : i < segment.fileBytes + segment.zeroBytes) :
      FlatMemory.byte? m'.flat process (segment.base.base + i) = segment.byte? i := by
    rw [(flat_addSegment hsize hadded).1]
    exact FlatMemory.byte?_addSegment (hsize ▸ hi) hfile
  refine ⟨fun k hk => ?_, fun o ho => ?_, hm ▸ m.sameButTable_setTable process table,
    fun hfile => ⟨hbytes hfile, ?_⟩⟩
  · have hnew : (if process = process then segment.records segment.pages (segment.page k)
        else none) = some (segment.record k) := by
      rw [if_pos rfl, Segment.records_page hk]
    refine ⟨hadded.absent ⟨process, segment.page k⟩ _ hnew, ?_⟩
    rw [hadded.record?_eq, hnew, Option.some_or, segment.record_eq]
    rfl
  · rw [hadded.record?_eq]
    split
    · rename_i hp
      rw [Segment.records_of_not_covers fun hc => ho ⟨hp, hc⟩, Option.none_or]
    · rw [Option.none_or]
  · intro hs limit i length stackPointer faults bytes m'' hin hload
    have hpages (j : Nat) (hj : j < length) :
        FlatMemory.byte? m'.flat process (segment.base.base + i + j) = segment.byte? (i + j) := by
      rw [Nat.add_assoc]
      exact hbytes hfile (i + j) (by omega)
    obtain ⟨hlength, hloaded⟩ :=
      (load_flat_step hload (hadded.sound Segment.unloaded_records hs)).of_loaded
        fun j hj => by rw [hpages j hj, Segment.isSome_byte? (i + j) hfile]
    exact ⟨hlength, fun j hj => (hloaded j hj).trans (hpages j hj)⟩

/-- Three bytes of a file and two pages to put them: a load across the end of the file's bytes. -/
theorem mapSegment_layout_twoPages : ∃ answers, ∃ m m' : Machine 1,
    Run {} 1 (.inMemory 1) [.spawn 0 {}] answers m ∧
    (m.mapSegment 0 ⟨#[5, 6, 7], 0, ⟨4⟩, 3, 8189, true⟩).result = .ok (.ok (), m') ∧
    m'.record? ⟨0, ⟨4⟩⟩ =
      some ⟨.fileBacked ⟨0, 3⟩, true, false, some ⟨#[5, 6, 7], ⟨0, 3⟩⟩⟩ ∧
    m'.record? ⟨0, ⟨5⟩⟩ = some ⟨.zero, true, false, none⟩ ∧
    ((m'.load 1 0 (16384 + 2) 2 0).result matches .ok (.done 1 _, _)) = true ∧
    ∀ bytes m'', (m'.load 1 0 (16384 + 2) 2 0).result = .ok (.done 1 bytes, m'') →
      bytes[0]? = some 7 ∧ bytes[1]? = some 0 := by
  obtain ⟨answers, m, h, hp⟩ := exists_run {} 1 (.inMemory 1) [.spawn 0 {}]
    (fun m => (m.mapSegment 0 ⟨#[5, 6, 7], 0, ⟨4⟩, 3, 8189, true⟩).result.toOption.any
      fun mapped => mapped.1.toBool &&
        ((mapped.2.load 1 0 (16384 + 2) 2 0).result matches .ok (.done 1 _, _)))
    (by decide +kernel)
  obtain ⟨⟨res, m'⟩, hmap, hp⟩ := Outcome.exists_of_any hp
  obtain ⟨hres, hdone⟩ := Bool.and_eq_true_iff.1 hp
  cases res with
  | error e => cases hres
  | ok _ =>
    obtain ⟨hrecords, -, -, hread⟩ := mapSegment_layout hmap
    refine ⟨answers, m, m', h, hmap, (hrecords 0 (by decide)).2, (hrecords 1 (by decide)).2, hdone,
      fun bytes m'' hload => ?_⟩
    obtain ⟨-, hbytes⟩ := (hread (by decide)).2 h.sound 1 2 2 0 1 bytes m'' (by decide) hload
    exact ⟨hbytes 0 (by decide), hbytes 1 (by decide)⟩

end Machine

end DemandPaging
