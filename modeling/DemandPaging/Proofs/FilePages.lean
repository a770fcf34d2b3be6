/-
  Pages of files: dropping one loses nothing.

  Two bits tell whether a page differs from its file: the dirty bit of its mapping, which
  mapping the page anew resets, and the flag in its record, which is set when the page loses
  its frame.  `KeepsFile` is what the two together mean.

  * `run_keepsFiles`: between the requests of any run, every page of a file keeps its file;
    and a page that an eviction drops reads from the file as it was in its frame.
-/
import DemandPaging.Proofs.Run

namespace DemandPaging

/-- A page holds the span of its file, all of which is there, and then zeros. -/
def FileOrigin.Fills (origin : FileOrigin) (contents : Contents) : Prop :=
  origin.span.length ≤ pageSize ∧ ∀ i (hi : i < pageSize),
    if i < origin.span.length then
      origin.file[origin.span.offset + i]? = some contents[(⟨i, hi⟩ : Fin pageSize)]
    else contents[(⟨i, hi⟩ : Fin pageSize)] = 0

theorem FileOrigin.Holds.fills {origin : FileOrigin} {contents : Contents}
    (h : origin.Holds contents) (hle : origin.span.length ≤ pageSize) : origin.Fills contents := by
  obtain ⟨hsize, rfl⟩ := h
  refine ⟨hle, fun i hi => ?_⟩
  have hbyte := Contents.getElem_ofBytes
    (origin.file.readAt origin.span.offset origin.span.length) hi
  show if i < origin.span.length then _ = some (Contents.ofBytes _)[i]
    else (Contents.ofBytes _)[i] = 0
  rw [hbyte]
  have hextract : (origin.file.readAt origin.span.offset origin.span.length)[i]? =
      if i < origin.span.length then origin.file[origin.span.offset + i]? else none := by
    rw [Bytes.readAt, Array.getElem?_extract]
    unfold Bytes.readAt at hsize
    rw [Array.size_extract] at hsize
    by_cases hlt : i < origin.span.length
    · rw [if_pos hlt, if_pos (by omega)]
    · rw [if_neg hlt, if_neg (by omega)]
  rw [Array.getD_eq_getD_getElem?, hextract]
  by_cases hlt : i < origin.span.length
  · have hin : i < (origin.file.readAt origin.span.offset origin.span.length).size := by omega
    have hsome := Array.getElem?_eq_getElem hin
    rw [hextract, if_pos hlt] at hsome
    rw [if_pos hlt, if_pos hlt, hsome]
    rfl
  · rw [if_neg hlt, if_neg hlt]
    rfl

namespace Machine

variable {n : Nat} {m m₁ m' : Machine n} {process : Nat} {page : Page} {frame : Frame}
  {record : PageRecord} {origin : FileOrigin}

/-- Where a page of a file is, and what its dirty bits say of it. -/
structure KeepsFile (m : Machine n) (process : Nat) (page : Page) (record : PageRecord)
    (origin : FileOrigin) : Prop where
  not_zero : record.status ≠ .zero
  backed : ∀ span, record.status = .fileBacked span → span = origin.span ∧ record.dirty = false
  swapped : ∀ slot, record.status = .swapped slot → record.dirty = true
  clean : ∀ frame, record.status = .resident frame → record.dirty = false →
    (m.space process).directory.isDirty page = false → origin.Fills (m.memory.contents frame)

theorem FilesKept.keepsFile (h : m.FilesKept) (hr : (m.space process).table.get? page = some record)
    (horigin : record.origin = some origin) : m.KeepsFile process page record origin := by
  have hle := h.span_le ⟨process, page⟩ record origin hr horigin
  constructor
  · intro hzero
    have hnone := h.zero ⟨process, page⟩ record hr hzero
    rw [horigin] at hnone
    cases hnone
  · intro span hspan
    obtain ⟨origin', horigin', rfl, hclean⟩ := h.backed ⟨process, page⟩ record span hr hspan
    rw [horigin] at horigin'
    cases horigin'
    exact ⟨rfl, hclean⟩
  · exact fun slot hslot => h.swapped ⟨process, page⟩ record slot origin hr hslot horigin
  · intro frame hframe hclean hbit
    exact (h.clean ⟨process, page⟩ record frame origin hr hframe horigin hclean hbit).fills hle

/-- The machines that look for a frame on behalf of a request to `m`: `m` itself, and `m` with
    one more page of zeros when a stack grows. -/
inductive LooksForFrame (m : Machine n) : Machine n → Prop where
  | asIs : LooksForFrame m m
  | grown (process : Nat) (page : Page) (table : PageTable)
      (h : (m.space process).table.insertZero page true = .ok table) :
      LooksForFrame m (m.setTable process table)

theorem LooksForFrame.sound (h : m.LooksForFrame m₁) (hs : m.Sound none) : m₁.Sound none := by
  cases h with
  | asIs => exact hs
  | grown process page table h =>
    exact (added_insertZero (o := ⟨process, page⟩) h).sound unloaded_zero hs

/-- A page that an eviction dropped is in its file as it was in the frame. -/
theorem evict_rereads {res : Except Error Frame} {span : FileSpan} (hs : m.Sound none)
    (h : m.evict.result = .ok (res, m'))
    (hbefore : m.status? ⟨process, page⟩ = some (.resident frame))
    (hafter : m'.status? ⟨process, page⟩ = some (.fileBacked span)) :
    ∃ record origin, m'.record? ⟨process, page⟩ = some record ∧ record.origin = some origin ∧
      span = origin.span ∧ origin.Holds (m.memory.contents frame) := by
  obtain ⟨swept, victim, o, record, hpick, howner, hr, hstatus, hcases⟩ := evict_cases h
  have hsame := (pickVictim_cases hpick).1
  have hswept := hsame.sound hs
  rw [← hsame.status?_eq] at hbefore
  rw [← hsame.memory_eq]
  -- Only the victim's record changes.
  have hchanged : m'.status? ⟨process, page⟩ ≠ swept.status? ⟨process, page⟩ := by
    rw [hbefore, hafter]
    exact nofun
  rcases hcases with ⟨-, hevicted⟩ | ⟨-, hrestored⟩
  · cases hevicted with
    | discarded origin horigin hclean hloses hswap hstats =>
      rw [hloses.status?_eq] at hchanged hafter
      split at hchanged
      · rename_i ho
        subst ho
        rw [if_pos rfl] at hafter
        cases hafter
        rw [status?_of_record hr, hstatus] at hbefore
        cases hbefore
        rw [Bool.or_eq_false_iff] at hclean
        refine ⟨_, origin, (hloses.record?_eq _).trans (if_pos rfl), horigin, rfl, ?_⟩
        exact hswept.files.clean _ record frame origin hr hstatus horigin hclean.2 hclean.1
      · exact absurd rfl hchanged
    | swapped slot swap hdirty hslot hwrite hloses hstats =>
      rw [hloses.status?_eq] at hchanged hafter
      split at hchanged
      · rename_i ho
        rw [if_pos ho] at hafter
        cases hafter
      · exact absurd rfl hchanged
  · refine absurd ?_ hchanged
    rw [status?, status?, record?, record?, hrestored.table_eq]

/-- After every request of a run, every page of a file keeps its file; and when an eviction then
    drops a page, reading its span of the file again yields all of the span and makes up the
    page that was in the frame. -/
theorem run_keepsFiles {config : Config} {device : Device} {requests : List Request}
    {answers : List Answer} (h : Run config n device requests answers m) :
    (∀ process page record origin, (m.space process).table.get? page = some record →
      record.origin = some origin → m.KeepsFile process page record origin) ∧
    ∀ m₁ res m' process page frame span, m.LooksForFrame m₁ →
      m₁.evict.result = .ok (res, m') →
      (m₁.space process).table.lookup page = some (.resident frame) →
      (m'.space process).table.lookup page = some (.fileBacked span) →
      ∃ record origin, (m'.space process).table.get? page = some record ∧
        record.origin = some origin ∧ span = origin.span ∧
        (origin.file.readAt span.offset span.length).size = span.length ∧
        Contents.ofBytes (origin.file.readAt span.offset span.length) =
          m₁.memory.contents frame := by
  have hs := h.sound
  constructor
  · exact fun process page record origin hr horigin => hs.files.keepsFile hr horigin
  · intro m₁ res m' process page frame span hlooks hevict hbefore hafter
    obtain ⟨record, origin, hr, horigin, rfl, hsize, hcontents⟩ :=
      evict_rereads (hlooks.sound hs) hevict hbefore hafter
    exact ⟨record, origin, hr, horigin, rfl, hsize, hcontents.symm⟩

/-- A page of a file was loaded from; the next eviction drops it. -/
theorem run_keepsFiles_dropped : ∃ answers, ∃ m m' : Machine 1,
    Run {} 1 (.inMemory 1) [.spawn 0 {}, .mapSegment 0 ⟨#[5, 6, 7], 0, ⟨0⟩, 3, 4093, true⟩,
      .load 0 0 4 0 1] answers m ∧ m.evict.result = .ok (.ok ⟨0⟩, m') ∧
    ∃ record origin, (m'.space 0).table.get? ⟨0⟩ = some record ∧ record.origin = some origin ∧
      ⟨0, 3⟩ = origin.span ∧ (origin.file.readAt 0 3).size = 3 ∧
      Contents.ofBytes (origin.file.readAt 0 3) = m.memory.contents ⟨0⟩ := by
  obtain ⟨answers, m, h, hp⟩ := exists_run {} 1 (.inMemory 1)
    [.spawn 0 {}, .mapSegment 0 ⟨#[5, 6, 7], 0, ⟨0⟩, 3, 4093, true⟩, .load 0 0 4 0 1]
    (fun m => (m.space 0).table.lookup ⟨0⟩ = some (.resident ⟨0⟩) &&
      match m.evict.result with
      | .ok (.ok frame, m') =>
        frame = ⟨0⟩ && (m'.space 0).table.lookup ⟨0⟩ = some (.fileBacked ⟨0, 3⟩)
      | _ => false) (by decide +kernel)
  simp only [Bool.and_eq_true, decide_eq_true_eq] at hp
  obtain ⟨hbefore, hp⟩ := hp
  split at hp
  · rename_i frame m' hevict
    simp only [Bool.and_eq_true, decide_eq_true_eq] at hp
    obtain ⟨rfl, hafter⟩ := hp
    exact ⟨answers, m, m', h, hevict,
      (run_keepsFiles h).2 m _ m' 0 ⟨0⟩ ⟨0⟩ ⟨0, 3⟩ .asIs hevict hbefore hafter⟩
  · cases hp

end Machine

end DemandPaging
