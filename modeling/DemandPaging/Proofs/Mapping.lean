/-
  New pages: what a request for a page of zeros and a mapped segment change.

  * `mapNewPageAgainst_cases` lists the ways in which a request for a page ends
    (`MappedNew`); `MappedNew.sound` and `MappedNew.flat_eq`: the machine stays
    sound, and at most that page is new, all zeros;
  * `PageTable.mapSegment_cases`: a segment is mapped as a whole, with
    `Segment.record` the record of each page, or not at all.
-/
import DemandPaging.Machine.Mapping
import DemandPaging.Proofs.Placing

namespace DemandPaging

namespace Machine

variable {n : Nat} {m m' : Machine n} {frame : Frame} {o x : Owner} {writable : Bool}
  {intruder : Option Bool} {res : Except Error Unit}

/-! ## A page of zeros -/

/-- A page that was mapped and unmapped again while someone else added it is as good as
    added. -/
theorem added_of_intruder {directory : Directory} {table : PageTable} {entry : DirectoryEntry}
    (hdirectory : directory = (m.space o.process).directory.setEntry o.page entry)
    (htable : table = ⟨(m.space o.process).table.records.insert o.page
      { status := .zero, writable := writable }⟩)
    (hpresent : entry.has .present = true) (hl : m.Linked (some frame))
    (hr : m.record? o = none) :
    m.Added (((m.setDirectory o.process directory).setTable o.process table).setDirectory o.process
      (directory.clear o.page))
      (fun x => if o = x then some { status := .zero, writable := writable } else none) := by
  have hnot : m.translate o = none :=
    hl.translate_eq_none fun g => by rw [status?_eq_none hr]; exact nofun
  have hspace : (m.space o.process).table =
      ((m.setDirectory o.process directory).space o.process).table := by simp
  subst htable
  constructor
  · rfl
  · rfl
  · rfl
  · rfl
  · rfl
  · intro p
    refine (traits_setDirectory ?_ p).trans
      ((traits_setTable _ p).trans (traits_setDirectory (by rw [hdirectory]; rfl) p))
    simp
  · intro x r hx
    split at hx
    · rename_i hox; exact hox ▸ hr
    · cases hx
  · intro x
    rw [record?_setDirectory, hspace, record?_setTable_insert, record?_setDirectory]
    split <;> rfl
  · intro x
    rw [translate_setDirectory]
    split
    · rename_i hp
      rw [Directory.translate_clear]
      split
      · rename_i hq; rw [← Owner.eq_iff.2 ⟨hp, hq⟩, hnot]
      · rename_i hq
        rw [hdirectory, Directory.translate_setEntry hpresent, if_neg hq, hp]; rfl
    · rename_i hp
      rw [translate_setTable, translate_setDirectory, if_neg hp]
  · intro x fl hx
    have hx : o ≠ x := fun hox => by rw [if_pos hox] at hx; cases hx
    rw [flag_setDirectory]
    split
    · rename_i hp
      have hq : o.page ≠ x.page := fun hq => hx (Owner.eq_iff.2 ⟨hp, hq⟩)
      rw [Directory.clear, Directory.has_set, if_neg fun h => hq h.1, hdirectory,
        Directory.has_setEntry, if_neg hq, hp]
      rfl
    · rename_i hp
      rw [flag_setTable, flag_setDirectory, if_neg hp]

/-- How placing a page ends depends on whether the directory has memory for it, and on the
    intruder. -/
theorem placeNewPage_cases
    (h : (m.placeNewPage o.process o.page frame writable intruder).result = .ok (res, m'))
    (hl : m.Linked (some frame)) (hr : m.record? o = none) :
    ∃ mapped directory,
      ((m.space o.process).directory.map o.page frame writable).result = .ok (mapped, directory) ∧
      (mapped = false ∧ res = .error .outOfMemory ∧ m.Freed m' frame ∨
        (∃ added, mapped = true ∧ res = .error .alreadyMapped ∧ intruder = some added ∧ ∃ m₁,
          m.Added m₁
            (fun x => if o = x then some { status := .zero, writable := added } else none) ∧
          m₁.Freed m' frame) ∨
        mapped = true ∧ res = .ok () ∧ intruder = none ∧
          m.Installed m' frame o { status := .zero, writable := writable }) := by
  simp only [placeNewPage, Outcome.bind_eq_ok_iff, Prod.exists] at h
  obtain ⟨mapped, directory, hmap, h⟩ := h
  refine ⟨mapped, directory, hmap, ?_⟩
  rcases Directory.map_cases hmap with ⟨rfl, -, rfl⟩ | ⟨rfl, -, entry, hfresh, hdirectory⟩
  · simp only [Bool.not_false, if_true, Outcome.bind_eq_ok_iff] at h
    obtain ⟨m₁, hfree, h⟩ := h
    cases h
    exact .inl ⟨rfl, rfl, free_cases hfree⟩
  · right
    simp only [Bool.not_true, Bool.false_eq_true, if_false] at h
    cases intruder with
    | some added =>
      have hzero := PageTable.insertZero_of_absent added hr
      simp only [PageTable.intruded, hzero, Except.toOption, Option.getD_some] at h
      split at h
      · rename_i e hinsert
        obtain ⟨m₁, hfree, h⟩ := Outcome.bind_eq_ok_iff.1 h
        cases h
        rw [PageTable.insert_error hinsert]
        exact .inl ⟨added, rfl, rfl, rfl, _, added_of_intruder hdirectory rfl hfresh.present hl hr,
          free_cases hfree⟩
      · rename_i table hinsert
        have := (PageTable.insert_eq_ok_iff.1 hinsert).1
        rw [PageTable.get?_mk_insert, if_pos rfl] at this
        cases this
    | none =>
      simp only [PageTable.intruded] at h
      split at h
      · rename_i e hinsert
        cases hinsert.symm.trans (PageTable.insert_eq_ok_iff.2 ⟨hr, rfl⟩)
      · rename_i table hinsert
        obtain ⟨m₁, hunpin, h⟩ := Outcome.bind_eq_ok_iff.1 h
        cases h
        obtain ⟨hall, rfl⟩ := unpin_cases hunpin
        obtain ⟨-, rfl⟩ := PageTable.insert_eq_ok_iff.1 hinsert
        rw [setTable_setTable]
        refine .inr ⟨rfl, rfl, rfl, installed_of (m := m) { status := .zero, writable := writable }
          m.swap.slots hall ?_ ?_ ?_ ?_ ?_ rfl⟩
        · rw [hdirectory]; rfl
        · intro q
          rw [hdirectory, Directory.translate_setEntry hfresh.present, hfresh.frame_eq]
        · intro q
          rw [hdirectory, Directory.has_setEntry, hfresh.writable_eq]
        · intro q
          rw [hdirectory, Directory.has_setEntry, hfresh.accessed]
        · intro q hq
          rw [hdirectory, Directory.has_setEntry, if_neg hq]

/-- How a request for the new page `o` of zeros ends: the page is taken, or there is no frame,
    or no memory for the mapping, or someone else adds the page, or it is in its frame. -/
inductive MappedNew (m m' : Machine n) (o : Owner) (writable : Bool) (intruder : Option Bool) :
    Except Error Unit → Prop where
  | taken (record : PageRecord) (hr : m.record? o = some record) (hm : m' = m) :
      MappedNew m m' o writable intruder (.error .alreadyMapped)
  | frameless (e : Error) (hr : m.record? o = none) (hobtained : m.Obtained m' (.error e)) :
      MappedNew m m' o writable intruder (.error e)
  | refused (frame : Frame) (m₁ m₂ : Machine n) (hr : m.record? o = none)
      (hobtained : m.Obtained m₁ (.ok frame)) (hclaimed : m₁.Claimed m₂ frame o true)
      (hfreed : m₂.Freed m' frame) : MappedNew m m' o writable intruder (.error .outOfMemory)
  | intruded {added : Bool} (frame : Frame) (m₁ m₂ m₃ : Machine n) (hr : m.record? o = none)
      (hintruder : intruder = some added) (hobtained : m.Obtained m₁ (.ok frame))
      (hclaimed : m₁.Claimed m₂ frame o true)
      (hadded : m₂.Added m₃ fun x => if o = x then
        some { status := .zero, writable := added } else none)
      (hfreed : m₃.Freed m' frame) : MappedNew m m' o writable intruder (.error .alreadyMapped)
  | placed (frame : Frame) (m₁ m₂ : Machine n) (hr : m.record? o = none)
      (hintruder : intruder = none) (hobtained : m.Obtained m₁ (.ok frame))
      (hclaimed : m₁.Claimed m₂ frame o true)
      (hinstalled : m₂.Installed m' frame o { status := .zero, writable := writable }) :
      MappedNew m m' o writable intruder (.ok ())

theorem mapNewPageAgainst_cases
    (h : (m.mapNewPageAgainst o.process o.page writable intruder).result = .ok (res, m'))
    (hs : m.Sound none) : m.MappedNew m' o writable intruder res := by
  unfold mapNewPageAgainst at h
  split at h
  · rename_i htaken
    cases h
    obtain ⟨record, hr⟩ := Option.isSome_iff_exists.1 htaken
    exact .taken record hr rfl
  · rename_i hfree
    have hr : m.record? o = none := by
      rwa [PageTable.contains, PageMap.contains, Bool.not_eq_true, Option.isSome_eq_false_iff,
        Option.isNone_iff_eq_none] at hfree
    simp only [Outcome.bind_eq_ok_iff, Prod.exists] at h
    obtain ⟨allocated, m₂, hallocate, h⟩ := h
    rcases allocate_cases hallocate with ⟨e, rfl, hobtained⟩ | ⟨frame, m₁, rfl, hframe, hclaimed⟩
    · cases h
      exact .frameless e hr hobtained
    · have hobtained := obtainFrame_cases hframe
      have hr₂ : m₂.record? o = none := by
        rw [hclaimed.same.record?_eq, hobtained.record?_of_none hr]
      have hs₂ := hclaimed.same.sound (hobtained.sound hs)
      obtain ⟨_, _, -, hplaced⟩ := placeNewPage_cases h hs₂.linked hr₂
      rcases hplaced with ⟨-, rfl, hfreed⟩ | ⟨added, -, rfl, hintruder, m₃, hadded, hfreed⟩ |
        ⟨-, rfl, hintruder, hinstalled⟩
      · exact .refused frame m₁ m₂ hr hobtained hclaimed hfreed
      · exact .intruded frame m₁ m₂ m₃ hr hintruder hobtained hclaimed hadded hfreed
      · exact .placed frame m₁ m₂ hr hintruder hobtained hclaimed hinstalled

theorem mapNewPage_cases {intruding : Bool}
    (h : (m.mapNewPage o.process o.page writable intruding).result = .ok (res, m'))
    (hs : m.Sound none) :
    m.MappedNew m' o writable (if intruding then some writable else none) res :=
  mapNewPageAgainst_cases h hs

namespace MappedNew

theorem sound (h : m.MappedNew m' o writable intruder res) (hs : m.Sound none) :
    m'.Sound none := by
  cases h with
  | taken record hr hm => subst hm; exact hs
  | frameless e hr hobtained => exact hobtained.sound hs
  | refused frame m₁ m₂ hr hobtained hclaimed hfreed =>
    exact hfreed.sound (hclaimed.same.sound (hobtained.sound hs))
  | intruded frame m₁ m₂ m₃ hr hintruder hobtained hclaimed hadded hfreed =>
    have hs₂ := hclaimed.same.sound (hobtained.sound hs)
    exact hfreed.sound (hadded.sound unloaded_zero hs₂)
  | placed frame m₁ m₂ hr hintruder hobtained hclaimed hinstalled =>
    have hs₂ := hclaimed.same.sound (hobtained.sound hs)
    refine hinstalled.sound_new hs₂ hclaimed.owner?_self ?_
    rw [hclaimed.same.record?_eq, hobtained.record?_of_none hr]

/-- A page of zeros is new if the request succeeds, or if someone else added the page. -/
theorem flat_eq (h : m.MappedNew m' o writable intruder res) (hs : m.Sound none) :
    (∃ e, res = .error e ∧ (m.record? o = none → e ≠ .alreadyMapped)) ∧ m'.flat = m.flat ∨
      m.record? o = none ∧ (res = .ok () ∧ intruder = none ∨
          res = .error .alreadyMapped ∧ intruder.isSome = true) ∧
        ∀ x, m'.flat x = if o = x then some .zero else m.flat x := by
  cases h with
  | taken record hr hm =>
    subst hm
    exact .inl ⟨⟨_, rfl, fun hnone => nomatch hr.symm.trans hnone⟩, rfl⟩
  | frameless e hr hobtained =>
    refine .inl ⟨⟨e, rfl, fun _ => ?_⟩, hobtained.flat_eq hs⟩
    cases hobtained
    exact nofun
  | refused frame m₁ m₂ hr hobtained hclaimed hfreed =>
    have hs₁ := hobtained.sound hs
    refine .inl ⟨⟨_, rfl, fun _ => nofun⟩, ?_⟩
    rw [hfreed.flat_eq, hclaimed.same.flat_eq hs₁.linked, hobtained.flat_eq hs]
  | intruded frame m₁ m₂ m₃ hr hintruder hobtained hclaimed hadded hfreed =>
    have hs₁ := hobtained.sound hs
    refine .inr ⟨hr, .inr ⟨rfl, by rw [hintruder]; rfl⟩, fun x => ?_⟩
    rw [hfreed.flat_eq, hadded.flat_eq, hclaimed.same.flat_eq hs₁.linked, hobtained.flat_eq hs]
    split <;> rfl
  | placed frame m₁ m₂ hr hintruder hobtained hclaimed hinstalled =>
    have hs₁ := hobtained.sound hs
    refine .inr ⟨hr, .inl ⟨rfl, hintruder⟩, fun x => ?_⟩
    rw [hinstalled.flat_eq, hclaimed.contents_self, hclaimed.same.flat_eq hs₁.linked,
      hobtained.flat_eq hs]
    rfl

end MappedNew

end Machine

/-! ## Segments -/

/-- What is recorded of a page that starts with `length` bytes of the file of a segment, those from
    `offset` on. -/
def Segment.recordAt (segment : Segment) (offset length : Nat) : PageRecord :=
  if 0 < length then
    { status := .fileBacked ⟨offset, length⟩, writable := segment.writable,
      origin := some ⟨segment.file, ⟨offset, length⟩⟩ }
  else { status := .zero, writable := segment.writable }

/-- What is recorded of the `k`-th page of a segment: the span of the file that it starts
    with, or that it is all zeros. -/
def Segment.record (segment : Segment) (k : Nat) : PageRecord :=
  segment.recordAt (segment.offset + k * pageSize)
    (min (segment.fileBytes - k * pageSize) pageSize)

theorem Segment.unloaded_record (segment : Segment) (k : Nat) : (segment.record k).Unloaded := by
  unfold Segment.record Segment.recordAt
  split
  · exact .fileBacked ⟨segment.file, ⟨_, _⟩⟩ _ (Nat.min_le_right _ _)
  · exact .zero _

/-- What is recorded of the pages of a segment, `count` of them. -/
def Segment.records (segment : Segment) (count : Nat) (page : Page) : Option PageRecord :=
  if segment.base.number ≤ page.number ∧ page.number < segment.base.number + count then
    some (segment.record (page.number - segment.base.number))
  else none

theorem Segment.unloaded_records {segment : Segment} {count process : Nat} (x : Owner)
    (r : PageRecord)
    (h : (if process = x.process then segment.records count x.page else none) = some r) :
    r.Unloaded := by
  split at h
  · unfold Segment.records at h
    split at h
    · cases h; exact segment.unloaded_record _
    · cases h
  · cases h

namespace PageTable

variable {table table' : PageTable} {segment : Segment}

theorem anyTaken_cases {base : Page} {index count : Nat} {taken : Bool}
    (h : (table.anyTaken base index count).result = .ok taken) (hfree : taken = false) :
    ∀ k, index ≤ k → k < index + count → table.get? ⟨base.number + k⟩ = none := by
  induction count generalizing index with
  | zero => intro k hk hk'; omega
  | succ count ih =>
    simp only [anyTaken, Outcome.bind_eq_ok_iff, Page.above_eq_ok_iff] at h
    obtain ⟨_, ⟨-, rfl⟩, h⟩ := h
    split at h
    · cases h; cases hfree
    · rename_i hnot
      intro k hk hk'
      rcases Nat.eq_or_lt_of_le hk with rfl | hlt
      · rwa [contains, PageMap.contains, Bool.not_eq_true, Option.isSome_eq_false_iff,
          Option.isNone_iff_eq_none] at hnot
      · exact ih h k hlt (by omega)

/-- One page of a segment is added to a table that does not have it. -/
theorem insertSegment_succ {index : Nat} {page : Page} (offset remaining count : Nat)
    (hpage : (segment.base.above index).result = .ok page) (hfree : table.get? page = none) :
    (table.insertSegment segment index offset remaining (count + 1)).result = (do
      let next ← Word.add offset (min remaining pageSize)
      insertSegment ⟨table.records.insert page
        (segment.recordAt offset (min remaining pageSize))⟩ segment (index + 1) next
          (remaining - min remaining pageSize) count).result := by
  have hspan : min remaining pageSize ≤ pageSize := Nat.min_le_right _ _
  have hinsert (record : PageRecord) :
      table.insert page record = .ok ⟨table.records.insert page record⟩ :=
    insert_eq_ok_iff.2 ⟨hfree, rfl⟩
  rw [insertSegment, Outcome.result_bind_of hpage]
  by_cases hpos : 0 < min remaining pageSize
  · simp only [if_pos hpos, insertFileBacked, Outcome.require_of_true hspan, Outcome.pure_bind,
      hinsert, Segment.recordAt]
  · simp only [if_neg hpos, insertZero, Outcome.pure_bind, hinsert, Segment.recordAt]

theorem insertSegment_cases {index offset remaining count : Nat} {res : Except Error Unit}
    (h : (table.insertSegment segment index offset remaining count).result = .ok (res, table'))
    (hremaining : remaining = segment.fileBytes - index * pageSize)
    (hoffset : 0 < remaining → offset = segment.offset + index * pageSize)
    (hfree : ∀ k, index ≤ k → k < index + count →
      table.get? ⟨segment.base.number + k⟩ = none) :
    res = .ok () ∧ ∀ q : Page, table'.get? q =
      if segment.base.number + index ≤ q.number ∧ q.number < segment.base.number + index + count
      then some (segment.record (q.number - segment.base.number)) else table.get? q := by
  induction count generalizing table index offset remaining with
  | zero =>
    cases h
    refine ⟨rfl, fun q => ?_⟩
    rw [if_neg (by omega)]
  | succ count ih =>
    obtain ⟨page, hpage, -⟩ := Outcome.bind_eq_ok_iff.1 h
    obtain ⟨-, rfl⟩ := Page.above_eq_ok_iff.1 hpage
    have habsent := hfree index (Nat.le_refl _) (by omega)
    -- the record names the span of the file that the loop has come to
    have hrecord : segment.recordAt offset (min remaining pageSize) = segment.record index := by
      rw [Segment.record, ← hremaining]
      by_cases hpos : 0 < min remaining pageSize
      · rw [hoffset (by omega)]
      · rw [Segment.recordAt, Segment.recordAt, if_neg hpos, if_neg hpos]
    rw [insertSegment_succ offset remaining count hpage habsent, hrecord] at h
    obtain ⟨_, hadd, h⟩ := Outcome.bind_eq_ok_iff.1 h
    obtain ⟨-, rfl⟩ := Word.add_eq_ok_iff.1 hadd
    have hleft : remaining - min remaining pageSize =
        segment.fileBytes - (index + 1) * pageSize := by
      simp only [pageSize] at *
      omega
    have hreached : 0 < remaining - min remaining pageSize →
        offset + min remaining pageSize = segment.offset + (index + 1) * pageSize := by
      intro hpos
      have := hoffset (by omega)
      simp only [pageSize] at *
      omega
    obtain ⟨hres, hget⟩ := ih h hleft hreached (by
      intro k hk hk'
      rw [get?_mk_insert, if_neg (by simp; omega)]
      exact hfree k (by omega) (by omega))
    refine ⟨hres, fun q => ?_⟩
    rw [hget q, get?_mk_insert]
    by_cases hq : q.number = segment.base.number + index
    · obtain rfl : q = ⟨segment.base.number + index⟩ := Page.ext hq
      simp
    · have hne : (⟨segment.base.number + index⟩ : Page) ≠ q := fun e => hq (e ▸ rfl)
      rw [if_neg hne]
      by_cases hin : segment.base.number + index ≤ q.number ∧
          q.number < segment.base.number + index + (count + 1)
      · rw [if_pos hin, if_pos (by omega)]
      · rw [if_neg hin, if_neg (by omega)]

/-- A segment is mapped as a whole, unless a page of it is taken. -/
theorem mapSegment_cases {res : Except Error Unit}
    (h : (table.mapSegment segment).result = .ok (res, table')) :
    res = .error .alreadyMapped ∧ table' = table ∨
      ∃ count, count * pageSize = segment.fileBytes + segment.zeroBytes ∧ res = .ok () ∧
        (∀ q r, segment.records count q = some r → table.get? q = none) ∧
        ∀ q, table'.get? q = (segment.records count q).or (table.get? q) := by
  simp only [mapSegment, Outcome.bind_eq_ok_iff] at h
  obtain ⟨count, hcount, taken, htaken, h⟩ := h
  simp only [Segment.pageCount, Outcome.bind_eq_ok_iff, Word.add_eq_ok_iff,
    Outcome.require_result_iff] at hcount
  obtain ⟨_, ⟨-, rfl⟩, _, hwhole, _, -, hcount⟩ := hcount
  cases hcount
  cases taken with
  | true =>
    cases h
    exact .inl ⟨rfl, rfl⟩
  | false =>
    have hfree := anyTaken_cases htaken rfl
    obtain ⟨rfl, hget⟩ := insertSegment_cases h (by simp) (by simp) hfree
    refine .inr ⟨_, Nat.div_mul_cancel (Nat.dvd_of_mod_eq_zero hwhole), rfl, ?_, ?_⟩
    · intro q r hq
      unfold Segment.records at hq
      split at hq
      · rename_i hin
        have := hfree (q.number - segment.base.number) (Nat.zero_le _) (by omega)
        rwa [Nat.add_sub_cancel' hin.1] at this
      · cases hq
    · intro q
      rw [hget q, Segment.records, Nat.add_zero]
      split
      · rw [Option.some_or]
      · rw [Option.none_or]

end PageTable

namespace Machine

variable {n : Nat} {m m' : Machine n} {process : Nat} {segment : Segment} {res : Except Error Unit}

theorem mapSegment_cases (h : (m.mapSegment process segment).result = .ok (res, m')) :
    (res = .error .alreadyMapped ∧ m.Added m' fun _ => none) ∨
      ∃ count, count * pageSize = segment.fileBytes + segment.zeroBytes ∧ res = .ok () ∧
        m.Added m' fun x => if process = x.process then segment.records count x.page else none := by
  simp only [mapSegment, Outcome.bind_eq_ok_iff, Prod.exists] at h
  obtain ⟨mapped, table, htable, h⟩ := h
  cases h
  rcases PageTable.mapSegment_cases htable with ⟨rfl, rfl⟩ | ⟨count, hcount, rfl, habsent, hget⟩
  · have hadded := m.added_setTable process (fun _ => none) nofun
      fun q => (Option.none_or).symm
    simp only [ite_self] at hadded
    exact .inl ⟨rfl, hadded⟩
  · exact .inr ⟨count, hcount, rfl, m.added_setTable process _ habsent hget⟩

end Machine

end DemandPaging
