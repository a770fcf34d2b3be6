/-
  Mapping a segment: whether it succeeds, fails or panics.

  The pages of a segment are looked up from the first one on, until one is found in the table or
  lies beyond the end of the address space; after that they are added one by one, while the
  offset in the file moves on.

  * `anyTaken_of_taken`, `anyTaken_of_free`, `anyTaken_of_beyond`: how the search ends;
  * `exists_insertSegment` and `end_lt_of_insertSegment`: pages that are free are all added,
    exactly if the offset stays a word;
  * `Segment.IsMalformed`, `Segment.Overlaps`, `Segment.Overruns`: what is wrong with a segment;
  * `mapSegment_allOrNothing`: what comes of each of the three, and that a segment that has none
    of them is mapped.
-/
import DemandPaging.Proofs.Run

namespace DemandPaging

/-! ## Pages of a segment -/

namespace Segment

/-- The number of pages of a segment of whole pages. -/
def pages (segment : Segment) : Nat :=
  (segment.fileBytes + segment.zeroBytes) / pageSize

/-- The `k`-th page of a segment. -/
def page (segment : Segment) (k : Nat) : Page :=
  ⟨segment.base.number + k⟩

/-- The address at which the `k`-th page of a segment starts. -/
def address (segment : Segment) (k : Nat) : Nat :=
  segment.base.base + k * pageSize

/-- A segment that can be mapped into no table: its size is no word, or it is not a whole number
    of pages, or it does not start at a page boundary of its file. -/
def IsMalformed (segment : Segment) : Prop :=
  wordLimit ≤ segment.fileBytes + segment.zeroBytes ∨
    (segment.fileBytes + segment.zeroBytes) % pageSize ≠ 0 ∨ segment.offset % pageSize ≠ 0

/-- A page of the segment is in the table; pages beyond the end of the address space do not
    count. -/
def Overlaps (segment : Segment) (table : PageTable) : Prop :=
  ∃ k, k < segment.pages ∧ segment.address k < wordLimit ∧ table.get? (segment.page k) ≠ none

/-- The pages of the segment go on beyond the end of the address space, or its bytes of the file
    beyond the largest offset. -/
def Overruns (segment : Segment) : Prop :=
  (∃ k, k < segment.pages ∧ wordLimit ≤ segment.address k) ∨
    wordLimit ≤ segment.offset + segment.fileBytes

variable {segment : Segment}

theorem pageCount_eq_ok_iff {count : Nat} :
    segment.pageCount.result = .ok count ↔ ¬segment.IsMalformed ∧ count = segment.pages := by
  simp only [pageCount, Outcome.bind_eq_ok_iff, Word.add_eq_ok_iff, Outcome.require_result_iff,
    Outcome.result_pure, Except.ok.injEq, IsMalformed, not_or, Nat.not_le, Decidable.not_not]
  constructor
  · rintro ⟨_, ⟨hword, rfl⟩, _, hwhole, _, haligned, hcount⟩
    exact ⟨⟨hword, hwhole, haligned⟩, hcount.symm⟩
  · rintro ⟨⟨hword, hwhole, haligned⟩, hcount⟩
    exact ⟨_, ⟨hword, rfl⟩, (), hwhole, (), haligned, hcount.symm⟩

theorem pages_mul (h : ¬segment.IsMalformed) :
    segment.pages * pageSize = segment.fileBytes + segment.zeroBytes := by
  simp only [IsMalformed, not_or, Decidable.not_not] at h
  exact Nat.div_mul_cancel (Nat.dvd_of_mod_eq_zero h.2.1)

theorem address_le {j k : Nat} (h : j ≤ k) : segment.address j ≤ segment.address k :=
  Nat.add_le_add_left (Nat.mul_le_mul_right _ h) _

theorem above_eq_ok_iff {k : Nat} {other : Page} :
    (segment.base.above k).result = .ok other ↔
      segment.address k < wordLimit ∧ other = segment.page k :=
  Page.above_eq_ok_iff

theorem not_completes_above {k : Nat} (h : wordLimit ≤ segment.address k) :
    ¬(segment.base.above k).Completes := by
  rintro ⟨other, hother⟩
  exact absurd (above_eq_ok_iff.1 hother).1 (Nat.not_lt.2 h)

end Segment

namespace PageTable

variable {table table' : PageTable} {segment : Segment} {index count offset remaining : Nat}

theorem contains_iff {page : Page} : table.contains page = true ↔ table.get? page ≠ none :=
  Option.isSome_iff_ne_none

/-! ## The search for a page that is taken -/

theorem anyTaken_succ (h : segment.address index < wordLimit) :
    (table.anyTaken segment.base index (count + 1)).result =
      if table.contains (segment.page index) then .ok true
      else (table.anyTaken segment.base (index + 1) count).result := by
  rw [anyTaken, Outcome.result_bind_of (Segment.above_eq_ok_iff.2 ⟨h, rfl⟩)]
  split <;> rfl

/-- A page that is taken is found, as all pages before it lie in the address space. -/
theorem anyTaken_of_taken {k : Nat} (hle : index ≤ k) (hlt : k < index + count)
    (haddress : segment.address k < wordLimit) (htaken : table.get? (segment.page k) ≠ none) :
    (table.anyTaken segment.base index count).result = .ok true := by
  induction count generalizing index with
  | zero => omega
  | succ count ih =>
    rw [anyTaken_succ (Nat.lt_of_le_of_lt (Segment.address_le hle) haddress)]
    split
    · rfl
    · rename_i hnot
      rcases Nat.eq_or_lt_of_le hle with rfl | hmore
      · exact absurd (contains_iff.2 htaken) hnot
      · exact ih hmore (by omega)

/-- If no page is taken, that is found out. -/
theorem anyTaken_of_free
    (haddress : ∀ k, index ≤ k → k < index + count → segment.address k < wordLimit)
    (hfree : ∀ k, index ≤ k → k < index + count → table.get? (segment.page k) = none) :
    (table.anyTaken segment.base index count).result = .ok false := by
  induction count generalizing index with
  | zero => rfl
  | succ count ih =>
    have hnot : ¬table.contains (segment.page index) = true := fun h =>
      contains_iff.1 h (hfree index (Nat.le_refl _) (by omega))
    rw [anyTaken_succ (haddress index (Nat.le_refl _) (by omega)), if_neg hnot]
    exact ih (fun k hk hk' => haddress k (by omega) (by omega))
      fun k hk hk' => hfree k (by omega) (by omega)

/-- The search panics when it comes to the end of the address space before it is done. -/
theorem anyTaken_of_beyond {k : Nat} (hle : index ≤ k) (hlt : k < index + count)
    (hbeyond : wordLimit ≤ segment.address k)
    (hfree : ∀ j, index ≤ j → j < index + count → segment.address j < wordLimit →
      table.get? (segment.page j) = none) :
    ¬(table.anyTaken segment.base index count).Completes := by
  induction count generalizing index with
  | zero => omega
  | succ count ih =>
    by_cases hindex : segment.address index < wordLimit
    · have hnot : ¬table.contains (segment.page index) = true := fun h =>
        contains_iff.1 h (hfree index (Nat.le_refl _) (by omega) hindex)
      have hmore : index < k := by
        rcases Nat.eq_or_lt_of_le hle with rfl | hmore
        · omega
        · exact hmore
      rw [Outcome.Completes, anyTaken_succ hindex, if_neg hnot]
      exact ih hmore (by omega) fun j hj hj' => hfree j (by omega) (by omega)
    · rintro ⟨taken, h⟩
      obtain ⟨page, hpage, -⟩ := Outcome.bind_eq_ok_iff.1 h
      exact Segment.not_completes_above (Nat.le_of_not_lt hindex) ⟨page, hpage⟩

/-! ## Adding the pages -/

/-- The pages behind the one that is added are still free. -/
theorem free_insert (record : PageRecord)
    (hfree : ∀ k, index ≤ k → k < index + (count + 1) → table.get? (segment.page k) = none)
    (k : Nat) (hle : index + 1 ≤ k) (hlt : k < index + 1 + count) :
    (PageTable.mk (table.records.insert (segment.page index) record)).get? (segment.page k) =
      none := by
  have hne : segment.page index ≠ segment.page k := by
    rw [Segment.page, Segment.page, ne_eq, Page.mk.injEq]
    omega
  rw [get?_mk_insert, if_neg hne]
  exact hfree k (by omega) (by omega)

/-- Pages that are free are added, as long as the offset stays a word. -/
theorem exists_insertSegment
    (haddress : ∀ k, index ≤ k → k < index + count → segment.address k < wordLimit)
    (hfree : ∀ k, index ≤ k → k < index + count → table.get? (segment.page k) = none)
    (hend : offset + remaining < wordLimit) :
    ∃ res table', (table.insertSegment segment index offset remaining count).result =
      .ok (res, table') := by
  induction count generalizing table index offset remaining with
  | zero => exact ⟨.ok (), table, rfl⟩
  | succ count ih =>
    have hpage := Segment.above_eq_ok_iff.2 ⟨haddress index (Nat.le_refl _) (by omega), rfl⟩
    have hstep := insertSegment_succ offset remaining count hpage
      (hfree index (Nat.le_refl _) (by omega))
    have hend' : offset + min remaining pageSize + (remaining - min remaining pageSize) <
        wordLimit := by omega
    obtain ⟨res, table', hrest⟩ := ih (fun k hk hk' => haddress k (by omega) (by omega))
      (free_insert _ hfree) hend'
    refine ⟨res, table', hstep.trans (Outcome.bind_eq_ok_iff.2 ⟨_, ?_, hrest⟩)⟩
    exact Word.add_eq_ok_iff.2 ⟨by omega, rfl⟩

/-- Adding the pages comes to an end only if the offset stays a word: it is moved on even after
    the last page. -/
theorem end_lt_of_insertSegment {res : Except Error Unit}
    (h : (table.insertSegment segment index offset remaining count).result = .ok (res, table'))
    (haddress : ∀ k, index ≤ k → k < index + count → segment.address k < wordLimit)
    (hfree : ∀ k, index ≤ k → k < index + count → table.get? (segment.page k) = none)
    (hpos : 0 < count) (hremaining : remaining ≤ count * pageSize) :
    offset + remaining < wordLimit := by
  induction count generalizing table index offset remaining with
  | zero => omega
  | succ count ih =>
    have hpage := Segment.above_eq_ok_iff.2 ⟨haddress index (Nat.le_refl _) (by omega), rfl⟩
    rw [insertSegment_succ offset remaining count hpage
      (hfree index (Nat.le_refl _) (by omega))] at h
    obtain ⟨_, hnext, hrest⟩ := Outcome.bind_eq_ok_iff.1 h
    obtain ⟨hlt, rfl⟩ := Word.add_eq_ok_iff.1 hnext
    rcases Nat.eq_zero_or_pos count with rfl | hmore
    · have hall : min remaining pageSize = remaining := Nat.min_eq_left (by omega)
      rwa [hall] at hlt
    · have hleft : remaining - min remaining pageSize ≤ count * pageSize := by
        rw [Nat.add_mul] at hremaining
        omega
      have := ih hrest (fun k hk hk' => haddress k (by omega) (by omega)) (free_insert _ hfree)
        hmore hleft
      omega

/-! ## Mapping a segment -/

theorem not_completes_of_isMalformed (h : segment.IsMalformed) :
    ¬(table.mapSegment segment).Completes := by
  rintro ⟨_, hmapped⟩
  obtain ⟨count, hcount, -⟩ := Outcome.bind_eq_ok_iff.1 hmapped
  exact (Segment.pageCount_eq_ok_iff.1 hcount).1 h

/-- A segment that is not malformed is mapped once its pages were looked up. -/
theorem mapSegment_eq (h : ¬segment.IsMalformed) {taken : Bool}
    (htaken : (table.anyTaken segment.base 0 segment.pages).result = .ok taken) :
    (table.mapSegment segment).result = if taken then .ok (.error .alreadyMapped, table)
      else (table.insertSegment segment 0 segment.offset segment.fileBytes segment.pages).result := by
  rw [mapSegment, Outcome.result_bind_of (Segment.pageCount_eq_ok_iff.2 ⟨h, rfl⟩),
    Outcome.result_bind_of htaken]
  split <;> rfl

theorem mapSegment_of_overlaps (h : ¬segment.IsMalformed) (hoverlaps : segment.Overlaps table) :
    (table.mapSegment segment).result = .ok (.error .alreadyMapped, table) := by
  obtain ⟨k, hk, haddress, htaken⟩ := hoverlaps
  have hfound : (table.anyTaken segment.base 0 segment.pages).result = .ok true :=
    anyTaken_of_taken (Nat.zero_le k) (by omega) haddress htaken
  rw [mapSegment_eq h hfound, if_pos rfl]

theorem anyTaken_of_disjoint (hoverlaps : ¬segment.Overlaps table)
    (haddress : ∀ k, k < segment.pages → segment.address k < wordLimit) :
    (∀ k, k < segment.pages → table.get? (segment.page k) = none) ∧
      (table.anyTaken segment.base 0 segment.pages).result = .ok false := by
  have hfree (k : Nat) (hk : k < segment.pages) : table.get? (segment.page k) = none :=
    Decidable.not_not.1 fun htaken => hoverlaps ⟨k, hk, haddress k hk, htaken⟩
  exact ⟨hfree, anyTaken_of_free (fun k _ hk => haddress k (by omega))
    fun k _ hk => hfree k (by omega)⟩

theorem not_completes_of_overruns (h : ¬segment.IsMalformed)
    (hoverlaps : ¬segment.Overlaps table) (hoverruns : segment.Overruns)
    (hoffset : segment.offset < wordLimit) : ¬(table.mapSegment segment).Completes := by
  rintro ⟨⟨res, table'⟩, hmapped⟩
  by_cases hbeyond : ∃ k, k < segment.pages ∧ wordLimit ≤ segment.address k
  · -- the search for a page that is taken panics
    obtain ⟨k, hk, hbeyond⟩ := hbeyond
    obtain ⟨count, hcount, hrest⟩ := Outcome.bind_eq_ok_iff.1 hmapped
    obtain ⟨-, rfl⟩ := Segment.pageCount_eq_ok_iff.1 hcount
    obtain ⟨taken, htaken, -⟩ := Outcome.bind_eq_ok_iff.1 hrest
    refine anyTaken_of_beyond (Nat.zero_le k) (by omega) hbeyond ?_ ⟨taken, htaken⟩
    exact fun j _ hj haddress => Decidable.not_not.1 fun htaken =>
      hoverlaps ⟨j, by omega, haddress, htaken⟩
  · -- the pages are free, and the offset passes the last word while they are added
    have hend : wordLimit ≤ segment.offset + segment.fileBytes := hoverruns.resolve_left hbeyond
    have haddress (k : Nat) (hk : k < segment.pages) : segment.address k < wordLimit :=
      Nat.lt_of_not_le fun hle => hbeyond ⟨k, hk, hle⟩
    obtain ⟨hfree, htaken⟩ := anyTaken_of_disjoint hoverlaps haddress
    have hsize := Segment.pages_mul h
    rw [mapSegment_eq h htaken, if_neg Bool.false_ne_true] at hmapped
    have hpos : 0 < segment.pages := Nat.pos_of_ne_zero fun hzero => by
      rw [hzero] at hsize
      omega
    exact Nat.not_lt.2 hend (end_lt_of_insertSegment hmapped (fun k _ hk => haddress k (by omega))
      (fun k _ hk => hfree k (by omega)) hpos (by omega))

theorem exists_mapSegment (h : ¬segment.IsMalformed) (hoverlaps : ¬segment.Overlaps table)
    (hoverruns : ¬segment.Overruns) :
    ∃ table', (table.mapSegment segment).result = .ok (.ok (), table') := by
  rw [Segment.Overruns, not_or] at hoverruns
  have haddress (k : Nat) (hk : k < segment.pages) : segment.address k < wordLimit :=
    Nat.lt_of_not_le fun hle => hoverruns.1 ⟨k, hk, hle⟩
  obtain ⟨hfree, htaken⟩ := anyTaken_of_disjoint hoverlaps haddress
  have hinsert : ∃ res table', (table.insertSegment segment 0 segment.offset segment.fileBytes
      segment.pages).result = .ok (res, table') :=
    exists_insertSegment (fun k _ hk => haddress k (by omega)) (fun k _ hk => hfree k (by omega))
      (Nat.lt_of_not_le hoverruns.2)
  obtain ⟨res, table', hinserted⟩ := hinsert
  obtain ⟨rfl, -⟩ := insertSegment_cases hinserted (by simp) (by simp)
    fun k _ hk => hfree k (by omega)
  exact ⟨table', by rw [mapSegment_eq h htaken, if_neg Bool.false_ne_true, hinserted]⟩

/-- Once all pages of a segment were found free, adding them fails for none. -/
theorem insertSegment_ne_error {e : Error}
    (htaken : (table.anyTaken segment.base 0 count).result = .ok false) :
    (table.insertSegment segment 0 segment.offset segment.fileBytes count).result ≠
      .ok (.error e, table') := by
  intro h
  obtain ⟨hres, -⟩ := insertSegment_cases h (by simp) (by simp) (anyTaken_cases htaken rfl)
  cases hres

end PageTable

namespace Machine

variable {n : Nat} {m m' : Machine n} {process : Nat} {segment : Segment}

/-- Two machines that differ in the table of a process at most. -/
structure SameButTable (m m' : Machine n) (process : Nat) : Prop where
  config_eq : m'.config = m.config
  memory_eq : m'.memory = m.memory
  swap_eq : m'.swap = m.swap
  frames_eq : m'.frames = m.frames
  stats_eq : m'.stats = m.stats
  pid_eq : ∀ p, (m'.space p).pid = (m.space p).pid
  directory_eq : ∀ p, (m'.space p).directory = (m.space p).directory
  table_eq : ∀ p, p ≠ process → (m'.space p).table = (m.space p).table

theorem sameButTable_setTable (m : Machine n) (process : Nat) (table : PageTable) :
    m.SameButTable (m.setTable process table) process := by
  refine ⟨rfl, rfl, rfl, rfl, rfl, fun p => ?_, fun p => ?_, fun p hp => ?_⟩
  · rw [space_setTable]
    split
    · rename_i hp; rw [← hp]
    · rfl
  · rw [space_setTable]
    split
    · rename_i hp; rw [← hp]
    · rfl
  · rw [space_setTable, if_neg (Ne.symm hp)]

theorem mapSegment_eq_ok_iff {res : Except Error Unit} :
    (m.mapSegment process segment).result = .ok (res, m') ↔
      ∃ table, ((m.space process).table.mapSegment segment).result = .ok (res, table) ∧
        m' = m.setTable process table := by
  simp only [mapSegment, Outcome.bind_eq_ok_iff, Outcome.result_pure, Except.ok.injEq, Prod.exists,
    Prod.mk.injEq]
  constructor
  · rintro ⟨_, table, htable, rfl, rfl⟩
    exact ⟨table, htable, rfl⟩
  · rintro ⟨table, htable, rfl⟩
    exact ⟨res, table, htable, rfl, rfl⟩

theorem completes_mapSegment_iff : (m.mapSegment process segment).Completes ↔
    ((m.space process).table.mapSegment segment).Completes := by
  constructor
  · rintro ⟨⟨res, m'⟩, h⟩
    obtain ⟨table, htable, -⟩ := mapSegment_eq_ok_iff.1 h
    exact ⟨_, htable⟩
  · rintro ⟨⟨res, table⟩, h⟩
    exact ⟨_, mapSegment_eq_ok_iff.2 ⟨table, h, rfl⟩⟩

/-- What comes of a request to map a segment, and that nothing is left mapped when it is turned
    down. -/
theorem mapSegment_allOrNothing (m : Machine n) (process : Nat) (segment : Segment)
    (hoffset : segment.offset < wordLimit) :
    (segment.IsMalformed → ∃ cause, (m.mapSegment process segment).result = .error cause) ∧
      (¬segment.IsMalformed → segment.Overlaps (m.space process).table →
        ∃ m', (m.mapSegment process segment).result = .ok (.error .alreadyMapped, m')) ∧
      (¬segment.IsMalformed → ¬segment.Overlaps (m.space process).table →
        ((∃ cause, (m.mapSegment process segment).result = .error cause) ↔ segment.Overruns) ∧
        (¬segment.Overruns → ∃ m', (m.mapSegment process segment).result = .ok (.ok (), m'))) ∧
      (∀ e m', (m.mapSegment process segment).result = .ok (.error e, m') →
        m.SameButTable m' process ∧ (m'.space process).table = (m.space process).table) ∧
      ∀ count table e, segment.pageCount.result = .ok count →
        ((m.space process).table.anyTaken segment.base 0 count).result = .ok false →
        ((m.space process).table.insertSegment segment 0 segment.offset segment.fileBytes
          count).result ≠ .ok (.error e, table) := by
  rw [← Outcome.Completes.not_iff, completes_mapSegment_iff]
  refine ⟨PageTable.not_completes_of_isMalformed, fun h hoverlaps => ?_,
    fun h hoverlaps => ⟨⟨fun hpanics => ?_, fun hoverruns => ?_⟩, fun hoverruns => ?_⟩,
    fun e m' hmapped => ?_, fun count table e _ htaken => ?_⟩
  · exact ⟨_, mapSegment_eq_ok_iff.2 ⟨_, PageTable.mapSegment_of_overlaps h hoverlaps, rfl⟩⟩
  · by_cases hoverruns : segment.Overruns
    · exact hoverruns
    · obtain ⟨table, htable⟩ := PageTable.exists_mapSegment h hoverlaps hoverruns
      exact absurd ⟨_, htable⟩ hpanics
  · exact PageTable.not_completes_of_overruns h hoverlaps hoverruns hoffset
  · obtain ⟨table, htable⟩ := PageTable.exists_mapSegment h hoverlaps hoverruns
    exact ⟨_, mapSegment_eq_ok_iff.2 ⟨table, htable, rfl⟩⟩
  · obtain ⟨table, htable, rfl⟩ := mapSegment_eq_ok_iff.1 hmapped
    refine ⟨m.sameButTable_setTable process table, ?_⟩
    rcases PageTable.mapSegment_cases htable with ⟨-, rfl⟩ | ⟨_, -, hres, -⟩
    · rw [space_setTable, if_pos rfl]
    · cases hres
  · exact PageTable.insertSegment_ne_error htaken

/-- Two pages are asked for where the address space has room for one: the machine stops, unless
    that one is taken. -/
theorem mapSegment_allOrNothing_lastPage : ∃ answers answers', ∃ m m' : Machine 1,
    Run {} 1 (.inMemory 1) [.spawn 0 {}] answers m ∧
    Run {} 1 (.inMemory 1) [.spawn 0 {},
      .mapSegment 0 ⟨#[], 0, ⟨4503599627370495⟩, 0, 4096, true⟩] answers' m' ∧
    0 < wordLimit ∧
    (∃ cause, (m.mapSegment 0 ⟨#[], 0, ⟨4503599627370495⟩, 0, 8192, true⟩).result =
      .error cause) ∧
    ∃ m'', (m'.mapSegment 0 ⟨#[], 0, ⟨4503599627370495⟩, 0, 8192, true⟩).result =
      .ok (.error .alreadyMapped, m'') := by
  obtain ⟨answers, m, h, hp⟩ := exists_run {} 1 (.inMemory 1) [.spawn 0 {}]
    (fun m => m.record? ⟨0, ⟨4503599627370495⟩⟩ = none) (by decide +kernel)
  obtain ⟨answers', m', h', hp'⟩ := exists_run {} 1 (.inMemory 1) [.spawn 0 {},
    .mapSegment 0 ⟨#[], 0, ⟨4503599627370495⟩, 0, 4096, true⟩]
    (fun m => m.record? ⟨0, ⟨4503599627370495⟩⟩ ≠ none) (by decide +kernel)
  have hwhole : ¬Segment.IsMalformed ⟨#[], 0, ⟨4503599627370495⟩, 0, 8192, true⟩ := by
    unfold Segment.IsMalformed
    decide
  have hbelow : ∀ k, k < 2 → Segment.address ⟨#[], 0, ⟨4503599627370495⟩, 0, 8192, true⟩ k <
      wordLimit → k = 0 := by decide
  have hfree : ¬Segment.Overlaps ⟨#[], 0, ⟨4503599627370495⟩, 0, 8192, true⟩
      (m.space 0).table := by
    rintro ⟨k, hk, haddress, htaken⟩
    cases hbelow k hk haddress
    exact htaken (of_decide_eq_true hp)
  refine ⟨answers, answers', m, m', h, h', by decide, ?_, ?_⟩
  · exact ((mapSegment_allOrNothing m 0 _ (by decide)).2.2.1 hwhole hfree).1.2
      (.inl ⟨1, by decide, by decide⟩)
  · exact (mapSegment_allOrNothing m' 0 _ (by decide)).2.1 hwhole
      ⟨0, by decide, by decide, of_decide_eq_true hp'⟩

end Machine

end DemandPaging
