/-
  Counting pages: the counts that a machine keeps are the numbers of pages.

  Pages are collected by what they occupy: `collect` lists the indices of the
  frames, or of the slots, that the tables name.  When no index is named twice,
  the list is as long as any other list of the same indices.

  * `inUse_eq_residentPages`: the frames in use are the pages in a frame;
  * `inUse_eq_swappedPages`: the slots in use are the pages in swap;
  * `mappedPages_eq_residentPages`: a directory maps the pages in a frame;
  * `total_count_update`: when the record of one page changes, the number of pages of a kind
    follows that page.
-/
import DemandPaging.Proofs.Soundness

namespace DemandPaging

/-- The number of pages that are in swap. -/
def PageTable.swappedPages (table : PageTable) : Nat :=
  table.records.count fun record =>
    match record.status with
    | .swapped _ => true
    | _ => false

namespace PageMap

variable {α β : Type}

theorem nodup_pages (m : PageMap α) (p : α → Bool) :
    ((m.toList.filter fun e => p e.2).map Prod.fst).Nodup := by
  refine List.Pairwise.map Prod.fst (fun a b h e => ?_) (m.sorted.filter _)
  rw [e] at h
  exact Nat.lt_irrefl _ h

theorem mem_pages {m : PageMap α} {p : α → Bool} {page : Page} :
    page ∈ (m.toList.filter fun e => p e.2).map Prod.fst ↔
      ∃ a, m.get? page = some a ∧ p a = true := by
  simp only [List.mem_map, List.mem_filter, Prod.exists, exists_and_right, exists_eq_right]
  simp only [mem_toList_iff]

/-- Maps with the same pages of a kind have the same number of them. -/
theorem count_congr {m : PageMap α} {k : PageMap β} {p : α → Bool} {q : β → Bool}
    (h : ∀ page, (∃ a, m.get? page = some a ∧ p a = true) ↔
      ∃ b, k.get? page = some b ∧ q b = true) : m.count p = k.count q := by
  have hmem : ∀ page, page ∈ (m.toList.filter fun e => p e.2).map Prod.fst ↔
      page ∈ (k.toList.filter fun e => q e.2).map Prod.fst := by
    intro page
    rw [mem_pages, mem_pages]
    exact h page
  have hlength :=
    ((List.perm_ext_iff_of_nodup (m.nodup_pages p) (k.nodup_pages q)).2 hmem).length_eq
  rwa [List.length_map, List.length_map, ← List.countP_eq_length_filter,
    ← List.countP_eq_length_filter] at hlength

end PageMap

namespace Machine

variable {n : Nat} {m : Machine n} {index : PageStatus → Option Nat}

/-! ## What the pages occupy -/

/-- The indices of what the pages occupy, when `index` tells it from where a page is. -/
def collect (m : Machine n) (index : PageStatus → Option Nat) : List Nat :=
  (List.range m.spaces.size).flatMap fun p =>
    (m.space p).table.records.toList.filterMap fun e => index e.2.status

theorem record?_of_size_le {o : Owner} (h : m.spaces.size ≤ o.process) : m.record? o = none := by
  have hnone : m.spaces.spaces[o.process]? = none := by simpa [AddressSpaces.size] using h
  simp [record?, space, AddressSpaces.get, hnone, AddressSpace.empty, PageTable.get?]

theorem mem_collect {i : Nat} : i ∈ m.collect index ↔
    ∃ o status, m.status? o = some status ∧ index status = some i := by
  simp only [collect, List.mem_flatMap, List.mem_range, List.mem_filterMap, Prod.exists,
    PageMap.mem_toList_iff]
  constructor
  · rintro ⟨p, -, page, record, hr, hi⟩
    exact ⟨⟨p, page⟩, record.status, status?_of_record hr, hi⟩
  · rintro ⟨o, status, hs, hi⟩
    obtain ⟨record, hr, rfl⟩ := status?_eq_some.1 hs
    refine ⟨o.process, ?_, o.page, record, hr, hi⟩
    rcases Nat.lt_or_ge o.process m.spaces.size with hlt | hge
    · exact hlt
    · rw [record?_of_size_le hge] at hr
      cases hr

/-- An index that is named once is listed once. -/
theorem nodup_collect (h : ∀ o x s t i, m.status? o = some s → m.status? x = some t →
    index s = some i → index t = some i → o = x) : (m.collect index).Nodup := by
  refine List.pairwise_flatMap.2 ⟨?_, ?_⟩
  · intro p _
    refine List.pairwise_filterMap.2 ((m.space p).table.records.sorted.imp_of_mem ?_)
    rintro ⟨page, record⟩ ⟨page', record'⟩ hmem hmem' hlt i hi j hj rfl
    have heq := h ⟨p, page⟩ ⟨p, page'⟩ _ _ i
      (status?_of_record (PageMap.mem_toList_iff.1 hmem))
      (status?_of_record (PageMap.mem_toList_iff.1 hmem')) hi hj
    cases heq
    exact Nat.lt_irrefl _ hlt
  · refine List.nodup_range.imp fun hne => ?_
    rintro i hi j hj rfl
    obtain ⟨⟨page, record⟩, hmem, hi⟩ := List.mem_filterMap.1 hi
    obtain ⟨⟨page', record'⟩, hmem', hj⟩ := List.mem_filterMap.1 hj
    have heq := h ⟨_, page⟩ ⟨_, page'⟩ _ _ i
      (status?_of_record (PageMap.mem_toList_iff.1 hmem))
      (status?_of_record (PageMap.mem_toList_iff.1 hmem')) hi hj
    cases heq
    exact hne rfl

/-- What the processes below `k` count together. -/
def totalBelow (m : Machine n) (count : AddressSpace → Nat) : (k : Nat) → Nat
  | 0 => 0
  | k + 1 => m.totalBelow count k + count (m.space k)

/-- What all processes count together. -/
def total (m : Machine n) (count : AddressSpace → Nat) : Nat :=
  m.totalBelow count m.spaces.size

theorem length_collect : (m.collect index).length = m.total fun space =>
    space.table.records.count fun record => (index record.status).isSome := by
  unfold collect total
  generalize m.spaces.size = k
  induction k with
  | zero => rfl
  | succ k ih =>
    rw [List.range_succ, List.flatMap_append, List.length_append, ih]
    show _ + (List.filterMap _ _ ++ []).length = _
    rw [List.append_nil, List.length_filterMap_eq_countP]
    rfl

end Machine

/-- The index of the frame that a page is in. -/
def PageStatus.frameIndex : PageStatus → Option Nat
  | .resident frame => some frame.index
  | _ => none

/-- The index of the slot that a page is in. -/
def PageStatus.slotIndex : PageStatus → Option Nat
  | .swapped slot => some slot.index
  | _ => none

theorem PageStatus.frameIndex_eq_some {status : PageStatus} {i : Nat} :
    status.frameIndex = some i ↔ status = .resident ⟨i⟩ := by
  cases status <;> simp [frameIndex, Frame.index_inj.symm]

theorem PageStatus.slotIndex_eq_some {status : PageStatus} {i : Nat} :
    status.slotIndex = some i ↔ status = .swapped ⟨i⟩ := by
  cases status with
  | swapped slot => cases slot; simp [slotIndex]
  | _ => simp [slotIndex]

/-- The count of a pool, frame by frame. -/
theorem Pool.Counted.inUse_eq {π : Type} {n : Nat} {pool : Pool π n} (hc : pool.Counted) :
    pool.inUse = ((List.range n).filter fun i => pool.isAllocated ⟨i⟩).length := by
  have hlist : pool.coreMap.toList.map CoreEntry.allocated =
      (List.range n).map fun i => pool.isAllocated ⟨i⟩ := by
    refine List.ext_getElem (by simp) fun i hi _ => ?_
    have hlt : i < n := by simpa using hi
    simp [isAllocated, hlt]
  have hcount := congrArg (List.countP id) hlist
  rw [List.countP_map, List.countP_map] at hcount
  rw [← List.countP_eq_length_filter]
  exact hc.trans hcount

namespace Machine

variable {n : Nat} {m : Machine n}

/-- The frames in use are as many as the pages in a frame. -/
theorem inUse_eq_residentPages (hl : m.Linked none) : m.frames.pool.inUse =
    m.total fun space => space.table.residentPages := by
  have hnodup : (m.collect PageStatus.frameIndex).Nodup := by
    refine nodup_collect fun o x s t i ho hx hs ht => ?_
    rw [PageStatus.frameIndex_eq_some] at hs ht
    exact hl.frame_inj (hs ▸ ho) (ht ▸ hx)
  have hmem : ∀ i, i ∈ (List.range n).filter (fun i => m.frames.pool.isAllocated ⟨i⟩) ↔
      i ∈ m.collect PageStatus.frameIndex := by
    intro i
    rw [List.mem_filter, List.mem_range, mem_collect]
    constructor
    · rintro ⟨-, hall⟩
      obtain ⟨o, ho⟩ := (hl.isAllocated_iff ⟨i⟩).1 hall
      exact ⟨o, _, ho, rfl⟩
    · rintro ⟨o, status, ho, hi⟩
      rw [PageStatus.frameIndex_eq_some.1 hi] at ho
      exact ⟨hl.lt ho, hl.allocated ho⟩
  have hperm := (List.perm_ext_iff_of_nodup (List.nodup_range.filter _) hnodup).2 hmem
  rw [hl.counted.inUse_eq, hperm.length_eq, length_collect]
  refine congrArg m.total (funext fun space => congrArg _ (funext fun record => ?_))
  cases record.status <;> rfl

/-- The slots in use are as many as the pages in swap. -/
theorem inUse_eq_swappedPages (hs : m.SlotsLinked) : m.swap.slots.inUse =
    m.total fun space => space.table.swappedPages := by
  have hnodup : (m.collect PageStatus.slotIndex).Nodup := by
    refine nodup_collect fun o x s t i ho hx hst ht => ?_
    rw [PageStatus.slotIndex_eq_some] at hst ht
    exact hs.unique ⟨i⟩ o x (hst ▸ ho) (ht ▸ hx)
  have hslots : (m.swap.slots.occupied.map Slot.index).Nodup := by
    refine List.Pairwise.map Slot.index (fun s t hne he => hne ?_) m.swap.slots.occupied_nodup
    cases s; cases t; simpa using he
  have hmem : ∀ i, i ∈ m.swap.slots.occupied.map Slot.index ↔
      i ∈ m.collect PageStatus.slotIndex := by
    intro i
    rw [List.mem_map, mem_collect]
    constructor
    · rintro ⟨slot, hslot, rfl⟩
      obtain ⟨o, ho⟩ := (hs.occupied_iff slot).1 (Slots.isOccupied_iff.2 hslot)
      exact ⟨o, _, ho, rfl⟩
    · rintro ⟨o, status, ho, hi⟩
      rw [PageStatus.slotIndex_eq_some.1 hi] at ho
      exact ⟨⟨i⟩, Slots.isOccupied_iff.1 ((hs.occupied_iff ⟨i⟩).2 ⟨o, ho⟩), rfl⟩
  have hperm := (List.perm_ext_iff_of_nodup hslots hnodup).2 hmem
  rw [Slots.inUse, ← List.length_map Slot.index, hperm.length_eq, length_collect]
  refine congrArg m.total (funext fun space => congrArg _ (funext fun record => ?_))
  cases record.status <;> rfl

/-- A directory maps as many pages as the table of its process has in a frame. -/
theorem mappedPages_eq_residentPages (hl : m.Linked none) (p : Nat) :
    (m.space p).directory.mappedPages = (m.space p).table.residentPages := by
  refine PageMap.count_congr fun page => ?_
  have hmapped : (∃ entry, (m.space p).directory.entries.get? page = some entry ∧
      entry.has .present = true) ↔ ∃ frame, m.translate ⟨p, page⟩ = some frame := by
    show _ ↔ ∃ frame, (m.space p).directory.translate page = some frame
    unfold Directory.translate
    cases (m.space p).directory.entries.get? page <;> simp
  rw [hmapped]
  constructor
  · rintro ⟨frame, htranslate⟩
    have hresident := (hl.translate_iff frame ⟨p, page⟩).1 htranslate
    obtain ⟨record, hr, hstatus⟩ := status?_eq_some.1 hresident
    exact ⟨record, hr, by rw [hstatus]; rfl⟩
  · rintro ⟨record, hr, hin⟩
    obtain ⟨frame, hstatus⟩ := PageStatus.exists_of_isResident hin
    refine ⟨frame, (hl.translate_iff frame ⟨p, page⟩).2 ?_⟩
    exact status?_eq_some.2 ⟨record, hr, hstatus⟩

/-! ## Pages of a kind -/

variable {m' : Machine n} {p : PageRecord → Bool} {o : Owner}

/-- The pages of which something is recorded that `p` holds of. -/
def pagesOf (m : Machine n) (p : PageRecord → Bool) : List Owner :=
  (List.range m.spaces.size).flatMap fun process =>
    ((m.space process).table.records.toList.filter fun e => p e.2).map fun e => ⟨process, e.1⟩

theorem mem_pagesOf : o ∈ m.pagesOf p ↔ (m.record? o).any p = true := by
  simp only [pagesOf, List.mem_flatMap, List.mem_range, List.mem_map, List.mem_filter,
    Prod.exists, Option.any_eq_true]
  constructor
  · rintro ⟨process, -, page, record, ⟨hmem, hp⟩, rfl⟩
    exact ⟨record, PageMap.mem_toList_iff.1 hmem, hp⟩
  · rintro ⟨record, hr, hp⟩
    refine ⟨o.process, ?_, o.page, record, ⟨PageMap.mem_toList_iff.2 hr, hp⟩, rfl⟩
    rcases Nat.lt_or_ge o.process m.spaces.size with hlt | hge
    · exact hlt
    · rw [record?_of_size_le hge] at hr
      cases hr

theorem nodup_pagesOf (m : Machine n) (p : PageRecord → Bool) : (m.pagesOf p).Nodup := by
  refine List.pairwise_flatMap.2 ⟨fun process _ => ?_, List.nodup_range.imp fun hne => ?_⟩
  · have hpages := List.pairwise_map.1 ((m.space process).table.records.nodup_pages p)
    exact List.pairwise_map.2 (hpages.imp fun hne heq => hne (Owner.eq_iff.1 heq).2)
  · rintro o ho x hx rfl
    obtain ⟨_, -, rfl⟩ := List.mem_map.1 ho
    obtain ⟨_, -, heq⟩ := List.mem_map.1 hx
    exact hne (Owner.eq_iff.1 heq).1.symm

theorem length_pagesOf :
    (m.pagesOf p).length = m.total fun space => space.table.records.count p := by
  unfold pagesOf total
  generalize m.spaces.size = k
  induction k with
  | zero => rfl
  | succ k ih =>
    rw [List.range_succ, List.flatMap_append, List.length_append, ih]
    show _ + (List.map _ _ ++ []).length = _
    rw [List.append_nil, List.length_map, ← List.countP_eq_length_filter]
    rfl

/-- As many pages are of the kind as before, as long as the same pages are. -/
theorem total_count_congr (h : ∀ x, (m'.record? x).any p = (m.record? x).any p) :
    (m'.total fun space => space.table.records.count p) =
      m.total fun space => space.table.records.count p := by
  have hmem : ∀ x, x ∈ m'.pagesOf p ↔ x ∈ m.pagesOf p := by
    intro x
    rw [mem_pagesOf, mem_pagesOf, h]
  rw [← length_pagesOf, ← length_pagesOf]
  exact ((List.perm_ext_iff_of_nodup (m'.nodup_pagesOf p) (m.nodup_pagesOf p)).2 hmem).length_eq

/-- When one page changes, the pages of the kind are one more, one less or as many, depending on
    what it was and what it is. -/
theorem total_count_update (h : ∀ x, o ≠ x → m'.record? x = m.record? x) :
    (m'.total fun space => space.table.records.count p) + ((m.record? o).any p).toNat =
      (m.total fun space => space.table.records.count p) + ((m'.record? o).any p).toNat := by
  have hlength : ∀ m : Machine n, (m.total fun space => space.table.records.count p) =
      ((m.pagesOf p).erase o).length + ((m.record? o).any p).toNat := by
    intro m
    rw [← length_pagesOf, List.length_erase]
    by_cases ho : o ∈ m.pagesOf p
    · have hpos := List.length_pos_of_mem ho
      rw [if_pos ho, mem_pagesOf.1 ho, Bool.toNat_true]
      omega
    · have hnot := ho
      rw [mem_pagesOf, Bool.not_eq_true] at hnot
      rw [if_neg ho, hnot, Bool.toNat_false, Nat.add_zero]
  have hmem : ∀ x, x ∈ (m'.pagesOf p).erase o ↔ x ∈ (m.pagesOf p).erase o := by
    intro x
    rw [(m'.nodup_pagesOf p).mem_erase_iff, (m.nodup_pagesOf p).mem_erase_iff, mem_pagesOf,
      mem_pagesOf]
    refine and_congr_right fun hx => ?_
    rw [h x (Ne.symm hx)]
  have hperm := (List.perm_ext_iff_of_nodup ((m'.nodup_pagesOf p).erase o)
    ((m.nodup_pagesOf p).erase o)).2 hmem
  rw [hlength m', hlength m, hperm.length_eq]
  omega

end Machine

end DemandPaging
