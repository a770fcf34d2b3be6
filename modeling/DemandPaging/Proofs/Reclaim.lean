/-
  Finding a frame for a page keeps the records in agreement.

  * `LosesFrame.linked`, `Evicted.sound`, `Restored.sound`: an eviction, whether it
    succeeds or not, leaves a sound machine, with the frame in hand if it does;
  * `Evicted.flat_eq`, `Restored.flat_eq`: no page holds other bytes afterwards.
-/
import DemandPaging.Proofs.Eviction

namespace DemandPaging.Machine

variable {n : Nat} {m m' : Machine n} {held : Option Frame} {frame g : Frame} {o x : Owner}
  {record after : PageRecord}

/-! ## The page that lost its frame -/

theorem LosesFrame.status?_eq (h : m.LosesFrame m' frame o after) (x : Owner) :
    m'.status? x = if o = x then some after.status else m.status? x := by
  rw [status?, h.record?_eq]
  split <;> rfl

theorem LosesFrame.linked (h : m.LosesFrame m' frame o after) (hl : m.Linked none)
    (ho : m.status? o = some (.resident frame)) (hafter : after.status.isResident = false) :
    m'.Linked (some frame) := by
  have hlt := hl.lt ho
  have hgone : ∀ g, after.status ≠ .resident g := fun g hg => by rw [hg] at hafter; cases hafter
  constructor
  · rw [h.pool_eq]; exact hl.counted
  · intro g hg
    have hne : frame ≠ g := fun e => hg (congrArg some e)
    rw [h.pool_eq, FrameTable.isTracked, h.owner?_eq hlt, if_neg hne]
    exact hl.isTracked_iff g
  · intro g x hg
    have hne : frame ≠ g := fun e => hg (congrArg some e)
    rw [h.owner?_eq hlt, if_neg hne, hl.owner?_iff g x, h.status?_eq]
    by_cases hx : o = x
    · subst hx
      simp [ho, hne, hgone g]
    · rw [if_neg hx]
  · rintro g ⟨⟩
    rw [h.pool_eq]; exact hl.allocated ho
  · rintro g x ⟨⟩ hx
    rw [h.status?_eq] at hx
    split at hx
    · exact hgone _ (Option.some.inj hx)
    · rename_i hne
      exact hne (hl.frame_inj ho hx)
  · intro g x
    rw [h.translate_eq, h.status?_eq]
    by_cases hx : o = x
    · simp [hx, hgone g]
    · rw [if_neg hx, if_neg hx]; exact hl.translate_iff g x
  · intro x r g hr hs
    rw [h.record?_eq] at hr
    split at hr
    · cases hr; exact absurd hs (hgone g)
    · rw [h.flag_eq x .writable (by decide)]
      exact hl.writable_eq x r g hr hs

/-! ## A page that was dropped -/

theorem LosesFrame.discarded_slots (h : m.LosesFrame m' frame o after) (hs : m.SlotsLinked)
    (hswap : m'.swap = m.swap) (ho : m.status? o = some (.resident frame))
    (hafter : ∀ slot, after.status ≠ .swapped slot) : m'.SlotsLinked := by
  have hsame : ∀ x slot,
      m'.status? x = some (.swapped slot) ↔ m.status? x = some (.swapped slot) := by
    intro x slot
    rw [h.status?_eq]
    by_cases hx : o = x
    · subst hx; simp [ho, hafter slot]
    · rw [if_neg hx]
  exact hs.of_same (by rw [hswap]) hsame

theorem LosesFrame.files (h : m.LosesFrame m' frame o after) (hf : m.FilesKept)
    (hr : m.record? o = some record) (hafter : after.status.isResident = false)
    (horigin : after.origin = record.origin) (hzero : after.status ≠ .zero)
    (hbacked : ∀ span, after.status = .fileBacked span →
      ∃ origin, record.origin = some origin ∧ span = origin.span ∧ after.dirty = false)
    (hswapped : ∀ slot, after.status = .swapped slot → record.origin.isSome = true →
      after.dirty = true) : m'.FilesKept := by
  constructor
  · intro x r hx hs
    rw [h.record?_eq] at hx
    split at hx
    · cases hx; exact absurd hs hzero
    · exact hf.zero x r hx hs
  · intro x r span hx hs
    rw [h.record?_eq] at hx
    split at hx
    · cases hx; rw [horigin]; exact hbacked span hs
    · exact hf.backed x r span hx hs
  · intro x r slot origin hx hs ho
    rw [h.record?_eq] at hx
    split at hx
    · cases hx; exact hswapped slot hs (by rw [← horigin, ho]; rfl)
    · exact hf.swapped x r slot origin hx hs ho
  · intro x r g origin hx hs ho hd hflag
    rw [h.record?_eq] at hx
    rw [h.flag_eq x .dirty (by decide)] at hflag
    split at hx
    · cases hx; rw [hs] at hafter; cases hafter
    · rw [h.memory_eq]; exact hf.clean x r g origin hx hs ho hd hflag
  · intro x r origin hx ho
    rw [h.record?_eq] at hx
    split at hx
    · cases hx; exact hf.span_le o record origin hr (by rw [← horigin, ho])
    · exact hf.span_le x r origin hx ho

/-! ## A page that went to swap -/

/-- What reserving a slot for a page and writing it there does to the swap space. -/
theorem swapOut_cases {swap swap₁ swap₂ : SwapSpace} {slot : Slot} {contents : Contents}
    (hslot : swap.allocate.result = .ok (.ok slot, swap₁))
    (hwrite : (swap₁.write slot contents).result = .ok swap₂) :
    swap.slots.isOccupied slot = false ∧
      (∀ s, swap₂.slots.isOccupied s = true ↔ slot = s ∨ swap.slots.isOccupied s = true) ∧
      ∀ s, swap₂.page s = if slot = s then contents else swap.page s := by
  obtain ⟨slots, hslots, rfl⟩ := SwapSpace.allocate_cases hslot
  obtain ⟨-, hsame, hpage, -⟩ := SwapSpace.write_cases hwrite
  rcases Slots.allocate_cases hslots with ⟨hno, -⟩ | ⟨slot', hok, hfree, hocc⟩
  · cases hno
  · cases hok
    refine ⟨hfree, fun s => ?_, hpage⟩
    rw [hsame, Slots.isOccupied_iff, hocc, List.mem_cons, Slots.isOccupied_iff, eq_comm]

theorem sound_of_swapOut {swap swap₁ swap₂ : SwapSpace} {slot : Slot} {contents : Contents}
    (hs : swap.slots.Sound) (hslot : swap.allocate.result = .ok (.ok slot, swap₁))
    (hwrite : (swap₁.write slot contents).result = .ok swap₂) : swap₂.slots.Sound := by
  obtain ⟨slots, hslots, rfl⟩ := SwapSpace.allocate_cases hslot
  obtain ⟨-, hsame, -⟩ := SwapSpace.write_cases hwrite
  rw [hsame]
  exact hs.allocate hslots

theorem LosesFrame.swapped_slots (h : m.LosesFrame m' frame o after) (hs : m.SlotsLinked)
    {slot : Slot} {swap : SwapSpace} {contents : Contents}
    (hslot : m.swap.allocate.result = .ok (.ok slot, swap))
    (hwrite : (swap.write slot contents).result = .ok m'.swap)
    (ho : m.status? o = some (.resident frame)) (hafter : after.status = .swapped slot) :
    m'.SlotsLinked := by
  obtain ⟨hfree, hocc, -⟩ := swapOut_cases hslot hwrite
  have hfresh : ∀ x, m.status? x ≠ some (.swapped slot) := by
    intro x hx
    rw [(hs.occupied_iff slot).2 ⟨x, hx⟩] at hfree
    cases hfree
  have hstatus : ∀ x s, m'.status? x = some (.swapped s) ↔
      o = x ∧ slot = s ∨ m.status? x = some (.swapped s) := by
    intro x s
    rw [h.status?_eq]
    by_cases hx : o = x
    · subst hx; simp [ho, hafter]
    · simp [hx]
  constructor
  · exact sound_of_swapOut hs.sound hslot hwrite
  · intro s
    simp only [hocc, hstatus, hs.occupied_iff s]
    constructor
    · rintro (rfl | ⟨x, hx⟩)
      · exact ⟨o, .inl ⟨rfl, rfl⟩⟩
      · exact ⟨x, .inr hx⟩
    · rintro ⟨x, ⟨-, rfl⟩ | hx⟩
      · exact .inl rfl
      · exact .inr ⟨x, hx⟩
  · intro s x y hx hy
    rcases (hstatus x s).1 hx with ⟨rfl, rfl⟩ | hx
    · rcases (hstatus y slot).1 hy with ⟨rfl, -⟩ | hy
      · rfl
      · exact absurd hy (hfresh y)
    · rcases (hstatus y s).1 hy with ⟨-, rfl⟩ | hy
      · exact absurd hx (hfresh x)
      · exact hs.unique s x y hx hy

/-! ## Evictions -/

theorem Evicted.sound (h : m.Evicted m' frame o record) (hs : m.Sound none)
    (hr : m.record? o = some record) (hstatus : record.status = .resident frame) :
    m'.Sound (some frame) := by
  have ho : m.status? o = some (.resident frame) := hstatus ▸ status?_of_record hr
  cases h with
  | discarded origin horigin hclean hloses hswap _ =>
    rw [Bool.or_eq_false_iff] at hclean
    refine ⟨hloses.linked hs.linked ho rfl, hloses.discarded_slots hs.slots hswap ho (by simp),
      hloses.files hs.files hr rfl rfl (by simp) ?_ (by simp)⟩
    rintro span ⟨⟩
    exact ⟨origin, horigin, rfl, hclean.2⟩
  | swapped slot swap hdirty hslot hwrite hloses _ =>
    refine ⟨hloses.linked hs.linked ho rfl, hloses.swapped_slots hs.slots hslot hwrite ho rfl,
      hloses.files hs.files hr rfl rfl (by simp) (by simp) ?_⟩
    rintro s - hsome
    have := hdirty hsome
    rwa [Bool.or_comm] at this

/-- An eviction changes the place of a page, not what it holds. -/
theorem Evicted.flat_eq (h : m.Evicted m' frame o record) (hs : m.Sound none)
    (hr : m.record? o = some record) (hstatus : record.status = .resident frame) :
    m'.flat = m.flat := by
  funext x
  cases h with
  | discarded origin horigin hclean hloses hswap _ =>
    rw [flat, flat, hloses.record?_eq]
    rw [Bool.or_eq_false_iff] at hclean
    by_cases hx : o = x
    · subst hx
      have hholds := hs.files.clean o record frame origin hr hstatus horigin hclean.2 hclean.1
      simp [hr, contentsOf, hstatus, horigin, hholds.2]
    · rw [if_neg hx, contentsOf_eq hloses.memory_eq fun s => by rw [hswap]]
  | swapped slot swap hdirty hslot hwrite hloses _ =>
    obtain ⟨hfree, -, hpage⟩ := swapOut_cases hslot hwrite
    rw [flat, flat, hloses.record?_eq]
    by_cases hx : o = x
    · subst hx
      simp [hr, contentsOf, hstatus, hpage]
    · rw [if_neg hx]
      cases hrx : m.record? x with
      | none => rfl
      | some r =>
        -- another page may be in swap, but not in the slot just reserved
        refine congrArg some (contentsOf_congr (fun _ _ => by rw [hloses.memory_eq]) ?_)
        intro s hs'
        rw [hpage, if_neg]
        rintro rfl
        have := (hs.slots.occupied_iff slot).2 ⟨x, hs' ▸ status?_of_record hrx⟩
        rw [hfree] at this
        cases this

theorem Restored.record?_eq (h : m.Restored m' frame o record) (x : Owner) :
    m'.record? x = m.record? x := by
  simp [record?, h.table_eq]

theorem Restored.status?_eq (h : m.Restored m' frame o record) (x : Owner) :
    m'.status? x = m.status? x := by
  simp [status?, h.record?_eq]

/-- The mapping that was made anew is the one that was there before, apart from the accessed
    bit, and the dirty bit stays if it was set. -/
theorem Restored.sound (h : m.Restored m' frame o record) (hs : m.Sound held)
    (hr : m.record? o = some record) (hstatus : record.status = .resident frame) :
    m'.Sound held := by
  have ho : m.status? o = some (.resident frame) := hstatus ▸ status?_of_record hr
  constructor
  · refine hs.linked.of_same (by rw [h.frames_eq]; exact hs.linked.counted)
      (fun g => by rw [h.frames_eq]) (fun g _ => by rw [h.frames_eq])
      (fun x g => by rw [h.status?_eq]) ?_ ?_
    · intro x
      rw [h.translate_eq]
      split
      · rename_i hx
        rw [← hx, (hs.linked.translate_iff frame o).2 ho]
      · rfl
    · intro x r g hx hs'
      rw [h.record?_eq] at hx
      rw [h.writable_eq]
      split
      · rename_i hox
        rw [← hox, hr] at hx
        rw [Option.some.inj hx]
      · exact hs.linked.writable_eq x r g hx hs'
  · exact hs.slots.of_same (by rw [h.swap_eq]) fun x s => by rw [h.status?_eq]
  · refine hs.files.of_same h.record?_eq ?_
    intro x r g _ _ hflag
    refine ⟨?_, by rw [h.memory_eq]⟩
    rw [h.dirty_eq] at hflag
    split at hflag
    · rename_i hox
      rw [← hox]
      exact (Bool.or_eq_false_iff.1 hflag).1
    · exact hflag

theorem Restored.flat_eq (h : m.Restored m' frame o record) : m'.flat = m.flat :=
  flat_congr h.record?_eq h.memory_eq fun slot => by rw [h.swap_eq]

end DemandPaging.Machine
