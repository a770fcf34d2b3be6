/-
  The frame in hand: getting one for a page, and giving it back.

  * `allocate_cases`: a frame comes from the pool or from another page
    (`Obtained`) and then belongs to the page it was asked for (`Claimed`);
  * `SameButHeld` relates machines that differ in the frame in hand alone, and
    `SameButHeld.sound`, `SameButHeld.flat_eq` say that no page notices;
  * `Freed.sound`: giving the frame back leaves a sound machine.
-/
import DemandPaging.Proofs.Reclaim

namespace DemandPaging.Machine

variable {n : Nat} {m m' m₁ : Machine n} {held : Option Frame} {frame g : Frame} {o x : Owner}
  {record : PageRecord}

/-! ## Getting a frame -/

/-- How a frame was got for a page: it was free, or another page had to leave it, or no
    page could. -/
inductive Obtained (m m' : Machine n) : Except Error Frame → Prop where
  | free (frame : Frame) (pool : Pool NextFit n)
      (halloc : m.frames.pool.alloc.result = .ok (some frame, pool))
      (hm' : m' = { m with frames := { m.frames with pool := pool } }) : Obtained m m' (.ok frame)
  | evicted (swept : Machine n) (frame : Frame) (o : Owner) (record : PageRecord)
      (hfull : m.frames.alloc.result = .ok (none, m.frames))
      (hpick : m.pickVictim = (some frame, swept)) (howner : swept.frames.owner? frame = some o)
      (hrecord : swept.record? o = some record) (hstatus : record.status = .resident frame)
      (hevicted : swept.Evicted m' frame o record) : Obtained m m' (.ok frame)
  | exhausted (swept : Machine n) (frame : Frame) (o : Owner) (record : PageRecord)
      (hfull : m.frames.alloc.result = .ok (none, m.frames))
      (hpick : m.pickVictim = (some frame, swept)) (howner : swept.frames.owner? frame = some o)
      (hrecord : swept.record? o = some record) (hstatus : record.status = .resident frame)
      (hrestored : swept.Restored m' frame o record) : Obtained m m' (.error .swapExhausted)

theorem Obtained.eq_exhausted {e : Error} (h : m.Obtained m' (.error e)) : e = .swapExhausted := by
  cases h
  rfl

theorem evict_cases {res : Except Error Frame} (h : m.evict.result = .ok (res, m')) :
    ∃ swept frame o record, m.pickVictim = (some frame, swept) ∧
      swept.frames.owner? frame = some o ∧ swept.record? o = some record ∧
      record.status = .resident frame ∧ (res = .ok frame ∧ swept.Evicted m' frame o record ∨
        res = .error .swapExhausted ∧ swept.Restored m' frame o record) := by
  unfold evict at h
  split at h
  · cases h
  · rename_i frame swept hpick
    simp only [Outcome.bind_eq_ok_iff, Outcome.result_pure, Except.ok.injEq, Prod.exists,
      Prod.mk.injEq] at h
    obtain ⟨taken, _, htaken, rfl, rfl⟩ := h
    obtain ⟨o, record, howner, hrecord, hstatus, ⟨rfl, hevicted⟩ | ⟨rfl, hrestored⟩⟩ :=
      takeFrame_cases htaken
    · exact ⟨swept, frame, o, record, hpick, howner, hrecord, hstatus, .inl ⟨rfl, hevicted⟩⟩
    · exact ⟨swept, frame, o, record, hpick, howner, hrecord, hstatus, .inr ⟨rfl, hrestored⟩⟩

theorem obtainFrame_cases {res : Except Error Frame}
    (h : m.obtainFrame.result = .ok (res, m')) : m.Obtained m' res := by
  simp only [obtainFrame, Outcome.bind_eq_ok_iff, Prod.exists] at h
  obtain ⟨free, frames, halloc, h⟩ := h
  cases free with
  | some frame =>
    simp only [Outcome.result_pure, Except.ok.injEq, Prod.mk.injEq] at h
    obtain ⟨rfl, rfl⟩ := h
    obtain ⟨pool, hpool, rfl⟩ := FrameTable.alloc_cases halloc
    exact .free frame pool hpool rfl
  | none =>
    obtain rfl := FrameTable.alloc_none halloc
    obtain ⟨swept, frame, o, record, hpick, howner, hrecord, hstatus, ⟨rfl, hevicted⟩ |
      ⟨rfl, hrestored⟩⟩ := evict_cases h
    · exact .evicted swept frame o record halloc hpick howner hrecord hstatus hevicted
    · exact .exhausted swept frame o record halloc hpick howner hrecord hstatus hrestored

/-- What is left in hand: the frame that was got, if any. -/
def heldBy : Except Error Frame → Option Frame
  | .ok frame => some frame
  | .error _ => none

theorem Linked.alloc (hl : m.Linked none) {pool : Pool NextFit n}
    (halloc : m.frames.pool.alloc.result = .ok (some frame, pool)) :
    Linked { m with frames := { m.frames with pool := pool } } (some frame) := by
  rcases Pool.alloc_cases halloc with ⟨hno, -⟩ | ⟨frame', hsome, hlt, hfree, hmap, -⟩
  · cases hno
  cases hsome
  have hallocated : ∀ g, pool.isAllocated g = if frame = g then true
      else m.frames.pool.isAllocated g := by
    intro g
    rw [Pool.isAllocated_congr hmap, Pool.isAllocated_setEntry _ hlt]
  constructor
  · exact Pool.Counted.alloc hl.counted halloc
  · intro g hg
    have hne : frame ≠ g := fun e => hg (congrArg some e)
    show pool.isAllocated g = true ↔ m.frames.isTracked g = true
    rw [hallocated, if_neg hne]
    exact hl.isTracked_iff g
  · exact fun g x _ => hl.owner?_iff g x
  · rintro g ⟨⟩
    show pool.isAllocated frame = true
    rw [hallocated, if_pos rfl]
  · rintro g x ⟨⟩ hx
    have := hl.allocated hx
    rw [hfree] at this
    cases this
  · exact hl.translate_iff
  · exact hl.writable_eq

/-- A frame that is handed out held no page. -/
theorem Linked.owner?_of_alloc (hl : m.Linked none) {pool : Pool NextFit n}
    (halloc : m.frames.pool.alloc.result = .ok (some frame, pool)) :
    m.frames.owner? frame = none := by
  rcases Pool.alloc_cases halloc with ⟨hno, -⟩ | ⟨frame', hsome, -, hfree, -, -⟩
  · cases hno
  cases hsome
  have htracked : ¬m.frames.isTracked frame = true := by
    rw [← hl.isTracked_iff, hfree]
    decide
  rwa [FrameTable.isTracked, Option.not_isSome_iff_eq_none] at htracked

theorem Obtained.sound {res : Except Error Frame} (h : m.Obtained m' res) (hs : m.Sound none) :
    m'.Sound (heldBy res) := by
  cases h with
  | free frame pool halloc hm' =>
    subst hm'
    exact ⟨hs.linked.alloc halloc, ⟨hs.slots.sound, hs.slots.occupied_iff, hs.slots.unique⟩,
      ⟨hs.files.zero, hs.files.backed, hs.files.swapped, hs.files.clean, hs.files.span_le⟩⟩
  | evicted swept frame o record _ hpick _ hrecord hstatus hevicted =>
    exact hevicted.sound ((pickVictim_cases hpick).1.sound hs) hrecord hstatus
  | exhausted swept frame o record _ hpick _ hrecord hstatus hrestored =>
    exact hrestored.sound ((pickVictim_cases hpick).1.sound hs) hrecord hstatus

theorem Obtained.flat_eq {res : Except Error Frame} (h : m.Obtained m' res) (hs : m.Sound none) :
    m'.flat = m.flat := by
  cases h with
  | free frame pool halloc hm' => subst hm'; rfl
  | evicted swept frame o record _ hpick _ hrecord hstatus hevicted =>
    have hswept := (pickVictim_cases hpick).1
    rw [hevicted.flat_eq (hswept.sound hs) hrecord hstatus, hswept.flat_eq]
  | exhausted swept frame o record _ hpick _ hrecord hstatus hrestored =>
    rw [hrestored.flat_eq, (pickVictim_cases hpick).1.flat_eq]

/-- Getting a frame leaves the record of a page alone that is in none. -/
theorem Obtained.record?_eq {res : Except Error Frame} (h : m.Obtained m' res)
    (hx : ∀ frame, m.status? x ≠ some (.resident frame)) : m'.record? x = m.record? x := by
  cases h with
  | free frame pool halloc hm' => subst hm'; rfl
  | evicted swept frame o record _ hpick _ hrecord hstatus hevicted =>
    have hswept := (pickVictim_cases hpick).1
    have hne : o ≠ x := by
      rintro rfl
      refine hx frame ?_
      rw [← hswept.status?_eq, status?_of_record hrecord, hstatus]
    rw [← hswept.record?_eq]
    cases hevicted with
    | discarded _ _ _ hloses => rw [hloses.record?_eq, if_neg hne]
    | swapped _ _ _ _ _ hloses => rw [hloses.record?_eq, if_neg hne]
  | exhausted swept frame o record _ hpick _ hrecord hstatus hrestored =>
    rw [hrestored.record?_eq, (pickVictim_cases hpick).1.record?_eq]

theorem Obtained.record?_of_out {res : Except Error Frame} (h : m.Obtained m' res)
    (hr : m.record? x = some record) (hout : record.status.isResident = false) :
    m'.record? x = some record := by
  rw [h.record?_eq (status?_ne_resident hr hout), hr]

theorem Obtained.record?_of_none {res : Except Error Frame} (h : m.Obtained m' res)
    (hr : m.record? x = none) : m'.record? x = none := by
  rw [h.record?_eq fun g => by rw [status?_eq_none hr]; exact nofun, hr]

/-! ## Machines that differ in the frame in hand -/

/-- Machines that differ in what is known of one frame, in its contents and in the counts of
    the swap device alone. -/
structure SameButHeld (m m' : Machine n) (frame : Frame) : Prop where
  config_eq : m'.config = m.config
  stats_eq : m'.stats = m.stats
  spaces_eq : m'.spaces = m.spaces
  slots_eq : m'.swap.slots = m.swap.slots
  page_eq : ∀ slot, m'.swap.page slot = m.swap.page slot
  device_same : m.swap.device.SameAs m'.swap.device
  hand_eq : m'.frames.hand = m.frames.hand
  counted : m.frames.pool.Counted → m'.frames.pool.Counted
  isAllocated_eq : ∀ g, m'.frames.pool.isAllocated g = m.frames.pool.isAllocated g
  hasPin_eq : ∀ g, frame ≠ g → m'.frames.pool.hasPin g = m.frames.pool.hasPin g
  owner?_eq : ∀ g, frame ≠ g → m'.frames.owner? g = m.frames.owner? g
  contents_eq : ∀ g, frame ≠ g → m'.memory.contents g = m.memory.contents g

namespace SameButHeld

theorem record?_eq (h : m.SameButHeld m' frame) (x : Owner) : m'.record? x = m.record? x := by
  rw [record?, space, h.spaces_eq]; rfl

theorem status?_eq (h : m.SameButHeld m' frame) (x : Owner) : m'.status? x = m.status? x := by
  rw [status?, status?, h.record?_eq]

theorem translate_eq (h : m.SameButHeld m' frame) (x : Owner) :
    m'.translate x = m.translate x := by
  rw [translate, space, h.spaces_eq]; rfl

theorem flag_eq (h : m.SameButHeld m' frame) (x : Owner) (fl : Flag) :
    m'.flag x fl = m.flag x fl := by
  rw [flag, space, h.spaces_eq]; rfl

theorem trans (h : m.SameButHeld m₁ frame) (h' : m₁.SameButHeld m' frame) :
    m.SameButHeld m' frame where
  config_eq := h'.config_eq.trans h.config_eq
  stats_eq := h'.stats_eq.trans h.stats_eq
  spaces_eq := h'.spaces_eq.trans h.spaces_eq
  slots_eq := h'.slots_eq.trans h.slots_eq
  page_eq slot := (h'.page_eq slot).trans (h.page_eq slot)
  device_same := h.device_same.trans h'.device_same
  hand_eq := h'.hand_eq.trans h.hand_eq
  counted := h'.counted ∘ h.counted
  isAllocated_eq g := (h'.isAllocated_eq g).trans (h.isAllocated_eq g)
  hasPin_eq g hg := (h'.hasPin_eq g hg).trans (h.hasPin_eq g hg)
  owner?_eq g hg := (h'.owner?_eq g hg).trans (h.owner?_eq g hg)
  contents_eq g hg := (h'.contents_eq g hg).trans (h.contents_eq g hg)

theorem sound (h : m.SameButHeld m' frame) (hs : m.Sound (some frame)) :
    m'.Sound (some frame) := by
  constructor
  · refine hs.linked.of_same (h.counted hs.linked.counted) h.isAllocated_eq ?_
      (fun x g => by rw [h.status?_eq]) h.translate_eq ?_
    · intro g hg
      exact h.owner?_eq g fun e => hg (congrArg some e)
    · intro x r g hr hst
      rw [h.record?_eq] at hr
      rw [h.flag_eq]
      exact hs.linked.writable_eq x r g hr hst
  · exact hs.slots.of_same h.slots_eq fun x s => by rw [h.status?_eq]
  · refine hs.files.of_same h.record?_eq ?_
    intro x r g hr hst hdirty
    rw [h.flag_eq] at hdirty
    refine ⟨hdirty, h.contents_eq g ?_⟩
    rintro rfl
    exact hs.linked.held_absent frame x rfl (hst ▸ status?_of_record hr)

theorem contentsOf_eq (h : m.SameButHeld m' frame) (hs : m.Linked (some frame))
    (hr : m.record? x = some record) : m'.contentsOf record = m.contentsOf record := by
  refine contentsOf_congr (fun g hg => h.contents_eq g ?_) (fun s _ => h.page_eq s)
  rintro rfl
  exact hs.held_absent frame x rfl (hg ▸ status?_of_record hr)

theorem flat_eq (h : m.SameButHeld m' frame) (hs : m.Linked (some frame)) : m'.flat = m.flat := by
  funext x
  rw [flat, flat, h.record?_eq]
  cases hr : m.record? x with
  | none => rfl
  | some r => exact congrArg some (h.contentsOf_eq hs hr)

end SameButHeld

/-! ## Claiming the frame for a page -/

/-- The frame in hand was pinned and tracked for a page, and filled with zeros if asked
    for. -/
structure Claimed (m m' : Machine n) (frame : Frame) (o : Owner) (zero : Bool) : Prop where
  same : m.SameButHeld m' frame
  swap_eq : m'.swap = m.swap
  lt : frame.index < n
  owner?_self : m'.frames.owner? frame = some o
  pinned : m'.frames.pool.hasPin frame = true
  contents_self : m'.memory.contents frame = if zero then .zero else m.memory.contents frame

theorem allocate_cases {process : Nat} {page : Page} {zero : Bool} {res : Except Error Frame}
    (h : (m.allocate process page zero).result = .ok (res, m')) :
    (∃ e, res = .error e ∧ m.Obtained m' (.error e)) ∨
      ∃ frame m₁, res = .ok frame ∧ m.obtainFrame.result = .ok (.ok frame, m₁) ∧
        m₁.Claimed m' frame ⟨process, page⟩ zero := by
  simp only [allocate, Outcome.bind_eq_ok_iff, Prod.exists] at h
  obtain ⟨obtained, m₁, hobtained, h⟩ := h
  have hcases := obtainFrame_cases hobtained
  cases obtained with
  | error e =>
    simp only [Outcome.result_pure, Except.ok.injEq, Prod.mk.injEq] at h
    obtain ⟨rfl, rfl⟩ := h
    exact .inl ⟨e, rfl, hcases⟩
  | ok frame =>
    simp only [Outcome.bind_eq_ok_iff] at h
    obtain ⟨frames, hpin, h⟩ := h
    obtain ⟨hall, rfl⟩ := FrameTable.setPinned_cases hpin
    have hlt := Pool.lt_of_isAllocated hall
    obtain ⟨_, -, h⟩ := h
    obtain ⟨memory, hcontents, rfl, rfl⟩ : ∃ memory : Memory n, (∀ g, memory.contents g =
        if frame = g ∧ zero = true then .zero else m₁.memory.contents g) ∧ res = .ok frame ∧
        m' = { m₁ with
          memory := memory
          frames := { m₁.frames with
            pool := m₁.frames.pool.setEntry frame { allocated := true, pinned := true } }.setOwner
              frame (some ⟨process, page⟩) } := by
      cases zero with
      | false =>
        cases h
        exact ⟨m₁.memory, fun g => by simp, rfl, rfl⟩
      | true =>
        simp only [if_true, Outcome.bind_eq_ok_iff] at h
        obtain ⟨memory, hmemory, h⟩ := h
        cases h
        exact ⟨memory, fun g => by simpa using (Memory.put_cases hmemory).2 g, rfl, rfl⟩
    refine .inr ⟨frame, m₁, rfl, hobtained, ⟨rfl, rfl, rfl, rfl, fun _ => rfl, .refl _, rfl, ?_, ?_,
      ?_, ?_, ?_⟩, rfl, hlt, ?_, ?_, ?_⟩
    · exact fun hc => Pool.Counted.setPinned hc (Pool.setPinned_of_isAllocated hall)
    · intro g
      refine (Pool.isAllocated_setEntry _ hlt).trans ?_
      by_cases hg : frame = g
      · subst hg; simp [hall]
      · rw [if_neg hg]
    · intro g hg
      exact (Pool.hasPin_setEntry _ hlt).trans (if_neg hg)
    · intro g hg
      exact (FrameTable.owner?_setOwner _ hlt).trans (if_neg hg)
    · intro g hg
      exact (hcontents g).trans (if_neg fun h => hg h.1)
    · exact (FrameTable.owner?_setOwner _ hlt).trans (if_pos rfl)
    · exact (Pool.hasPin_setEntry _ hlt).trans (if_pos rfl)
    · refine (hcontents frame).trans ?_
      cases zero <;> simp

/-! ## Giving the frame back -/

/-- The frame in hand went back to the pool. -/
structure Freed (m m' : Machine n) (frame : Frame) : Prop where
  config_eq : m'.config = m.config
  stats_eq : m'.stats = m.stats
  spaces_eq : m'.spaces = m.spaces
  swap_eq : m'.swap = m.swap
  memory_eq : m'.memory = m.memory
  hand_eq : m'.frames.hand = m.frames.hand
  allocated : m.frames.pool.isAllocated frame = true
  counted : m.frames.pool.Counted → m'.frames.pool.Counted
  isAllocated_eq : ∀ g, m'.frames.pool.isAllocated g =
    if frame = g then false else m.frames.pool.isAllocated g
  hasPin_eq : ∀ g, m'.frames.pool.hasPin g = if frame = g then false else m.frames.pool.hasPin g
  owner?_eq : ∀ g, m'.frames.owner? g = if frame = g then none else m.frames.owner? g

theorem free_cases (h : (m.free frame).result = .ok m') : m.Freed m' frame := by
  simp only [free, Outcome.bind_eq_ok_iff, Outcome.result_pure, Except.ok.injEq] at h
  obtain ⟨frames, hframes, rfl⟩ := h
  obtain ⟨-, pool, hpool, rfl⟩ := FrameTable.release_cases hframes
  obtain ⟨hall, hmap, -⟩ := Pool.dealloc_cases hpool
  have hlt := Pool.lt_of_isAllocated hall
  refine ⟨rfl, rfl, rfl, rfl, rfl, rfl, hall, fun hc => hc.dealloc hpool, ?_, ?_,
    fun g => FrameTable.owner?_setOwner none hlt⟩
  · intro g
    exact (Pool.isAllocated_congr hmap).trans (Pool.isAllocated_setEntry _ hlt)
  · intro g
    exact (Pool.hasPin_congr hmap).trans (Pool.hasPin_setEntry _ hlt)

namespace Freed

theorem record?_eq (h : m.Freed m' frame) (x : Owner) : m'.record? x = m.record? x := by
  rw [record?, space, h.spaces_eq]; rfl

theorem translate_eq (h : m.Freed m' frame) (x : Owner) : m'.translate x = m.translate x := by
  rw [translate, space, h.spaces_eq]; rfl

theorem flag_eq (h : m.Freed m' frame) (x : Owner) (fl : Flag) :
    m'.flag x fl = m.flag x fl := by
  rw [flag, space, h.spaces_eq]; rfl

end Freed

theorem Freed.sound (h : m.Freed m' frame) (hs : m.Sound (some frame)) : m'.Sound none := by
  obtain ⟨config, memory, swap, frames, stats, spaces⟩ := m'
  obtain rfl : spaces = m.spaces := h.spaces_eq
  obtain rfl : swap = m.swap := h.swap_eq
  obtain rfl : memory = m.memory := h.memory_eq
  have habsent : ∀ x, m.status? x ≠ some (.resident frame) :=
    fun x => hs.linked.held_absent frame x rfl
  refine ⟨⟨h.counted hs.linked.counted, ?_, ?_, fun g hg => (by cases hg),
      fun g x hg => (by cases hg), hs.linked.translate_iff, hs.linked.writable_eq⟩,
    ⟨hs.slots.sound, hs.slots.occupied_iff, hs.slots.unique⟩,
    ⟨hs.files.zero, hs.files.backed, hs.files.swapped, hs.files.clean, hs.files.span_le⟩⟩
  · intro g _
    rw [h.isAllocated_eq, FrameTable.isTracked, h.owner?_eq]
    by_cases hg : frame = g
    · simp [hg]
    · rw [if_neg hg, if_neg hg]
      exact hs.linked.tracked_iff g fun e => hg (Option.some.inj e)
  · intro g x _
    rw [h.owner?_eq]
    by_cases hg : frame = g
    · subst hg
      rw [if_pos rfl]
      exact ⟨fun hx => (by cases hx), fun hx => absurd hx (habsent x)⟩
    · rw [if_neg hg]
      exact hs.linked.owner_iff g x fun e => hg (Option.some.inj e)

theorem Freed.flat_eq (h : m.Freed m' frame) : m'.flat = m.flat := by
  obtain ⟨config, memory, swap, frames, stats, spaces⟩ := m'
  obtain rfl : spaces = m.spaces := h.spaces_eq
  obtain rfl : swap = m.swap := h.swap_eq
  obtain rfl : memory = m.memory := h.memory_eq
  rfl

end DemandPaging.Machine
