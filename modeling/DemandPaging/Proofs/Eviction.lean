/-
  Taking a frame away from a page: what the clock and an eviction change.

  * `pickVictim_cases`: the clock changes accessed bits and its hand alone, and
    `accessed_of_pickVictim`: it sets no accessed bit;
  * `takeFrame_cases`: a page that has to leave its frame either does
    (`Evicted`) or, when swap is full, is mapped again (`Restored`);
  * `losesFrame_of` and `restored_of`: what becomes of a page whose mapping was
    taken away (`unmap`), in either case.
-/
import DemandPaging.Machine.Eviction
import DemandPaging.Proofs.Clock
import DemandPaging.Proofs.Soundness

namespace DemandPaging

variable {n : Nat}

/-! ## The clock -/

/-- Address spaces that differ in accessed bits alone. -/
def AddressSpaces.SameUpToAccess (a b : AddressSpaces) : Prop :=
  ∀ p, (b.get p).table = (a.get p).table ∧
    (b.get p).directory.toDirectoryTraits = (a.get p).directory.toDirectoryTraits ∧
    (∀ q, (b.get p).directory.translate q = (a.get p).directory.translate q) ∧
    ∀ q fl, fl ≠ .accessed → (b.get p).directory.has q fl = (a.get p).directory.has q fl

theorem FrameTable.accessTest_same (table : FrameTable n) (frame : Nat) {a spaces : AddressSpaces}
    (h : a.SameUpToAccess spaces) : a.SameUpToAccess (table.accessTest frame spaces).2 := by
  unfold accessTest
  split
  · exact h
  · rename_i owner _
    dsimp only
    split
    · intro p
      obtain ⟨htable, htraits, htranslate, hhas⟩ := h p
      by_cases hp : owner.process = p
      · subst hp
        simp only [AddressSpaces.get_set_self]
        refine ⟨htable, htraits, ?_, ?_⟩
        · intro q
          rw [Directory.translate_setAccessed, htranslate]
        · intro q fl hfl
          rw [Directory.has_setAccessed _ hfl, hhas q fl hfl]
      · simp only [AddressSpaces.get_set_of_ne _ _ hp]
        exact ⟨htable, htraits, htranslate, hhas⟩
    · exact h

theorem FrameTable.accessTest_has (table : FrameTable n) (frame : Nat)
    {spaces : AddressSpaces} {p : Nat} {q : Page}
    (h : ((table.accessTest frame spaces).2.get p).directory.has q .accessed = true) :
    (spaces.get p).directory.has q .accessed = true := by
  unfold accessTest at h
  split at h
  · exact h
  · rename_i owner _
    dsimp only at h
    split at h
    · rw [AddressSpaces.get_set] at h
      split at h
      · rename_i hp
        subst hp
        rw [Directory.setAccessed, Directory.has_set] at h
        split at h
        · cases h
        · exact h
      · exact h
    · exact h

namespace Machine

variable {m m' : Machine n} {held : Option Frame} {frame g : Frame} {o x : Owner}
  {record after : PageRecord}

theorem pickVictim_cases {victim : Option Frame} (h : m.pickVictim = (victim, m')) :
    m.SameUpToAccess m' ∧ ∀ frame, victim = some frame → m.frames.isCandidate frame = true := by
  simp only [pickVictim, FrameTable.pickVictim, Prod.mk.injEq] at h
  obtain ⟨rfl, rfl⟩ := h
  have hspaces : m.spaces.SameUpToAccess (Clock.pick n
      (fun frame => m.frames.isCandidate ⟨frame⟩) m.frames.accessTest m.frames.hand
      m.spaces).state :=
    Clock.pick_state (P := m.spaces.SameUpToAccess) (fun frame _ => m.frames.accessTest_same frame)
      (fun p => ⟨rfl, rfl, fun _ => rfl, fun _ _ _ => rfl⟩)
  refine ⟨⟨rfl, rfl, rfl, rfl, rfl, rfl, Clock.pick_hand_lt, fun p => (hspaces p).1,
    fun p => (hspaces p).2.1, fun o => (hspaces o.process).2.2.1 o.page,
    fun o => (hspaces o.process).2.2.2 o.page⟩, ?_⟩
  intro frame hframe
  obtain ⟨i, hi, rfl⟩ := Option.map_eq_some_iff.1 hframe
  exact Clock.candidate_of_pick hi

/-- The clock takes accessed bits away and gives none. -/
theorem accessed_of_pickVictim {victim : Option Frame} (h : m.pickVictim = (victim, m'))
    (hx : m'.flag x .accessed = true) : m.flag x .accessed = true := by
  simp only [pickVictim, FrameTable.pickVictim, Prod.mk.injEq] at h
  obtain ⟨-, rfl⟩ := h
  exact Clock.pick_state (P := fun spaces : AddressSpaces =>
      (spaces.get x.process).directory.has x.page .accessed = true →
        (m.spaces.get x.process).directory.has x.page .accessed = true)
    (fun frame s hs hx => hs (m.frames.accessTest_has frame hx)) id hx

theorem candidate_iff : m.frames.isCandidate frame = true ↔
    m.frames.pool.isAllocated frame = true ∧ m.frames.pool.hasPin frame = false ∧
      m.frames.isTracked frame = true := by
  simp [FrameTable.isCandidate, and_assoc]

/-! ## What an eviction changes -/

/-- A page lost its frame, which stays allocated, and its record is new. -/
structure LosesFrame (m m' : Machine n) (frame : Frame) (o : Owner) (after : PageRecord) :
    Prop where
  config_eq : m'.config = m.config
  memory_eq : m'.memory = m.memory
  pool_eq : m'.frames.pool = m.frames.pool
  hand_eq : m'.frames.hand = m.frames.hand
  traits_eq : ∀ p, (m'.space p).directory.toDirectoryTraits =
    (m.space p).directory.toDirectoryTraits
  owner?_eq : frame.index < n → ∀ g, m'.frames.owner? g =
    if frame = g then none else m.frames.owner? g
  record?_eq : ∀ x, m'.record? x = if o = x then some after else m.record? x
  translate_eq : ∀ x, m'.translate x = if o = x then none else m.translate x
  flag_eq : ∀ x fl, fl ≠ .present → m'.flag x fl = m.flag x fl

/-- The page `o` in a frame was evicted: dropped, or written to a free slot. -/
inductive Evicted (m m' : Machine n) (frame : Frame) (o : Owner) (record : PageRecord) : Prop where
  | discarded (origin : FileOrigin) (horigin : record.origin = some origin)
      (hclean : (m.flag o .dirty || record.dirty) = false)
      (hloses : m.LosesFrame m' frame o { record with status := .fileBacked origin.span })
      (hswap : m'.swap = m.swap) (hstats : m'.stats = m.stats.countDiscard)
  | swapped (slot : Slot) (swap : SwapSpace)
      (hdirty : record.origin.isSome = true → (m.flag o .dirty || record.dirty) = true)
      (hslot : m.swap.allocate.result = .ok (.ok slot, swap))
      (hwrite : (swap.write slot (m.memory.contents frame)).result = .ok m'.swap)
      (hloses : m.LosesFrame m' frame o { record with
        status := .swapped slot, dirty := record.dirty || m.flag o .dirty })
      (hstats : m'.stats = m.stats.countSwapOut)

/-- A page that was evicted lost its frame, and is in none. -/
theorem Evicted.loses (h : m.Evicted m' frame o record) :
    ∃ after, m.LosesFrame m' frame o after ∧ after.status.isResident = false := by
  cases h with
  | discarded origin horigin hclean hloses hswap hstats => exact ⟨_, hloses, rfl⟩
  | swapped slot swap hdirty hslot hwrite hloses hstats => exact ⟨_, hloses, rfl⟩

/-- The page `o` kept its frame, because swap is full.  Its mapping was made anew. -/
structure Restored (m m' : Machine n) (frame : Frame) (o : Owner) (record : PageRecord) :
    Prop where
  full : m.swap.allocate.result = .ok (.error .swapExhausted, m.swap)
  dirty : record.origin.isSome = true → (m.flag o .dirty || record.dirty) = true
  config_eq : m'.config = m.config
  memory_eq : m'.memory = m.memory
  swap_eq : m'.swap = m.swap
  stats_eq : m'.stats = m.stats
  frames_eq : m'.frames = m.frames
  table_eq : ∀ p, (m'.space p).table = (m.space p).table
  traits_eq : ∀ p, (m'.space p).directory.toDirectoryTraits =
    (m.space p).directory.toDirectoryTraits
  translate_eq : ∀ x, m'.translate x = if o = x then some frame else m.translate x
  writable_eq : ∀ x, m'.flag x .writable = if o = x then record.writable else m.flag x .writable
  accessed_eq : ∀ x, m'.flag x .accessed =
    if o = x then (m.space o.process).directory.isAccessed o.page else m.flag x .accessed
  dirty_eq : ∀ x, m'.flag x .dirty =
    if o = x then m.flag o .dirty || record.dirty else m.flag x .dirty

theorem victimRecord_cases (h : (m.victimRecord frame).result = .ok (o, record)) :
    m.frames.owner? frame = some o ∧ m.record? o = some record ∧
      record.status = .resident frame := by
  unfold victimRecord at h
  split at h
  · cases h
  · rename_i owner howner
    dsimp only at h
    split at h
    · cases h
    · rename_i found hfound
      simp only [Outcome.bind_eq_ok_iff, Outcome.require_result_iff, Outcome.result_pure,
        Except.ok.injEq, Prod.mk.injEq] at h
      obtain ⟨_, hstatus, rfl, rfl⟩ := h
      exact ⟨howner, hfound, hstatus⟩

theorem chooseEviction_cases {dirty : Bool} {res : Except Error Eviction}
    (h : (m.chooseEviction record dirty).result = .ok (res, m')) :
    (record.origin.isSome = true ∧ dirty = false ∧ res = .ok .discarded ∧ m' = m) ∨
      (record.origin.isSome = true → dirty = true) ∧ ∃ slot swap,
        m.swap.allocate.result = .ok (slot, swap) ∧ res = slot.map .swapped ∧
          m' = { m with swap := swap } := by
  unfold chooseEviction at h
  split at h
  · rename_i hdrop
    simp only [Outcome.result_pure, Except.ok.injEq, Prod.mk.injEq] at h
    simp only [Bool.and_eq_true, Bool.not_eq_true'] at hdrop
    exact .inl ⟨hdrop.1, hdrop.2, h.1.symm, h.2.symm⟩
  · rename_i hkeep
    simp only [Outcome.bind_eq_ok_iff, Outcome.result_pure, Except.ok.injEq, Prod.exists,
      Prod.mk.injEq] at h
    obtain ⟨slot, swap, hslot, rfl, rfl⟩ := h
    exact .inr ⟨fun hsome => by simpa [hsome] using hkeep, slot, swap, hslot, rfl, rfl⟩

section

variable {table marked : PageTable} {page : Page} {dirty : Bool}

theorem markEvicted_swapped {slot : Slot} (hrecord : table.get? page = some record)
    (h : (table.markEvicted page (.swapped slot) dirty).result = .ok (.ok marked)) :
    marked = ⟨table.records.insert page { record with
      status := .swapped slot, dirty := record.dirty || dirty }⟩ := by
  unfold PageTable.markEvicted at h
  simp only [hrecord] at h
  split at h
  · simp at h
  · simp only [Outcome.result_pure, Except.ok.injEq] at h
    exact h.symm

theorem markEvicted_discarded (hrecord : table.get? page = some record)
    (h : (table.markEvicted page .discarded dirty).result = .ok (.ok marked)) :
    (record.dirty || dirty) = false ∧ ∃ origin, record.origin = some origin ∧
      marked = ⟨table.records.insert page { record with
        status := .fileBacked origin.span, dirty := record.dirty || dirty }⟩ := by
  unfold PageTable.markEvicted at h
  simp only [hrecord] at h
  split at h
  · simp at h
  · simp only [Outcome.bind_eq_ok_iff, Outcome.require_result_iff] at h
    obtain ⟨_, hclean, h⟩ := h
    cases horigin : record.origin with
    | none => simp [horigin] at h
    | some origin =>
      simp only [horigin, Outcome.result_pure, Except.ok.injEq] at h
      exact ⟨by simpa using hclean, origin, rfl, by rw [← h]⟩

end

/-! ## The page without its mapping -/

/-- Take away the mapping of a page. -/
def unmap (m : Machine n) (o : Owner) : Machine n :=
  m.setDirectory o.process ((m.space o.process).directory.clear o.page)

theorem record?_unmap : (m.unmap o).record? x = m.record? x :=
  record?_setDirectory _

theorem translate_unmap : (m.unmap o).translate x = if o = x then none else m.translate x :=
  translate_setDirectory_of fun _ => Directory.translate_clear _ _ _

theorem flag_unmap {fl : Flag} (hfl : fl ≠ .present) : (m.unmap o).flag x fl = m.flag x fl := by
  rw [unmap, flag_setDirectory]
  split
  · rename_i hp
    rw [Directory.has_clear _ _ _ hfl, hp]
    rfl
  · rfl

theorem traits_unmap (p : Nat) : ((m.unmap o).space p).directory.toDirectoryTraits =
    (m.space p).directory.toDirectoryTraits :=
  traits_setDirectory Directory.traits_clear p

/-- Taking away the mapping of a page, replacing its record and disowning its frame is
    losing the frame. -/
theorem losesFrame_of {m₁ m₂ : Machine n} (hconfig : m₁.config = m.config)
    (hmemory : m₁.memory = m.memory) (hframes : m₁.frames = m.frames)
    (hspaces : m₁.spaces = (m.unmap o).spaces)
    (hm₂ : m₂ = m₁.setTable o.process
      ⟨(m₁.space o.process).table.records.insert o.page after⟩) :
    m.LosesFrame { m₂ with frames := m₂.frames.setOwner frame none } frame o after := by
  have hrecord : ∀ x, m₁.record? x = m.record? x := by
    intro x
    rw [record?, space, hspaces]
    exact record?_unmap
  have htranslate : ∀ x, m₁.translate x = if o = x then none else m.translate x := by
    intro x
    rw [translate, space, hspaces]
    exact translate_unmap
  have hflag : ∀ x fl, fl ≠ .present → m₁.flag x fl = m.flag x fl := by
    intro x fl hfl
    rw [flag, space, hspaces]
    exact flag_unmap hfl
  have htraits : ∀ p, (m₁.space p).directory.toDirectoryTraits =
      (m.space p).directory.toDirectoryTraits := by
    intro p
    rw [space, hspaces]
    exact traits_unmap p
  subst hm₂
  constructor
  · exact hconfig
  · exact hmemory
  · rw [← hframes]; rfl
  · rw [← hframes]; rfl
  · exact fun p => (traits_setTable _ p).trans (htraits p)
  · intro hlt g
    rw [← hframes]
    exact FrameTable.owner?_setOwner none hlt
  · exact fun x => (record?_setTable_insert o after).trans (by rw [hrecord x])
  · exact fun x => (translate_setTable _).trans (htranslate x)
  · exact fun x fl hfl => (flag_setTable _).trans (hflag x fl hfl)

theorem restoreMapping_cases {m₁ : Machine n} {writable accessed dirty : Bool}
    (h : (m₁.restoreMapping o frame writable accessed dirty).result = .ok m') :
    ∃ directory, m' = m₁.setDirectory o.process directory ∧
      directory.toDirectoryTraits = (m₁.space o.process).directory.toDirectoryTraits ∧
      (∀ q, directory.translate q =
        if o.page = q then some frame else (m₁.space o.process).directory.translate q) ∧
      (∀ q, directory.has q .writable =
        if o.page = q then writable else (m₁.space o.process).directory.has q .writable) ∧
      (∀ q, directory.has q .accessed =
        if o.page = q then accessed else (m₁.space o.process).directory.has q .accessed) ∧
      ∀ q, directory.has q .dirty =
        if o.page = q then dirty else (m₁.space o.process).directory.has q .dirty := by
  simp only [restoreMapping, Outcome.bind_eq_ok_iff, Outcome.require_result_iff,
    Outcome.result_pure, Except.ok.injEq, Prod.exists] at h
  obtain ⟨mapped, directory, hmap, _, rfl, rfl⟩ := h
  rcases Directory.map_cases hmap with ⟨hno, -⟩ | ⟨-, -, entry, hfresh, rfl⟩
  · cases hno
  · generalize (m₁.space o.process).directory = d at *
    have hsome : ((d.setEntry o.page entry).entries.get? o.page).isSome = true := by
      simp [Directory.setEntry]
    refine ⟨_, rfl, rfl, ?_, ?_, ?_, ?_⟩
    · intro q
      rw [Directory.translate_setDirty, Directory.translate_setAccessed,
        Directory.translate_setEntry hfresh.present, hfresh.frame_eq]
    · intro q
      simp only [Directory.setDirty, Directory.setAccessed, Directory.has_set, reduceCtorEq,
        false_and, and_false, if_false]
      rw [Directory.has_setEntry, hfresh.writable_eq]
    · intro q
      rw [Directory.setDirty, Directory.has_set, if_neg (by simp), Directory.setAccessed,
        Directory.has_set_of_some hsome, Directory.has_setEntry]
      by_cases hq : o.page = q <;> simp [hq]
    · intro q
      rw [Directory.setDirty, Directory.has_set_of_some, Directory.has_setAccessed _ (by decide),
        Directory.has_setEntry]
      · by_cases hq : o.page = q <;> simp [hq]
      · rw [Directory.setAccessed, Directory.get?_set, if_pos rfl, Option.isSome_map]
        exact hsome

/-- A swap space that turns a request down stays as it is. -/
theorem allocate_error {swap swap' : SwapSpace} {e : Error}
    (h : swap.allocate.result = .ok (.error e, swap')) : e = .swapExhausted ∧ swap' = swap := by
  obtain ⟨slots, hslots, rfl⟩ := SwapSpace.allocate_cases h
  rcases Slots.allocate_cases hslots with ⟨he, rfl⟩ | ⟨_, hok, -⟩
  · cases he; exact ⟨rfl, rfl⟩
  · cases hok

theorem restored_of {m₁ : Machine n} {e : Error} {accessed : Bool}
    (haccessed : accessed = (m.space o.process).directory.isAccessed o.page)
    (hchoose : ((m.unmap o).chooseEviction record (m.flag o .dirty || record.dirty)).result =
      .ok (.error e, m₁))
    (hrestore : (m₁.restoreMapping o frame record.writable accessed
      (m.flag o .dirty || record.dirty)).result = .ok m') :
    e = .swapExhausted ∧ m.Restored m' frame o record := by
  rcases chooseEviction_cases hchoose with ⟨-, -, hno, -⟩ | ⟨hneeded, slot, swap, hslot, hres, rfl⟩
  · cases hno
  obtain ⟨e', rfl, he'⟩ : ∃ e', slot = .error e' ∧ e' = e := by
    cases slot with
    | error e' => cases hres; exact ⟨e, rfl, rfl⟩
    | ok slot => cases hres
  obtain ⟨he, rfl⟩ := allocate_error hslot
  obtain ⟨directory, rfl, hdtraits, hdtranslate, hdwritable, hdaccessed, hddirty⟩ :=
    restoreMapping_cases hrestore
  refine ⟨he'.symm.trans he, he ▸ hslot, hneeded, rfl, rfl, rfl, rfl, rfl, ?_, ?_, ?_, ?_, ?_, ?_⟩
  · intro p
    exact (table_setDirectory directory p).trans (table_setDirectory _ p)
  · intro p
    exact (traits_setDirectory hdtraits p).trans (traits_unmap p)
  · intro x
    refine (translate_setDirectory_of hdtranslate).trans ?_
    show (if o = x then some frame else (m.unmap o).translate x) = _
    rw [translate_unmap]
    by_cases hx : o = x <;> simp [hx]
  · intro x
    refine (flag_setDirectory_of hdwritable).trans ?_
    show (if o = x then record.writable else (m.unmap o).flag x .writable) = _
    rw [flag_unmap (by decide)]
  · intro x
    refine (flag_setDirectory_of hdaccessed).trans ?_
    show (if o = x then accessed else (m.unmap o).flag x .accessed) = _
    rw [flag_unmap (by decide), haccessed]
  · intro x
    refine (flag_setDirectory_of hddirty).trans ?_
    show (if o = x then m.flag o .dirty || record.dirty else (m.unmap o).flag x .dirty) = _
    rw [flag_unmap (by decide)]

theorem saveContents_cases {m₂ : Machine n} {eviction : Eviction}
    (h : (m.saveContents frame eviction).result = .ok m₂) :
    match eviction with
    | .swapped slot => ∃ swap, (m.swap.write slot (m.memory.contents frame)).result = .ok swap ∧
        m₂ = { m with swap := swap, stats := m.stats.countSwapOut }
    | .discarded => m₂ = { m with stats := m.stats.countDiscard } := by
  cases eviction with
  | swapped slot =>
    simp only [saveContents, Outcome.bind_eq_ok_iff, Memory.get_eq_ok_iff, Outcome.result_pure,
      Except.ok.injEq] at h
    obtain ⟨_, ⟨-, rfl⟩, swap, hswap, rfl⟩ := h
    exact ⟨swap, hswap, rfl⟩
  | discarded =>
    simp only [saveContents, Outcome.result_pure, Except.ok.injEq] at h
    exact h.symm

theorem evicted_of {m₁ m₂ : Machine n} {eviction : Eviction} {table : PageTable}
    (hrecord : m.record? o = some record)
    (hchoose : ((m.unmap o).chooseEviction record (m.flag o .dirty || record.dirty)).result =
      .ok (.ok eviction, m₁))
    (hsave : (m₁.saveContents frame eviction).result = .ok m₂)
    (hmarked : ((m₂.space o.process).table.markEvicted o.page eviction
      (m.flag o .dirty || record.dirty)).result = .ok (.ok table)) :
    m.Evicted { m₂.setTable o.process table with frames := m₂.frames.setOwner frame none } frame o
      record := by
  have hget : m₂.spaces = (m.unmap o).spaces →
      (m₂.space o.process).table.get? o.page = some record := by
    intro hspaces
    rw [space, hspaces]
    exact record?_unmap.trans hrecord
  have hloses : ∀ after, m₂.config = m.config → m₂.memory = m.memory → m₂.frames = m.frames →
      m₂.spaces = (m.unmap o).spaces → m.LosesFrame { m₂.setTable o.process
        ⟨(m₂.space o.process).table.records.insert o.page after⟩ with
          frames := m₂.frames.setOwner frame none } frame o after :=
    fun after hconfig hmemory hframes hspaces =>
      losesFrame_of hconfig hmemory hframes hspaces rfl
  rcases chooseEviction_cases hchoose with
    ⟨hsome, hclean, heviction, rfl⟩ | ⟨hneeded, slot, swap, hslot, heviction, rfl⟩
  · cases heviction
    have hm₂ : m₂ = { m.unmap o with stats := m.stats.countDiscard } := saveContents_cases hsave
    obtain ⟨-, origin, horigin, rfl⟩ := markEvicted_discarded (hget (by rw [hm₂])) hmarked
    have hdirty : (record.dirty || (m.flag o .dirty || record.dirty)) = record.dirty := by
      rw [hclean, Bool.or_false]
    rw [hdirty]
    refine .discarded origin horigin hclean
      (hloses _ (by rw [hm₂]; rfl) (by rw [hm₂]; rfl) (by rw [hm₂]; rfl) (by rw [hm₂])) ?_ ?_
    · show m₂.swap = m.swap
      rw [hm₂]; rfl
    · show m₂.stats = m.stats.countDiscard
      rw [hm₂]
  · obtain ⟨slot, rfl, rfl⟩ : ∃ s, slot = .ok s ∧ eviction = .swapped s := by
      cases slot with
      | error e => cases heviction
      | ok s => cases heviction; exact ⟨s, rfl, rfl⟩
    have hsaved : ∃ written, (swap.write slot (m.memory.contents frame)).result = .ok written ∧
        m₂ = { m.unmap o with swap := written, stats := m.stats.countSwapOut } :=
      saveContents_cases hsave
    obtain ⟨written, hwrite, hm₂⟩ := hsaved
    obtain rfl := markEvicted_swapped (hget (by rw [hm₂])) hmarked
    have hdirty : (record.dirty || (m.flag o .dirty || record.dirty)) =
        (record.dirty || m.flag o .dirty) := by
      cases record.dirty <;> simp
    rw [hdirty]
    refine .swapped slot swap hneeded hslot ?_
      (hloses _ (by rw [hm₂]; rfl) (by rw [hm₂]; rfl) (by rw [hm₂]; rfl) (by rw [hm₂])) ?_
    · show _ = Except.ok m₂.swap
      rw [hm₂]; exact hwrite
    · show m₂.stats = m.stats.countSwapOut
      rw [hm₂]

theorem takeFrame_cases {res : Except Error Unit}
    (h : (m.takeFrame frame).result = .ok (res, m')) :
    ∃ o record, m.frames.owner? frame = some o ∧ m.record? o = some record ∧
      record.status = .resident frame ∧
        (res = .ok () ∧ m.Evicted m' frame o record ∨
          res = .error .swapExhausted ∧ m.Restored m' frame o record) := by
  simp only [takeFrame, Outcome.bind_eq_ok_iff, Prod.exists] at h
  obtain ⟨o, record, hvictim, eviction, m₁, hchoose, h⟩ := h
  obtain ⟨howner, hrecord, hstatus⟩ := victimRecord_cases hvictim
  refine ⟨o, record, howner, hrecord, hstatus, ?_⟩
  have hdirty : ((m.space o.process).directory.clear o.page).isDirty o.page =
      m.flag o .dirty := Directory.has_clear _ _ _ (by decide)
  rw [hdirty] at hchoose h
  cases eviction with
  | error e =>
    simp only [Outcome.bind_eq_ok_iff, Outcome.result_pure, Except.ok.injEq, Prod.mk.injEq] at h
    obtain ⟨_, hrestore, rfl, rfl⟩ := h
    obtain ⟨rfl, hrestored⟩ := restored_of rfl hchoose hrestore
    exact .inr ⟨rfl, hrestored⟩
  | ok eviction =>
    simp only [Outcome.bind_eq_ok_iff] at h
    obtain ⟨m₂, hsave, marked, hmarked, h⟩ := h
    cases marked with
    | error e => cases h
    | ok table =>
      simp only [Outcome.result_log_bind, Outcome.result_pure, Except.ok.injEq, Prod.mk.injEq] at h
      obtain ⟨rfl, rfl⟩ := h
      exact .inl ⟨rfl, evicted_of hrecord hchoose hsave hmarked⟩

end Machine

end DemandPaging
