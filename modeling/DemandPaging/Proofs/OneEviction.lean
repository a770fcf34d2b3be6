/-
  What a request for a page does to the other pages: at most one of them loses its frame.

  Bringing a page in goes through the pool, the clock, the swap space and the tables and
  directories of two processes.  Each part is shown to leave the pages, frames and slots alone
  that are not its own.

  * `AgreeOutside` says of two machines that they agree outside some pages, frames and slots; it
    is carried from part to part by `AgreeOutside.trans`;
  * `Obtained.atMostOneEvicted`: getting a frame evicts one page at most, and none while a frame
    is free;
  * `run_atMostOneEvicted`: so does every request for a page and every fault, after any run and
    with any result.
-/
import DemandPaging.Proofs.Run

namespace DemandPaging.Machine

variable {n : Nat} {m m' m₁ : Machine n} {frame : Frame} {o victim : Owner} {record : PageRecord}
  {pages : Owner → Prop} {frames : Frame → Prop} {slots : Slot → Prop}

/-- Outside the given pages, frames and slots, two machines agree on what is recorded of pages,
    how they are mapped and whether they may be written to, and on what frames and slots hold. -/
structure AgreeOutside (m m' : Machine n) (pages : Owner → Prop) (frames : Frame → Prop)
    (slots : Slot → Prop) : Prop where
  record?_eq : ∀ x, ¬pages x → m'.record? x = m.record? x
  translate_eq : ∀ x, ¬pages x → m'.translate x = m.translate x
  writable_eq : ∀ x, ¬pages x → m'.flag x .writable = m.flag x .writable
  contents_eq : ∀ g, ¬frames g → m'.memory.contents g = m.memory.contents g
  page_eq : ∀ slot, ¬slots slot → m'.swap.page slot = m.swap.page slot

/-- The page `victim` left the frame `frame`, for a slot that was free or for its file. -/
inductive Displaced (m m' : Machine n) (victim : Owner) (frame : Frame) : Prop where
  | mk (before after : PageRecord) (hbefore : m.record? victim = some before)
      (hin : before.status = .resident frame) (hafter : m'.record? victim = some after)
      (hout : (∃ slot, after.status = .swapped slot ∧ m.swap.slots.isOccupied slot = false) ∨
        ∃ origin, before.origin = some origin ∧ after.status = .fileBacked origin.span)
      (hwritable : after.writable = before.writable) (horigin : after.origin = before.origin)

/-- What a request for the page `o` did to everything else: nothing, or, with every frame in use,
    one page was evicted. -/
inductive AtMostOneEvicted (m m' : Machine n) (o : Owner) : Prop where
  | untouched (hevictions : m'.stats.evictions = m.stats.evictions)
      (hagree : m.AgreeOutside m' (· = o) (fun g => m.frames.pool.isAllocated g = false)
        fun slot => m.swap.slots.isOccupied slot = false)
  | evicted (victim : Owner) (frame : Frame) (hne : victim ≠ o)
      (hfull : ∀ g : Frame, g.index < n → m.frames.pool.isAllocated g = true)
      (hevictions : m'.stats.evictions = m.stats.evictions + 1)
      (hdisplaced : m.Displaced m' victim frame)
      (hagree : m.AgreeOutside m' (fun x => x = o ∨ x = victim) (· = frame)
        fun slot => m.swap.slots.isOccupied slot = false)

/-! ## Machines that agree -/

namespace AgreeOutside

theorem refl (m : Machine n) : m.AgreeOutside m pages frames slots :=
  ⟨fun _ _ => rfl, fun _ _ => rfl, fun _ _ => rfl, fun _ _ => rfl, fun _ _ => rfl⟩

theorem mono {pages' : Owner → Prop} {frames' : Frame → Prop} {slots' : Slot → Prop}
    (h : m.AgreeOutside m' pages frames slots) (hpages : ∀ x, pages x → pages' x)
    (hframes : ∀ g, frames g → frames' g) (hslots : ∀ s, slots s → slots' s) :
    m.AgreeOutside m' pages' frames' slots' where
  record?_eq x hx := h.record?_eq x fun hin => hx (hpages x hin)
  translate_eq x hx := h.translate_eq x fun hin => hx (hpages x hin)
  writable_eq x hx := h.writable_eq x fun hin => hx (hpages x hin)
  contents_eq g hg := h.contents_eq g fun hin => hg (hframes g hin)
  page_eq slot hslot := h.page_eq slot fun hin => hslot (hslots slot hin)

theorem trans (h : m.AgreeOutside m₁ pages frames slots)
    (h' : m₁.AgreeOutside m' pages frames slots) : m.AgreeOutside m' pages frames slots where
  record?_eq x hx := (h'.record?_eq x hx).trans (h.record?_eq x hx)
  translate_eq x hx := (h'.translate_eq x hx).trans (h.translate_eq x hx)
  writable_eq x hx := (h'.writable_eq x hx).trans (h.writable_eq x hx)
  contents_eq g hg := (h'.contents_eq g hg).trans (h.contents_eq g hg)
  page_eq slot hslot := (h'.page_eq slot hslot).trans (h.page_eq slot hslot)

end AgreeOutside

theorem SameUpToAccess.agreeOutside (h : m.SameUpToAccess m') :
    m.AgreeOutside m' pages frames slots where
  record?_eq x _ := h.record?_eq x
  translate_eq x _ := h.translate_eq x
  writable_eq x _ := h.flag_eq x .writable (by decide)
  contents_eq g _ := by rw [h.memory_eq]
  page_eq slot _ := by rw [h.swap_eq]

theorem SameButHeld.agreeOutside (h : m.SameButHeld m' frame) (hframe : frames frame) :
    m.AgreeOutside m' pages frames slots where
  record?_eq x _ := h.record?_eq x
  translate_eq x _ := h.translate_eq x
  writable_eq x _ := h.flag_eq x .writable
  contents_eq g hg := h.contents_eq g fun heq => hg (heq ▸ hframe)
  page_eq slot _ := h.page_eq slot

theorem Freed.agreeOutside (h : m.Freed m' frame) : m.AgreeOutside m' pages frames slots where
  record?_eq x _ := h.record?_eq x
  translate_eq x _ := h.translate_eq x
  writable_eq x _ := h.flag_eq x .writable
  contents_eq g _ := by rw [h.memory_eq]
  page_eq slot _ := by rw [h.swap_eq]

theorem Added.agreeOutside {new : Owner → Option PageRecord} (h : m.Added m' new)
    (hnew : ∀ x, ¬pages x → new x = none) : m.AgreeOutside m' pages frames slots where
  record?_eq x hx := by rw [h.record?_eq, hnew x hx, Option.none_or]
  translate_eq x _ := h.translate_eq x
  writable_eq x hx := h.flag_eq x .writable (hnew x hx)
  contents_eq g _ := by rw [h.memory_eq]
  page_eq slot _ := by rw [h.swap_eq]

theorem Installed.agreeOutside (h : m.Installed m' frame o record) (ho : pages o) :
    m.AgreeOutside m' pages frames slots := by
  have hne : ∀ x, ¬pages x → o ≠ x := by
    rintro x hx rfl
    exact hx ho
  constructor
  · intro x hx
    rw [h.record?_eq, if_neg (hne x hx)]
  · intro x hx
    rw [h.translate_eq, if_neg (hne x hx)]
  · intro x hx
    rw [h.writable_eq, if_neg (hne x hx)]
  · intro g _
    rw [h.memory_eq]
  · exact fun slot _ => h.page_eq slot

/-! ## Evictions -/

theorem LosesFrame.agreeOutside {after : PageRecord} (h : m.LosesFrame m' frame victim after)
    (hpage : ∀ slot, ¬slots slot → m'.swap.page slot = m.swap.page slot) :
    m.AgreeOutside m' (· = victim) frames slots where
  record?_eq x hx := by rw [h.record?_eq, if_neg (Ne.symm hx)]
  translate_eq x hx := by rw [h.translate_eq, if_neg (Ne.symm hx)]
  writable_eq x _ := h.flag_eq x .writable (by decide)
  contents_eq g _ := by rw [h.memory_eq]
  page_eq := hpage

theorem Evicted.agreeOutside (h : m.Evicted m' frame victim record) :
    m.AgreeOutside m' (· = victim) frames fun slot => m.swap.slots.isOccupied slot = false := by
  cases h with
  | discarded origin horigin hclean hloses hswap hstats =>
    exact hloses.agreeOutside fun slot _ => by rw [hswap]
  | swapped slot swap hdirty hslot hwrite hloses hstats =>
    obtain ⟨hfree, -, hpage⟩ := swapOut_cases hslot hwrite
    refine hloses.agreeOutside fun s hs => ?_
    rw [hpage, if_neg]
    rintro rfl
    exact hs hfree

theorem Evicted.displaced (h : m.Evicted m' frame victim record)
    (hr : m.record? victim = some record) (hstatus : record.status = .resident frame) :
    m.Displaced m' victim frame := by
  cases h with
  | discarded origin horigin hclean hloses hswap hstats =>
    have hafter := hloses.record?_eq victim
    rw [if_pos rfl] at hafter
    exact .mk _ _ hr hstatus hafter (.inr ⟨origin, horigin, rfl⟩) rfl rfl
  | swapped slot swap hdirty hslot hwrite hloses hstats =>
    have hafter := hloses.record?_eq victim
    rw [if_pos rfl] at hafter
    exact .mk _ _ hr hstatus hafter (.inl ⟨slot, rfl, (swapOut_cases hslot hwrite).1⟩) rfl rfl

theorem Evicted.evictions_eq (h : m.Evicted m' frame victim record) :
    m'.stats.evictions = m.stats.evictions + 1 := by
  cases h with
  | discarded _ _ _ _ _ hstats => rw [hstats]; rfl
  | swapped _ _ _ _ _ _ hstats => rw [hstats]; rfl

/-- A page that kept its frame is mapped as before. -/
theorem Restored.agreeOutside (h : m.Restored m' frame victim record) (hl : m.Linked none)
    (hr : m.record? victim = some record) (hstatus : record.status = .resident frame) :
    m.AgreeOutside m' pages frames slots where
  record?_eq x _ := h.record?_eq x
  translate_eq x _ := by
    rw [h.translate_eq]
    split
    · rename_i hx
      subst hx
      exact ((hl.translate_iff frame victim).2 (hstatus ▸ status?_of_record hr)).symm
    · rfl
  writable_eq x _ := by
    rw [h.writable_eq]
    split
    · rename_i hx
      subst hx
      exact (hl.writable_eq victim record frame hr hstatus).symm
    · rfl
  contents_eq g _ := by rw [h.memory_eq]
  page_eq slot _ := by rw [h.swap_eq]

theorem Displaced.congr {m₂ : Machine n} (h : m₁.Displaced m₂ victim frame)
    (hbefore : m₁.record? victim = m.record? victim) (hslots : m₁.swap.slots = m.swap.slots)
    (hafter : m'.record? victim = m₂.record? victim) : m.Displaced m' victim frame := by
  obtain ⟨before, after, hr, hin, hr', hout, hwritable, horigin⟩ := h
  rw [hslots] at hout
  exact .mk before after (hbefore ▸ hr) hin (hafter.trans hr') hout hwritable horigin

/-! ## Requests -/

/-- Getting a frame for the page `o` evicts one page at most.  What comes after concerns the page
    and the frame alone. -/
theorem Obtained.atMostOneEvicted {res : Except Error Frame} (h : m.Obtained m₁ res)
    (hs : m.Sound none) (ho : ∀ g, m.status? o ≠ some (.resident g))
    (hlater : m₁.AgreeOutside m' (· = o) (fun g => res = .ok g) fun _ => False)
    (hevictions : m'.stats.evictions = m₁.stats.evictions) : m.AtMostOneEvicted m' o := by
  cases h with
  | free frame pool halloc hm₁ =>
    subst hm₁
    refine .untouched hevictions ⟨hlater.record?_eq, hlater.translate_eq, hlater.writable_eq,
      fun g hg => hlater.contents_eq g ?_, fun slot _ => hlater.page_eq slot id⟩
    rintro hres
    cases hres
    rcases Pool.alloc_cases halloc with ⟨hno, -⟩ | ⟨_, hsome, -, hfree, -, -⟩
    · cases hno
    · cases hsome; exact hg hfree
  | evicted swept frame victim record hfull hpick howner hr hstatus hevicted =>
    have hswept := (pickVictim_cases hpick).1
    have hne : victim ≠ o := by
      rintro rfl
      exact ho frame (by rw [← hswept.status?_eq, status?_of_record hr, hstatus])
    refine .evicted victim frame hne (fun g hlt => ?_) ?_ ?_ ?_
    · exact FrameTable.isAllocated_of_none hs.linked.counted hfull hlt
    · rw [hevictions, hevicted.evictions_eq, hswept.stats_eq]
    · exact (hevicted.displaced hr hstatus).congr (hswept.record?_eq victim)
        (by rw [hswept.swap_eq]) (hlater.record?_eq victim hne)
    · have hagree : swept.AgreeOutside m₁ (· = victim) (· = frame) _ := hevicted.agreeOutside
      rw [hswept.swap_eq] at hagree
      exact (hswept.agreeOutside.trans (hagree.mono (fun _ => .inr) (fun _ hg => hg)
        fun _ hslot => hslot)).trans (hlater.mono (fun _ => .inl)
          (fun g hg => (Except.ok.inj hg).symm) fun _ => False.elim)
  | exhausted swept frame victim record hfull hpick howner hr hstatus hrestored =>
    have hswept := (pickVictim_cases hpick).1
    refine .untouched ?_ (.trans (.trans hswept.agreeOutside (hrestored.agreeOutside
      (hswept.sound hs).linked hr hstatus)) (hlater.mono (fun _ hx => hx) nofun
        fun _ => False.elim))
    rw [hevictions, hrestored.stats_eq, hswept.stats_eq]

/-- A page that was added first is the page in question. -/
theorem AtMostOneEvicted.of_added {new : Owner → Option PageRecord} (hadded : m.Added m₁ new)
    (hnew : ∀ x, x ≠ o → new x = none) (h : m₁.AtMostOneEvicted m' o) :
    m.AtMostOneEvicted m' o := by
  cases h with
  | untouched hevictions hagree =>
    rw [hadded.frames_eq, hadded.swap_eq] at hagree
    rw [hadded.stats_eq] at hevictions
    exact .untouched hevictions ((hadded.agreeOutside hnew).trans hagree)
  | evicted victim frame hne hfull hevictions hdisplaced hagree =>
    rw [hadded.frames_eq] at hfull
    rw [hadded.stats_eq] at hevictions
    rw [hadded.swap_eq] at hagree
    have hrecord : m₁.record? victim = m.record? victim := by
      rw [hadded.record?_eq, hnew victim hne, Option.none_or]
    exact .evicted victim frame hne hfull hevictions
      (hdisplaced.congr hrecord (by rw [hadded.swap_eq]) rfl)
      ((hadded.agreeOutside fun x hx => hnew x fun heq => hx (.inl heq)).trans hagree)

theorem Brought.atMostOneEvicted {res : Except Error Unit} (h : m.Brought m' o record res)
    (hs : m.Sound none) (hr : m.record? o = some record)
    (hout : record.status.isResident = false) : m.AtMostOneEvicted m' o := by
  have ho := status?_ne_resident hr hout
  cases h with
  | frameless e hobtained => exact hobtained.atMostOneEvicted hs ho (.refl m') rfl
  | givenBack e frame m₁ m₂ hframe hobtained hsame hfreed hobstacle =>
    exact hobtained.atMostOneEvicted hs ho (.trans (hsame.agreeOutside rfl) hfreed.agreeOutside)
      (by rw [hfreed.stats_eq, hsame.stats_eq])
  | installed frame m₁ m₂ m₃ hobtained hclaimed hfilled hinstalled =>
    refine hobtained.atMostOneEvicted hs ho (.trans (.trans (hclaimed.same.agreeOutside rfl)
      (hfilled.same.agreeOutside rfl)) (hinstalled.agreeOutside rfl)) ?_
    rw [hinstalled.stats_eq, Stats.evictions_countArrival, hfilled.same.stats_eq,
      hclaimed.same.stats_eq]

theorem Handled.atMostOneEvicted {process : Nat} {fault : PageFault} {res : Except Error Unit}
    (h : m.Handled m' process fault res) (hs : m.Sound none) :
    m.AtMostOneEvicted m' ⟨process, .containing fault.address⟩ := by
  cases h with
  | rejected e hnot hm => subst hm; exact .untouched rfl (.refl m')
  | resident record hr hin hm => subst hm; exact .untouched rfl (.refl m')
  | known record res hr hout hbrought => exact hbrought.atMostOneEvicted hs hr hout
  | grown m₁ res hgrows hadded hbrought =>
    exact .of_added hadded (fun x hx => if_neg (Ne.symm hx))
      (hbrought.atMostOneEvicted (hadded.sound unloaded_zero hs) hadded.record?_self rfl)

theorem MappedNew.atMostOneEvicted {writable : Bool} {intruder : Option Bool}
    {res : Except Error Unit} (h : m.MappedNew m' o writable intruder res) (hs : m.Sound none) :
    m.AtMostOneEvicted m' o := by
  have ho : m.record? o = none → ∀ g, m.status? o ≠ some (.resident g) := by
    intro hr g
    rw [status?_eq_none hr]
    exact nofun
  cases h with
  | taken record hr hm => subst hm; exact .untouched rfl (.refl m')
  | frameless e hr hobtained => exact hobtained.atMostOneEvicted hs (ho hr) (.refl m') rfl
  | refused frame m₁ m₂ hr hobtained hclaimed hfreed =>
    exact hobtained.atMostOneEvicted hs (ho hr)
      (.trans (hclaimed.same.agreeOutside rfl) hfreed.agreeOutside)
      (by rw [hfreed.stats_eq, hclaimed.same.stats_eq])
  | intruded frame m₁ m₂ m₃ hr hintruder hobtained hclaimed hadded hfreed =>
    exact hobtained.atMostOneEvicted hs (ho hr) (.trans (.trans (hclaimed.same.agreeOutside rfl)
      (hadded.agreeOutside fun x hx => if_neg (Ne.symm hx))) hfreed.agreeOutside)
      (by rw [hfreed.stats_eq, hadded.stats_eq, hclaimed.same.stats_eq])
  | placed frame m₁ m₂ hr hintruder hobtained hclaimed hinstalled =>
    refine hobtained.atMostOneEvicted hs (ho hr) (.trans (hclaimed.same.agreeOutside rfl)
      (hinstalled.agreeOutside rfl)) ?_
    rw [hinstalled.stats_eq, Stats.evictions_countArrival, hclaimed.same.stats_eq]

/-- After any run, a request for a new page and a fault, whatever comes of them, evict no page as
    long as a frame is free and one at most if none is.  The page that is evicted goes to a slot
    that was free or to its file, and keeps its right to be written to and its file.  Apart from
    it and the page asked for, all pages are recorded and mapped as before, and apart from the
    frame that changed hands, frames in use and occupied slots hold what they held. -/
theorem run_atMostOneEvicted {config : Config} {device : Device} {requests : List Request}
    {answers : List Answer} (h : Run config n device requests answers m) :
    (∀ process page writable intruding res m',
      (m.mapNewPage process page writable intruding).result = .ok (res, m') →
        m.AtMostOneEvicted m' ⟨process, page⟩) ∧
    ∀ process fault res m', (m.handleFault process fault).result = .ok (res, m') →
      m.AtMostOneEvicted m' ⟨process, .containing fault.address⟩ := by
  constructor
  · intro process page writable intruding res m' hmap
    exact (mapNewPage_cases (o := ⟨process, page⟩) hmap h.sound).atMostOneEvicted h.sound
  · intro process fault res m' hhandle
    exact (handleFault_cases hhandle).atMostOneEvicted h.sound

/-- The only frame holds a page of the first process when the second asks for a page, and when it
    touches a page of a file that is too short. -/
theorem run_atMostOneEvicted_oneFrame : ∃ answers, ∃ m m₁ m₂ : Machine 1,
    Run {} 1 (.inMemory 2) [.spawn 0 {}, .spawn 1 {}, .mapNewPage 0 ⟨0⟩ true false,
      .mapSegment 1 ⟨#[5, 6, 7], 0, ⟨0⟩, 4, 4092, true⟩] answers m ∧
    (m.mapNewPage 1 ⟨1⟩ true false).result = .ok (.ok (), m₁) ∧
    (m.handleFault 1 ⟨1, false, 0⟩).result = .ok (.error .fileRead, m₂) ∧
    m.AtMostOneEvicted m₁ ⟨1, ⟨1⟩⟩ ∧ m.AtMostOneEvicted m₂ ⟨1, ⟨0⟩⟩ := by
  obtain ⟨answers, m, h, hp⟩ := exists_run {} 1 (.inMemory 2) [.spawn 0 {}, .spawn 1 {},
    .mapNewPage 0 ⟨0⟩ true false, .mapSegment 1 ⟨#[5, 6, 7], 0, ⟨0⟩, 4, 4092, true⟩]
    (fun m => (m.mapNewPage 1 ⟨1⟩ true false).result matches .ok (.ok (), _) &&
      (m.handleFault 1 ⟨1, false, 0⟩).result matches .ok (.error .fileRead, _))
    (by decide +kernel)
  rw [Bool.and_eq_true] at hp
  obtain ⟨hnew, hfault⟩ := hp
  split at hnew
  · rename_i m₁ hmap
    split at hfault
    · rename_i m₂ hhandle
      exact ⟨answers, m, m₁, m₂, h, hmap, hhandle, (run_atMostOneEvicted h).1 _ _ _ _ _ _ hmap,
        (run_atMostOneEvicted h).2 _ _ _ _ hhandle⟩
    · cases hfault
  · cases hnew

end DemandPaging.Machine
