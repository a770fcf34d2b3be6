/-
  What is left of a process that was torn down: nothing, and nothing else is gone.

  A teardown goes through the table once and changes the frame table, the slots and the directory
  on the way.  What it gives back and counts is told page by page; which frames and slots are free
  afterwards follows from the records agreeing before and after.

  * `Vacated` is the account of a teardown: what was given back, what is left and what stays;
  * `released_giveBackAll` and `framesInUse_giveBackAll`: the counts, page by page;
  * `vacated_of_destroy` puts it together, and `destroy_again` says that the second teardown finds
    nothing;
  * `exists_destroyAll`: teardowns one after the other;
  * `run_vacated`: the account of any teardown after any run, and of tearing down all processes.
-/
import DemandPaging.Proofs.Counting
import DemandPaging.Proofs.Progress

namespace DemandPaging

theorem PageTable.swappedPages_eq (table : PageTable) :
    table.swappedPages = table.records.count fun record => record.status.slotIndex.isSome := by
  refine congrArg table.records.count (funext fun record => ?_)
  cases record.status <;> rfl

/-! ## Counting what is given back -/

section

variable {σ : Type} {release : σ → Frame → Outcome σ} {state state' done : Teardown σ}
  {pages : List (Page × PageRecord)}

theorem Teardown.released_giveBack {page : Page} {status : PageStatus}
    (h : (state.giveBack release page status).result = .ok state') :
    state'.released.frames = state.released.frames + status.isResident.toNat ∧
      state'.released.slots = state.released.slots + status.slotIndex.isSome.toNat := by
  cases status with
  | zero => cases h; exact ⟨rfl, rfl⟩
  | fileBacked span => cases h; exact ⟨rfl, rfl⟩
  | swapped slot =>
    obtain ⟨swap, -, h⟩ := Outcome.bind_eq_ok_iff.1 h
    cases h
    exact ⟨rfl, rfl⟩
  | resident frame =>
    obtain ⟨receiver, -, h⟩ := Outcome.bind_eq_ok_iff.1 h
    cases h
    exact ⟨rfl, rfl⟩

/-- A teardown counts the pages in frames and the pages in swap. -/
theorem Teardown.released_giveBackAll
    (h : (giveBackAll release pages state).result = .ok done) :
    done.released.frames =
        state.released.frames + pages.countP (fun e => e.2.status.isResident) ∧
      done.released.slots =
        state.released.slots + pages.countP (fun e => e.2.status.slotIndex.isSome) := by
  induction pages generalizing state with
  | nil => cases h; exact ⟨rfl, rfl⟩
  | cons entry rest ih =>
    obtain ⟨state', hgive, h⟩ := Outcome.bind_eq_ok_iff.1 h
    obtain ⟨hframes, hslots⟩ := ih h
    obtain ⟨hframe, hslot⟩ := released_giveBack hgive
    rw [hframes, hslots, hframe, hslot, List.countP_cons, List.countP_cons]
    constructor
    · cases entry.2.status.isResident <;> simp
      omega
    · cases entry.2.status.slotIndex.isSome <;> simp
      omega

end

namespace Machine

variable {n : Nat} {m m' : Machine n} {process : Nat} {released : Released} {x : Owner}

theorem framesInUse_giveBack {state state' : Teardown (FrameTable n)} {page : Page}
    {status : PageStatus} (hc : state.receiver.pool.Counted)
    (h : (state.giveBack FrameTable.release page status).result = .ok state') :
    state'.receiver.pool.inUse + state'.released.frames =
      state.receiver.pool.inUse + state.released.frames := by
  cases status with
  | zero => cases h; rfl
  | fileBacked span => cases h; rfl
  | swapped slot =>
    obtain ⟨swap, -, h⟩ := Outcome.bind_eq_ok_iff.1 h
    cases h
    rfl
  | resident frame =>
    obtain ⟨frames, hrelease, h⟩ := Outcome.bind_eq_ok_iff.1 h
    cases h
    obtain ⟨-, pool, hpool, rfl⟩ := FrameTable.release_cases hrelease
    obtain ⟨hall, -, huse⟩ := Pool.dealloc_cases hpool
    have hpos := Pool.countP_pos_of_isAllocated hall
    have hc : state.receiver.pool.inUse = _ := hc
    show pool.inUse + (state.released.frames + 1) = _
    omega

/-- Every frame that a teardown gives back counts among those that it gave back. -/
theorem framesInUse_giveBackAll {state done : Teardown (FrameTable n)}
    {pages : List (Page × PageRecord)} (hc : state.receiver.pool.Counted)
    (h : (Teardown.giveBackAll FrameTable.release pages state).result = .ok done) :
    done.receiver.pool.inUse + done.released.frames =
      state.receiver.pool.inUse + state.released.frames := by
  induction pages generalizing state with
  | nil => cases h; rfl
  | cons entry rest ih =>
    obtain ⟨state', hgive, h⟩ := Outcome.bind_eq_ok_iff.1 h
    exact (ih ((giveBack_cases hgive).counted hc) h).trans (framesInUse_giveBack hc hgive)

theorem hand_giveBackAll {state done : Teardown (FrameTable n)} {pages : List (Page × PageRecord)}
    (h : (Teardown.giveBackAll FrameTable.release pages state).result = .ok done) :
    done.receiver.hand = state.receiver.hand := by
  induction pages generalizing state with
  | nil => cases h; rfl
  | cons entry rest ih =>
    obtain ⟨state', hgive, h⟩ := Outcome.bind_eq_ok_iff.1 h
    exact (ih h).trans (giveBack_cases hgive).hand_eq

/-! ## What is left -/

/-- The process is gone, and `released` tells what it gave back.  Its table and its directory are
    empty, its frames and slots are free, and everything else is as it was. -/
structure Vacated (m m' : Machine n) (process : Nat) (released : Released) : Prop where
  framesReleased_eq : released.frames = (m.space process).table.residentPages
  slotsReleased_eq : released.slots = (m.space process).table.swappedPages
  table_eq : (m'.space process).table = {}
  present_eq : ∀ page, (m'.space process).directory.has page .present = false
  framesInUse_eq : m'.frames.pool.inUse + released.frames = m.frames.pool.inUse
  slotsInUse_eq : m'.swap.slots.inUse + released.slots = m.swap.slots.inUse
  isAllocated_iff : ∀ g, m'.frames.pool.isAllocated g = true ↔
    m.frames.pool.isAllocated g = true ∧ ∀ page, m.status? ⟨process, page⟩ ≠ some (.resident g)
  hasPin_iff : ∀ g, m'.frames.pool.hasPin g = true ↔
    m.frames.pool.hasPin g = true ∧ ∀ page, m.status? ⟨process, page⟩ ≠ some (.resident g)
  owner?_iff : ∀ g o, m'.frames.owner? g = some o ↔
    m.frames.owner? g = some o ∧ o.process ≠ process
  hand_eq : m'.frames.hand = m.frames.hand
  isOccupied_iff : ∀ slot, m'.swap.slots.isOccupied slot = true ↔
    m.swap.slots.isOccupied slot = true ∧ ∀ page, m.status? ⟨process, page⟩ ≠ some (.swapped slot)
  space_eq : ∀ p, p ≠ process → m'.space p = m.space p
  memory_eq : m'.memory = m.memory
  device_eq : m'.swap.device = m.swap.device
  config_eq : m'.config = m.config
  stats_eq : m'.stats = m.stats

theorem space_duringTeardown {state : Teardown (FrameTable n)} {table : PageTable} (p : Nat) :
    (m.duringTeardown process state table).space p = if process = p then
      { m.space process with table := table, directory := state.directory } else m.space p :=
  AddressSpaces.get_set _ _ _ _

/-- A process loses its pins with its frames, and the disk is left alone. -/
theorem TornDown.hasPin_iff (h : TornDown process m m') (g : Frame) :
    m'.frames.pool.hasPin g = true ↔ m.frames.pool.hasPin g = true ∧
      ∀ page, m.status? ⟨process, page⟩ ≠ some (.resident g) := by
  induction h with
  | done m hempty =>
    refine ⟨fun h => ⟨h, fun page => ?_⟩, fun h => h.1⟩
    rw [status?_eq_none (hempty page)]
    exact nofun
  | page m m₁ m' page record hr hremoved rest ih =>
    rw [ih, hremoved.hasPin_eq]
    have ho := status?_of_record hr
    constructor
    · rintro ⟨hpin, hothers⟩
      split at hpin
      · cases hpin
      · rename_i hne
        refine ⟨hpin, fun q hq => ?_⟩
        by_cases hpage : page = q
        · subst hpage
          exact hne (Option.some.inj (ho.symm.trans hq))
        · refine hothers q ?_
          rw [hremoved.status?_eq, if_neg (by simpa using hpage), hq]
    · rintro ⟨hpin, hnone⟩
      have hne : record.status ≠ .resident g := fun h => hnone page (h ▸ ho)
      refine ⟨by rw [if_neg hne]; exact hpin, fun q hq => ?_⟩
      rw [hremoved.status?_eq] at hq
      split at hq
      · cases hq
      · exact hnone q hq

theorem TornDown.device_eq (h : TornDown process m m') : m'.swap.device = m.swap.device := by
  induction h with
  | done m hempty => rfl
  | page m m₁ m' page record hr hremoved rest ih => exact ih.trans hremoved.device_eq

/-- The pages of the process are forgotten, and no other page is. -/
theorem record?_destroy (h : (m.destroy process).result = .ok (released, m')) (x : Owner) :
    m'.record? x = if process = x.process then none else m.record? x := by
  obtain ⟨done, -, -, rfl⟩ := destroy_eq_ok_iff.1 h
  exact record?_duringTeardown

theorem status?_destroy (h : (m.destroy process).result = .ok (released, m')) (x : Owner) :
    m'.status? x = if process = x.process then none else m.status? x := by
  rw [status?, record?_destroy h]
  split <;> rfl

theorem sound_destroy (hs : m.Sound none) (h : (m.destroy process).result = .ok (released, m')) :
    m'.Sound none := by
  obtain ⟨⟨m₁, hsame, htorn⟩, -⟩ := destroy_cases h hs
  exact htorn.sound (hsame.sound hs)

/-- Where a page of another process is, there was one before, and none of the process. -/
theorem exists_status?_destroy (h : (m.destroy process).result = .ok (released, m'))
    {status : PageStatus}
    (hunique : ∀ o x, m.status? o = some status → m.status? x = some status → o = x) :
    (∃ o, m'.status? o = some status) ↔
      (∃ o, m.status? o = some status) ∧ ∀ page, m.status? ⟨process, page⟩ ≠ some status := by
  constructor
  · rintro ⟨o, ho⟩
    rw [status?_destroy h] at ho
    split at ho
    · cases ho
    · rename_i hne
      refine ⟨⟨o, ho⟩, fun page hpage => hne ?_⟩
      rw [← hunique _ _ hpage ho]
  · rintro ⟨⟨o, ho⟩, hnone⟩
    refine ⟨o, ?_⟩
    rw [status?_destroy h, if_neg, ho]
    rintro rfl
    exact hnone o.page ho

/-- A teardown gives back exactly what the process took up, and tells how much that was. -/
theorem vacated_of_destroy (hs : m.Sound none)
    (h : (m.destroy process).result = .ok (released, m')) :
    m.Vacated m' process released := by
  have hs' := sound_destroy hs h
  obtain ⟨⟨m₁, hsame, htorn⟩, hslots⟩ := destroy_cases h hs
  obtain ⟨done, hdone, rfl, hm⟩ := destroy_eq_ok_iff.1 h
  obtain ⟨hframes, hswapped⟩ := Teardown.released_giveBackAll hdone
  have hpins := htorn.hasPin_iff
  simp only [hsame.status?_eq, hsame.pool_eq] at hpins
  constructor
  case framesReleased_eq => exact hframes.trans (Nat.zero_add _)
  case slotsReleased_eq =>
    rw [PageTable.swappedPages_eq]
    exact hswapped.trans (Nat.zero_add _)
  case table_eq => rw [hm, space_duringTeardown, if_pos rfl]
  case present_eq =>
    intro page
    have hgone : m'.status? ⟨process, page⟩ = none := by rw [status?_destroy h, if_pos rfl]
    have hunmapped : m'.translate ⟨process, page⟩ = none :=
      hs'.linked.translate_eq_none fun g => by rw [hgone]; exact nofun
    exact Directory.has_present_iff.trans (congrArg Option.isSome hunmapped)
  case framesInUse_eq =>
    rw [hm]
    exact framesInUse_giveBackAll hs.linked.counted hdone
  case slotsInUse_eq =>
    rw [Nat.add_comm]
    exact hslots
  case isAllocated_iff =>
    intro g
    rw [hs'.linked.isAllocated_iff, hs.linked.isAllocated_iff]
    exact exists_status?_destroy h fun o x => hs.linked.frame_inj
  case hasPin_iff => exact hpins
  case owner?_iff =>
    intro g o
    rw [hs'.linked.owner?_iff, hs.linked.owner?_iff, status?_destroy h]
    by_cases ho : process = o.process
    · simp [ho]
    · simp [ho, Ne.symm ho]
  case hand_eq =>
    rw [hm]
    exact hand_giveBackAll hdone
  case isOccupied_iff =>
    intro slot
    rw [hs'.slots.occupied_iff, hs.slots.occupied_iff]
    exact exists_status?_destroy h fun o x => hs.slots.unique slot o x
  case space_eq =>
    intro p hp
    rw [hm, space_duringTeardown, if_neg hp.symm]
  case memory_eq => rw [hm]; rfl
  case device_eq => rw [htorn.device_eq, hsame.swap_eq]
  case config_eq => rw [hm]; rfl
  case stats_eq => rw [hm]; rfl

/-- A process that was torn down has nothing to give back. -/
theorem destroy_again (h : (m.destroy process).result = .ok (released, m')) :
    (m'.destroy process).result = .ok ({}, m') := by
  obtain ⟨done, -, -, rfl⟩ := destroy_eq_ok_iff.1 h
  refine destroy_eq_ok_iff.2 ⟨{ done with released := {}, table := {} }, ?_, rfl, ?_⟩
  · rw [space_duringTeardown, if_pos rfl]
    rfl
  · simp only [duringTeardown, space, AddressSpaces.get_set_self, AddressSpaces.set_set]

/-! ## All processes -/

/-- Processes can be torn down one after the other.  Their pages are gone, and others are not. -/
theorem exists_destroyAll (hs : m.Sound none) (order : List Nat) :
    ∃ answers m', (Outcome.answerAll perform m (order.map .destroy)).result = .ok (answers, m') ∧
      m'.Sound none ∧
        ∀ x, m'.record? x = if x.process ∈ order then none else m.record? x := by
  induction order generalizing m with
  | nil => exact ⟨_, m, rfl, hs, fun x => (if_neg List.not_mem_nil).symm⟩
  | cons process rest ih =>
    have hcompletes : (m.destroy process).Completes := completes_destroy hs
    obtain ⟨⟨released, m₁⟩, hdestroy⟩ := hcompletes
    obtain ⟨answers, m', hrest, hs', hrecord⟩ := ih (sound_destroy hs hdestroy)
    refine ⟨.released released :: answers, m', ?_, hs', fun x => ?_⟩
    · have hperform : (m.perform (.destroy process)).result = .ok (.released released, m₁) :=
        Outcome.bind_eq_ok_iff.2 ⟨_, hdestroy, rfl⟩
      exact Outcome.answerAll_cons_iff.2 ⟨_, m₁, answers, hperform, hrest, rfl⟩
    · rw [hrecord, record?_destroy hdestroy]
      by_cases hx : x.process ∈ rest
      · simp [hx]
      · simp [hx, eq_comm]

/-- Where there are no pages, no frame and no slot is in use. -/
theorem Sound.inUse_eq_zero (hs : m.Sound none) (hnone : ∀ x, m.record? x = none) :
    m.frames.pool.inUse = 0 ∧ m.swap.slots.inUse = 0 := by
  constructor
  · rw [hs.linked.counted.inUse_eq, List.length_eq_zero_iff, List.filter_eq_nil_iff]
    intro i _ hallocated
    obtain ⟨o, ho⟩ := (hs.linked.isAllocated_iff _).1 hallocated
    rw [status?_eq_none (hnone o)] at ho
    cases ho
  · refine List.length_eq_zero_iff.2 (List.eq_nil_iff_forall_not_mem.2 fun slot hslot => ?_)
    obtain ⟨o, ho⟩ := (hs.slots.occupied_iff slot).1 (Slots.isOccupied_iff.2 hslot)
    rw [status?_eq_none (hnone o)] at ho
    cases ho

/-- Tearing a process down is exact and local.  After any run, any process can be torn down: what
    it gives back are its pages in frames and its pages in swap, nothing of it is left, and nothing
    else changes.  Doing it again gives nothing back and changes nothing, and once every process
    was torn down, in whatever order, no frame and no slot is in use. -/
theorem run_vacated {config : Config} {device : Device} {requests : List Request}
    {answers : List Answer} (h : Run config n device requests answers m) :
    (∀ process, ∃ released m', (m.destroy process).result = .ok (released, m') ∧
      m.Vacated m' process released ∧ (m'.destroy process).result = .ok ({}, m')) ∧
    ∀ order : List Nat, (∀ process < m.spaces.size, process ∈ order) →
      ∃ later m', (Outcome.answerAll perform m (order.map .destroy)).result = .ok (later, m') ∧
        m'.frames.pool.inUse = 0 ∧ m'.swap.slots.inUse = 0 := by
  have hs := h.sound
  constructor
  · intro process
    have hcompletes : (m.destroy process).Completes := completes_destroy hs
    obtain ⟨⟨released, m'⟩, hdestroy⟩ := hcompletes
    exact ⟨released, m', hdestroy, vacated_of_destroy hs hdestroy, destroy_again hdestroy⟩
  · intro order horder
    obtain ⟨later, m', hperform, hs', hrecord⟩ := exists_destroyAll hs order
    refine ⟨later, m', hperform, hs'.inUse_eq_zero fun x => ?_⟩
    rw [hrecord]
    split
    · rfl
    · rename_i hx
      exact record?_of_size_le (Nat.le_of_not_lt fun hlt => hx (horder _ hlt))

/-- The first of two processes has a page in one of the two frames and a page in swap, which the
    page of the second drove out. -/
theorem run_vacated_twoFrames : ∃ answers later, ∃ m m' m'' : Machine 2,
    Run {} 2 (.inMemory 1) [.spawn 0 {}, .spawn 1 {}, .mapNewPage 0 ⟨0⟩ true false,
      .mapNewPage 0 ⟨1⟩ true false, .mapNewPage 1 ⟨0⟩ true false] answers m ∧
    (m.destroy 0).result = .ok (⟨1, 1⟩, m') ∧ m'.frames.pool.inUse + 1 = m.frames.pool.inUse ∧
    m'.swap.slots.inUse + 1 = m.swap.slots.inUse ∧ m'.space 1 = m.space 1 ∧
    (m'.destroy 0).result = .ok ({}, m') ∧
    (Outcome.answerAll perform m [.destroy 1, .destroy 0]).result = .ok (later, m'') ∧
    m''.frames.pool.inUse = 0 := by
  obtain ⟨answers, m, h, hp⟩ := exists_run {} 2 (.inMemory 1) [.spawn 0 {}, .spawn 1 {},
    .mapNewPage 0 ⟨0⟩ true false, .mapNewPage 0 ⟨1⟩ true false, .mapNewPage 1 ⟨0⟩ true false]
    (fun m => (m.space 0).table.residentPages == 1 && (m.space 0).table.swappedPages == 1 &&
      m.spaces.size == 2) (by decide +kernel)
  simp only [Bool.and_eq_true, beq_iff_eq] at hp
  obtain ⟨⟨hframes, hslots⟩, hsize⟩ := hp
  obtain ⟨hone, hall⟩ := run_vacated h
  obtain ⟨⟨frames, slots⟩, m', hdestroy, hvacated, hagain⟩ := hone 0
  obtain rfl : frames = 1 := hvacated.framesReleased_eq.trans hframes
  obtain rfl : slots = 1 := hvacated.slotsReleased_eq.trans hslots
  obtain ⟨later, m'', hperform, hfree, -⟩ := hall [1, 0] (by rw [hsize]; decide)
  exact ⟨answers, later, m, m', m'', h, hdestroy, hvacated.framesInUse_eq, hvacated.slotsInUse_eq,
    hvacated.space_eq 1 (by decide), hagain, hperform, hfree⟩

end Machine

end DemandPaging
