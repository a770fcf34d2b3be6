/-
  What the counts add up to.

  Pages go round: into a frame, out to swap or back to their file, and in again.  Every turn is
  counted once on its way out and once on its way in, so that the counts tell how many pages are
  under way.

  * `Balanced` is the account: evictions by where the page went, pages in swap by how they came
    and went, pages loaded from a file by what became of them;
  * `Evicted.balanced`, `Installed.balanced` and `TornDown.balanced` are the turns, all other
    changes leave the account alone;
  * `run_conserved`: the account of any run.
-/
import DemandPaging.Proofs.Counting
import DemandPaging.Proofs.Run
import Mathlib.Algebra.GroupWithZero.Nat

namespace DemandPaging

/-- Whether a page of a file is in a frame or in swap. -/
def PageRecord.isLoaded (record : PageRecord) : Bool :=
  record.origin.isSome &&
    match record.status with
    | .resident _ | .swapped _ => true
    | .zero | .fileBacked _ => false

/-- The number of pages of files that are in a frame or in swap. -/
def PageTable.loadedPages (table : PageTable) : Nat :=
  table.records.count PageRecord.isLoaded

/-- How many slots an answer says were given back. -/
def Answer.slotsReleased : Answer → Nat
  | .released given => given.slots
  | _ => 0

theorem Answer.slotsReleased_ofResult (result : Except Error Unit) :
    (Answer.ofResult result).slotsReleased = 0 := by
  cases result <;> rfl

theorem PageRecord.Unloaded.isLoaded_eq {record : PageRecord} (h : record.Unloaded) :
    record.isLoaded = false := by
  cases h <;> rfl

namespace Machine

variable {n : Nat} {m m' m₁ : Machine n} {frame : Frame} {o : Owner} {record : PageRecord}
  {released lost : Nat}

/-- The number of pages of files that are in a frame or in swap. -/
def loadedPages (m : Machine n) : Nat :=
  m.total fun space => space.table.loadedPages

/-- The counts agree with each other and with where pages are, when teardowns have given back
    `released` slots and `lost` pages that had been loaded from files. -/
structure Balanced (m : Machine n) (released lost : Nat) : Prop where
  evictions_eq : m.stats.evictions = m.stats.swapOuts + m.stats.discards
  swapOuts_eq : m.stats.swapOuts = m.stats.swapIns + m.swap.slots.inUse + released
  fileLoads_eq : m.stats.fileLoads = m.stats.discards + m.loadedPages + lost

/-! ## Changes that the account does not see -/

theorem loadedPages_congr
    (h : ∀ x, (m'.record? x).any PageRecord.isLoaded = (m.record? x).any PageRecord.isLoaded) :
    m'.loadedPages = m.loadedPages :=
  total_count_congr h

theorem loadedPages_update (h : ∀ x, o ≠ x → m'.record? x = m.record? x) :
    m'.loadedPages + ((m.record? o).any PageRecord.isLoaded).toNat =
      m.loadedPages + ((m'.record? o).any PageRecord.isLoaded).toNat :=
  total_count_update h

theorem Balanced.of_same (hb : m.Balanced released lost) (hstats : m'.stats = m.stats)
    (hslots : m'.swap.slots = m.swap.slots) (hloaded : m'.loadedPages = m.loadedPages) :
    m'.Balanced released lost := by
  constructor
  · rw [hstats]; exact hb.evictions_eq
  · rw [hstats, hslots]; exact hb.swapOuts_eq
  · rw [hstats, hloaded]; exact hb.fileLoads_eq

/-- As long as the records stay, so does what is loaded. -/
theorem Balanced.of_records (hb : m.Balanced released lost) (hstats : m'.stats = m.stats)
    (hslots : m'.swap.slots = m.swap.slots) (hrecord : ∀ x, m'.record? x = m.record? x) :
    m'.Balanced released lost :=
  hb.of_same hstats hslots (loadedPages_congr fun x => by rw [hrecord])

theorem SameUpToAccess.balanced (h : m.SameUpToAccess m') (hb : m.Balanced released lost) :
    m'.Balanced released lost :=
  hb.of_records h.stats_eq (by rw [h.swap_eq]) h.record?_eq

theorem SameButHeld.balanced (h : m.SameButHeld m' frame) (hb : m.Balanced released lost) :
    m'.Balanced released lost :=
  hb.of_records h.stats_eq h.slots_eq h.record?_eq

theorem Freed.balanced (h : m.Freed m' frame) (hb : m.Balanced released lost) :
    m'.Balanced released lost :=
  hb.of_records h.stats_eq (by rw [h.swap_eq]) h.record?_eq

/-- A new page is not loaded. -/
theorem Added.balanced {new : Owner → Option PageRecord} (h : m.Added m' new)
    (hnew : ∀ x r, new x = some r → r.Unloaded) (hb : m.Balanced released lost) :
    m'.Balanced released lost := by
  refine hb.of_same h.stats_eq (by rw [h.swap_eq]) (loadedPages_congr fun x => ?_)
  rw [h.record?_eq]
  cases hx : new x with
  | none => rw [Option.none_or]
  | some r =>
    rw [Option.some_or, h.absent x r hx, Option.any_some, (hnew x r hx).isLoaded_eq]
    rfl

/-! ## Pages on their way -/

/-- A page that leaves its frame is written to swap, where it still counts as loaded, or is
    dropped. -/
theorem Evicted.balanced (h : m.Evicted m' frame o record) (hr : m.record? o = some record)
    (hstatus : record.status = .resident frame) (hb : m.Balanced released lost) :
    m'.Balanced released lost := by
  obtain ⟨hevictions, hswapOuts, hfileLoads⟩ := hb
  have hbefore : (m.record? o).any PageRecord.isLoaded = record.origin.isSome := by
    rw [hr, Option.any_some, PageRecord.isLoaded, hstatus, Bool.and_true]
  cases h with
  | discarded origin horigin hclean hloses hswap hstats =>
    have hloaded := loadedPages_update fun x hx => (hloses.record?_eq x).trans (if_neg hx)
    rw [hbefore, horigin, hloses.record?_eq, if_pos rfl, Option.any_some, PageRecord.isLoaded,
      Bool.and_false, Option.isSome_some, Bool.toNat_true, Bool.toNat_false] at hloaded
    constructor <;> rw [hstats] <;> simp only [Stats.countDiscard]
    · omega
    · rw [hswap]; exact hswapOuts
    · omega
  | swapped slot swap hdirty hslot hwrite hloses hstats =>
    have hloaded := loadedPages_update fun x hx => (hloses.record?_eq x).trans (if_neg hx)
    rw [hbefore, hloses.record?_eq, if_pos rfl, Option.any_some, PageRecord.isLoaded,
      Bool.and_true] at hloaded
    dsimp only at hloaded
    obtain ⟨slots, hslots, rfl⟩ := SwapSpace.allocate_cases hslot
    obtain ⟨-, hsame, -⟩ := SwapSpace.write_cases hwrite
    have hinUse : m'.swap.slots.inUse = m.swap.slots.inUse + 1 := by
      rw [hsame]
      exact Slots.inUse_allocate hslots
    constructor <;> rw [hstats] <;> simp only [Stats.countSwapOut] <;> omega

theorem Obtained.balanced {res : Except Error Frame} (h : m.Obtained m' res)
    (hb : m.Balanced released lost) : m'.Balanced released lost := by
  cases h with
  | free frame pool halloc hm' => subst hm'; exact hb.of_records rfl rfl fun _ => rfl
  | evicted swept frame o record _ hpick _ hr hstatus hevicted =>
    exact hevicted.balanced hr hstatus ((pickVictim_cases hpick).1.balanced hb)
  | exhausted swept frame o record _ hpick _ hr hstatus hrestored =>
    exact ((pickVictim_cases hpick).1.balanced hb).of_records hrestored.stats_eq
      (by rw [hrestored.swap_eq]) hrestored.record?_eq

/-- A page that comes into a frame leaves its slot, or is loaded from its file, or is all
    zeros. -/
theorem Installed.balanced (h : m.Installed m' frame o record)
    (hbefore : (m.record? o).any PageRecord.isLoaded = record.isLoaded)
    (hout : record.status.isResident = false) (hzero : record.status = .zero → record.origin = none)
    (hbacked : ∀ span, record.status = .fileBacked span → record.origin.isSome = true)
    (hb : m.Balanced released lost) : m'.Balanced released lost := by
  obtain ⟨hevictions, hswapOuts, hfileLoads⟩ := hb
  have hloaded := loadedPages_update fun x hx => (h.record?_eq x).trans (if_neg hx)
  have hafter : (m'.record? o).any PageRecord.isLoaded = record.origin.isSome := by
    rw [h.record?_eq, if_pos rfl, Option.any_some, PageRecord.isLoaded, Bool.and_true]
  have hstats := h.stats_eq
  have hslots := h.slots
  rw [hbefore, hafter, PageRecord.isLoaded] at hloaded
  cases hstatus : record.status with
  | resident g => rw [hstatus] at hout; cases hout
  | zero =>
    have hsame : m'.swap.slots = m.swap.slots := by rw [hstatus] at hslots; exact hslots
    rw [hstatus, hzero hstatus] at hloaded
    rw [hstatus] at hstats
    exact Balanced.of_same ⟨hevictions, hswapOuts, hfileLoads⟩ hstats hsame hloaded
  | swapped slot =>
    rw [hstatus] at hslots hstats hloaded
    rw [Bool.and_true] at hloaded
    have hinUse : m'.swap.slots.inUse + 1 = m.swap.slots.inUse := Slots.inUse_free hslots
    constructor <;> rw [hstats] <;> simp only [Stats.countArrival, Stats.countSwapIn] <;> omega
  | fileBacked span =>
    have hsame : m'.swap.slots = m.swap.slots := by rw [hstatus] at hslots; exact hslots
    rw [hstatus, hbacked span hstatus, Bool.and_false, Bool.toNat_false, Bool.toNat_true] at hloaded
    rw [hstatus] at hstats
    constructor <;> rw [hstats] <;> simp only [Stats.countArrival, Stats.countFileLoad]
    · exact hevictions
    · rw [hsame]; exact hswapOuts
    · omega

/-- What a process loaded from files and had not given up is lost with it. -/
theorem TornDown.loadedPages_le {process : Nat} (h : TornDown process m m') :
    m'.stats = m.stats ∧ m'.loadedPages ≤ m.loadedPages := by
  induction h with
  | done m hempty => exact ⟨rfl, Nat.le_refl _⟩
  | page m m₁ m' page record hr hremoved rest ih =>
    refine ⟨ih.1.trans hremoved.stats_eq, Nat.le_trans ih.2 ?_⟩
    have hloaded := loadedPages_update fun x hx => (hremoved.record?_eq x).trans (if_neg hx)
    rw [hremoved.record?_eq, if_pos rfl, Option.any_none, Bool.toNat_false] at hloaded
    omega

/-! ## Requests -/

theorem Brought.balanced {res : Except Error Unit} (h : m.Brought m' o record res)
    (hf : m.FilesKept) (hr : m.record? o = some record) (hout : record.status.isResident = false)
    (hb : m.Balanced released lost) : m'.Balanced released lost := by
  cases h with
  | frameless e hobtained => exact hobtained.balanced hb
  | givenBack e frame m₁ m₂ hframe hobtained hsame hfreed =>
    exact hfreed.balanced (hsame.balanced (hobtained.balanced hb))
  | installed frame m₁ m₂ m₃ hobtained hclaimed hfilled hinstalled =>
    have hb₃ := hfilled.same.balanced (hclaimed.same.balanced (hobtained.balanced hb))
    have hr₃ : m₃.record? o = some record := by
      rw [hfilled.same.record?_eq, hclaimed.same.record?_eq, hobtained.record?_of_out hr hout]
    refine hinstalled.balanced (by rw [hr₃, Option.any_some]) hout (hf.zero o record hr) ?_ hb₃
    intro span hspan
    obtain ⟨origin, horigin, -⟩ := hf.backed o record span hr hspan
    rw [horigin]
    rfl

theorem Handled.balanced {process : Nat} {fault : PageFault} {res : Except Error Unit}
    (h : m.Handled m' process fault res) (hs : m.Sound none) (hb : m.Balanced released lost) :
    m'.Balanced released lost := by
  cases h with
  | rejected e hnot hm => subst hm; exact hb
  | resident record hr hin hm => subst hm; exact hb
  | known record res hr hout hbrought => exact hbrought.balanced hs.files hr hout hb
  | grown m₁ res hgrows hadded hbrought =>
    exact hbrought.balanced (hadded.sound unloaded_zero hs).files hadded.record?_self rfl
      (hadded.balanced unloaded_zero hb)

theorem MappedNew.balanced {writable : Bool} {intruder : Option Bool} {res : Except Error Unit}
    (h : m.MappedNew m' o writable intruder res) (hb : m.Balanced released lost) :
    m'.Balanced released lost := by
  cases h with
  | taken record hr hm => subst hm; exact hb
  | frameless e hr hobtained => exact hobtained.balanced hb
  | refused frame m₁ m₂ hr hobtained hclaimed hfreed =>
    exact hfreed.balanced (hclaimed.same.balanced (hobtained.balanced hb))
  | intruded frame m₁ m₂ m₃ hr hintruder hobtained hclaimed hadded hfreed =>
    exact hfreed.balanced (hadded.balanced unloaded_zero
      (hclaimed.same.balanced (hobtained.balanced hb)))
  | placed frame m₁ m₂ hr hintruder hobtained hclaimed hinstalled =>
    have hr₂ : m₂.record? o = none := by
      rw [hclaimed.same.record?_eq, hobtained.record?_of_none hr]
    exact hinstalled.balanced (by rw [hr₂]; rfl) rfl (fun _ => rfl) nofun
      (hclaimed.same.balanced (hobtained.balanced hb))

/-- Every request keeps the account.  A teardown adds to what was given back, and may add to what
    was lost. -/
theorem Performed.balanced {request : Request} {answer : Answer} (h : m.Performed m' request answer)
    (hs : m.Sound none) (hb : m.Balanced released lost) :
    ∃ lost', m'.Balanced (released + answer.slotsReleased) lost' ∧
      ((∀ process, request ≠ .destroy process) → lost' = lost) := by
  have hkept : answer.slotsReleased = 0 → m'.Balanced released lost →
      ∃ lost', m'.Balanced (released + answer.slotsReleased) lost' ∧
        ((∀ process, request ≠ .destroy process) → lost' = lost) := by
    intro hnone hb'
    rw [hnone]
    exact ⟨lost, hb', fun _ => rfl⟩
  cases h with
  | spawn pid traits hm =>
    subst hm
    exact hkept rfl (hb.of_records rfl rfl record?_spawn)
  | mapNewPage process page writable intruding result hmapped =>
    exact hkept (Answer.slotsReleased_ofResult result) (hmapped.balanced hb)
  | mapSegment process segment result hmapped =>
    refine hkept (Answer.slotsReleased_ofResult result) ?_
    rcases hmapped with ⟨-, hadded⟩ | ⟨count, -, -, hadded⟩
    · exact hadded.balanced nofun hb
    · exact hadded.balanced Segment.unloaded_records hb
  | fault process fault result hhandled =>
    exact hkept (Answer.slotsReleased_ofResult result) (hhandled.balanced hs hb)
  | load process address length stackPointer limit access hload =>
    exact hkept rfl (load_keeps
      (fun _ _ _ _ hb => hb.of_records rfl rfl fun _ => record?_duringAccess)
      (fun _ _ _ _ hs hb hhandled => hhandled.balanced hs hb) hs hb hload).2
  | store process address data stackPointer limit access hstore =>
    exact hkept rfl (store_keeps
      (fun _ _ _ _ hb => hb.of_records rfl rfl fun _ => record?_duringAccess)
      (fun _ _ _ _ hs hb hhandled => hhandled.balanced hs hb) hs hb hstore).2
  | destroy process done m₁ hsame htorn hslots =>
    obtain ⟨hevictions, hswapOuts, hfileLoads⟩ := hsame.balanced hb
    obtain ⟨hstats, hloaded⟩ := htorn.loadedPages_le
    rw [← hsame.swap_eq] at hslots
    refine ⟨lost + (m₁.loadedPages - m'.loadedPages), ⟨?_, ?_, ?_⟩,
      fun hnot => absurd rfl (hnot process)⟩
    · rw [hstats]; exact hevictions
    · rw [hstats, Answer.slotsReleased]; omega
    · rw [hstats]; omega
  | pin frame hallocated hm => subst hm; exact hkept rfl (hb.of_records rfl rfl fun _ => rfl)
  | unpin frame hallocated hm => subst hm; exact hkept rfl (hb.of_records rfl rfl fun _ => rfl)
  | pickVictim frame hpick => exact hkept rfl ((pickVictim_cases hpick).1.balanced hb)
  | refuse process pages hm =>
    subst hm
    exact hkept rfl (hb.of_records rfl rfl fun _ => record?_setDirectory _)

/-! ## Runs -/

theorem Balanced.answerAll {requests : List Request} {answers : List Answer}
    (hb : m.Balanced released lost) (hs : m.Sound none)
    (h : (Outcome.answerAll perform m requests).result = .ok (answers, m')) :
    ∃ lost', m'.Balanced (released + (answers.map Answer.slotsReleased).sum) lost' ∧
      ((∀ process, .destroy process ∉ requests) → lost' = lost) := by
  induction requests generalizing m answers released lost with
  | nil => cases h; exact ⟨lost, hb, fun _ => rfl⟩
  | cons request rest ih =>
    obtain ⟨answer, m₁, others, hrequest, hrest, rfl⟩ := Outcome.answerAll_cons_iff.1 h
    have hperformed := perform_cases hs hrequest
    obtain ⟨lost₁, hb₁, hlost₁⟩ := hperformed.balanced hs hb
    obtain ⟨lost₂, hb₂, hlost₂⟩ := ih hb₁ (hperformed.sound hs) hrest
    refine ⟨lost₂, ?_, fun hnot => ?_⟩
    · rw [List.map_cons, List.sum_cons, ← Nat.add_assoc]
      exact hb₂
    · rw [hlost₂ fun process hin => hnot process (List.mem_cons_of_mem _ hin),
        hlost₁ fun process heq => hnot process (heq ▸ List.mem_cons_self)]

theorem balanced_booted {config : Config} {device : Device} :
    (booted config n device).Balanced 0 0 := by
  have hnone : (booted config n device).loadedPages = 0 := rfl
  exact ⟨rfl, rfl, by rw [hnone]; rfl⟩

/-- After any run, every eviction was a page written to swap or a page dropped; every page written
    to swap was read back, is there still, or was given back by a teardown; and of the pages loaded
    from files, as many were dropped or are in a frame or in swap, but for those that went with
    their process. -/
theorem run_conserved {config : Config} {device : Device} {requests : List Request}
    {answers : List Answer} (h : Run config n device requests answers m) :
    m.stats.evictions = m.stats.swapOuts + m.stats.discards ∧
    m.stats.swapOuts =
      m.stats.swapIns + m.swap.slots.inUse + (answers.map Answer.slotsReleased).sum ∧
    m.stats.discards + m.loadedPages ≤ m.stats.fileLoads ∧
    ((∀ process, .destroy process ∉ requests) →
      m.stats.discards + m.loadedPages = m.stats.fileLoads) := by
  obtain ⟨lost, ⟨hevictions, hswapOuts, hfileLoads⟩, hlost⟩ :=
    balanced_booted.answerAll sound_booted (run_iff.1 h)
  refine ⟨hevictions, ?_, ?_, fun hnot => ?_⟩
  · rw [hswapOuts, Nat.zero_add]
  · omega
  · rw [hfileLoads, hlost hnot, Nat.add_zero]

/-- A page of a file and a page of zeros of another process take turns in the only frame.  The one
    is stored to and the other has no file, so that each goes to swap.  Then the second process
    ends. -/
theorem run_conserved_oneFrame : ∃ answers answers', ∃ m m' : Machine 1,
    Run {} 1 (.inMemory 2) [.spawn 0 {}, .spawn 1 {}, .mapSegment 0 ⟨#[5, 6], 0, ⟨0⟩, 2, 4094, true⟩,
      .store 0 1 #[9] 0 1, .mapNewPage 1 ⟨0⟩ true false, .load 0 0 1 0 1] answers m ∧
    m.stats = { evictions := 2, swapOuts := 2, discards := 0, swapIns := 1, fileLoads := 1 } ∧
    m.stats.swapOuts = m.stats.swapIns + m.swap.slots.inUse +
      (answers.map Answer.slotsReleased).sum ∧
    m.stats.discards + m.loadedPages = m.stats.fileLoads ∧
    Run {} 1 (.inMemory 2) [.spawn 0 {}, .spawn 1 {}, .mapSegment 0 ⟨#[5, 6], 0, ⟨0⟩, 2, 4094, true⟩,
      .store 0 1 #[9] 0 1, .mapNewPage 1 ⟨0⟩ true false, .load 0 0 1 0 1, .destroy 1] answers' m' ∧
    m'.stats.swapOuts = m'.stats.swapIns + m'.swap.slots.inUse +
      (answers'.map Answer.slotsReleased).sum := by
  obtain ⟨answers, m, h, hp⟩ := exists_run {} 1 (.inMemory 2) [.spawn 0 {}, .spawn 1 {},
    .mapSegment 0 ⟨#[5, 6], 0, ⟨0⟩, 2, 4094, true⟩, .store 0 1 #[9] 0 1,
    .mapNewPage 1 ⟨0⟩ true false, .load 0 0 1 0 1] (fun m => m.stats =
      { evictions := 2, swapOuts := 2, discards := 0, swapIns := 1, fileLoads := 1 })
    (by decide +kernel)
  obtain ⟨answers', m', h', -⟩ := exists_run {} 1 (.inMemory 2) [.spawn 0 {}, .spawn 1 {},
    .mapSegment 0 ⟨#[5, 6], 0, ⟨0⟩, 2, 4094, true⟩, .store 0 1 #[9] 0 1,
    .mapNewPage 1 ⟨0⟩ true false, .load 0 0 1 0 1, .destroy 1] (fun _ => true) (by decide +kernel)
  obtain ⟨-, hswap, -, hfiles⟩ := run_conserved h
  exact ⟨answers, answers', m, m', h, of_decide_eq_true hp, hswap, hfiles (by simp), h',
    (run_conserved h').2.1⟩

end Machine

end DemandPaging
