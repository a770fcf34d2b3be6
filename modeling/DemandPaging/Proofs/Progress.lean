/-
  Nothing panics on a machine whose records agree.

  A machine is `Serviceable` if its swap device serves every transfer, its frame numbers fit
  into directory entries, its directories have memory for every mapping, and the hand of the
  clock is on a frame.  With room for the transfers of one page among the counts of the device
  (`HasRoom`) every operation then completes, one lemma for each:

  * `completes_takeFrame`, `completes_allocate`: a frame is got, without a panic;
  * `completes_handleFault`, `completes_mapNewPage` and `completes_destroy`, put together in
    `completes_perform`.
-/
import DemandPaging.Proofs.Steady

namespace DemandPaging

theorem Directory.completes_map {directory : Directory} {page : Page} {frame : Frame}
    (writable : Bool) (h : frame.index ≤ maxFrameNumber) :
    (directory.map page frame writable).Completes := by
  obtain ⟨mapped, directory', hmap⟩ := directory.exists_map page writable h
  exact .of_eq hmap

theorem PageTable.exists_markEvicted {table : PageTable} {page : Page} {record : PageRecord}
    {eviction : Eviction} {dirty : Bool} (hr : table.get? page = some record)
    (hin : record.status.isResident = true)
    (hdrop : eviction = .discarded →
      record.origin.isSome = true ∧ (record.dirty || dirty) = false) :
    ∃ table', (table.markEvicted page eviction dirty).result = .ok (.ok table') := by
  unfold markEvicted
  simp only [hr, hin, Bool.not_true, Bool.false_eq_true, if_false]
  cases eviction with
  | swapped slot => exact ⟨_, rfl⟩
  | discarded =>
    obtain ⟨hsome, hclean⟩ := hdrop rfl
    obtain ⟨origin, horigin⟩ := Option.isSome_iff_exists.1 hsome
    simp only [horigin, hclean]
    exact ⟨_, rfl⟩

namespace Machine

variable {n : Nat} {m m' : Machine n} {held : Option Frame} {frame : Frame} {o : Owner}
  {record : PageRecord} {process : Nat} {page : Page}

/-- The machine can serve its requests, as far as its setup goes. -/
structure Serviceable (m : Machine n) : Prop where
  device : m.swap.device.Healthy
  capacity_eq : m.swap.slots.capacity = m.swap.device.size / sectorsPerPage
  accepts : ∀ p, (m.space p).directory.refused = []
  hand_lt : m.frames.hand < n
  le_frames : n ≤ maxFrameNumber + 1

/-- Neither count of the swap device overflows when one more page is read and one more is
    written. -/
def HasRoom (m : Machine n) : Prop :=
  m.swap.device.reads + sectorsPerPage < sectorLimit ∧
    m.swap.device.writes + sectorsPerPage < sectorLimit

namespace Serviceable

theorem of_sameSetup (h : m.Serviceable) (hsame : m.SameSetup m') : m'.Serviceable where
  device := h.device.same hsame.device_same
  capacity_eq := by rw [hsame.capacity_eq, hsame.device_same.size_eq]; exact h.capacity_eq
  accepts p := (congrArg DirectoryTraits.refused (hsame.traits_eq p)).trans (h.accepts p)
  hand_lt := hsame.hand_lt h.hand_lt
  le_frames := h.le_frames

theorem healthy (h : m.Serviceable) (hs : m.SlotsLinked) : m.swap.Healthy :=
  ⟨h.device, hs.sound, h.capacity_eq⟩

theorem index_le (h : m.Serviceable) (hlt : frame.index < n) : frame.index ≤ maxFrameNumber := by
  have hle := h.le_frames
  omega

end Serviceable

/-! ## Reclaiming a frame -/

/-- When every frame is in use and none is pinned, the clock finds a victim. -/
theorem exists_victim (hs : m.Sound none) (hp : m.Unpinned none) (hhand : m.frames.hand < n)
    (hfull : ∀ g : Frame, g.index < n → m.frames.pool.isAllocated g = true) :
    ∃ frame swept, m.pickVictim = (some frame, swept) := by
  have hall := hfull ⟨m.frames.hand⟩ hhand
  have hcandidate : m.frames.isCandidate ⟨m.frames.hand⟩ = true :=
    candidate_iff.2 ⟨hall, hp _ nofun, (hs.linked.isTracked_iff _).1 hall⟩
  obtain ⟨victim, hvictim⟩ : ∃ victim, (Clock.pick n
      (fun frame => m.frames.isCandidate ⟨frame⟩) m.frames.accessTest m.frames.hand
      m.spaces).victim = some victim :=
    Clock.exists_pick hhand hhand hcandidate
  refine ⟨⟨victim⟩, _, Prod.ext ?_ rfl⟩
  show Option.map Frame.mk _ = some ⟨victim⟩
  rw [hvictim]
  rfl

theorem completes_restoreMapping {writable accessed dirty : Bool}
    (haccepts : (m.space o.process).directory.refused = []) (hle : frame.index ≤ maxFrameNumber) :
    (m.restoreMapping o frame writable accessed dirty).Completes := by
  refine .bind (Directory.completes_map writable hle) fun done hmap => ?_
  obtain ⟨mapped, directory⟩ := done
  rcases Directory.map_cases hmap with ⟨-, hrefused, -⟩ | ⟨rfl, -⟩
  · rw [haccepts] at hrefused
    cases hrefused
  · exact .bind (.require rfl) fun _ _ => .pure _

theorem completes_chooseEviction {dirty : Bool} (hs : m.swap.slots.Sound) :
    (m.chooseEviction record dirty).Completes := by
  unfold chooseEviction
  split
  · exact .pure _
  · obtain ⟨res, slots, hslots⟩ := hs.exists_allocate
    exact .bind (.bind_of hslots (.pure _)) fun _ _ => .pure _

/-- What is known once it is decided where a page goes. -/
theorem chooseEviction_ok {dirty : Bool} {eviction : Eviction} (hs : m.swap.slots.Sound)
    (h : (m.chooseEviction record dirty).result = .ok (.ok eviction, m')) :
    m'.spaces = m.spaces ∧ m'.swap.device = m.swap.device ∧ m'.swap.slots.Sound ∧
      m'.swap.slots.capacity = m.swap.slots.capacity ∧
      (eviction = .discarded → record.origin.isSome = true ∧ dirty = false) ∧
      ∀ slot, eviction = .swapped slot → m'.swap.slots.isOccupied slot = true := by
  rcases chooseEviction_cases h with ⟨hsome, hclean, heq, rfl⟩ | ⟨-, slot, swap, hslot, heq, rfl⟩
  · cases heq
    exact ⟨rfl, rfl, hs, rfl, fun _ => ⟨hsome, hclean⟩, nofun⟩
  · obtain ⟨slots, hslots, rfl⟩ := SwapSpace.allocate_cases hslot
    have hsound := hs.allocate hslots
    have hcapacity := Slots.capacity_allocate hslots
    cases slot with
    | error e => cases heq
    | ok slot =>
      cases heq
      refine ⟨rfl, rfl, hsound, hcapacity, nofun, ?_⟩
      rintro _ ⟨⟩
      rcases Slots.allocate_cases hslots with ⟨hno, -⟩ | ⟨slot', hsome, -, hocc⟩
      · cases hno
      · cases hsome
        show slots.isOccupied slot = true
        rw [Slots.isOccupied_iff, hocc]
        exact List.mem_cons_self

theorem completes_saveContents {eviction : Eviction} (hlt : frame.index < n)
    (hhealthy : m.swap.Healthy) (hroom : m.swap.device.writes + sectorsPerPage < sectorLimit)
    (hslot : ∀ slot, eviction = .swapped slot → m.swap.slots.isOccupied slot = true) :
    (m.saveContents frame eviction).Completes := by
  cases eviction with
  | discarded => exact .pure _
  | swapped slot =>
    refine .bind_of (Memory.get_eq_ok_iff.2 ⟨hlt, rfl⟩) ?_
    exact .bind (hhealthy.exists_write _ (hslot slot rfl) hroom) fun _ _ => .pure _

theorem victimRecord_of (howner : m.frames.owner? frame = some o)
    (hr : m.record? o = some record) (hstatus : record.status = .resident frame) :
    (m.victimRecord frame).result = .ok (o, record) := by
  have hr : (m.space o.process).table.get? o.page = some record := hr
  unfold victimRecord
  simp only [howner, hr]
  exact Outcome.bind_eq_ok_iff.2 ⟨(), Outcome.require_eq_ok_iff.2 hstatus, rfl⟩

theorem completes_takeFrame (hs : m.Sound none) (hm : m.Serviceable)
    (hroom : m.swap.device.writes + sectorsPerPage < sectorLimit)
    (howner : m.frames.owner? frame = some o) : (m.takeFrame frame).Completes := by
  have ho := (hs.linked.owner?_iff frame o).1 howner
  have hlt := hs.linked.lt ho
  obtain ⟨record, hr, hstatus⟩ := status?_eq_some.1 ho
  refine .bind_of (victimRecord_of howner hr hstatus) ?_
  dsimp only
  generalize hc : m.setDirectory o.process ((m.space o.process).directory.clear o.page) = c
  generalize hd : (((m.space o.process).directory.clear o.page).isDirty o.page || record.dirty)
    = dirty
  have hcr : (c.space o.process).table.get? o.page = some record := by
    rw [← hc]
    exact (record?_setDirectory _).trans hr
  have hslots : c.swap.slots.Sound := by rw [← hc]; exact hs.slots.sound
  refine .bind (completes_chooseEviction hslots) fun done hchoose => ?_
  obtain ⟨eviction, m₁⟩ := done
  cases eviction with
  | error e =>
    have haccepts : (m₁.space o.process).directory.refused = [] := by
      rcases chooseEviction_cases hchoose with ⟨-, -, hno, -⟩ | ⟨-, slot, swap, -, -, rfl⟩
      · cases hno
      · show (c.space o.process).directory.refused = []
        rw [← hc, space_setDirectory, if_pos rfl]
        exact hm.accepts o.process
    exact .bind (completes_restoreMapping haccepts (hm.index_le hlt)) fun _ _ => .pure _
  | ok eviction =>
    obtain ⟨hspaces, hdevice, hsound, hcapacity, hdrop, hslot⟩ := chooseEviction_ok hslots hchoose
    have hdevice : m₁.swap.device = m.swap.device := by rw [hdevice, ← hc]; rfl
    have hcapacity : m₁.swap.slots.capacity = m.swap.slots.capacity := by
      rw [hcapacity, ← hc]; rfl
    have hhealthy : m₁.swap.Healthy :=
      ⟨hdevice ▸ hm.device, hsound, by rw [hcapacity, hdevice]; exact hm.capacity_eq⟩
    refine .bind (completes_saveContents hlt hhealthy (hdevice ▸ hroom) hslot) fun m₂ hsave => ?_
    have hspaces₂ : m₂.spaces = m₁.spaces := by
      have hsaved := saveContents_cases hsave
      cases eviction with
      | swapped slot => obtain ⟨swap, -, rfl⟩ := hsaved; rfl
      | discarded => rw [hsaved]
    have hget : (m₂.space o.process).table.get? o.page = some record := by
      rw [space, hspaces₂, hspaces]
      exact hcr
    have hdrop : eviction = .discarded →
        record.origin.isSome = true ∧ (record.dirty || dirty) = false := by
      intro h
      obtain ⟨hsome, hclean⟩ := hdrop h
      rw [← hd, Bool.or_eq_false_iff] at hclean
      rw [← hd, hclean.1, hclean.2]
      exact ⟨hsome, rfl⟩
    obtain ⟨table, htable⟩ := PageTable.exists_markEvicted hget (by rw [hstatus]; rfl) hdrop
    refine .bind_of htable ?_
    exact .bind (.log _) fun _ _ => .pure _

theorem completes_evict (hs : m.Sound none) (hp : m.Unpinned none) (hm : m.Serviceable)
    (hroom : m.swap.device.writes + sectorsPerPage < sectorLimit)
    (hfull : ∀ g : Frame, g.index < n → m.frames.pool.isAllocated g = true) :
    m.evict.Completes := by
  obtain ⟨frame, swept, hpick⟩ := exists_victim hs hp hm.hand_lt hfull
  obtain ⟨hsame, hcandidate⟩ := pickVictim_cases hpick
  obtain ⟨-, -, htracked⟩ := candidate_iff.1 (hcandidate frame rfl)
  obtain ⟨o, howner⟩ := Option.isSome_iff_exists.1 htracked
  unfold evict
  rw [hpick]
  refine .bind (completes_takeFrame (hsame.sound hs) (hm.of_sameSetup hsame.sameSetup) ?_
    ((hsame.owner?_eq frame).trans howner)) fun _ _ => .pure _
  rw [hsame.swap_eq]
  exact hroom

theorem completes_obtainFrame (hs : m.Sound none) (hp : m.Unpinned none) (hm : m.Serviceable)
    (hroom : m.swap.device.writes + sectorsPerPage < sectorLimit) : m.obtainFrame.Completes := by
  obtain ⟨res, frames, halloc, hfull⟩ := FrameTable.exists_alloc hs.linked.counted
  refine .bind_of halloc ?_
  cases res with
  | some frame => exact .pure _
  | none =>
    obtain rfl := FrameTable.alloc_none halloc
    exact completes_evict hs hp hm hroom (hfull rfl)

theorem completes_allocate {zero : Bool} (hs : m.Sound none) (hp : m.Unpinned none)
    (hm : m.Serviceable) (hroom : m.swap.device.writes + sectorsPerPage < sectorLimit) :
    (m.allocate process page zero).Completes := by
  refine .bind (completes_obtainFrame hs hp hm hroom) fun done hobtain => ?_
  obtain ⟨obtained, m₁⟩ := done
  have hs₁ := (obtainFrame_cases hobtain).sound hs
  cases obtained with
  | error e => exact .pure _
  | ok frame =>
    have hall := hs₁.linked.held_allocated frame rfl
    obtain ⟨frames, hframes⟩ := FrameTable.exists_setPinned true hall
    refine .bind_of hframes (.bind (.log _) fun _ _ => ?_)
    cases zero with
    | true =>
      exact .bind (Memory.exists_put _ (Pool.lt_of_isAllocated hall)) fun _ _ => .pure _
    | false => exact .bind (.pure _) fun _ _ => .pure _

/-! ## Bringing a page in -/

theorem Obtained.reads_eq {res : Except Error Frame} (h : m.Obtained m' res) :
    m'.swap.device.reads = m.swap.device.reads := by
  cases h with
  | free frame pool halloc hm' => subst hm'; rfl
  | evicted swept frame o record _ hpick _ _ _ hevicted =>
    rw [← (pickVictim_cases hpick).1.swap_eq]
    cases hevicted with
    | discarded origin horigin hclean hloses hswap hstats => rw [hswap]
    | swapped slot swap hdirty hslot hwrite hloses hstats =>
      obtain ⟨slots, -, rfl⟩ := SwapSpace.allocate_cases hslot
      obtain ⟨-, -, -, -, hreads, -⟩ := SwapSpace.write_cases hwrite
      exact hreads
  | exhausted swept frame o record _ hpick _ _ _ hrestored =>
    rw [hrestored.swap_eq, (pickVictim_cases hpick).1.swap_eq]

theorem completes_free (howner : m.frames.owner? frame = some o)
    (hall : m.frames.pool.isAllocated frame = true) : (m.free frame).Completes := by
  have htracked : m.frames.isTracked frame = true := by rw [FrameTable.isTracked, howner]; rfl
  exact .bind (FrameTable.exists_release htracked hall) fun _ _ => .pure _

theorem completes_unpin (hall : m.frames.pool.isAllocated frame = true) :
    (m.unpin frame).Completes :=
  .bind (FrameTable.exists_setPinned false hall) fun _ _ => .pure _

theorem completes_fill {x : Owner} (hs : m.Sound (some frame)) (hm : m.Serviceable)
    (hroom : m.swap.device.reads + sectorsPerPage < sectorLimit)
    (howner : m.frames.owner? frame = some o) (hr : m.record? x = some record) :
    (m.fill process page record frame).Completes := by
  have hlt := hs.linked.held_lt
  have hall := hs.linked.held_allocated frame rfl
  unfold fill
  cases hstatus : record.status with
  | zero => exact .pure _
  | resident g => exact .pure _
  | swapped slot =>
    have hocc := (hs.slots.occupied_iff slot).2 ⟨x, hstatus ▸ status?_of_record hr⟩
    obtain ⟨contents, swap, hread⟩ := (hm.healthy hs.slots).exists_read hocc hroom
    exact .bind_of hread (.bind (Memory.exists_put _ hlt) fun _ _ => .pure _)
  | fileBacked span =>
    obtain ⟨origin, horigin, -⟩ := hs.files.backed x record span hr hstatus
    simp only [horigin]
    split
    · exact .bind (Memory.exists_put _ hlt) fun _ _ => .pure _
    · refine .bind (Memory.exists_update _ hlt) fun memory _ => ?_
      refine .bind (completes_free howner hall) fun _ _ => ?_
      exact .bind (.log _) fun _ _ => .pure _

theorem completes_leaveSource {status : PageStatus} (hsound : m.swap.slots.Sound)
    (hocc : ∀ slot, status = .swapped slot → m.swap.slots.isOccupied slot = true) :
    (m.leaveSource status).Completes := by
  cases status with
  | zero => exact .pure _
  | resident g => exact .pure _
  | fileBacked span => exact .pure _
  | swapped slot =>
    obtain ⟨slots, hslots⟩ := hsound.exists_free (hocc slot rfl)
    exact .bind (.bind_of hslots (.pure _)) fun _ _ => .pure _

theorem completes_install {x : Owner} (hs : m.Sound (some frame)) (hm : m.Serviceable)
    (howner : m.frames.owner? frame = some x) (hr : m.record? o = some record) :
    (m.install o.process o.page record frame).Completes := by
  have hall := hs.linked.held_allocated frame rfl
  refine .bind (Directory.completes_map _ (hm.index_le hs.linked.held_lt)) fun done hmap => ?_
  obtain ⟨mapped, directory⟩ := done
  cases mapped with
  | false => exact .bind (completes_free howner hall) fun _ _ => .pure _
  | true =>
    dsimp only
    generalize directory.setDirty o.page false = d
    have hr' : ((m.setDirectory o.process d).space o.process).table.get? o.page = some record :=
      (record?_setDirectory d).trans hr
    refine .bind_of (PageTable.markResident_eq_ok_iff.2 ⟨record, hr', rfl⟩) ?_
    have hocc : ∀ slot, record.status = .swapped slot → m.swap.slots.isOccupied slot = true :=
      fun slot hslot => (hs.slots.occupied_iff slot).2 ⟨o, hslot ▸ status?_of_record hr⟩
    refine .bind (completes_leaveSource hs.slots.sound hocc) fun m₁ hleave => ?_
    obtain ⟨slots, -, rfl⟩ := leaveSource_cases hleave
    exact .bind (completes_unpin hall) fun _ _ => .pure _

theorem completes_bringIn (hs : m.Sound none) (hp : m.Unpinned none) (hm : m.Serviceable)
    (hroom : m.HasRoom) (hr : m.record? o = some record)
    (hout : record.status.isResident = false) :
    (m.bringIn o.process o.page record).Completes := by
  refine .bind (completes_allocate hs hp hm hroom.2) fun done hallocate => ?_
  obtain ⟨allocated, m₂⟩ := done
  rcases allocate_cases hallocate with ⟨e, rfl, -⟩ | ⟨frame, m₁, rfl, hframe, hclaimed⟩
  · exact .pure _
  have hobtained := obtainFrame_cases hframe
  have hs₂ := hclaimed.same.sound (hobtained.sound hs)
  have hm₂ := hm.of_sameSetup (hobtained.sameSetup.trans hclaimed.same.sameSetup)
  have hr₂ : m₂.record? o = some record := by
    rw [hclaimed.same.record?_eq, hobtained.record?_of_out hr hout]
  have hroom₂ : m₂.swap.device.reads + sectorsPerPage < sectorLimit := by
    rw [hclaimed.swap_eq, hobtained.reads_eq]
    exact hroom.1
  refine .bind (completes_fill hs₂ hm₂ hroom₂ hclaimed.owner?_self hr₂) fun done hfill => ?_
  obtain ⟨filled, m₃⟩ := done
  have hzero : record.status = .zero → m₂.memory.contents frame = .zero := by
    intro hz
    rw [hclaimed.contents_self]
    simp [hz]
  rcases fill_cases hfill hzero hout with ⟨rfl, hfilled⟩ | ⟨rfl, -⟩
  · exact completes_install (hfilled.same.sound hs₂) (hm₂.of_sameSetup hfilled.same.sameSetup)
      (hfilled.owner?_self.trans hclaimed.owner?_self) ((hfilled.same.record?_eq o).trans hr₂)
  · exact .pure _

theorem completes_handleFault {fault : PageFault} (hs : m.Sound none) (hp : m.Unpinned none)
    (hm : m.Serviceable) (hroom : m.HasRoom) : (m.handleFault process fault).Completes := by
  unfold handleFault
  split
  · exact .bind (.log _) fun _ _ => .pure _
  · rename_i page record hverdict
    obtain ⟨rfl, hr, -⟩ := judge_known hverdict
    split
    · exact .pure _
    · rename_i hout
      have hout : record.status.isResident = false := by simpa using hout
      exact completes_bringIn (o := ⟨process, .containing fault.address⟩) hs hp hm hroom hr hout
  · rename_i page hverdict
    obtain ⟨rfl, hgrows⟩ := judge_stackGrowth hverdict
    split
    · exact .pure _
    · rename_i table hinsert
      have hadded := added_insertZero (o := ⟨process, .containing fault.address⟩) hinsert
      refine .bind (.log _) fun _ _ => ?_
      refine completes_bringIn (o := ⟨process, .containing fault.address⟩)
        (hadded.sound unloaded_zero hs) (hadded.unpinned hp) (hm.of_sameSetup hadded.sameSetup)
        ?_ hadded.record?_self rfl
      rw [HasRoom, hadded.swap_eq]
      exact hroom

/-! ## New pages -/

theorem completes_placeNewPage {x : Owner} {writable : Bool} {intruder : Option Bool}
    (hs : m.Sound (some frame)) (howner : m.frames.owner? frame = some x)
    (hmap : ((m.space process).directory.map page frame writable).Completes) :
    (m.placeNewPage process page frame writable intruder).Completes := by
  have hall := hs.linked.held_allocated frame rfl
  refine .bind hmap fun done _ => ?_
  obtain ⟨mapped, directory⟩ := done
  cases mapped with
  | false => exact .bind (completes_free howner hall) fun _ _ => .pure _
  | true =>
    simp only [Bool.not_true, Bool.false_eq_true, if_false]
    split
    · exact .bind (completes_free howner hall) fun _ _ => .pure _
    · exact .bind (completes_unpin hall) fun _ _ => .pure _

theorem completes_mapNewPage {writable intruding : Bool} (hs : m.Sound none)
    (hp : m.Unpinned none) (hm : m.Serviceable) (hroom : m.HasRoom) :
    (m.mapNewPage process page writable intruding).Completes := by
  unfold mapNewPage mapNewPageAgainst
  split
  · exact .pure _
  · refine .bind (completes_allocate hs hp hm hroom.2) fun done hallocate => ?_
    obtain ⟨allocated, m₂⟩ := done
    rcases allocate_cases hallocate with ⟨e, rfl, -⟩ | ⟨frame, m₁, rfl, hframe, hclaimed⟩
    · exact .pure _
    · have hobtained := obtainFrame_cases hframe
      exact completes_placeNewPage (hclaimed.same.sound (hobtained.sound hs)) hclaimed.owner?_self
        (Directory.completes_map writable (hm.index_le hclaimed.lt))

/-! ## The end of a process -/

theorem completes_giveBack {state : Teardown (FrameTable n)} {table : PageTable}
    {status : PageStatus} (hs : (m.duringTeardown process state table).Sound none)
    (hx : (m.duringTeardown process state table).status? o = some status) :
    (state.giveBack FrameTable.release page status).Completes := by
  cases status with
  | zero => exact .pure _
  | fileBacked span => exact .pure _
  | swapped slot =>
    have hocc : state.swap.slots.isOccupied slot = true := (hs.slots.occupied_iff slot).2 ⟨o, hx⟩
    obtain ⟨slots, hslots⟩ := Slots.Sound.exists_free hs.slots.sound hocc
    exact .bind (.bind_of hslots (.pure _)) fun _ _ => .pure _
  | resident frame =>
    have hall := hs.linked.allocated hx
    have htracked := (hs.linked.isTracked_iff frame).1 hall
    exact .bind (FrameTable.exists_release htracked hall) fun _ _ => .pure _

theorem completes_giveBackAll {state : Teardown (FrameTable n)} {pages : List (Page × PageRecord)}
    (hsorted : pages.Pairwise fun a b => a.1.number < b.1.number)
    (hs : (m.duringTeardown process state ⟨⟨pages, hsorted⟩⟩).Sound none) :
    (Teardown.giveBackAll FrameTable.release pages state).Completes := by
  induction pages generalizing state with
  | nil => exact .pure _
  | cons entry rest ih =>
    obtain ⟨page, record⟩ := entry
    refine .bind (completes_giveBack hs (status?_of_record record?_first)) fun state' hgive => ?_
    exact ih _ ((removed_first hgive hs).sound hs record?_first)

theorem completes_destroy (hs : m.Sound none) : (m.destroy process).Completes := by
  have hdone := completes_giveBackAll _ ((m.same_duringTeardown process).sound hs)
  refine .bind (.bind hdone fun _ _ => .pure _) fun _ _ => ?_
  exact .bind (.log _) fun _ _ => .pure _

end Machine

/-! ## Requests -/

/-- A request for a new page, for the resolution of a fault or for a teardown. -/
def Request.Pages : Request → Prop
  | .mapNewPage .. | .fault .. | .destroy .. => True
  | _ => False

theorem Machine.completes_perform {n : Nat} {m : Machine n} {request : Request}
    (hpages : request.Pages) (hs : m.Sound none) (hp : m.Unpinned none) (hm : m.Serviceable)
    (hroom : m.HasRoom) : (m.perform request).Completes := by
  cases request with
  | mapNewPage process page writable intruding =>
    exact .bind (completes_mapNewPage hs hp hm hroom) fun _ _ => .pure _
  | fault process fault => exact .bind (completes_handleFault hs hp hm hroom) fun _ _ => .pure _
  | destroy process => exact .bind (completes_destroy hs) fun _ _ => .pure _
  | _ => exact hpages.elim

end DemandPaging
