/-
  The teardown of a table on its own, whatever its pages name and whoever takes the frames.

  Nothing is taken for granted of the table: two pages may name one frame or one slot, and a slot
  may be free or no slot of the swap space at all.  A slot is released once at most, so it stops
  the machine to name it twice.  If the slots can all be released, the only thing that can happen
  on the way is what the receiver of the frames does.

  * `PageTable.residents` and `PageTable.swappedOut` list the pages with the frames and the slots
    that they name;
  * `Slots.Releasable` says that slots can be released one after the other;
    `releasable_of_giveBackAll` and `giveBackAll_eq`: a teardown needs this, and is then the
    handing over of the frames, with everything else known beforehand;
  * `HandedOver` is the account of a teardown, and `teardown_handsOver` says when there is one.
-/
import Mathlib.Data.List.Nodup
import DemandPaging.Proofs.Vacated
import DemandPaging.Proofs.SlotOrder

namespace DemandPaging

/-! ## What pages name -/

/-- The frame that a page is in, if it is in one. -/
def PageStatus.frame? : PageStatus → Option Frame
  | .resident frame => some frame
  | _ => none

/-- The slot that a page is in, if it is in one. -/
def PageStatus.slot? : PageStatus → Option Slot
  | .swapped slot => some slot
  | _ => none

theorem PageStatus.frame?_eq_some {status : PageStatus} {frame : Frame} :
    status.frame? = some frame ↔ status = .resident frame := by
  cases status <;> simp [frame?]

theorem PageStatus.slot?_eq_some {status : PageStatus} {slot : Slot} :
    status.slot? = some slot ↔ status = .swapped slot := by
  cases status <;> simp [slot?]

/-- The pages of a list that name something, each with what it names. -/
def PageRecord.naming {α : Type} (name? : PageStatus → Option α) (pages : List (Page × PageRecord)) :
    List (Page × α) :=
  pages.filterMap fun (page, record) => (name? record.status).map fun a => (page, a)

namespace PageTable

/-- The pages in frames, with their frames. -/
def residents (table : PageTable) : List (Page × Frame) :=
  PageRecord.naming PageStatus.frame? table.records.toList

/-- The pages in swap, with their slots. -/
def swappedOut (table : PageTable) : List (Page × Slot) :=
  PageRecord.naming PageStatus.slot? table.records.toList

section

variable {α : Type} {table : PageTable} {page : Page} {name? : PageStatus → Option α}

theorem lookup_eq_some {status : PageStatus} : table.lookup page = some status ↔
    ∃ record, table.get? page = some record ∧ record.status = status :=
  Option.map_eq_some_iff

theorem mem_naming {a : α} : (page, a) ∈ PageRecord.naming name? table.records.toList ↔
    ∃ status, table.lookup page = some status ∧ name? status = some a := by
  simp only [PageRecord.naming, List.mem_filterMap, Prod.exists, PageMap.mem_toList_iff,
    Option.map_eq_some_iff, Prod.mk.injEq, lookup_eq_some]
  constructor
  · rintro ⟨_, record, hrecord, _, hname, rfl, rfl⟩
    exact ⟨_, ⟨record, hrecord, rfl⟩, hname⟩
  · rintro ⟨_, ⟨record, hrecord, rfl⟩, hname⟩
    exact ⟨page, record, hrecord, a, hname, rfl, rfl⟩

theorem sorted_naming (name? : PageStatus → Option α) (table : PageTable) :
    (PageRecord.naming name? table.records.toList).Pairwise fun a b => a.1.number < b.1.number := by
  refine List.pairwise_filterMap.2 (table.records.sorted.imp fun hlt => ?_)
  rintro _ ha _ hb
  obtain ⟨_, -, rfl⟩ := Option.map_eq_some_iff.1 ha
  obtain ⟨_, -, rfl⟩ := Option.map_eq_some_iff.1 hb
  exact hlt

theorem mem_residents {frame : Frame} :
    (page, frame) ∈ table.residents ↔ table.lookup page = some (.resident frame) := by
  simp [residents, mem_naming, PageStatus.frame?_eq_some]

theorem mem_swappedOut {slot : Slot} :
    (page, slot) ∈ table.swappedOut ↔ table.lookup page = some (.swapped slot) := by
  simp [swappedOut, mem_naming, PageStatus.slot?_eq_some]

theorem length_residents : table.residents.length = table.residentPages := by
  rw [residents, PageRecord.naming, List.length_filterMap_eq_countP]
  refine congrArg (List.countP · _) (funext fun ⟨_, status, _, _, _⟩ => ?_)
  cases status <;> rfl

theorem length_swappedOut : table.swappedOut.length = table.swappedPages := by
  rw [swappedOut, PageRecord.naming, List.length_filterMap_eq_countP]
  refine congrArg (List.countP · _) (funext fun ⟨_, status, _, _, _⟩ => ?_)
  cases status <;> rfl

end

end PageTable

/-! ## Releasing slots one after the other -/

namespace Slots

variable {slots slots' : Slots} {slot : Slot} {gone rest : List Slot}

/-- The slots, after the given ones were released one after the other. -/
def without (slots : Slots) (gone : List Slot) : Slots :=
  { slots with
    occupied := slots.occupied.diff gone
    occupied_nodup := slots.occupied_nodup.diff
    released := gone.reverse ++ slots.released }

/-- Each of the given slots is one that there is, holds a page, and is given once. -/
structure Releasable (slots : Slots) (gone : List Slot) : Prop where
  nodup : gone.Nodup
  lt_capacity : ∀ slot ∈ gone, slot.index < slots.capacity
  occupied : ∀ slot ∈ gone, slots.isOccupied slot = true

@[simp] theorem without_nil (slots : Slots) : slots.without [] = slots := rfl

theorem without_without (slots : Slots) (gone rest : List Slot) :
    (slots.without gone).without rest = slots.without (gone ++ rest) := by
  simp [without, List.diff_append]

theorem isOccupied_without :
    (slots.without gone).isOccupied slot = true ↔ slots.isOccupied slot = true ∧ slot ∉ gone := by
  rw [isOccupied_iff, isOccupied_iff, without, slots.occupied_nodup.mem_sdiff_iff]

theorem free_eq (hlt : slot.index < slots.capacity) (hocc : slots.isOccupied slot = true) :
    slots.free slot = pure (slots.without [slot]) := by
  simp [free, requireInBounds, hlt, hocc, without, release]

theorem free_without (h : (slots.free slot).result = .ok slots') :
    slot.index < slots.capacity ∧ slots.isOccupied slot = true ∧ slots' = slots.without [slot] := by
  obtain ⟨hlt, hocc⟩ := free_completes_iff.1 ⟨slots', h⟩
  rw [free_eq hlt hocc] at h
  cases h
  exact ⟨hlt, hocc, rfl⟩

theorem releasable_nil (slots : Slots) : slots.Releasable [] :=
  ⟨.nil, nofun, nofun⟩

/-- What comes after a slot has to be releasable without that slot. -/
theorem releasable_cons_iff :
    slots.Releasable (slot :: rest) ↔ slot.index < slots.capacity ∧ slots.isOccupied slot = true ∧
      (slots.without [slot]).Releasable rest := by
  constructor
  · intro h
    obtain ⟨hnot, hrest⟩ := List.nodup_cons.1 h.nodup
    refine ⟨h.lt_capacity slot List.mem_cons_self, h.occupied slot List.mem_cons_self, hrest,
      fun s hs => h.lt_capacity s (List.mem_cons_of_mem _ hs), fun s hs => ?_⟩
    refine isOccupied_without.2 ⟨h.occupied s (List.mem_cons_of_mem _ hs), fun hmem => ?_⟩
    exact hnot (List.mem_singleton.1 hmem ▸ hs)
  · rintro ⟨hlt, hocc, h⟩
    refine ⟨List.nodup_cons.2 ⟨fun hmem => ?_, h.nodup⟩, ?_, ?_⟩
    · exact (isOccupied_without.1 (h.occupied slot hmem)).2 List.mem_cons_self
    · exact List.forall_mem_cons.2 ⟨hlt, h.lt_capacity⟩
    · exact List.forall_mem_cons.2
        ⟨hocc, fun s hs => (isOccupied_without.1 (h.occupied s hs)).1⟩

end Slots

/-! ## Taking mappings away one after the other -/

namespace Directory

/-- Take the mappings of the given pages away. -/
def clearAll (directory : Directory) (pages : List Page) : Directory :=
  pages.foldl clear directory

variable {directory : Directory} {pages : List Page}

theorem traits_clearAll :
    (directory.clearAll pages).toDirectoryTraits = directory.toDirectoryTraits := by
  induction pages generalizing directory with
  | nil => rfl
  | cons page rest ih => exact ih.trans traits_clear

theorem get?_clearAll (directory : Directory) (pages : List Page) (q : Page) :
    (directory.clearAll pages).entries.get? q =
    if q ∈ pages then (directory.entries.get? q).map fun entry => entry.set .present false
    else directory.entries.get? q := by
  induction pages generalizing directory with
  | nil => rfl
  | cons page rest ih =>
    refine (ih _).trans ?_
    rw [clear, get?_set]
    by_cases hpage : page = q <;> by_cases hrest : q ∈ rest <;>
      simp [hpage, hrest, eq_comm (a := q), Function.comp_def]

theorem translate_clearAll (q : Page) : (directory.clearAll pages).translate q =
    if q ∈ pages then none else directory.translate q := by
  induction pages generalizing directory with
  | nil => rfl
  | cons page rest ih =>
    refine ih.trans ?_
    rw [translate_clear]
    by_cases hpage : page = q <;> by_cases hrest : q ∈ rest <;>
      simp [hpage, hrest, eq_comm (a := q)]

theorem has_clearAll (q : Page) {flag : Flag} (h : flag ≠ .present) :
    (directory.clearAll pages).has q flag = directory.has q flag := by
  induction pages generalizing directory with
  | nil => rfl
  | cons page rest ih => exact ih.trans (directory.has_clear page q h)

end Directory

/-! ## Handing over frames -/

namespace Teardown

variable {σ : Type} {release : σ → Frame → Outcome σ} {state done : Teardown σ}
  {pages : List (Page × PageRecord)}

/-- The end of a teardown of the given pages, when `receiver` is who took their frames. -/
def after (state : Teardown σ) (pages : List (Page × PageRecord)) (receiver : σ) : Teardown σ where
  released :=
    { frames := state.released.frames + (PageRecord.naming PageStatus.frame? pages).length
      slots := state.released.slots + (PageRecord.naming PageStatus.slot? pages).length }
  table := state.table
  directory :=
    state.directory.clearAll ((PageRecord.naming PageStatus.frame? pages).map Prod.fst)
  swap :=
    { state.swap with
      slots := state.swap.slots.without ((PageRecord.naming PageStatus.slot? pages).map Prod.snd) }
  receiver := receiver

theorem giveBack_swapped {page : Page} {slot : Slot} (hlt : slot.index < state.swap.slots.capacity)
    (hocc : state.swap.slots.isOccupied slot = true) :
    state.giveBack release page (.swapped slot) = pure { state with
      released := { state.released with slots := state.released.slots + 1 }
      swap := { state.swap with slots := state.swap.slots.without [slot] } } := by
  simp [giveBack, SwapSpace.free, Slots.free_eq hlt hocc]

/-- If the slots can be released, a teardown is the handing over of the frames in turn. -/
theorem giveBackAll_eq
    (h : state.swap.slots.Releasable ((PageRecord.naming PageStatus.slot? pages).map Prod.snd)) :
    giveBackAll release pages state = state.after pages <$>
      ((PageRecord.naming PageStatus.frame? pages).map Prod.snd).foldlM release state.receiver := by
  induction pages generalizing state with
  | nil => simp [giveBackAll, after, PageRecord.naming, Directory.clearAll]
  | cons entry rest ih =>
    obtain ⟨page, status, writable, dirty, origin⟩ := entry
    cases status with
    | zero => exact ih h
    | fileBacked span => exact ih h
    | swapped slot =>
      obtain ⟨hlt, hocc, hrest⟩ := Slots.releasable_cons_iff.1 h
      rw [giveBackAll, giveBack_swapped hlt hocc, Outcome.pure_bind, ih hrest]
      congr 1
      funext receiver
      simp [after, PageRecord.naming, PageStatus.frame?, PageStatus.slot?, Slots.without_without]
      omega
    | resident frame =>
      have hhead : PageRecord.naming PageStatus.frame? ((page, ⟨.resident frame, writable, dirty,
          origin⟩) :: rest) = (page, frame) :: PageRecord.naming PageStatus.frame? rest := rfl
      rw [giveBackAll, giveBack, hhead, List.map_cons, List.foldlM_cons, Outcome.bind_assoc,
        map_bind]
      congr 1
      funext receiver
      refine (ih ?_).trans ?_
      · exact h
      · congr 1
        funext last
        simp [after, PageRecord.naming, PageStatus.frame?, PageStatus.slot?, Directory.clearAll]
        omega

/-- A teardown that comes to an end released its slots one after the other. -/
theorem releasable_of_giveBackAll
    (h : (giveBackAll release pages state).result = .ok done) :
    state.swap.slots.Releasable ((PageRecord.naming PageStatus.slot? pages).map Prod.snd) := by
  induction pages generalizing state with
  | nil => exact Slots.releasable_nil _
  | cons entry rest ih =>
    obtain ⟨page, status, writable, dirty, origin⟩ := entry
    obtain ⟨next, hgive, h⟩ := Outcome.bind_eq_ok_iff.1 h
    cases status with
    | zero => cases hgive; exact ih h
    | fileBacked span => cases hgive; exact ih h
    | resident frame =>
      obtain ⟨receiver, -, hgive⟩ := Outcome.bind_eq_ok_iff.1 hgive
      cases hgive
      have hrest := ih h
      exact hrest
    | swapped slot =>
      obtain ⟨swap, hfree, hgive⟩ := Outcome.bind_eq_ok_iff.1 hgive
      cases hgive
      obtain ⟨slots, hslots, rfl⟩ := SwapSpace.free_cases hfree
      obtain ⟨hlt, hocc, rfl⟩ := Slots.free_without hslots
      exact Slots.releasable_cons_iff.2 ⟨hlt, hocc, ih h⟩

end Teardown

/-! ## The account of a teardown -/

namespace PageTable

variable {σ : Type} {table : PageTable} {release : σ → Frame → Outcome σ} {directory : Directory}
  {swap : SwapSpace} {receiver : σ} {done : Teardown σ}

/-- The pages of a table gave back what they take up, and the table is empty.  The frames went to
    the receiver one by one, in the order of the pages; the mappings of the pages in frames are
    gone, and their other flags are left; the slots named are free; and `done.released` counts the
    pages. -/
structure HandedOver (table : PageTable) (release : σ → Frame → Outcome σ) (directory : Directory)
    (swap : SwapSpace) (receiver : σ) (done : Teardown σ) : Prop where
  table_eq : done.table = {}
  receiver_eq : ((table.residents.map Prod.snd).foldlM release receiver).result = .ok done.receiver
  framesReleased_eq : done.released.frames = table.residentPages
  slotsReleased_eq : done.released.slots = table.swappedPages
  traits_eq : done.directory.toDirectoryTraits = directory.toDirectoryTraits
  cleared : ∀ page frame, table.lookup page = some (.resident frame) →
    done.directory.entries.get? page =
      (directory.entries.get? page).map fun entry => entry.set .present false
  kept : ∀ page, (∀ frame, table.lookup page ≠ some (.resident frame)) →
    done.directory.entries.get? page = directory.entries.get? page
  unmapped : ∀ page frame, table.lookup page = some (.resident frame) →
    done.directory.translate page = none
  has_eq : ∀ page flag, flag ≠ .present → done.directory.has page flag = directory.has page flag
  isOccupied_iff : ∀ slot, done.swap.slots.isOccupied slot = true ↔
    swap.slots.isOccupied slot = true ∧ ∀ page, table.lookup page ≠ some (.swapped slot)
  reusable_eq : done.swap.slots.released =
    (table.swappedOut.map Prod.snd).reverse ++ swap.slots.released
  fresh_eq : done.swap.slots.fresh = swap.slots.fresh
  capacity_eq : done.swap.capacity = swap.capacity
  device_eq : done.swap.device = swap.device

theorem mem_pages_residents {page : Page} : page ∈ table.residents.map Prod.fst ↔
    ∃ frame, table.lookup page = some (.resident frame) := by
  simp [mem_residents]

theorem mem_slots_swappedOut {slot : Slot} : slot ∈ table.swappedOut.map Prod.snd ↔
    ∃ page, table.lookup page = some (.swapped slot) := by
  simp [mem_swappedOut]

theorem nodup_swappedOut_iff : (table.swappedOut.map Prod.snd).Nodup ↔
    ∀ page other slot, table.lookup page = some (.swapped slot) →
      table.lookup other = some (.swapped slot) → page = other := by
  simp only [← mem_swappedOut]
  constructor
  · intro hnodup page other slot hpage hother
    exact congrArg Prod.fst (List.inj_on_of_nodup_map hnodup hpage hother rfl)
  · intro hunique
    have hnodup : table.swappedOut.Nodup := by
      refine (sorted_naming PageStatus.slot? table).imp ?_
      rintro a _ hlt rfl
      exact Nat.lt_irrefl _ hlt
    refine hnodup.map_on ?_
    rintro ⟨page, slot⟩ hpage ⟨other, _⟩ hother rfl
    rw [hunique page other slot hpage hother]

/-- The slots that a table names can be released unless one is no slot, is free, or is named by two
    pages. -/
theorem not_releasable_iff : ¬swap.slots.Releasable (table.swappedOut.map Prod.snd) ↔
    ∃ page slot, table.lookup page = some (.swapped slot) ∧
      (swap.capacity ≤ slot.index ∨ swap.slots.isOccupied slot = false ∨
        ∃ other, other ≠ page ∧ table.lookup other = some (.swapped slot)) := by
  constructor
  · intro hnot
    by_contra hnone
    refine hnot ⟨nodup_swappedOut_iff.2 fun page other slot hpage hother => ?_,
      fun slot hslot => ?_, fun slot hslot => ?_⟩
    · by_contra hne
      exact hnone ⟨page, slot, hpage, .inr (.inr ⟨other, Ne.symm hne, hother⟩)⟩
    · obtain ⟨page, hpage⟩ := mem_slots_swappedOut.1 hslot
      by_contra hge
      exact hnone ⟨page, slot, hpage, .inl (Nat.le_of_not_lt hge)⟩
    · obtain ⟨page, hpage⟩ := mem_slots_swappedOut.1 hslot
      by_contra hfree
      exact hnone ⟨page, slot, hpage, .inr (.inl (Bool.not_eq_true _ ▸ hfree))⟩
  · rintro ⟨page, slot, hpage, hbad⟩ hreleasable
    have hslot := mem_slots_swappedOut.2 ⟨page, hpage⟩
    rcases hbad with hge | hfree | ⟨other, hne, hother⟩
    · exact Nat.not_lt.2 hge (hreleasable.lt_capacity slot hslot)
    · exact Bool.false_ne_true (hfree.symm.trans (hreleasable.occupied slot hslot))
    · exact hne (nodup_swappedOut_iff.1 hreleasable.nodup other page slot hother hpage)

/-- A teardown that comes to an end is the one that is known beforehand. -/
theorem handedOver_of_teardown
    (h : (table.teardown release directory swap receiver).result = .ok done) :
    table.HandedOver release directory swap receiver done := by
  have hreleasable := Teardown.releasable_of_giveBackAll h
  rw [teardown_eq, Teardown.giveBackAll_eq hreleasable] at h
  obtain ⟨last, hlast, rfl⟩ := Outcome.map_eq_ok_iff.1 h
  have hentries := directory.get?_clearAll (table.residents.map Prod.fst)
  constructor
  case table_eq => rfl
  case receiver_eq => exact hlast
  case framesReleased_eq => exact (Nat.zero_add _).trans length_residents
  case slotsReleased_eq => exact (Nat.zero_add _).trans length_swappedOut
  case traits_eq => exact Directory.traits_clearAll
  case cleared =>
    intro page frame hpage
    exact (hentries page).trans (if_pos (mem_pages_residents.2 ⟨frame, hpage⟩))
  case kept =>
    intro page hpage
    refine (hentries page).trans (if_neg fun hmem => ?_)
    obtain ⟨frame, hframe⟩ := mem_pages_residents.1 hmem
    exact hpage frame hframe
  case unmapped =>
    intro page frame hpage
    exact (Directory.translate_clearAll page).trans
      (if_pos (mem_pages_residents.2 ⟨frame, hpage⟩))
  case has_eq => exact fun page flag hflag => Directory.has_clearAll page hflag
  case isOccupied_iff =>
    intro slot
    refine Slots.isOccupied_without.trans (and_congr_right fun _ => ?_)
    exact mem_slots_swappedOut.not.trans not_exists
  case reusable_eq => rfl
  case fresh_eq => rfl
  case capacity_eq => rfl
  case device_eq => rfl

/-- The teardown of any table, with any swap space, directory and receiver that does not itself
    stop the machine.  It stops the machine exactly if a slot that a page names is no slot of the
    swap space, is free, or is named by another page too.  Otherwise it hands over the frames of
    the pages, once for each page and in the order of the pages, gives back what they take up and
    no more, and leaves an empty table behind, which is the table of a process that is released. -/
theorem teardown_handsOver (table : PageTable) (release : σ → Frame → Outcome σ)
    (directory : Directory) (swap : SwapSpace) (receiver : σ)
    (hrelease : ((table.residents.map Prod.snd).foldlM release receiver).Completes) :
    ((∃ cause, (table.teardown release directory swap receiver).result = .error cause) ↔
      ∃ page slot, table.lookup page = some (.swapped slot) ∧
        (swap.capacity ≤ slot.index ∨ swap.slots.isOccupied slot = false ∨
          ∃ other, other ≠ page ∧ table.lookup other = some (.swapped slot))) ∧
    (∀ done, (table.teardown release directory swap receiver).result = .ok done →
      table.HandedOver release directory swap receiver done) ∧
    (table.residents.Pairwise fun a b => a.1.number < b.1.number) ∧
    (∀ page frame, (page, frame) ∈ table.residents ↔
      table.lookup page = some (.resident frame)) ∧
    ∀ (n : Nat) (m m' : Machine n) (process : Nat) (released : Released),
      (m.releaseProcess process).result = .ok (released, m') →
        (m'.space process).table = {} ∧ ∃ done,
          ((m.space process).table.teardown FrameTable.release (m.space process).directory m.swap
            m.frames).result = .ok done ∧ released = done.released ∧
          (m'.space process).table = done.table ∧ (m'.space process).directory = done.directory ∧
          m'.swap = done.swap ∧ m'.frames = done.receiver := by
  have hcompletes : (table.teardown release directory swap receiver).Completes ↔
      swap.slots.Releasable (table.swappedOut.map Prod.snd) := by
    constructor
    · rintro ⟨done, h⟩
      exact Teardown.releasable_of_giveBackAll h
    · intro h
      obtain ⟨last, hlast⟩ := hrelease
      rw [teardown_eq, Teardown.giveBackAll_eq h]
      exact ⟨_, Outcome.map_eq_ok_iff.2 ⟨last, hlast, rfl⟩⟩
  refine ⟨?_, fun done => handedOver_of_teardown, sorted_naming _ table,
    fun page frame => mem_residents, fun n m m' process released h => ?_⟩
  · rw [← Outcome.Completes.not_iff, hcompletes]
    exact not_releasable_iff
  · obtain ⟨done, hdone, h⟩ := Outcome.bind_eq_ok_iff.1 h
    cases h
    have hspace : (m.duringTeardown process done done.table).space process =
        { m.space process with table := done.table, directory := done.directory } :=
      (Machine.space_duringTeardown process).trans (if_pos rfl)
    have htable := congrArg AddressSpace.table hspace
    exact ⟨htable.trans (Machine.table_giveBackAll hdone), done, hdone, rfl, htable,
      congrArg AddressSpace.directory hspace, rfl, rfl⟩

/-- Pages 4 and 6 share frame 3, page 5 is in slot 1, and where page 7 is depends. -/
def crowded (status : PageStatus) : PageTable :=
  ⟨(((PageMap.empty.insert ⟨4⟩ ⟨.resident ⟨3⟩, true, false, none⟩).insert ⟨5⟩
    ⟨.swapped ⟨1⟩, true, false, none⟩).insert ⟨6⟩ ⟨.resident ⟨3⟩, true, false, none⟩).insert ⟨7⟩
    ⟨status, true, false, none⟩⟩

/-- Slots 0 and 1 are occupied.  If page 7 is all zeros, the shared frame is handed over twice and
    slot 1 becomes free; if page 7 names slot 1 again, the machine stops. -/
theorem teardown_handsOver_crowded :
    let slots : Slots :=
      { capacity := 2, occupied := [⟨1⟩, ⟨0⟩], occupied_nodup := by decide, fresh := 2 }
    let swap : SwapSpace := { device := .inMemory 2, slots := slots }
    let release (given : List Frame) (frame : Frame) : Outcome (List Frame) :=
      pure (given ++ [frame])
    (((crowded .zero).residents.map Prod.snd).foldlM release []).Completes ∧
    (∃ done, ((crowded .zero).teardown release (.ofTraits {}) swap []).result = .ok done ∧
      done.table = {} ∧ done.receiver = [⟨3⟩, ⟨3⟩] ∧ done.released = ⟨2, 1⟩ ∧
      done.swap.slots.isOccupied ⟨0⟩ = true ∧ done.swap.slots.isOccupied ⟨1⟩ = false) ∧
    ∃ cause, ((crowded (.swapped ⟨1⟩)).teardown release (.ofTraits {}) swap []).result =
      .error cause := by
  intro slots swap release
  have hreceiver (table : PageTable) :
      ((table.residents.map Prod.snd).foldlM release []).Completes :=
    ⟨_, congrArg Outcome.result List.foldlM_pure⟩
  have hzero := teardown_handsOver (crowded .zero) release (.ofTraits {}) swap [] (hreceiver _)
  have htwice := teardown_handsOver (crowded (.swapped ⟨1⟩)) release (.ofTraits {}) swap []
    (hreceiver _)
  refine ⟨hreceiver _, ?_, htwice.1.2 ⟨⟨5⟩, ⟨1⟩, by decide, .inr (.inr ⟨⟨7⟩, by decide⟩)⟩⟩
  have hends : ((crowded .zero).teardown release (.ofTraits {}) swap []).result.toOption.any
      (fun _ => true) = true := by decide
  obtain ⟨done, hdone, -⟩ := Outcome.exists_of_any hends
  have haccount := hzero.2.1 done hdone
  have hgiven : (((crowded .zero).residents.map Prod.snd).foldlM release []).result =
      .ok [⟨3⟩, ⟨3⟩] := rfl
  refine ⟨done, hdone, haccount.table_eq, ?_, ?_, (haccount.isOccupied_iff _).2 ⟨by decide, ?_⟩, ?_⟩
  · exact Except.ok.inj (haccount.receiver_eq.symm.trans hgiven)
  · have hframes : done.released.frames = 2 := haccount.framesReleased_eq
    have hslots : done.released.slots = 1 := haccount.slotsReleased_eq
    rw [← hframes, ← hslots]
  · exact not_exists.1 (mem_slots_swappedOut.not.1 (by decide))
  · refine Bool.eq_false_iff.2 fun hocc => ?_
    exact ((haccount.isOccupied_iff _).1 hocc).2 ⟨5⟩ (by decide)

end PageTable

end DemandPaging
