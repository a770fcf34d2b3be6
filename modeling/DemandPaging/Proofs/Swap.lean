/-
  Swap space as an array of pages.

  `SwapSpace.page` is the page that a slot holds on the device.

  * `write_cases`: what is written to a slot is what it holds afterwards, and no
    other slot changes;
  * `read_cases`: reading a slot yields what it holds and changes no slot;
  * `Device.Healthy` says of a device that it serves every transfer;
    `exists_write` and `exists_read`: on such a device no transfer of an occupied
    slot stops the machine, as long as the counts of transfers have room.
-/
import DemandPaging.Swap.Space
import DemandPaging.Proofs.Slots

namespace DemandPaging

namespace Device

/-- What a sector of a device holds.  Sectors that its disk lacks hold zeros. -/
def stored (device : Device) (sector : Nat) : Sector :=
  device.drive.disk.sectors[sector]?.getD Sector.zero

/-- Two states of one device, which may differ in what is stored, what was counted
    and how many faulty sectors were met. -/
structure SameAs (device device' : Device) : Prop where
  kind_eq : device'.kind = device.kind
  size_eq : device'.size = device.size
  sectors_eq : device'.drive.disk.size = device.drive.disk.size
  plan_eq : device'.drive.plan = device.drive.plan

theorem SameAs.refl (device : Device) : device.SameAs device :=
  ⟨rfl, rfl, rfl, rfl⟩

theorem SameAs.trans {a b c : Device} (h : a.SameAs b) (h' : b.SameAs c) : a.SameAs c :=
  ⟨h'.kind_eq.trans h.kind_eq, h'.size_eq.trans h.size_eq, h'.sectors_eq.trans h.sectors_eq,
    h'.plan_eq.trans h.plan_eq⟩

/-- A device whose drive has all its sectors and fails no transfer. -/
structure Healthy (device : Device) : Prop where
  writable : device.kind ≠ .foreign
  size_le : device.size ≤ device.drive.disk.size
  size_lt : device.size < sectorLimit
  never_fails : ∀ sector met, device.drive.plan.faulty sector = true →
    device.drive.plan.fails met = false

theorem Healthy.same {device device' : Device} (h : device.Healthy) (hs : device.SameAs device') :
    device'.Healthy :=
  ⟨by rw [hs.kind_eq]; exact h.writable, by rw [hs.size_eq, hs.sectors_eq]; exact h.size_le,
    by rw [hs.size_eq]; exact h.size_lt, by rw [hs.plan_eq]; exact h.never_fails⟩

variable {device device' : Device} {sector : Nat} {contents : Sector}

/-! ## One transfer -/

theorem attempt_cases (drive : Drive) (sector : Nat) :
    ∃ failed met, drive.attempt sector = (failed, { drive with met := met }) ∧
      (failed = true → drive.plan.faulty sector = true ∧ drive.plan.fails drive.met = true) := by
  unfold Drive.attempt
  split
  · rename_i hf
    exact ⟨_, _, rfl, fun h => ⟨hf, h⟩⟩
  · exact ⟨false, drive.met, rfl, fun h => by cases h⟩

theorem writeSector_cases
    (h : (device.writeSector sector contents).result = .ok (.ok (), device')) :
    (∀ j, device'.stored j = if sector = j then contents else device.stored j) ∧
      device.SameAs device' ∧ device'.reads = device.reads ∧
      device'.writes = device.writes + 1 := by
  obtain ⟨failed, met, hattempt, -⟩ := attempt_cases device.drive sector
  simp only [writeSector, requireSector, Outcome.bind_eq_ok_iff, Outcome.require_result_iff,
    Drive.writeSector, hattempt] at h
  obtain ⟨_, -, _, -, h⟩ := h
  cases failed with
  | true => simp at h
  | false =>
    simp only [Disk.writeSector_eq] at h
    by_cases hlt : sector < device.drive.disk.size
    · simp only [hlt, if_true, Outcome.bind_eq_ok_iff, Word.add32_eq_ok_iff,
        Outcome.result_pure, Except.ok.injEq, Prod.mk.injEq, true_and] at h
      obtain ⟨_, ⟨-, rfl⟩, rfl⟩ := h
      refine ⟨fun j => ?_, ⟨rfl, rfl, by simp [Disk.size], rfl⟩, rfl, rfl⟩
      rw [Disk.size] at hlt
      by_cases hj : sector = j
      · subst hj; simp [stored, hlt]
      · simp [stored, hj]
    · simp [hlt] at h

theorem read_cases {res : Sector}
    (h : (device.read sector sectorSize).result = .ok (.ok res, device')) :
    res = device.stored sector ∧ (∀ j, device'.stored j = device.stored j) ∧
      device.SameAs device' ∧ device'.reads = device.reads + 1 ∧
      device'.writes = device.writes := by
  obtain ⟨failed, met, hattempt, -⟩ := attempt_cases device.drive sector
  simp only [read, requireSector, Outcome.bind_eq_ok_iff, Outcome.require_result_iff,
    Drive.read, hattempt] at h
  obtain ⟨_, -, _, -, h⟩ := h
  cases failed with
  | true => simp at h
  | false =>
    simp only [Disk.read_eq, if_true] at h
    by_cases hlt : sector < device.drive.disk.size
    · simp only [hlt, if_true, Outcome.bind_eq_ok_iff, Word.add32_eq_ok_iff,
        Outcome.result_pure, Except.ok.injEq, Prod.mk.injEq] at h
      obtain ⟨_, ⟨-, rfl⟩, rfl, rfl⟩ := h
      exact ⟨rfl, fun _ => rfl, ⟨rfl, rfl, rfl, rfl⟩, rfl, rfl⟩
    · simp [hlt] at h

theorem Healthy.attempt (h : device.Healthy) (sector : Nat) :
    ∃ met, device.drive.attempt sector = (false, { device.drive with met := met }) := by
  obtain ⟨failed, met, hattempt, hfailed⟩ := attempt_cases device.drive sector
  cases failed with
  | false => exact ⟨met, hattempt⟩
  | true =>
    obtain ⟨hf, hfail⟩ := hfailed rfl
    rw [h.never_fails sector _ hf] at hfail
    cases hfail

theorem Healthy.exists_writeSector (h : device.Healthy) (sector : Nat) (contents : Sector)
    (hlt : sector < device.size) (hroom : device.writes + 1 < sectorLimit) :
    ∃ device', (device.writeSector sector contents).result = .ok (.ok (), device') := by
  obtain ⟨met, hattempt⟩ := h.attempt sector
  have hdisk : sector < device.drive.disk.size := Nat.lt_of_lt_of_le hlt h.size_le
  simp only [writeSector, requireSector, Outcome.bind_eq_ok_iff, Outcome.require_result_iff,
    Drive.writeSector, hattempt, Disk.writeSector_eq, hdisk, if_true, Word.add32_eq_ok_iff]
  exact ⟨_, (), hlt, (), h.writable, _, ⟨hroom, rfl⟩, rfl⟩

theorem Healthy.exists_read (h : device.Healthy) (sector : Nat) (hlt : sector < device.size)
    (hroom : device.reads + 1 < sectorLimit) :
    ∃ res device', (device.read sector sectorSize).result = .ok (.ok res, device') := by
  obtain ⟨met, hattempt⟩ := h.attempt sector
  have hdisk : sector < device.drive.disk.size := Nat.lt_of_lt_of_le hlt h.size_le
  simp only [read, requireSector, Outcome.bind_eq_ok_iff, Outcome.require_result_iff,
    Drive.read, hattempt, Disk.read_eq, hdisk, if_true, Word.add32_eq_ok_iff]
  exact ⟨_, _, (), hlt, (), trivial, _, ⟨hroom, rfl⟩, rfl⟩

end Device

namespace SwapSpace

variable {swap swap' : SwapSpace} {device device' : Device} {slot : Slot}

/-! ## Sectors in a row -/

theorem writeSectors_cases {sectors : List Sector} {sector : Nat}
    (h : (writeSectors slot device sector sectors).result = .ok device') :
    (∀ j, device'.stored j = if h : sector ≤ j ∧ j - sector < sectors.length
      then sectors[j - sector] else device.stored j) ∧
      device.SameAs device' ∧ device'.reads = device.reads ∧
      device'.writes = device.writes + sectors.length := by
  induction sectors generalizing device sector with
  | nil =>
    simp only [writeSectors, Outcome.bind_eq_ok_iff, Outcome.result_pure, Except.ok.injEq] at h
    obtain ⟨_, -, rfl⟩ := h
    exact ⟨fun j => by simp, .refl _, rfl, rfl⟩
  | cons contents rest ih =>
    simp only [writeSectors, Outcome.bind_eq_ok_iff, Word.add32_eq_ok_iff, Prod.exists] at h
    obtain ⟨_, ⟨-, rfl⟩, res, next, hwrite, h⟩ := h
    cases res with
    | error e => simp at h
    | ok _ =>
      obtain ⟨hstored, hsame, hreads, hwrites⟩ := Device.writeSector_cases hwrite
      obtain ⟨ihstored, ihsame, ihreads, ihwrites⟩ := ih h
      refine ⟨?_, hsame.trans ihsame, ihreads.trans hreads, ?_⟩
      · intro j
        rw [ihstored j]
        rcases Nat.lt_trichotomy j sector with hlt | rfl | hgt
        · have h1 : ¬(sector + 1 ≤ j ∧ j - (sector + 1) < rest.length) := by omega
          have h2 : ¬(sector ≤ j ∧ j - sector < (contents :: rest).length) := by omega
          rw [dif_neg h1, dif_neg h2, hstored, if_neg (by omega)]
        · rw [dif_neg (by omega), dif_pos ⟨Nat.le_refl _, by simp⟩]
          simp [hstored]
        · have hidx : j - sector = j - (sector + 1) + 1 := by omega
          simp only [hidx, List.length_cons, hstored, List.getElem_cons_succ]
          by_cases hin : j - (sector + 1) < rest.length
          · rw [dif_pos ⟨by omega, hin⟩, dif_pos ⟨by omega, by omega⟩]
          · rw [dif_neg (by omega), dif_neg (by omega), if_neg (by omega)]
      · rw [ihwrites, hwrites, List.length_cons]; omega

theorem readSectors_cases {count sector : Nat} {sectors : List Sector}
    (h : (readSectors slot device sector count).result = .ok (sectors, device')) :
    sectors = (List.range count).map (fun k => device.stored (sector + k)) ∧
      (∀ j, device'.stored j = device.stored j) ∧ device.SameAs device' ∧
      device'.reads = device.reads + count ∧ device'.writes = device.writes := by
  induction count generalizing device sector sectors with
  | zero =>
    simp only [readSectors, Outcome.bind_eq_ok_iff, Outcome.result_pure, Except.ok.injEq,
      Prod.mk.injEq] at h
    obtain ⟨_, -, rfl, rfl⟩ := h
    exact ⟨rfl, fun _ => rfl, .refl _, rfl, rfl⟩
  | succ count ih =>
    simp only [readSectors, Outcome.bind_eq_ok_iff, Word.add32_eq_ok_iff, Prod.exists] at h
    obtain ⟨_, ⟨-, rfl⟩, res, next, hread, h⟩ := h
    cases res with
    | error e => simp at h
    | ok contents =>
      simp only [Outcome.bind_eq_ok_iff, Outcome.result_pure, Except.ok.injEq, Prod.exists,
        Prod.mk.injEq] at h
      obtain ⟨rest, last, hrest, rfl, rfl⟩ := h
      obtain ⟨rfl, hstored, hsame, hreads, hwrites⟩ := Device.read_cases hread
      obtain ⟨rfl, ihstored, ihsame, ihreads, ihwrites⟩ := ih hrest
      refine ⟨?_, fun j => (ihstored j).trans (hstored j), hsame.trans ihsame, by omega,
        ihwrites.trans hwrites⟩
      rw [List.range_succ_eq_map, List.map_cons, List.map_map, Nat.add_zero]
      refine congrArg _ (List.map_congr_left fun k _ => ?_)
      simp only [Function.comp_apply, hstored]
      congr 1
      omega

theorem exists_writeSectors (slot : Slot) (sector : Nat) (sectors : List Sector)
    (h : device.Healthy) (hin : sector + sectors.length ≤ device.size)
    (hfit : sector + sectors.length + 1 < sectorLimit)
    (hroom : device.writes + sectors.length < sectorLimit) :
    ∃ device', (writeSectors slot device sector sectors).result = .ok device' := by
  induction sectors generalizing device sector with
  | nil =>
    rw [List.length_nil] at hfit
    exact ⟨device, Outcome.bind_eq_ok_iff.2 ⟨_, Word.add32_eq_ok_iff.2 ⟨by omega, rfl⟩, rfl⟩⟩
  | cons contents rest ih =>
    rw [List.length_cons] at hin hfit hroom
    obtain ⟨next, hwrite⟩ := h.exists_writeSector sector contents (by omega) (by omega)
    obtain ⟨-, hsame, -, hwrites⟩ := Device.writeSector_cases hwrite
    refine Outcome.exists_bind (Word.add32_eq_ok_iff.2 ⟨by omega, rfl⟩)
      (Outcome.exists_bind hwrite ?_)
    exact ih (sector + 1) (h.same hsame) (by rw [hsame.size_eq]; omega) (by omega) (by omega)

theorem exists_readSectors (slot : Slot) (sector count : Nat) (h : device.Healthy)
    (hin : sector + count ≤ device.size) (hfit : sector + count + 1 < sectorLimit)
    (hroom : device.reads + count < sectorLimit) :
    ∃ sectors device', (readSectors slot device sector count).result = .ok (sectors, device') := by
  induction count generalizing device sector with
  | zero =>
    exact ⟨[], device, Outcome.bind_eq_ok_iff.2 ⟨_, Word.add32_eq_ok_iff.2 ⟨by omega, rfl⟩, rfl⟩⟩
  | succ count ih =>
    obtain ⟨contents, next, hread⟩ := h.exists_read sector (by omega) (by omega)
    obtain ⟨-, -, hsame, hreads, -⟩ := Device.read_cases hread
    obtain ⟨rest, last, hrest⟩ := ih (sector + 1) (h.same hsame)
      (by rw [hsame.size_eq]; omega) (by omega) (by omega)
    refine ⟨contents :: rest, last, Outcome.bind_eq_ok_iff.2 ⟨_, Word.add32_eq_ok_iff.2
      ⟨by omega, rfl⟩, Outcome.bind_eq_ok_iff.2 ⟨_, hread, ?_⟩⟩⟩
    exact Outcome.bind_eq_ok_iff.2 ⟨_, hrest, rfl⟩

/-! ## Pages in slots -/

/-- The page that a slot holds on the device. -/
def page (swap : SwapSpace) (slot : Slot) : Contents :=
  .ofSectors ((List.range sectorsPerPage).map fun k =>
    swap.device.stored (slot.index * sectorsPerPage + k))

theorem page_congr {s : Slot} (h : ∀ j, swap'.device.stored j = swap.device.stored j) :
    swap'.page s = swap.page s := by
  simp only [page, h]

theorem write_cases {contents : Contents} (h : (swap.write slot contents).result = .ok swap') :
    swap.slots.isOccupied slot = true ∧ swap'.slots = swap.slots ∧
      (∀ s, swap'.page s = if slot = s then contents else swap.page s) ∧
      swap.device.SameAs swap'.device ∧ swap'.device.reads = swap.device.reads ∧
      swap'.device.writes = swap.device.writes + sectorsPerPage := by
  simp only [write, Outcome.bind_eq_ok_iff, Slots.requireOccupied_iff, Slot.firstSector,
    Word.mul32_eq_ok_iff, Outcome.result_pure, Except.ok.injEq] at h
  obtain ⟨_, ⟨-, hocc⟩, _, ⟨-, rfl⟩, device, hdevice, rfl⟩ := h
  obtain ⟨hstored, hsame, hreads, hwrites⟩ := writeSectors_cases hdevice
  refine ⟨hocc, rfl, fun s => ?_, hsame, hreads, by simpa using hwrites⟩
  by_cases hs : slot = s
  · subst hs
    rw [if_pos rfl, page]
    refine Eq.trans (congrArg _ ?_) contents.ofSectors_sectors
    refine List.ext_getElem (by simp) fun k hk hk' => ?_
    rw [Contents.length_sectors] at hk'
    simp [hstored, hk']
  · -- another slot lies before or behind the sectors written
    rw [if_neg hs, page, page]
    refine congrArg _ (List.map_congr_left fun k hk => ?_)
    have hne : slot.index ≠ s.index := fun e => hs (by cases slot; cases s; cases e; rfl)
    rw [List.mem_range] at hk
    rw [hstored, dif_neg]
    rw [Contents.length_sectors]
    simp only [sectorsPerPage] at *
    omega

theorem read_cases {contents : Contents}
    (h : (swap.read slot).result = .ok (contents, swap')) :
    swap.slots.isOccupied slot = true ∧ contents = swap.page slot ∧ swap'.slots = swap.slots ∧
      (∀ s, swap'.page s = swap.page s) ∧ swap.device.SameAs swap'.device ∧
      swap'.device.reads = swap.device.reads + sectorsPerPage ∧
      swap'.device.writes = swap.device.writes := by
  simp only [read, Outcome.bind_eq_ok_iff, Slots.requireOccupied_iff, Slot.firstSector,
    Word.mul32_eq_ok_iff, Outcome.result_pure, Except.ok.injEq, Prod.exists, Prod.mk.injEq] at h
  obtain ⟨_, ⟨-, hocc⟩, _, ⟨-, rfl⟩, sectors, device, hdevice, rfl, rfl⟩ := h
  obtain ⟨rfl, hstored, hsame, hreads, hwrites⟩ := readSectors_cases hdevice
  exact ⟨hocc, rfl, rfl, fun s => page_congr hstored, hsame, hreads, hwrites⟩

theorem allocate_cases {res : Except Error Slot}
    (h : swap.allocate.result = .ok (res, swap')) :
    ∃ slots, swap.slots.allocate.result = .ok (res, slots) ∧
      swap' = { swap with slots := slots } := by
  simp only [allocate, Outcome.bind_eq_ok_iff, Outcome.result_pure, Except.ok.injEq, Prod.exists,
    Prod.mk.injEq] at h
  obtain ⟨_, slots, hslots, rfl, rfl⟩ := h
  exact ⟨slots, hslots, rfl⟩

theorem free_cases (h : (swap.free slot).result = .ok swap') :
    ∃ slots, (swap.slots.free slot).result = .ok slots ∧ swap' = { swap with slots := slots } := by
  simp only [free, Outcome.bind_eq_ok_iff, Outcome.result_pure, Except.ok.injEq] at h
  obtain ⟨slots, hslots, rfl⟩ := h
  exact ⟨slots, hslots, rfl⟩

/-! ## Transfers that succeed -/

/-- A swap space on a healthy device, of which the slots take up as much as they
    can. -/
structure Healthy (swap : SwapSpace) : Prop where
  device : swap.device.Healthy
  slots : swap.slots.Sound
  capacity : swap.slots.capacity = swap.device.size / sectorsPerPage

theorem Healthy.end_le_size (h : swap.Healthy) (hslot : slot.index < swap.slots.capacity) :
    slot.index * sectorsPerPage + sectorsPerPage ≤ swap.device.size ∧
      slot.index * sectorsPerPage + sectorsPerPage + 1 < sectorLimit := by
  have hsize := h.device.size_lt
  rw [h.capacity] at hslot
  simp only [sectorsPerPage, sectorLimit] at *
  omega

theorem Healthy.last_sector_lt (h : swap.Healthy) (ho : swap.slots.isOccupied slot = true) :
    slot.index * sectorsPerPage + sectorsPerPage ≤ swap.device.size ∧
      slot.index * sectorsPerPage + sectorsPerPage + 1 < sectorLimit :=
  h.end_le_size (h.slots.lt_capacity ho)

theorem Healthy.exists_write (h : swap.Healthy) (contents : Contents)
    (ho : swap.slots.isOccupied slot = true)
    (hroom : swap.device.writes + sectorsPerPage < sectorLimit) :
    ∃ swap', (swap.write slot contents).result = .ok swap' := by
  obtain ⟨hsize, hlimit⟩ := h.last_sector_lt ho
  obtain ⟨device, hdevice⟩ := exists_writeSectors slot (slot.index * sectorsPerPage)
    contents.sectors h.device (by simpa using hsize) (by simpa using hlimit) (by simpa using hroom)
  refine Outcome.exists_bind (a := ()) (Slots.requireOccupied_iff.2 ⟨h.slots.lt_capacity ho, ho⟩)
    (Outcome.exists_bind (Word.mul32_eq_ok_iff.2 ⟨by omega, rfl⟩) ?_)
  exact Outcome.exists_bind hdevice ⟨_, rfl⟩

theorem Healthy.exists_read (h : swap.Healthy) (ho : swap.slots.isOccupied slot = true)
    (hroom : swap.device.reads + sectorsPerPage < sectorLimit) :
    ∃ contents swap', (swap.read slot).result = .ok (contents, swap') := by
  obtain ⟨hsize, hlimit⟩ := h.last_sector_lt ho
  obtain ⟨sectors, device, hdevice⟩ := exists_readSectors slot (slot.index * sectorsPerPage)
    sectorsPerPage h.device hsize hlimit hroom
  refine ⟨_, _, Outcome.bind_eq_ok_iff.2 ⟨(), Slots.requireOccupied_iff.2
    ⟨h.slots.lt_capacity ho, ho⟩, Outcome.bind_eq_ok_iff.2 ⟨_, Word.mul32_eq_ok_iff.2
      ⟨by omega, rfl⟩, Outcome.bind_eq_ok_iff.2 ⟨_, hdevice, rfl⟩⟩⟩⟩

end SwapSpace

end DemandPaging
