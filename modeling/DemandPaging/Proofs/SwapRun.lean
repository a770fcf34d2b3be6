/-
  Runs of the swap space: what is read from a slot is what was last written to it.

  * `SwapRequest.lastWritten` is the page that the requests so far leave in a slot, whether or not
    the slot was released and handed out again in between;
  * `Performed.page_eq` and `pages_of_runs`: a request, and so a run of them, leaves this page in
    every slot, where a later request finds it;
  * `Device.Reads` and `Device.Writes`: sectors are transferred one after the other;
    `reads_of_read` and `writes_of_write`: those of a slot, from its first one on, all of which
    are on the device (`Healthy.sectors_lt`);
  * `run_lastWritten`: all this after any run, on a disk that starts out blank.
-/
import DemandPaging.Proofs.NoPanic

namespace DemandPaging

/-! ## Requests to a swap space -/

/-- What is asked of a swap space. -/
inductive SwapRequest where
  /-- Reserve a slot. -/
  | allocate
  /-- Release a slot. -/
  | free (slot : Slot)
  /-- Write a page into a slot. -/
  | write (slot : Slot) (contents : Contents)
  /-- Read the page in a slot. -/
  | read (slot : Slot)

/-- What a swap space answers. -/
inductive SwapAnswer where
  /-- The slot reserved, if there was one. -/
  | allocated (slot : Except Error Slot)
  /-- The slot is released. -/
  | freed
  /-- The page is written. -/
  | written
  /-- The page read. -/
  | page (contents : Contents)

namespace SwapRequest

/-- The page that a request writes into a slot. -/
def written? (slot : Slot) : SwapRequest → Option Contents
  | write other contents => if other = slot then some contents else none
  | _ => none

/-- The page that was written into a slot last, or zeros if none was. -/
def lastWritten (slot : Slot) (requests : List SwapRequest) : Contents :=
  (requests.reverse.findSome? (written? slot)).getD .zero

theorem lastWritten_concat (slot : Slot) (requests : List SwapRequest) (request : SwapRequest) :
    lastWritten slot (requests ++ [request]) =
      (request.written? slot).getD (lastWritten slot requests) := by
  rw [lastWritten, lastWritten, List.reverse_concat, List.findSome?_cons]
  cases request.written? slot <;> rfl

end SwapRequest

namespace SwapSpace

/-- Carry out a request. -/
def perform (swap : SwapSpace) : SwapRequest → Outcome (SwapAnswer × SwapSpace)
  | .allocate => do
    let (slot, swap) ← swap.allocate
    return (.allocated slot, swap)
  | .free slot => do
    let swap ← swap.free slot
    return (.freed, swap)
  | .write slot contents => do
    let swap ← swap.write slot contents
    return (.written, swap)
  | .read slot => do
    let (contents, swap) ← swap.read slot
    return (.page contents, swap)

/-- The requests, carried out one after the other on a device just taken for swap, are answered by
    `answers` and leave the swap space `swap` behind. -/
def Run (device : Device) (requests : List SwapRequest) (answers : List SwapAnswer)
    (swap : SwapSpace) : Prop :=
  (do let swap ← ofDevice device
      Outcome.answerAll perform swap requests).result = .ok (answers, swap)

variable {swap swap' : SwapSpace} {device device' : Device} {slot : Slot} {contents : Contents}
  {request : SwapRequest} {requests : List SwapRequest} {answer : SwapAnswer}
  {answers : List SwapAnswer}

/-! ## One request -/

/-- How a request ends that does not stop the machine. -/
inductive Performed (swap swap' : SwapSpace) : SwapRequest → SwapAnswer → Prop where
  | allocated (res : Except Error Slot) (h : swap.allocate.result = .ok (res, swap')) :
      Performed swap swap' .allocate (.allocated res)
  | freed (slot : Slot) (h : (swap.free slot).result = .ok swap') :
      Performed swap swap' (.free slot) .freed
  | written (slot : Slot) (contents : Contents)
      (h : (swap.write slot contents).result = .ok swap') :
      Performed swap swap' (.write slot contents) .written
  | read (slot : Slot) (contents : Contents)
      (h : (swap.read slot).result = .ok (contents, swap')) :
      Performed swap swap' (.read slot) (.page contents)

theorem perform_cases (h : (swap.perform request).result = .ok (answer, swap')) :
    swap.Performed swap' request answer := by
  cases request with
  | allocate =>
    obtain ⟨⟨res, next⟩, hallocate, h⟩ := Outcome.bind_eq_ok_iff.1 h
    cases h
    exact .allocated res hallocate
  | free slot =>
    obtain ⟨next, hfree, h⟩ := Outcome.bind_eq_ok_iff.1 h
    cases h
    exact .freed slot hfree
  | write slot contents =>
    obtain ⟨next, hwrite, h⟩ := Outcome.bind_eq_ok_iff.1 h
    cases h
    exact .written slot contents hwrite
  | read slot =>
    obtain ⟨⟨contents, next⟩, hread, h⟩ := Outcome.bind_eq_ok_iff.1 h
    cases h
    exact .read slot contents hread

/-- A request changes the page in a slot only if it writes to the slot. -/
theorem Performed.page_eq (h : swap.Performed swap' request answer) (slot : Slot) :
    swap'.page slot = (request.written? slot).getD (swap.page slot) := by
  cases h with
  | allocated res h =>
    obtain ⟨slots, -, rfl⟩ := allocate_cases h
    rfl
  | freed other h =>
    obtain ⟨slots, -, rfl⟩ := free_cases h
    rfl
  | written other contents h =>
    obtain ⟨-, -, hpage, -⟩ := write_cases h
    rw [hpage, SwapRequest.written?]
    split <;> rfl
  | read other contents h =>
    obtain ⟨-, -, -, hpage, -⟩ := read_cases h
    exact hpage slot

/-- A swap space on a healthy device stays one. -/
theorem Performed.healthy (h : swap.Performed swap' request answer) (hs : swap.Healthy) :
    swap'.Healthy ∧ swap'.device.size = swap.device.size := by
  cases h with
  | allocated res h =>
    obtain ⟨slots, hslots, rfl⟩ := allocate_cases h
    have hcapacity := (Slots.capacity_allocate hslots).trans hs.capacity
    exact ⟨⟨hs.device, hs.slots.allocate hslots, hcapacity⟩, rfl⟩
  | freed slot h =>
    obtain ⟨slots, hslots, rfl⟩ := free_cases h
    obtain ⟨-, rfl⟩ := Slots.free_cases hslots
    exact ⟨⟨hs.device, hs.slots.free hslots, hs.capacity⟩, rfl⟩
  | written slot contents h =>
    obtain ⟨-, hslots, -, hsame, -⟩ := write_cases h
    refine ⟨⟨hs.device.same hsame, hslots ▸ hs.slots, ?_⟩, hsame.size_eq⟩
    rw [hslots, hs.capacity, hsame.size_eq]
  | read slot contents h =>
    obtain ⟨-, -, hslots, -, hsame, -⟩ := read_cases h
    refine ⟨⟨hs.device.same hsame, hslots ▸ hs.slots, ?_⟩, hsame.size_eq⟩
    rw [hslots, hs.capacity, hsame.size_eq]

/-! ## Runs -/

/-- A history leaves in every slot what was last written there, and so does the part of it before
    a page is read: that is the page that is read. -/
theorem pages_of_runs {history : List (SwapRequest × SwapAnswer)}
    (h : Outcome.Runs perform swap history swap') (hblank : ∀ slot, swap.page slot = .zero) :
    (∀ slot, swap'.page slot = SwapRequest.lastWritten slot (history.map Prod.fst)) ∧
      ∀ (i : Nat) slot answer, history[i]? = some (.read slot, answer) →
        answer = .page (SwapRequest.lastWritten slot ((history.take i).map Prod.fst)) := by
  refine (h.facts
    (P := fun before swap =>
      ∀ slot, swap.page slot = SwapRequest.lastWritten slot (before.map Prod.fst))
    (Q := fun before request answer => ∀ slot, request = .read slot →
      answer = .page (SwapRequest.lastWritten slot (before.map Prod.fst)))
    (fun before swap request answer next hbefore hrequest => ?_) hblank).imp_right
    fun hreads i slot answer hi => hreads i _ answer hi slot rfl
  have hperformed := perform_cases hrequest
  refine ⟨fun slot => ?_, ?_⟩
  · rw [hperformed.page_eq, hbefore, List.map_append, List.map_singleton,
      SwapRequest.lastWritten_concat]
  · rintro slot rfl
    cases hperformed with
    | read _ contents hread =>
      obtain ⟨-, rfl, -⟩ := read_cases hread
      rw [hbefore]

theorem healthy_of_answerAll
    (h : (Outcome.answerAll perform swap requests).result = .ok (answers, swap'))
    (hs : swap.Healthy) : swap'.Healthy ∧ swap'.device.size = swap.device.size := by
  refine Outcome.answerAll_keeps (I := fun s => s.Healthy ∧ s.device.size = swap.device.size)
    (fun s request answer next _ hs hrequest => ?_) ⟨hs, rfl⟩ h
  obtain ⟨hnext, hsize⟩ := (perform_cases hrequest).healthy hs.1
  exact ⟨hnext, hsize.trans hs.2⟩

/-- A device just taken for swap. -/
theorem run_iff : Run device requests answers swap ↔
    (Outcome.answerAll perform
      { device := device, slots := { capacity := device.size / sectorsPerPage } }
      requests).result = .ok (answers, swap) :=
  Iff.rfl

theorem page_blank {sectors : Nat} (h : swap.device.drive.disk = .blank sectors) (slot : Slot) :
    swap.page slot = .zero := by
  have hstored (j : Nat) : swap.device.stored j = .zero := by
    rw [Device.stored, h, Disk.blank, Array.getElem?_replicate]
    split <;> rfl
  ext i hi
  have hk : i / sectorSize < sectorsPerPage := by
    simp only [pageSize, sectorSize, sectorsPerPage] at *
    omega
  simp [page, hstored, Contents.ofSectors, hk, Sector.zero]

end SwapSpace

/-! ## The sectors of a slot -/

/-- The sectors that a slot takes up, in order. -/
def Slot.sectors (slot : Slot) : List Nat :=
  List.range' (slot.index * sectorsPerPage) sectorsPerPage

namespace Device

/-- The given sectors are read one after the other. -/
inductive Reads : Device → List Nat → List Sector → Device → Prop where
  | done (device : Device) : Reads device [] [] device
  | step {device next last : Device} {sector : Nat} {sectors : List Nat} {contents : Sector}
      {rest : List Sector}
      (hread : (device.read sector sectorSize).result = .ok (.ok contents, next))
      (hrest : Reads next sectors rest last) :
      Reads device (sector :: sectors) (contents :: rest) last

/-- The given sectors get new contents one after the other. -/
inductive Writes : Device → List (Nat × Sector) → Device → Prop where
  | done (device : Device) : Writes device [] device
  | step {device next last : Device} {sector : Nat} {contents : Sector}
      {rest : List (Nat × Sector)}
      (hwrite : (device.writeSector sector contents).result = .ok (.ok (), next))
      (hrest : Writes next rest last) : Writes device ((sector, contents) :: rest) last

end Device

namespace SwapSpace

variable {swap swap' : SwapSpace} {device device' : Device} {slot : Slot} {contents : Contents}

theorem reads_of_readSectors {count sector : Nat} {sectors : List Sector}
    (h : (readSectors slot device sector count).result = .ok (sectors, device')) :
    device.Reads (List.range' sector count) sectors device' := by
  induction count generalizing device sector sectors with
  | zero =>
    obtain ⟨_, -, h⟩ := Outcome.bind_eq_ok_iff.1 h
    cases h
    exact .done _
  | succ count ih =>
    simp only [readSectors, Outcome.bind_eq_ok_iff, Word.add32_eq_ok_iff, Prod.exists] at h
    obtain ⟨_, ⟨-, rfl⟩, res, next, hread, h⟩ := h
    cases res with
    | error e => cases h
    | ok contents =>
      obtain ⟨⟨rest, last⟩, hrest, h⟩ := Outcome.bind_eq_ok_iff.1 h
      cases h
      exact .step hread (ih hrest)

theorem writes_of_writeSectors {sectors : List Sector} {sector : Nat}
    (h : (writeSectors slot device sector sectors).result = .ok device') :
    device.Writes ((List.range' sector sectors.length).zip sectors) device' := by
  induction sectors generalizing device sector with
  | nil =>
    obtain ⟨_, -, h⟩ := Outcome.bind_eq_ok_iff.1 h
    cases h
    exact .done _
  | cons contents rest ih =>
    simp only [writeSectors, Outcome.bind_eq_ok_iff, Word.add32_eq_ok_iff, Prod.exists] at h
    obtain ⟨_, ⟨-, rfl⟩, res, next, hwrite, h⟩ := h
    cases res with
    | error e => cases h
    | ok _ => exact .step hwrite (ih h)

theorem reads_of_read (h : (swap.read slot).result = .ok (contents, swap')) :
    ∃ sectors, swap.device.Reads slot.sectors sectors swap'.device ∧
      contents = .ofSectors sectors := by
  simp only [read, Outcome.bind_eq_ok_iff, Slot.firstSector, Word.mul32_eq_ok_iff,
    Outcome.result_pure, Except.ok.injEq, Prod.exists, Prod.mk.injEq] at h
  obtain ⟨_, -, _, ⟨-, rfl⟩, sectors, device, hsectors, rfl, rfl⟩ := h
  exact ⟨sectors, reads_of_readSectors hsectors, rfl⟩

theorem writes_of_write (h : (swap.write slot contents).result = .ok swap') :
    swap.device.Writes (slot.sectors.zip contents.sectors) swap'.device := by
  simp only [write, Outcome.bind_eq_ok_iff, Slot.firstSector, Word.mul32_eq_ok_iff,
    Outcome.result_pure, Except.ok.injEq] at h
  obtain ⟨_, -, _, ⟨-, rfl⟩, device, hsectors, rfl⟩ := h
  rw [Slot.sectors, ← contents.length_sectors]
  exact writes_of_writeSectors hsectors

/-- All sectors of a slot are on the device. -/
theorem Healthy.sectors_lt (hs : swap.Healthy) (hslot : slot.index < swap.capacity) :
    ∀ sector ∈ slot.sectors, sector < swap.device.size := by
  intro sector hsector
  rw [Slot.sectors, List.mem_range'_1] at hsector
  exact Nat.lt_of_lt_of_le hsector.2 (hs.end_le_size hslot).1

/-! ## After any run -/

/-- After any run of a swap space on a blank disk, every slot holds the page that was last written
    to it, and that is what was read from it whenever it was.  A transfer is of the sectors of its
    slot, which the device has and which are counted through without overflow. -/
theorem run_lastWritten {sectors : Nat} {requests : List SwapRequest} {answers : List SwapAnswer}
    (hdevice : device.Healthy) (hdisk : device.drive.disk = .blank sectors)
    (h : Run device requests answers swap) :
    (∀ (i : Nat) (slot : Slot), requests[i]? = some (.read slot) →
      answers[i]? = some (.page (SwapRequest.lastWritten slot (requests.take i)))) ∧
      (∀ slot, swap.page slot = SwapRequest.lastWritten slot requests) ∧
      (∀ slot contents swap', (swap.write slot contents).result = .ok swap' →
        swap'.page slot = contents ∧ (∀ other, other ≠ slot → swap'.page other = swap.page other) ∧
          swap.device.Writes (slot.sectors.zip contents.sectors) swap'.device) ∧
      (∀ slot contents swap', (swap.read slot).result = .ok (contents, swap') →
        contents = swap.page slot ∧ (∀ other, swap'.page other = swap.page other) ∧
          ∃ read, swap.device.Reads slot.sectors read swap'.device ∧ contents = .ofSectors read) ∧
      swap.capacity = device.size / sectorsPerPage ∧
      (∀ slot : Slot, slot.index < swap.capacity →
        (∀ sector ∈ slot.sectors, sector < device.size) ∧
          slot.firstSector.result = .ok (slot.index * sectorsPerPage) ∧
          ∀ k, k ≤ sectorsPerPage → (Word.add32 (slot.index * sectorsPerPage + k) 1).result =
            .ok (slot.index * sectorsPerPage + k + 1)) ∧
      ∀ slot, swap.slots.isOccupied slot = true →
        (∀ contents, swap.device.writes + sectorsPerPage < sectorLimit →
          ∃ swap', (swap.write slot contents).result = .ok swap') ∧
        (swap.device.reads + sectorsPerPage < sectorLimit →
          ∃ swap', (swap.read slot).result =
            .ok (SwapRequest.lastWritten slot requests, swap')) := by
  have hstart : Healthy { device, slots := { capacity := device.size / sectorsPerPage } } :=
    ⟨hdevice, Slots.sound_empty _, rfl⟩
  obtain ⟨hhealthy, hsize⟩ := healthy_of_answerAll (run_iff.1 h) hstart
  obtain ⟨history, rfl, rfl, hruns⟩ := Outcome.exists_runs (run_iff.1 h)
  obtain ⟨hpages, hreads⟩ := pages_of_runs hruns (page_blank hdisk)
  refine ⟨fun i slot hi => ?_, hpages, fun slot contents swap' hwrite => ?_,
    fun slot contents swap' hread => ?_, hsize ▸ hhealthy.capacity,
    fun slot hslot => ⟨hsize ▸ hhealthy.sectors_lt hslot, ?_, fun k hk => ?_⟩,
    fun slot hslot => ⟨fun contents => hhealthy.exists_write contents hslot, fun hroom => ?_⟩⟩
  · rw [List.getElem?_map, Option.map_eq_some_iff] at hi
    obtain ⟨⟨_, answer⟩, hentry, rfl⟩ := hi
    rw [List.getElem?_map, hentry, ← List.map_take]
    exact congrArg some (hreads i slot answer hentry)
  · obtain ⟨-, -, hpage, -⟩ := write_cases hwrite
    refine ⟨by rw [hpage, if_pos rfl], fun other hother => ?_, writes_of_write hwrite⟩
    rw [hpage, if_neg hother.symm]
  · obtain ⟨-, hcontents, -, hpage, -⟩ := read_cases hread
    exact ⟨hcontents, hpage, reads_of_read hread⟩
  · have hlimit := (hhealthy.end_le_size hslot).2
    exact Word.mul32_eq_ok_iff.2 ⟨by omega, rfl⟩
  · have hlimit := (hhealthy.end_le_size hslot).2
    exact Word.add32_eq_ok_iff.2 ⟨by omega, rfl⟩
  · obtain ⟨contents, swap', hread⟩ := hhealthy.exists_read hslot hroom
    obtain ⟨-, rfl, -⟩ := read_cases hread
    exact ⟨swap', hpages slot ▸ hread⟩

/-- A slot is released and handed out again while another one is written: it still holds its
    page. -/
theorem run_lastWritten_twoSlots : ∃ answers swap,
    Run (.inMemory 2) [.allocate, .allocate, .write ⟨0⟩ (.ofBytes #[1]), .free ⟨0⟩,
      .write ⟨1⟩ (.ofBytes #[2]), .allocate, .read ⟨0⟩, .read ⟨1⟩] answers swap ∧
    answers[6]? = some (.page (.ofBytes #[1])) ∧ answers[7]? = some (.page (.ofBytes #[2])) := by
  have hruns : (Outcome.answerAll perform { device := .inMemory 2, slots := { capacity := 2 } }
      [.allocate, .allocate, .write ⟨0⟩ (.ofBytes #[1]), .free ⟨0⟩, .write ⟨1⟩ (.ofBytes #[2]),
        .allocate, .read ⟨0⟩, .read ⟨1⟩]).result.toOption.any (fun _ => true) = true := by
    decide +kernel
  obtain ⟨⟨answers, swap⟩, h, -⟩ := Outcome.exists_of_any hruns
  have hread := (run_lastWritten (Device.healthy_inMemory (by decide)) rfl (run_iff.2 h)).1
  exact ⟨answers, swap, h, hread 6 ⟨0⟩ rfl, hread 7 ⟨1⟩ rfl⟩

end SwapSpace

end DemandPaging
