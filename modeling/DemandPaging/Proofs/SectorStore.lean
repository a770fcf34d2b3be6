/-
  A device over a disk in memory, as a counted store of sectors.

  The device and its drive check a transfer one after the other: the device stops the machine, the
  drive answers with an error, and they need not agree on how many sectors there are.  What a
  transfer does follows from the transfers before it, whichever of them failed.

  * `Transfer` is one call, and `lastWritten` what was last written to a sector;
  * `Transfer.Allowed`: the device takes the transfer; otherwise the machine stops, whatever the
    drive (`perform_of_not_allowed`);
  * `Drive.verdict` is whether the drive serves it, and `Device.Serves` all that the call does
    (`serves_read`, `serves_write`);
  * `Device.After`: what is stored and counted, told from the history (`After.serves`);
  * `Device.run_storesSectors`: every answer, the counts, and when the next call stops the machine.
-/
import DemandPaging.Proofs.Swap
import DemandPaging.Proofs.History

namespace DemandPaging

/-! ## Transfers and what they yield -/

/-- The direction of a transfer. -/
inductive Direction where
  | read
  | write
  deriving DecidableEq

/-- A call to a device. -/
structure Transfer where
  /-- Whether to read or to write. -/
  direction : Direction
  /-- The sector to read or write. -/
  sector : Nat
  /-- The bytes to write, or the buffer to fill. -/
  buffer : Bytes

/-- What a call answers. -/
structure Transferred where
  /-- Whether the device served it. -/
  result : Except DeviceError Unit
  /-- The buffer afterwards. -/
  buffer : Bytes

/-- The calls to a device, in order, each with its answer. -/
abbrev TransferHistory : Type := List (Transfer × Transferred)

namespace TransferHistory

/-- Whether a call transferred a sector in a direction. -/
def succeeded (direction : Direction) (call : Transfer × Transferred) : Bool :=
  call.1.direction = direction && call.2.result.isOk

theorem succeeded_error (direction : Direction) (transfer : Transfer) (e : DeviceError)
    (buffer : Bytes) : succeeded direction (transfer, ⟨.error e, buffer⟩) = false :=
  Bool.and_false _

theorem countP_concat (p : Transfer × Transferred → Bool) (history : TransferHistory)
    (call : Transfer × Transferred) :
    (history ++ [call]).countP p = history.countP p + (p call).toNat := by
  rw [List.countP_append, List.countP_singleton]
  cases p call <;> rfl

/-- What the last successful write to a sector wrote; zeros if there was none. -/
def lastWritten (history : TransferHistory) (sector : Nat) : Bytes :=
  match history.reverse.find? fun call => succeeded .write call && call.1.sector = sector with
  | some call => call.1.buffer
  | none => Sector.zero.toArray

theorem lastWritten_concat (history : TransferHistory) (call : Transfer × Transferred)
    (sector : Nat) :
    lastWritten (history ++ [call]) sector =
      if succeeded .write call && call.1.sector = sector then call.1.buffer
      else lastWritten history sector := by
  rw [lastWritten, List.reverse_append, List.reverse_singleton, List.singleton_append,
    List.find?_cons]
  cases succeeded .write call && decide (call.1.sector = sector) <;> rfl

end TransferHistory

namespace Drive

/-- How a drive answers the next transfer of a sector of the right length. -/
def verdict (drive : Drive) (sector : Nat) : Except DeviceError Unit :=
  if drive.plan.faulty sector && drive.plan.fails drive.met then .error .deviceFailure
  else if sector < drive.disk.size then .ok ()
  else .error .sectorOutOfBounds

theorem verdict_congr {drive drive' : Drive} {sector : Nat} (hplan : drive.plan = drive'.plan)
    (hmet : drive.met = drive'.met) (hsize : drive.disk.size = drive'.disk.size) :
    drive.verdict sector = drive'.verdict sector := by
  unfold verdict
  rw [hplan, hmet, hsize]

theorem lt_of_verdict {drive : Drive} {sector : Nat} (h : drive.verdict sector = .ok ()) :
    sector < drive.disk.size := by
  unfold verdict at h
  split at h
  · cases h
  · split at h
    · assumption
    · cases h

/-- A drive that has taken note of transfers of faulty sectors. -/
def meet (drive : Drive) (count : Nat) : Drive :=
  { drive with met := drive.met + count }

theorem attempt_eq (drive : Drive) (sector : Nat) :
    drive.attempt sector = (drive.plan.faulty sector && drive.plan.fails drive.met,
      drive.meet (drive.plan.faulty sector).toNat) := by
  unfold attempt meet
  cases drive.plan.faulty sector <;> rfl

theorem read_eq (drive : Drive) (sector : Nat) :
    drive.read sector sectorSize =
      ((drive.verdict sector).map fun _ => drive.disk.sectors[sector]?.getD Sector.zero,
        drive.meet (drive.plan.faulty sector).toNat) := by
  rw [read, attempt_eq, verdict]
  cases drive.plan.faulty sector && drive.plan.fails drive.met with
  | true => rfl
  | false =>
    simp only [Disk.read_eq, if_true, Bool.false_eq_true, if_false, meet]
    split <;> rfl

theorem writeSector_eq (drive : Drive) (sector : Nat) (contents : Sector) :
    drive.writeSector sector contents = (drive.verdict sector,
      match drive.verdict sector with
      | .ok () => { drive.meet (drive.plan.faulty sector).toNat with
          disk := ⟨drive.disk.sectors.setIfInBounds sector contents⟩ }
      | .error _ => drive.meet (drive.plan.faulty sector).toNat) := by
  rw [writeSector, attempt_eq, verdict]
  cases drive.plan.faulty sector && drive.plan.fails drive.met with
  | true => rfl
  | false =>
    simp only [Disk.writeSector_eq, Bool.false_eq_true, if_false, meet]
    by_cases h : sector < drive.disk.size
    · simp only [h, if_true]
    · simp only [h, if_false]

end Drive

/-! ## One call -/

/-- A device takes a transfer: of one of its sectors, one sector long, and no write to a foreign
    device. -/
structure Transfer.Allowed (transfer : Transfer) (device : Device) : Prop where
  sector_lt : transfer.sector < device.size
  size_eq : transfer.buffer.size = sectorSize
  writable : transfer.direction = .write → device.kind ≠ .foreign

theorem Transfer.not_allowed_iff {transfer : Transfer} {device : Device} :
    ¬transfer.Allowed device ↔ device.size ≤ transfer.sector ∨ transfer.buffer.size ≠ sectorSize ∨
      transfer.direction = .write ∧ device.kind = .foreign := by
  constructor
  · intro h
    by_cases hsector : transfer.sector < device.size
    · refine .inr (Decidable.or_iff_not_imp_left.2 fun hsize => ?_)
      by_cases hforeign : transfer.direction = .write ∧ device.kind = .foreign
      · exact hforeign
      · refine absurd ⟨hsector, Decidable.not_not.1 hsize, fun hwrite hkind => ?_⟩ h
        exact hforeign ⟨hwrite, hkind⟩
    · exact .inl (Nat.le_of_not_lt hsector)
  · rintro (h | h | ⟨hwrite, hkind⟩) hallowed
    · exact Nat.not_lt.2 h hallowed.sector_lt
    · exact h hallowed.size_eq
    · exact hallowed.writable hwrite hkind

namespace Device

open TransferHistory

variable {device start next : Device} {transfer : Transfer} {answer : Transferred}
  {history : TransferHistory}

/-- A new device over a disk of zeros, whose drive may fail. -/
def overBlank (index : Nat) (name : String) (kind : DeviceKind) (size sectors : Nat)
    (plan : FaultPlan) : Device :=
  { index, name, kind, size, drive := { disk := .blank sectors, plan } }

/-- Carry out a call. -/
def perform (device : Device) (transfer : Transfer) : Outcome (Transferred × Device) :=
  match transfer.direction with
  | .read => do
    let (result, device) ← device.read transfer.sector transfer.buffer.size
    match result with
    | .ok contents => return (⟨.ok (), contents.toArray⟩, device)
    | .error e => return (⟨.error e, transfer.buffer⟩, device)
  | .write => do
    let (result, device) ← device.write transfer.sector transfer.buffer
    return (⟨result, transfer.buffer⟩, device)

/-- What a call does that comes to an answer: the drive decides, a read fills the buffer with what
    is stored, a write changes what is stored, and a transfer is counted if it succeeded. -/
structure Serves (device : Device) (transfer : Transfer) (answer : Transferred) (next : Device) :
    Prop where
  result_eq : answer.result = device.drive.verdict transfer.sector
  buffer_eq : answer.buffer = if succeeded .read (transfer, answer)
    then (device.stored transfer.sector).toArray else transfer.buffer
  stored_eq : ∀ sector, (next.stored sector).toArray =
    if succeeded .write (transfer, answer) && transfer.sector = sector
    then transfer.buffer else (device.stored sector).toArray
  reads_eq : next.reads = device.reads + (succeeded .read (transfer, answer)).toNat
  writes_eq : next.writes = device.writes + (succeeded .write (transfer, answer)).toNat
  disk_eq : succeeded .write (transfer, answer) = false → next.drive.disk = device.drive.disk
  met_eq : next.drive.met = device.drive.met + (device.drive.plan.faulty transfer.sector).toNat
  same : device.SameAs next

/-- What a device does not take stops the machine before the drive is asked. -/
theorem perform_of_not_allowed (h : ¬transfer.Allowed device) :
    ∃ cause, ∀ drive, Device.perform { device with drive } transfer = .halt cause := by
  -- The device checks the sector, the length and its kind, in this order; the first that is wrong
  -- is the cause.
  obtain ⟨direction, sector, buffer⟩ := transfer
  by_cases hsector : sector < device.size
  · by_cases hsize : buffer.size = sectorSize
    · obtain hpast | hlength | ⟨rfl, hkind⟩ := Transfer.not_allowed_iff.1 h
      · exact absurd hsector (Nat.not_lt.2 hpast)
      · exact absurd hsize hlength
      refine ⟨.foreignWrite device.name, fun drive => ?_⟩
      simp [perform, write, writeSector, requireSector, hsector, hsize, hkind]
    · refine ⟨.transferSize device.name buffer.size, fun drive => ?_⟩
      cases direction <;> simp [perform, read, write, requireSector, hsector, hsize]
  · refine ⟨.sectorPastEnd device.name sector device.size, fun drive => ?_⟩
    cases direction with
    | read => simp [perform, read, requireSector, hsector]
    | write =>
      by_cases hsize : buffer.size = sectorSize <;>
        simp [perform, write, writeSector, requireSector, hsector, hsize]

theorem allowed_of_completes (h : (device.perform transfer).Completes) :
    transfer.Allowed device := by
  refine Classical.byContradiction fun hnot => ?_
  obtain ⟨cause, hhalt⟩ := perform_of_not_allowed hnot
  obtain ⟨_, hok⟩ := h
  rw [hhalt device.drive] at hok
  cases hok

/-- A read that the device takes, told from what the drive answers. -/
theorem perform_read {sector : Nat} {buffer : Bytes}
    (h : Transfer.Allowed ⟨.read, sector, buffer⟩ device) :
    device.perform ⟨.read, sector, buffer⟩ =
      let drive := device.drive.meet (device.drive.plan.faulty sector).toNat
      match device.drive.verdict sector with
      | .error e => return (⟨.error e, buffer⟩, { device with drive })
      | .ok () => do
        let reads ← Word.add32 device.reads 1
        return (⟨.ok (), (device.stored sector).toArray⟩, { device with drive, reads }) := by
  obtain ⟨hsector, hsize, -⟩ := h
  simp only at hsector hsize
  simp only [perform, read, requireSector, hsize, Outcome.require_of_true, hsector,
    Outcome.pure_bind, Drive.read_eq]
  cases device.drive.verdict sector with
  | error e => rfl
  | ok _ => exact Outcome.bind_assoc _ _ _

/-- A write that the device takes, told from what the drive answers. -/
theorem perform_write {sector : Nat} {contents : Sector}
    (h : Transfer.Allowed ⟨.write, sector, contents.toArray⟩ device) :
    device.perform ⟨.write, sector, contents.toArray⟩ =
      let drive := device.drive.meet (device.drive.plan.faulty sector).toNat
      match device.drive.verdict sector with
      | .error e => return (⟨.error e, contents.toArray⟩, { device with drive })
      | .ok () => do
        let writes ← Word.add32 device.writes 1
        return (⟨.ok (), contents.toArray⟩, { device with
          drive := { drive with disk := ⟨drive.disk.sectors.setIfInBounds sector contents⟩ }
          writes }) := by
  obtain ⟨hsector, -, hwritable⟩ := h
  have hkind := hwritable rfl
  simp only at hsector
  simp only [perform, write_toArray, writeSector, requireSector, Outcome.require_of_true, hsector,
    hkind, Outcome.pure_bind, Drive.writeSector_eq, ne_eq, not_false_eq_true]
  cases device.drive.verdict sector with
  | error e => rfl
  | ok _ => exact Outcome.bind_assoc _ _ _

/-- A transfer that the drive refuses changes nothing but what the drive has met. -/
theorem serves_error {e : DeviceError} (h : device.drive.verdict transfer.sector = .error e) :
    device.Serves transfer ⟨.error e, transfer.buffer⟩ { device with
      drive := device.drive.meet (device.drive.plan.faulty transfer.sector).toNat } where
  result_eq := h.symm
  buffer_eq := by rw [succeeded_error]; rfl
  stored_eq _ := by rw [succeeded_error]; rfl
  reads_eq := by rw [succeeded_error]; rfl
  writes_eq := by rw [succeeded_error]; rfl
  disk_eq _ := rfl
  met_eq := rfl
  same := ⟨rfl, rfl, rfl, rfl⟩

/-- So whatever answers with an error changes no sector, no count and no buffer. -/
theorem Serves.error_cases {e : DeviceError} (h : device.Serves transfer answer next)
    (herror : answer.result = .error e) : next.drive.disk = device.drive.disk ∧
      next.reads = device.reads ∧ next.writes = device.writes ∧
      answer.buffer = transfer.buffer := by
  obtain ⟨_, buffer⟩ := answer
  cases herror
  obtain ⟨-, hbuffer, -, hreads, hwrites, hdisk, -⟩ := h
  rw [succeeded_error] at hbuffer hreads hwrites
  exact ⟨hdisk (succeeded_error _ _ _ _), hreads, hwrites, hbuffer⟩

theorem serves_read {sector : Nat} {buffer : Bytes}
    (h : (device.perform ⟨.read, sector, buffer⟩).result = .ok (answer, next)) :
    device.Serves ⟨.read, sector, buffer⟩ answer next := by
  rw [perform_read (allowed_of_completes ⟨_, h⟩)] at h
  cases hverdict : device.drive.verdict sector with
  | error e =>
    rw [hverdict] at h
    cases h
    exact serves_error hverdict
  | ok _ =>
    rw [hverdict] at h
    obtain ⟨reads, hreads, h⟩ := Outcome.bind_eq_ok_iff.1 h
    obtain ⟨-, rfl⟩ := Word.add32_eq_ok_iff.1 hreads
    cases h
    exact ⟨hverdict.symm, rfl, fun _ => rfl, rfl, rfl, fun _ => rfl, rfl, ⟨rfl, rfl, rfl, rfl⟩⟩

theorem serves_write {sector : Nat} {buffer : Bytes}
    (h : (device.perform ⟨.write, sector, buffer⟩).result = .ok (answer, next)) :
    device.Serves ⟨.write, sector, buffer⟩ answer next := by
  have hallowed := allowed_of_completes ⟨_, h⟩
  obtain ⟨contents, rfl⟩ : ∃ contents : Sector, buffer = contents.toArray :=
    ⟨⟨buffer, hallowed.size_eq⟩, rfl⟩
  rw [perform_write hallowed] at h
  cases hverdict : device.drive.verdict sector with
  | error e =>
    rw [hverdict] at h
    cases h
    exact serves_error hverdict
  | ok _ =>
    rw [hverdict] at h
    obtain ⟨writes, hwrites, h⟩ := Outcome.bind_eq_ok_iff.1 h
    obtain ⟨-, rfl⟩ := Word.add32_eq_ok_iff.1 hwrites
    cases h
    have hlt : sector < device.drive.disk.sectors.size := Drive.lt_of_verdict hverdict
    refine ⟨hverdict.symm, rfl, fun other => ?_, rfl, rfl, nofun, rfl, ⟨rfl, rfl, ?_, rfl⟩⟩
    · by_cases hsame : sector = other
      · subst hsame
        simp [stored, Drive.meet, succeeded, Except.isOk, Except.toBool, hlt]
      · simp [stored, Drive.meet, hsame]
    · simp [Drive.meet, Disk.size]

theorem serves_of_perform (h : (device.perform transfer).result = .ok (answer, next)) :
    device.Serves transfer answer next := by
  obtain ⟨direction, sector, buffer⟩ := transfer
  cases direction with
  | read => exact serves_read h
  | write => exact serves_write h

/-- What the device takes is answered while the counts have room. -/
theorem completes_of_allowed (h : transfer.Allowed device)
    (hreads : transfer.direction = .read → device.reads + 1 < sectorLimit)
    (hwrites : transfer.direction = .write → device.writes + 1 < sectorLimit) :
    (device.perform transfer).Completes := by
  obtain ⟨direction, sector, buffer⟩ := transfer
  cases direction with
  | read =>
    rw [perform_read h]
    cases device.drive.verdict sector with
    | error e => exact .pure _
    | ok _ => exact .bind_of (Word.add32_eq_ok_iff.2 ⟨hreads rfl, rfl⟩) (.pure _)
  | write =>
    obtain ⟨contents, rfl⟩ : ∃ contents : Sector, buffer = contents.toArray :=
      ⟨⟨buffer, h.size_eq⟩, rfl⟩
    rw [perform_write h]
    cases device.drive.verdict sector with
    | error e => exact .pure _
    | ok _ => exact .bind_of (Word.add32_eq_ok_iff.2 ⟨hwrites rfl, rfl⟩) (.pure _)

/-! ## Any calls -/

/-- A device after a history: sectors hold what was last written to them, and what succeeded is
    counted. -/
structure After (start : Device) (history : TransferHistory) (device : Device) : Prop where
  same : start.SameAs device
  met_eq : device.drive.met =
    start.drive.met + history.countP fun call => start.drive.plan.faulty call.1.sector
  stored_eq : ∀ sector, (device.stored sector).toArray = lastWritten history sector
  reads_eq : device.reads = history.countP (succeeded .read)
  writes_eq : device.writes = history.countP (succeeded .write)

/-- What a call answers, told from the calls before it. -/
structure Answers (start : Device) (history : TransferHistory) (transfer : Transfer)
    (answer : Transferred) : Prop where
  /-- The device took the transfer. -/
  allowed : transfer.Allowed start
  /-- Only the drive refuses it: it fails, or its disk ends before the sector. -/
  result_eq : answer.result = (start.drive.meet
    (history.countP fun call => start.drive.plan.faulty call.1.sector)).verdict transfer.sector
  /-- A successful read fills the buffer with what was last written; otherwise it is unchanged. -/
  buffer_eq : answer.buffer = if succeeded .read (transfer, answer)
    then lastWritten history transfer.sector else transfer.buffer

theorem SameAs.allowed_iff (h : start.SameAs device) :
    transfer.Allowed device ↔ transfer.Allowed start := by
  constructor
  · rintro ⟨hsector, hsize, hwritable⟩
    exact ⟨h.size_eq ▸ hsector, hsize, h.kind_eq ▸ hwritable⟩
  · rintro ⟨hsector, hsize, hwritable⟩
    exact ⟨h.size_eq ▸ hsector, hsize, h.kind_eq ▸ hwritable⟩

namespace After

theorem overBlank (index : Nat) (name : String) (kind : DeviceKind) (size sectors : Nat)
    (plan : FaultPlan) : (overBlank index name kind size sectors plan).After []
      (overBlank index name kind size sectors plan) where
  same := .refl _
  met_eq := rfl
  stored_eq sector := by
    by_cases h : sector < sectors <;> simp [Device.overBlank, stored, Disk.blank, h, lastWritten]
  reads_eq := rfl
  writes_eq := rfl

theorem serves (h : start.After history device) (hserves : device.Serves transfer answer next) :
    start.After (history ++ [(transfer, answer)]) next where
  same := h.same.trans hserves.same
  met_eq := by
    rw [hserves.met_eq, h.met_eq, h.same.plan_eq, countP_concat, Nat.add_assoc]
  stored_eq sector := by rw [hserves.stored_eq, h.stored_eq, lastWritten_concat]
  reads_eq := by rw [hserves.reads_eq, h.reads_eq, countP_concat]
  writes_eq := by rw [hserves.writes_eq, h.writes_eq, countP_concat]

theorem answers (h : start.After history device) (hserves : device.Serves transfer answer next)
    (hallowed : transfer.Allowed device) : start.Answers history transfer answer where
  allowed := h.same.allowed_iff.1 hallowed
  result_eq := by
    rw [hserves.result_eq]
    exact Drive.verdict_congr h.same.plan_eq h.met_eq h.same.sectors_eq
  buffer_eq := by rw [hserves.buffer_eq, h.stored_eq]

theorem sectors_eq (h : start.After history device) (sector : Nat) :
    (device.drive.disk.sectors[sector]?.map Vector.toArray) =
      if sector < start.drive.disk.size then some (lastWritten history sector) else none := by
  have hsize : device.drive.disk.sectors.size = start.drive.disk.size := h.same.sectors_eq
  by_cases hsector : sector < device.drive.disk.sectors.size
  · have hstored := h.stored_eq sector
    rw [stored, Array.getElem?_eq_getElem hsector, Option.getD_some] at hstored
    rw [if_pos (hsize ▸ hsector), Array.getElem?_eq_getElem hsector, Option.map_some, hstored]
  · rw [if_neg (hsize ▸ hsector), Array.getElem?_eq_none (Nat.le_of_not_lt hsector),
      Option.map_none]

/-- While the counts have room, a call stops the machine only if the device does not take it. -/
theorem completes_iff (h : start.After history device)
    (hroom : history.countP (succeeded transfer.direction) + 1 < sectorLimit) :
    (device.perform transfer).Completes ↔ transfer.Allowed start := by
  rw [← h.same.allowed_iff]
  refine ⟨allowed_of_completes, fun hallowed => completes_of_allowed hallowed ?_ ?_⟩
  · intro hread
    rwa [h.reads_eq, ← hread]
  · intro hwrite
    rwa [h.writes_eq, ← hwrite]

end After

/-- A device after any calls, and the next one. -/
structure StoresSectors (start : Device) (history : TransferHistory) (device : Device) : Prop where
  /-- Every call was answered as the calls before it say. -/
  answers : ∀ (i : Nat) transfer answer, history[i]? = some (transfer, answer) →
    start.Answers (history.take i) transfer answer
  /-- The counts are of the transfers that succeeded. -/
  reads_eq : device.reads = history.countP (succeeded .read)
  writes_eq : device.writes = history.countP (succeeded .write)
  /-- The disk holds what was last written to each of its sectors. -/
  sectors_eq : ∀ sector, (device.drive.disk.sectors[sector]?.map Vector.toArray) =
    if sector < start.drive.disk.size then some (lastWritten history sector) else none
  /-- A call that answers with an error changes no sector, no count and no buffer. -/
  error_cases : ∀ transfer answer e next, (device.perform transfer).result = .ok (answer, next) →
    answer.result = .error e → next.drive.disk = device.drive.disk ∧
      next.reads = device.reads ∧ next.writes = device.writes ∧ answer.buffer = transfer.buffer
  /-- A call stops the machine exactly if it is past the end of the device, not of one sector, or a
      write to a foreign device; as long as the counts have room. -/
  panics_iff : ∀ transfer, history.countP (succeeded transfer.direction) + 1 < sectorLimit →
    (¬(device.perform transfer).Completes ↔ start.size ≤ transfer.sector ∨
      transfer.buffer.size ≠ sectorSize ∨ transfer.direction = .write ∧ start.kind = .foreign)
  /-- The drive is not asked by such a call: with any other, the machine stops for the same cause. -/
  unasked : ∀ transfer, (start.size ≤ transfer.sector ∨
      transfer.buffer.size ≠ sectorSize ∨ transfer.direction = .write ∧ start.kind = .foreign) →
    ∃ cause, ∀ drive, Device.perform { device with drive } transfer = .halt cause

/-- A device over a disk of zeros, of any size and with any faults, is a counted store of sectors:
    after any calls that did not stop the machine. -/
theorem run_storesSectors (index : Nat) (name : String) (kind : DeviceKind) (size sectors : Nat)
    (plan : FaultPlan)
    (hruns : Outcome.Runs perform (overBlank index name kind size sectors plan) history device) :
    StoresSectors (overBlank index name kind size sectors plan) history device := by
  obtain ⟨hafter, hanswers⟩ := hruns.facts
    (P := (overBlank index name kind size sectors plan).After)
    (Q := (overBlank index name kind size sectors plan).Answers)
    (fun before s transfer answer next hbefore hcall =>
      have hserves := serves_of_perform hcall
      ⟨hbefore.serves hserves, hbefore.answers hserves (allowed_of_completes ⟨_, hcall⟩)⟩)
    (.overBlank index name kind size sectors plan)
  exact {
    answers := hanswers
    reads_eq := hafter.reads_eq
    writes_eq := hafter.writes_eq
    sectors_eq := hafter.sectors_eq
    error_cases := fun _ _ _ _ hcall herror => (serves_of_perform hcall).error_cases herror
    panics_iff := fun transfer hroom => by
      rw [← Transfer.not_allowed_iff, hafter.completes_iff hroom]
    unasked := fun transfer hrefused => by
      rw [← Transfer.not_allowed_iff, ← hafter.same.allowed_iff] at hrefused
      exact perform_of_not_allowed hrefused }

/-- A device that ends behind its disk, and a drive that fails the first transfer of sector 1. -/
theorem run_storesSectors_failing :
    ∃ history device, history.map (fun call => call.2.result.isOk) =
        [true, false, true, true, false] ∧
      Outcome.Runs perform (overBlank 0 "hda" .scratch 3 2 ⟨(· = 1), (· = 0)⟩) history device ∧
      StoresSectors (overBlank 0 "hda" .scratch 3 2 ⟨(· = 1), (· = 0)⟩) history device := by
  obtain ⟨⟨answers, device⟩, h, hanswers⟩ := Outcome.exists_of_any
    (x := Outcome.answerAll perform (overBlank 0 "hda" .scratch 3 2 ⟨(· = 1), (· = 0)⟩)
      [⟨.write, 0, .replicate sectorSize 7⟩, ⟨.write, 1, .replicate sectorSize 8⟩,
        ⟨.write, 1, .replicate sectorSize 9⟩, ⟨.read, 1, .replicate sectorSize 0⟩,
        ⟨.read, 2, .replicate sectorSize 0⟩])
    (p := fun run => run.1.map (·.result.isOk) = [true, false, true, true, false])
    (by decide +kernel)
  obtain ⟨history, -, rfl, hruns⟩ := Outcome.exists_runs h
  refine ⟨history, device, ?_, hruns, run_storesSectors _ _ _ _ _ _ hruns⟩
  simpa [List.map_map, Function.comp_def] using hanswers

end Device

end DemandPaging
