/-
  What a fault that was handled leaves behind.

  * `PageRecord.Supplies`: what a page that is in no frame consists of;
  * `Served`: the page that faulted is in a frame of its own, clean, and the frame holds what the
    page consists of; `Handled.served`: so it is after every fault that brought a page in;
  * `Answers`: accesses that stay within a page go through; `Permits.answers`: they do if the page
    is mapped and permits them;
  * `run_fault_served` says this of every fault that is handled after any run, and that the same
    fault once more changes nothing.
-/
import DemandPaging.Proofs.FilePages
import DemandPaging.Proofs.NoPanic
import DemandPaging.Proofs.Attempt

namespace DemandPaging

/-- What a page that is in no frame consists of: zeros, or the bytes in its slot, or those in its
    file, followed by zeros. -/
inductive PageRecord.Supplies (record : PageRecord) (swap : SwapSpace) (contents : Contents) :
    Prop where
  | zeros (hstatus : record.status = .zero) (hcontents : contents = .zero)
  | slot (slot : Slot) (hstatus : record.status = .swapped slot)
      (hcontents : contents = swap.page slot)
  | file (origin : FileOrigin) (hstatus : record.status = .fileBacked origin.span)
      (horigin : record.origin = some origin) (hfills : origin.Fills contents)

/-- Within a page of user memory, addresses stay words. -/
theorem end_le_wordLimit {address near length : Nat} (huser : isUserAddress near = true)
    (hpage : Page.containing address = .containing near)
    (hfits : pageOffset address + length ≤ pageSize) : address + length ≤ wordLimit := by
  simp only [isUserAddress, decide_eq_true_eq, Page.containing, Page.mk.injEq, pageOffset,
    kernelBase, pageSize, wordLimit] at *
  omega

namespace Machine

variable {n : Nat} {m m' m₁ : Machine n} {o : Owner} {record : PageRecord} {frame : Frame}
  {process : Nat} {fault : PageFault}

/-! ## The page is in a frame -/

/-- The page `o`, of which `before` was known, came into a frame. -/
structure Served (m m' : Machine n) (o : Owner) (before : PageRecord) (frame : Frame) : Prop where
  record?_eq : m'.record? o = some { before with status := .resident frame }
  isAllocated_eq : m'.frames.pool.isAllocated frame = true
  owner?_eq : m'.frames.owner? frame = some o
  hasPin_eq : m'.frames.pool.hasPin frame = false
  alone : ∀ x, m'.status? x = some (.resident frame) → x = o
  translate_eq : m'.translate o = some frame
  writable_eq : m'.flag o .writable = before.writable
  dirty_eq : m'.flag o .dirty = false
  supplied : before.Supplies m.swap (m'.memory.contents frame)
  slot_free : ∀ slot, before.status = .swapped slot → m'.swap.slots.isOccupied slot = false

/-- A page that is in no frame consists of what its record says, if its file is long enough. -/
theorem FilesKept.supplies (hf : m.FilesKept) (hr : m.record? o = some record)
    (hout : record.status.isResident = false)
    (hwhole : ∀ span origin, record.status = .fileBacked span → record.origin = some origin →
      (origin.file.readAt span.offset span.length).size = span.length) :
    record.Supplies m.swap (m.contentsOf record) := by
  cases hstatus : record.status with
  | zero => exact .zeros hstatus (by rw [contentsOf, hstatus])
  | resident g =>
    rw [hstatus] at hout
    cases hout
  | swapped slot => exact .slot slot hstatus (by rw [contentsOf, hstatus])
  | fileBacked span =>
    obtain ⟨origin, horigin, rfl, -⟩ := hf.backed o record span hr hstatus
    have hholds : origin.Holds (m.contentsOf record) :=
      ⟨hwhole _ _ hstatus horigin, by simp only [contentsOf, hstatus, horigin]⟩
    exact .file origin hstatus horigin (hholds.fills (hf.span_le o record origin hr horigin))

/-- The slot that a page came in from is released. -/
theorem Installed.slot_free {slot : Slot} (h : m.Installed m' frame o record)
    (hstatus : record.status = .swapped slot) : m'.swap.slots.isOccupied slot = false := by
  have hleft := h.slots
  rw [hstatus] at hleft
  rw [Slots.isOccupied_free hleft, if_pos rfl]

theorem Brought.served (h : m.Brought m' o record (.ok ())) (hs : m.Sound none)
    (hr : m.record? o = some record) (hout : record.status.isResident = false) :
    ∃ frame, m.Served m' o record frame := by
  have hs' := (h.sound hs hr hout).linked
  have hflat := h.flat_eq hs hr hout
  cases h with
  | installed frame m₁ m₂ m₃ hobtained hclaimed hfilled hinstalled hclean =>
    have hs₃ := hfilled.same.sound (hclaimed.same.sound (hobtained.sound hs))
    have hrecord : m'.record? o = some { record with status := .resident frame } := by
      rw [hinstalled.record?_eq, if_pos rfl]
    have hstatus := status?_of_record hrecord
    refine ⟨frame, hrecord, hs'.allocated hstatus, (hs'.owner?_iff frame o).2 hstatus, ?_,
      fun x hx => hs'.frame_inj hx hstatus, (hs'.translate_iff frame o).2 hstatus,
      ?_, hclean, ?_, fun slot => hinstalled.slot_free⟩
    · rw [hinstalled.hasPin_eq, if_pos rfl]
    · rw [hinstalled.writable_eq, if_pos rfl]
    · -- bringing the page in did not change what it holds
      have hcontents : m'.memory.contents frame = m.contentsOf record := by
        have hheld := congrFun hflat o
        rw [flat_of_record hrecord, flat_of_record hr] at hheld
        exact Option.some.inj hheld
      rw [hcontents]
      exact hs.files.supplies hr hout hfilled.whole

/-- A new page of zeros comes into a frame as any other page does. -/
theorem Served.of_added {new : Owner → Option PageRecord} (h : m₁.Served m' o record frame)
    (hadded : m.Added m₁ new) : m.Served m' o record frame :=
  { h with supplied := hadded.swap_eq ▸ h.supplied }

/-- A fault that is handled brings the page in, unless it is in a frame. -/
theorem Handled.served (h : m.Handled m' process fault (.ok ())) (hs : m.Sound none)
    (hout : ∀ g, m.status? ⟨process, .containing fault.address⟩ ≠ some (.resident g)) :
    ∃ before frame, (m.record? ⟨process, .containing fault.address⟩ = some before ∨
        m.record? ⟨process, .containing fault.address⟩ = none ∧
          before = { status := .zero, writable := true }) ∧
      (fault.write = true → before.writable = true) ∧
      m.Served m' ⟨process, .containing fault.address⟩ before frame := by
  cases h with
  | resident record hr hin =>
    obtain ⟨g, hstatus⟩ := PageStatus.exists_of_isResident hin
    exact absurd (hstatus ▸ status?_of_record hr) (hout g)
  | known record res hr hout hbrought hwritable =>
    obtain ⟨frame, hserved⟩ := hbrought.served hs hr hout
    exact ⟨record, frame, .inl hr, hwritable, hserved⟩
  | grown m₁ res hgrows hadded hbrought =>
    obtain ⟨frame, hserved⟩ :=
      hbrought.served (hadded.sound unloaded_zero hs) hadded.record?_self rfl
    exact ⟨_, frame, .inr ⟨hgrows.2.1, rfl⟩, fun _ => rfl, hserved.of_added hadded⟩

/-! ## The access goes through -/

/-- Accesses of a process that stay within the page at `near` go through: loads yield the bytes
    of the frame, and stores, if `write` allows them, replace all bytes that they are to. -/
structure Answers (m : Machine n) (process near : Nat) (write : Bool) (frame : Frame) : Prop where
  load : ∀ address length, Page.containing address = .containing near →
    pageOffset address + length ≤ pageSize → ∃ m', (m.tryLoad process address length).result =
      .ok (.ok ((m.memory.contents frame).slice (pageOffset address) length), m')
  store : write = true → ∀ address (data : Bytes), Page.containing address = .containing near →
    pageOffset address + data.size ≤ pageSize →
      ∃ m', (m.tryStore process address data).result = .ok (.ok data.size, m')

theorem tryLoad_of_translate {address length : Nat} (hs : m.Sound none)
    (htranslate : m.translate ⟨process, .containing address⟩ = some frame)
    (hfits : pageOffset address + length ≤ pageSize) (hend : address + length ≤ wordLimit) :
    ∃ m', (m.tryLoad process address length).result =
      .ok (.ok ((m.memory.contents frame).slice (pageOffset address) length), m') := by
  obtain ⟨⟨res, m'⟩, h⟩ := completes_tryLoad hs hend
  have hpermits : m.Permits ⟨process, .containing address⟩ false := ⟨⟨frame, htranslate⟩, nofun⟩
  obtain ⟨bytes, rfl⟩ := (tryLoad_attempted h).of_permits (pagesTouched_le_one hfits) hpermits
  obtain ⟨-, -, ⟨_, hbytes, hsize, hread⟩ | ⟨_, -, hfault⟩⟩ := tryLoad_cases h hs
  · cases hbytes
    have hslice : bytes = (m.memory.contents frame).slice (pageOffset address) length := by
      refine Array.ext_getElem? fun j => ?_
      by_cases hj : j < length
      · rw [← hread j hj, Contents.getElem?_slice hfits hj]
        exact byte?_of_translate hs.linked htranslate (by omega)
      · rw [Array.getElem?_eq_none (by omega),
          Array.getElem?_eq_none (by rw [Contents.size_slice hfits]; omega)]
    exact ⟨m', hslice ▸ h⟩
  · cases hfault

theorem tryStore_of_permits {address : Nat} {data : Bytes} (hs : m.Sound none)
    (hpermits : m.Permits ⟨process, .containing address⟩ true)
    (hfits : pageOffset address + data.size ≤ pageSize) (hend : address + data.size ≤ wordLimit) :
    ∃ m', (m.tryStore process address data).result = .ok (.ok data.size, m') := by
  obtain ⟨⟨res, m'⟩, h⟩ := completes_tryStore hs hend
  obtain ⟨count, rfl⟩ := (tryStore_attempted h).of_permits (pagesTouched_le_one hfits) hpermits
  obtain ⟨-, -, k, -, -, ⟨hcount, -⟩ | ⟨hfault, -⟩⟩ :=
    tryStore_cases (K := 0) h hs FlatMemory.store_zero.symm
  · cases hcount
    exact ⟨m', h⟩
  · cases hfault

theorem Permits.answers {near : Nat} {write : Bool} (hs : m.Sound none)
    (hpermits : m.Permits ⟨process, .containing near⟩ write)
    (htranslate : m.translate ⟨process, .containing near⟩ = some frame)
    (huser : isUserAddress near = true) : m.Answers process near write frame where
  load _ _ hpage hfits :=
    tryLoad_of_translate hs (hpage ▸ htranslate) hfits (end_le_wordLimit huser hpage hfits)
  store hwrite _ _ hpage hfits :=
    tryStore_of_permits hs (hpage ▸ hwrite ▸ hpermits) hfits (end_le_wordLimit huser hpage hfits)

/-! ## Faults that are handled -/

/-- Only faults at user addresses are handled. -/
theorem isUserAddress_of_handleFault
    (h : (m.handleFault process fault).result = .ok (.ok (), m')) :
    isUserAddress fault.address = true := by
  cases hkernel : isUserAddress fault.address with
  | true => rfl
  | false =>
    unfold handleFault judge at h
    rw [hkernel] at h
    cases h

/-- A fault on a page that is in a frame and permits the access changes nothing. -/
theorem handleFault_of_resident (huser : isUserAddress fault.address = true)
    (hr : m.record? ⟨process, .containing fault.address⟩ = some record)
    (hin : record.status.isResident = true)
    (hwritable : fault.write = true → record.writable = true) :
    m.handleFault process fault = pure (.ok (), m) := by
  have hget : (m.space process).table.get? (.containing fault.address) = some record := hr
  have hallowed : (fault.write && !record.writable) = false := by
    cases hw : fault.write with
    | false => rfl
    | true => rw [hwritable hw]; rfl
  have hjudge : m.judge process fault = .known (.containing fault.address) record := by
    simp only [judge, huser, hget, hallowed, Bool.not_true, Bool.false_eq_true, if_false]
  simp only [handleFault, hjudge, hin, if_true]

variable {config : Config} {device : Device} {requests : List Request} {answers : List Answer}

/-- A fault that is handled, on a page that was in no frame or that was not there, leaves the page
    in a frame of its own, with the bytes that it had before.  The access goes through then, and
    the same fault once more changes nothing. -/
theorem run_fault_served (h : Run config n device requests answers m)
    (hfault : (m.handleFault process fault).result = .ok (.ok (), m'))
    (hout : ∀ g, m.status? ⟨process, .containing fault.address⟩ ≠ some (.resident g)) :
    ∃ before frame, (m.record? ⟨process, .containing fault.address⟩ = some before ∨
        m.record? ⟨process, .containing fault.address⟩ = none ∧
          before = { status := .zero, writable := true }) ∧
      m.Served m' ⟨process, .containing fault.address⟩ before frame ∧
      m'.Answers process fault.address fault.write frame ∧
      m'.handleFault process fault = pure (.ok (), m') := by
  have hhandled := handleFault_cases hfault
  have huser := isUserAddress_of_handleFault hfault
  obtain ⟨before, frame, hbefore, hwritable, hserved⟩ := hhandled.served h.sound hout
  have hpermits : m'.Permits ⟨process, .containing fault.address⟩ fault.write :=
    ⟨⟨frame, hserved.translate_eq⟩, fun hw => hserved.writable_eq.trans (hwritable hw)⟩
  exact ⟨before, frame, hbefore, hserved,
    hpermits.answers (hhandled.sound h.sound) hserved.translate_eq huser,
    handleFault_of_resident huser hserved.record?_eq rfl hwritable⟩

/-- Pages are mapped dirty, and there is one frame.  The page that faults is in the first slot, and
    the other one goes to the second slot to make room. -/
theorem run_fault_served_oneFrame : ∃ answers, ∃ m m' : Machine 1, ∃ before frame,
    Run {} 1 (.inMemory 2) [.spawn 0 { mapsDirty := true }, .mapNewPage 0 ⟨0⟩ true false,
      .store 0 1 #[7] 0 0, .mapNewPage 0 ⟨1⟩ true false] answers m ∧
    (m.handleFault 0 ⟨1, true, 0⟩).result = .ok (.ok (), m') ∧
    m.record? ⟨0, ⟨0⟩⟩ = some before ∧ before.status = .swapped ⟨0⟩ ∧
    m.Served m' ⟨0, ⟨0⟩⟩ before frame ∧ m'.Answers 0 1 true frame ∧
    m'.handleFault 0 ⟨1, true, 0⟩ = pure (.ok (), m') := by
  obtain ⟨answers, m, h, hp⟩ := exists_run {} 1 (.inMemory 2) [.spawn 0 { mapsDirty := true },
    .mapNewPage 0 ⟨0⟩ true false, .store 0 1 #[7] 0 0, .mapNewPage 0 ⟨1⟩ true false]
    (fun m => m.status? ⟨0, ⟨0⟩⟩ = some (.swapped ⟨0⟩) ∧
      (m.handleFault 0 ⟨1, true, 0⟩).result.toOption.any fun handled =>
        handled.1.toOption = some ()) (by decide +kernel)
  obtain ⟨hstatus, hany⟩ := of_decide_eq_true hp
  obtain ⟨⟨res, m'⟩, hfault, hres⟩ := Outcome.exists_of_any hany
  obtain rfl : res = .ok () := by
    cases res with
    | error e => cases hres
    | ok u => rfl
  obtain ⟨before, frame, hbefore, hserved, hanswers, hagain⟩ :=
    run_fault_served h hfault fun g hg => nomatch hstatus.symm.trans hg
  obtain ⟨record, hr, hslot⟩ := status?_eq_some.1 hstatus
  rcases hbefore with hbefore | ⟨hnone, -⟩
  · cases hr.symm.trans hbefore
    exact ⟨answers, m, m', _, frame, h, hfault, hr, hslot, hserved, hanswers, hagain⟩
  · cases hr.symm.trans hnone

end Machine

end DemandPaging
