/-
  Bringing a page in: what a fault changes.

  * `fill_cases`: a frame gets what its page holds, or is given back because the
    file of the page is too short;
  * `install_cases`: the page is mapped to the frame, clean, or the frame is given back
    because there is no memory for the mapping;
  * `Brought` lists the ways in which bringing a page in ends; `Brought.sound` and
    `Brought.flat_eq`: whatever happens, the machine is sound and no page holds
    other bytes;
  * `handleFault_cases`: a fault brings a page in, after a new page of zeros was
    added to the stack if it grows.
-/
import DemandPaging.Machine.Fault
import DemandPaging.Proofs.Placing

namespace DemandPaging

/-- A page is in its file, which ends before the bytes that the page starts with do. -/
def PageRecord.FileTooShort (record : PageRecord) : Prop :=
  ∃ span origin, record.status = .fileBacked span ∧ record.origin = some origin ∧
    0 < span.length ∧ origin.file.size < span.offset + span.length

/-- A file that yields fewer bytes than asked for ends before them. -/
theorem Bytes.short_of_size_readAt {file : Bytes} {offset length : Nat}
    (h : (file.readAt offset length).size ≠ length) :
    0 < length ∧ file.size < offset + length := by
  rw [readAt, Array.size_extract] at h
  omega

namespace Machine

variable {n : Nat} {m m' m₁ : Machine n} {frame g : Frame} {o x : Owner} {record : PageRecord}

/-! ## Filling the frame -/

/-- The frame in hand got what the page holds that it is for. -/
structure Filled (m m' : Machine n) (frame : Frame) (record : PageRecord) : Prop where
  same : m.SameButHeld m' frame
  owner?_self : m'.frames.owner? frame = m.frames.owner? frame
  pinned : m'.frames.pool.hasPin frame = m.frames.pool.hasPin frame
  contents_self : m'.memory.contents frame = m.contentsOf record
  whole : ∀ span origin, record.status = .fileBacked span → record.origin = some origin →
    (origin.file.readAt span.offset span.length).size = span.length

/-- Machines that differ in the contents of a frame and in what was counted of the device. -/
theorem sameButHeld_of_contents {memory : Memory n} {swap : SwapSpace}
    (hslots : swap.slots = m.swap.slots) (hpage : ∀ s, swap.page s = m.swap.page s)
    (hdevice : m.swap.device.SameAs swap.device)
    (hmemory : ∀ g, frame ≠ g → memory.contents g = m.memory.contents g) :
    m.SameButHeld { m with memory := memory, swap := swap } frame :=
  ⟨rfl, rfl, rfl, hslots, hpage, hdevice, rfl, id, fun _ => rfl, fun _ _ => rfl, fun _ _ => rfl,
    hmemory⟩

theorem fill_cases {process : Nat} {page : Page} {res : Except Error Unit}
    (h : (m.fill process page record frame).result = .ok (res, m'))
    (hzero : record.status = .zero → m.memory.contents frame = .zero)
    (hout : record.status.isResident = false) :
    res = .ok () ∧ m.Filled m' frame record ∨
      res = .error .fileRead ∧ record.FileTooShort ∧
        ∃ m₁, m.SameButHeld m₁ frame ∧ m₁.Freed m' frame := by
  unfold fill at h
  cases hstatus : record.status with
  | zero =>
    rw [hstatus] at h
    cases h
    refine .inl ⟨rfl, sameButHeld_of_contents rfl (fun _ => rfl) (.refl _) (fun _ _ => rfl), rfl,
      rfl, ?_, by simp [hstatus]⟩
    rw [hzero hstatus, contentsOf, hstatus]
  | resident g =>
    rw [hstatus] at hout
    cases hout
  | swapped slot =>
    rw [hstatus] at h
    simp only [Outcome.bind_eq_ok_iff, Prod.exists] at h
    obtain ⟨contents, swap, hread, memory, hput, h⟩ := h
    cases h
    obtain ⟨-, rfl, hslots, hpage, hdevice, -⟩ := SwapSpace.read_cases hread
    obtain ⟨-, hmemory⟩ := Memory.put_cases hput
    refine .inl ⟨rfl, sameButHeld_of_contents hslots hpage hdevice ?_, rfl, rfl, ?_,
      by simp [hstatus]⟩
    · intro g hg
      rw [hmemory, if_neg hg]
    · show memory.contents frame = _
      rw [hmemory, if_pos rfl, contentsOf, hstatus]
  | fileBacked span =>
    rw [hstatus] at h
    cases horigin : record.origin with
    | none => simp [horigin] at h
    | some origin =>
      simp only [horigin] at h
      split at h
      · rename_i hsize
        simp only [Outcome.bind_eq_ok_iff] at h
        obtain ⟨memory, hput, h⟩ := h
        cases h
        obtain ⟨-, hmemory⟩ := Memory.put_cases hput
        refine .inl ⟨rfl, sameButHeld_of_contents rfl (fun _ => rfl) (.refl _) ?_, rfl,
          rfl, ?_, ?_⟩
        · intro g hg
          rw [hmemory, if_neg hg]
        · show memory.contents frame = _
          rw [hmemory, if_pos rfl, contentsOf, hstatus, horigin]
        · intro s origin' hs horigin'
          cases hstatus.symm.trans hs
          cases horigin.symm.trans horigin'
          exact hsize
      · rename_i hshort
        simp only [Outcome.bind_eq_ok_iff] at h
        obtain ⟨memory, hupdate, m₂, hfree, _, -, h⟩ := h
        cases h
        obtain ⟨-, hmemory⟩ := Memory.update_cases hupdate
        refine .inr ⟨rfl, ⟨span, origin, hstatus, horigin, Bytes.short_of_size_readAt hshort⟩,
          { m with memory := memory },
          sameButHeld_of_contents rfl (fun _ => rfl) (.refl _) fun g hg => ?_, free_cases hfree⟩
        rw [hmemory, if_neg hg]

theorem Filled.holds (h : m.Filled m' frame record) (hf : m.FilesKept)
    (hr : m.record? o = some record) (hout : record.status.isResident = false)
    {origin : FileOrigin} (horigin : record.origin = some origin) (hclean : record.dirty = false) :
    origin.Holds (m'.memory.contents frame) := by
  rw [h.contents_self]
  cases hstatus : record.status with
  | zero =>
    have := hf.zero o record hr hstatus
    rw [this] at horigin
    cases horigin
  | resident g =>
    rw [hstatus] at hout
    cases hout
  | swapped slot =>
    have := hf.swapped o record slot origin hr hstatus horigin
    rw [this] at hclean
    cases hclean
  | fileBacked span =>
    obtain ⟨origin', horigin', rfl, -⟩ := hf.backed o record span hr hstatus
    cases horigin.symm.trans horigin'
    refine ⟨h.whole _ _ hstatus horigin, ?_⟩
    simp only [contentsOf, hstatus, horigin]

/-! ## Mapping the page -/

theorem leaveSource_cases {status : PageStatus} (h : (m.leaveSource status).result = .ok m') :
    ∃ slots, SlotLeft m.swap.slots slots status ∧ m' = { m with
      swap := { m.swap with slots := slots }, stats := m.stats.countArrival status } := by
  cases status with
  | zero => cases h; exact ⟨_, rfl, rfl⟩
  | resident frame => cases h; exact ⟨_, rfl, rfl⟩
  | fileBacked span => cases h; exact ⟨_, rfl, rfl⟩
  | swapped slot =>
    simp only [leaveSource, Outcome.bind_eq_ok_iff] at h
    obtain ⟨swap, hfree, h⟩ := h
    cases h
    obtain ⟨slots, hslots, rfl⟩ := SwapSpace.free_cases hfree
    exact ⟨slots, hslots, rfl⟩

theorem install_cases {res : Except Error Unit}
    (h : (m.install o.process o.page record frame).result = .ok (res, m'))
    (hr : m.record? o = some record) :
    res = .error .outOfMemory ∧ o.page ∈ (m.space o.process).directory.refused ∧
        m.Freed m' frame ∨
      res = .ok () ∧ m.Installed m' frame o record ∧ m'.flag o .dirty = false := by
  simp only [install, Outcome.bind_eq_ok_iff, Prod.exists] at h
  obtain ⟨mapped, directory, hmap, h⟩ := h
  rcases Directory.map_cases hmap with ⟨rfl, hrefused, rfl⟩ | ⟨rfl, -, entry, hfresh, rfl⟩
  · simp only [Bool.not_false, if_true, Outcome.bind_eq_ok_iff] at h
    obtain ⟨m₁, hfree, h⟩ := h
    cases h
    exact .inl ⟨rfl, hrefused, free_cases hfree⟩
  · simp only [Bool.not_true, Bool.false_eq_true, if_false, Outcome.bind_eq_ok_iff] at h
    obtain ⟨table, htable, m₁, hleave, m₂, hunpin, h⟩ := h
    cases h
    obtain ⟨found, hfound, rfl⟩ := PageTable.markResident_eq_ok_iff.1 htable
    obtain ⟨slots, hslots, rfl⟩ := leaveSource_cases hleave
    obtain ⟨hall, rfl⟩ := unpin_cases hunpin
    rw [space_setDirectory, if_pos rfl] at hfound ⊢
    obtain rfl : record = found := Option.some.inj (hr.symm.trans hfound)
    refine .inr ⟨rfl, installed_of record slots hall rfl ?_ ?_ ?_ ?_ hslots, ?_⟩
    · intro q
      rw [Directory.translate_setDirty, Directory.translate_setEntry hfresh.present,
        hfresh.frame_eq]
    · intro q
      rw [Directory.setDirty, Directory.has_set, if_neg (by simp), Directory.has_setEntry,
        hfresh.writable_eq]
    · intro q
      rw [Directory.setDirty, Directory.has_set, if_neg (by simp), Directory.has_setEntry,
        hfresh.accessed]
    · intro q hq
      rw [Directory.setDirty, Directory.has_set, if_neg (by simp [hq]), Directory.has_setEntry,
        if_neg hq]
    · -- the entry is there by now, so that its dirty bit can be cleared
      have hentry : (((m.space o.process).directory.setEntry o.page entry).entries.get?
          o.page).isSome = true := by
        simp [Directory.setEntry]
      refine (flag_setTable _).trans ((flag_setDirectory _).trans ?_)
      rw [if_pos rfl, Directory.setDirty, Directory.has_set_of_some hentry, if_pos ⟨rfl, rfl⟩]

/-! ## Bringing a page in -/

/-- Why the page `o` does not come into the frame that was got for it: its file is too short, or
    there is no memory for its mapping. -/
inductive Obstacle (m : Machine n) (o : Owner) (record : PageRecord) : Error → Prop where
  | shortFile (hshort : record.FileTooShort) : Obstacle m o record .fileRead
  | refused (hrefused : o.page ∈ (m.space o.process).directory.refused) :
      Obstacle m o record .outOfMemory

/-- How bringing in the page `o`, of which `record` is known, ends: without a frame, with the
    frame given back, or with the page in the frame. -/
inductive Brought (m m' : Machine n) (o : Owner) (record : PageRecord) :
    Except Error Unit → Prop where
  | frameless (e : Error) (hobtained : m.Obtained m' (.error e)) : Brought m m' o record (.error e)
  | givenBack (e : Error) (frame : Frame) (m₁ m₂ : Machine n)
      (hframe : m.obtainFrame.result = .ok (.ok frame, m₁))
      (hobtained : m.Obtained m₁ (.ok frame)) (hsame : m₁.SameButHeld m₂ frame)
      (hfreed : m₂.Freed m' frame) (hobstacle : m₂.Obstacle o record e) :
      Brought m m' o record (.error e)
  | installed (frame : Frame) (m₁ m₂ m₃ : Machine n) (hobtained : m.Obtained m₁ (.ok frame))
      (hclaimed : m₁.Claimed m₂ frame o (record.status = .zero))
      (hfilled : m₂.Filled m₃ frame record) (hinstalled : m₃.Installed m' frame o record)
      (hclean : m'.flag o .dirty = false) : Brought m m' o record (.ok ())

theorem bringIn_cases {res : Except Error Unit}
    (h : (m.bringIn o.process o.page record).result = .ok (res, m'))
    (hr : m.record? o = some record) (hout : record.status.isResident = false) :
    m.Brought m' o record res := by
  simp only [bringIn, Outcome.bind_eq_ok_iff, Prod.exists] at h
  obtain ⟨allocated, m₂, hallocate, h⟩ := h
  rcases allocate_cases hallocate with ⟨e, rfl, hobtained⟩ | ⟨frame, m₁, rfl, hframe, hclaimed⟩
  · cases h
    exact .frameless e hobtained
  · have hobtained := obtainFrame_cases hframe
    simp only [Outcome.bind_eq_ok_iff, Prod.exists] at h
    obtain ⟨filled, m₃, hfill, h⟩ := h
    have hzero : record.status = .zero → m₂.memory.contents frame = .zero := by
      intro hz
      rw [hclaimed.contents_self]
      simp [hz]
    rcases fill_cases hfill hzero hout with ⟨rfl, hfilled⟩ | ⟨rfl, hshort, m₄, hsame, hfreed⟩
    · -- what the page is known by has not changed since the frame was asked for
      have hr₃ : m₃.record? o = some record := by
        rw [hfilled.same.record?_eq, hclaimed.same.record?_eq, hobtained.record?_of_out hr hout]
      rcases install_cases h hr₃ with
        ⟨rfl, hrefused, hfreed⟩ | ⟨rfl, hinstalled, hclean⟩
      · exact .givenBack _ frame m₁ m₃ hframe hobtained (hclaimed.same.trans hfilled.same) hfreed
          (.refused hrefused)
      · exact .installed frame m₁ m₂ m₃ hobtained hclaimed hfilled hinstalled hclean
    · cases h
      exact .givenBack _ frame m₁ m₄ hframe hobtained (hclaimed.same.trans hsame) hfreed
        (.shortFile hshort)

namespace Brought

variable {res : Except Error Unit}

theorem sound (h : m.Brought m' o record res) (hs : m.Sound none)
    (hr : m.record? o = some record) (hout : record.status.isResident = false) :
    m'.Sound none := by
  cases h with
  | frameless e hobtained => exact hobtained.sound hs
  | givenBack e frame m₁ m₂ hframe hobtained hsame hfreed =>
    exact hfreed.sound (hsame.sound (hobtained.sound hs))
  | installed frame m₁ m₂ m₃ hobtained hclaimed hfilled hinstalled =>
    have hs₂ := hclaimed.same.sound (hobtained.sound hs)
    have hr₂ : m₂.record? o = some record := by
      rw [hclaimed.same.record?_eq, hobtained.record?_of_out hr hout]
    have howner : m₃.frames.owner? frame = some o :=
      hfilled.owner?_self.trans hclaimed.owner?_self
    refine hinstalled.sound (hfilled.same.sound hs₂) howner ?_ hout ?_
    · rw [hfilled.same.record?_eq, hr₂]
    · intro origin
      exact hfilled.holds hs₂.files hr₂ hout

/-- Bringing a page in changes where pages are, not what they hold. -/
theorem flat_eq (h : m.Brought m' o record res) (hs : m.Sound none)
    (hr : m.record? o = some record) (hout : record.status.isResident = false) :
    m'.flat = m.flat := by
  cases h with
  | frameless e hobtained => exact hobtained.flat_eq hs
  | givenBack e frame m₁ m₂ hframe hobtained hsame hfreed =>
    rw [hfreed.flat_eq, hsame.flat_eq (hobtained.sound hs).linked, hobtained.flat_eq hs]
  | installed frame m₁ m₂ m₃ hobtained hclaimed hfilled hinstalled =>
    have hs₁ := hobtained.sound hs
    have hs₂ := hclaimed.same.sound hs₁
    have hr₂ : m₂.record? o = some record := by
      rw [hclaimed.same.record?_eq, hobtained.record?_of_out hr hout]
    have hflat : m₃.flat = m.flat := by
      rw [hfilled.same.flat_eq hs₂.linked, hclaimed.same.flat_eq hs₁.linked, hobtained.flat_eq hs]
    funext x
    rw [hinstalled.flat_eq, hfilled.contents_self]
    split
    · rename_i hx
      rw [← hx, ← flat_of_record hr₂, ← hfilled.same.flat_eq hs₂.linked, hflat]
    · rw [hflat]

end Brought

/-! ## Faults -/

/-- A fault adds a page to the stack: it is at a user address, in a page without a record,
    and looks like a push. -/
def StackGrows (m : Machine n) (process : Nat) (fault : PageFault) : Prop :=
  isUserAddress fault.address = true ∧
    m.record? ⟨process, .containing fault.address⟩ = none ∧
      m.config.isStackAccess fault.address fault.stackPointer = true

section

variable {process : Nat} {fault : PageFault} {page : Page}

theorem judge_rejected {e : Error} {event : Event}
    (h : m.judge process fault = .rejected e event) :
    ¬m.StackGrows process fault ∧ (e = .invalidAccess ∨ e = .readOnly) := by
  constructor
  · rintro ⟨huser, hr, hstack⟩
    have hr : (m.space process).table.get? (.containing fault.address) = none := hr
    simp only [judge, huser, hr, hstack, Bool.not_true, Bool.false_eq_true, if_false, if_true] at h
    cases h
  · unfold judge at h
    dsimp only at h
    split at h
    · cases h; exact .inl rfl
    · split at h
      · split at h
        · cases h; exact .inr rfl
        · cases h
      · split at h
        · cases h
        · cases h; exact .inl rfl

theorem judge_known (h : m.judge process fault = .known page record) :
    page = .containing fault.address ∧
      m.record? ⟨process, .containing fault.address⟩ = some record ∧
      (fault.write = true → record.writable = true) := by
  unfold judge at h
  dsimp only at h
  split at h
  · cases h
  · split at h
    · rename_i found hfound
      split at h
      · cases h
      · rename_i hallowed
        cases h
        exact ⟨rfl, hfound, fun hw => by simpa [hw] using hallowed⟩
    · split at h <;> cases h

theorem judge_stackGrowth (h : m.judge process fault = .stackGrowth page) :
    page = .containing fault.address ∧ m.StackGrows process fault := by
  unfold judge at h
  dsimp only at h
  split at h
  · cases h
  · rename_i huser
    split at h
    · split at h <;> cases h
    · rename_i hr
      split at h
      · rename_i hstack
        cases h
        exact ⟨rfl, by simpa using huser, hr, hstack⟩
      · cases h

end

/-- The machine with a page of zeros added to a stack. -/
def growStack (m : Machine n) (o : Owner) : Machine n :=
  m.setTable o.process ⟨(m.space o.process).table.records.insert o.page
    { status := .zero, writable := true }⟩

theorem added_growStack (h : m.record? o = none) : m.Added (m.growStack o) fun x =>
    if o = x then some { status := .zero, writable := true } else none :=
  added_insertZero (PageTable.insertZero_of_absent true h)

/-- What a fault changes: nothing, or a page is brought in, which may have been added to the
    stack just before. -/
inductive Handled (m m' : Machine n) (process : Nat) (fault : PageFault) :
    Except Error Unit → Prop where
  | rejected (e : Error) (hnot : ¬m.StackGrows process fault) (hm : m' = m)
      (he : e = .invalidAccess ∨ e = .readOnly) : Handled m m' process fault (.error e)
  | resident (record : PageRecord)
      (hr : m.record? ⟨process, .containing fault.address⟩ = some record)
      (hin : record.status.isResident = true) (hm : m' = m)
      (hwritable : fault.write = true → record.writable = true) :
      Handled m m' process fault (.ok ())
  | known (record : PageRecord) (res : Except Error Unit)
      (hr : m.record? ⟨process, .containing fault.address⟩ = some record)
      (hout : record.status.isResident = false)
      (hbrought : m.Brought m' ⟨process, .containing fault.address⟩ record res)
      (hwritable : fault.write = true → record.writable = true) :
      Handled m m' process fault res
  | grown (m₁ : Machine n) (res : Except Error Unit) (hgrows : m.StackGrows process fault)
      (hadded : m.Added m₁ fun x => if ⟨process, .containing fault.address⟩ = x then
        some { status := .zero, writable := true } else none)
      (hbrought : m₁.Brought m' ⟨process, .containing fault.address⟩
        { status := .zero, writable := true } res)
      (hm₁ : m₁ = m.growStack ⟨process, .containing fault.address⟩) :
      Handled m m' process fault res

theorem handleFault_cases {process : Nat} {fault : PageFault} {res : Except Error Unit}
    (h : (m.handleFault process fault).result = .ok (res, m')) :
    m.Handled m' process fault res := by
  unfold handleFault at h
  split at h
  · rename_i e event hverdict
    cases h
    obtain ⟨hnot, he⟩ := judge_rejected hverdict
    exact .rejected e hnot rfl he
  · rename_i page record hverdict
    obtain ⟨rfl, hr, hwritable⟩ := judge_known hverdict
    split at h
    · rename_i hin
      cases h
      exact .resident record hr hin rfl hwritable
    · rename_i hout
      have hout : record.status.isResident = false := by simpa using hout
      exact .known record res hr hout (bringIn_cases h hr hout) hwritable
  · rename_i page hverdict
    obtain ⟨rfl, hgrows⟩ := judge_stackGrowth hverdict
    split at h
    · rename_i e hinsert
      cases hinsert.symm.trans (PageTable.insertZero_of_absent true hgrows.2.1)
    · rename_i table hinsert
      have hadded := added_growStack (o := ⟨process, .containing fault.address⟩) hgrows.2.1
      obtain ⟨-, rfl⟩ := PageTable.insert_eq_ok_iff.1 hinsert
      exact .grown _ res hgrows hadded (bringIn_cases h hadded.record?_self rfl) rfl

namespace Handled

variable {process : Nat} {fault : PageFault} {res : Except Error Unit}

theorem sound (h : m.Handled m' process fault res) (hs : m.Sound none) : m'.Sound none := by
  cases h with
  | rejected e hnot hm => subst hm; exact hs
  | resident record hr hin hm => subst hm; exact hs
  | known record res hr hout hbrought => exact hbrought.sound hs hr hout
  | grown m₁ res hgrows hadded hbrought =>
    have hs₁ := hadded.sound unloaded_zero hs
    exact hbrought.sound hs₁ hadded.record?_self rfl

/-- A fault changes what the process sees in one way only: its stack grows by a page of
    zeros. -/
theorem flat_eq (h : m.Handled m' process fault res) (hs : m.Sound none) (x : Owner) :
    (m.StackGrows process fault ∧ ⟨process, .containing fault.address⟩ = x →
      m'.flat x = some .zero) ∧
    (¬(m.StackGrows process fault ∧ ⟨process, .containing fault.address⟩ = x) →
      m'.flat x = m.flat x) := by
  cases h with
  | rejected e hnot hm => subst hm; exact ⟨fun h => absurd h.1 hnot, fun _ => rfl⟩
  | resident record hr hin hm =>
    subst hm
    exact ⟨fun h => (nomatch hr.symm.trans h.1.2.1), fun _ => rfl⟩
  | known record res hr hout hbrought =>
    rw [hbrought.flat_eq hs hr hout]
    exact ⟨fun h => (nomatch hr.symm.trans h.1.2.1), fun _ => rfl⟩
  | grown m₁ res hgrows hadded hbrought =>
    have hs₁ := hadded.sound unloaded_zero hs
    rw [hbrought.flat_eq hs₁ hadded.record?_self rfl, hadded.flat_eq]
    constructor
    · intro h
      rw [if_pos h.2]; rfl
    · intro h
      rw [if_neg fun hx => h ⟨hgrows, hx⟩]; rfl

end Handled

end Machine

end DemandPaging
