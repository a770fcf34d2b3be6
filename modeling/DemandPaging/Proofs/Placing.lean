/-
  Pages that come into being: a page gets its record, a page gets its frame.

  * `Added`: pages got their first records; `Added.sound` and `Added.flat_eq`: the
    machine stays sound, and its memory grows by what the records stand for;
  * `Installed`: the frame in hand became the place of a page; `Installed.sound`
    and `Installed.flat_eq`: nothing is in hand any more, and the page holds what
    the frame holds.
-/
import DemandPaging.Proofs.Allocation

namespace DemandPaging

/-- What is recorded of a page that was never in a frame. -/
inductive PageRecord.Unloaded : PageRecord → Prop where
  | zero (writable : Bool) : Unloaded { status := .zero, writable := writable }
  | fileBacked (origin : FileOrigin) (writable : Bool) (h : origin.span.length ≤ pageSize) :
    Unloaded { status := .fileBacked origin.span, writable := writable, origin := some origin }

/-- A page that was never in a frame is in none, and in no slot. -/
theorem PageRecord.Unloaded.status_ne {record : PageRecord} (h : record.Unloaded) :
    (∀ frame, record.status ≠ .resident frame) ∧ ∀ slot, record.status ≠ .swapped slot := by
  cases h <;> exact ⟨nofun, nofun⟩

theorem PageTable.insertZero_of_absent {table : PageTable} {page : Page} (writable : Bool)
    (h : table.get? page = none) : table.insertZero page writable =
      .ok ⟨table.records.insert page { status := .zero, writable := writable }⟩ :=
  insert_eq_ok_iff.2 ⟨h, rfl⟩

theorem PageTable.insert_error {table : PageTable} {page : Page} {record : PageRecord} {e : Error}
    (h : table.insert page record = .error e) : e = .alreadyMapped := by
  unfold insert at h
  split at h
  · cases h; rfl
  · cases h

/-- Count that a page came into a frame from where it was. -/
def Stats.countArrival (stats : Stats) : PageStatus → Stats
  | .swapped _ => stats.countSwapIn
  | .fileBacked _ => stats.countFileLoad
  | .zero | .resident _ => stats

@[simp] theorem Stats.evictions_countArrival (stats : Stats) (status : PageStatus) :
    (stats.countArrival status).evictions = stats.evictions := by
  cases status <;> rfl

namespace Machine

variable {n : Nat} {m m' : Machine n} {held : Option Frame} {frame g : Frame} {o x : Owner}
  {record : PageRecord} {slot : Slot} {new : Owner → Option PageRecord}

/-! ## New records -/

/-- Pages without a record got those that `new` lists, and nothing else changed but the bits
    of pages that are not mapped. -/
structure Added (m m' : Machine n) (new : Owner → Option PageRecord) : Prop where
  config_eq : m'.config = m.config
  memory_eq : m'.memory = m.memory
  swap_eq : m'.swap = m.swap
  stats_eq : m'.stats = m.stats
  frames_eq : m'.frames = m.frames
  traits_eq : ∀ p, (m'.space p).directory.toDirectoryTraits =
    (m.space p).directory.toDirectoryTraits
  absent : ∀ x r, new x = some r → m.record? x = none
  record?_eq : ∀ x, m'.record? x = (new x).or (m.record? x)
  translate_eq : ∀ x, m'.translate x = m.translate x
  flag_eq : ∀ x fl, new x = none → m'.flag x fl = m.flag x fl

theorem Added.record?_cases (h : m.Added m' new) {r : PageRecord} (hx : m'.record? x = some r) :
    new x = some r ∨ new x = none ∧ m.record? x = some r := by
  rw [h.record?_eq] at hx
  cases hnew : new x with
  | none => exact .inr ⟨rfl, by rwa [hnew, Option.none_or] at hx⟩
  | some r' => exact .inl (by rwa [hnew, Option.some_or] at hx)

/-- What is recorded of the page that is new. -/
theorem Added.record?_self
    (h : m.Added m' fun x => if o = x then some record else none) : m'.record? o = some record := by
  rw [h.record?_eq, if_pos rfl, Option.some_or]

/-- No new page is in a frame or a slot. -/
theorem Added.status?_iff (h : m.Added m' new) {status : PageStatus}
    (hs : ∀ x r, new x = some r → r.status ≠ status) :
    m'.status? x = some status ↔ m.status? x = some status := by
  rw [status?, status?, h.record?_eq]
  cases hx : new x with
  | none => rw [Option.none_or]
  | some r =>
    rw [h.absent x r hx]
    exact ⟨fun he => absurd (Option.some.inj he) (hs x r hx), fun hn => by cases hn⟩

theorem Added.sound (h : m.Added m' new) (hnew : ∀ x r, new x = some r → r.Unloaded)
    (hs : m.Sound held) : m'.Sound held := by
  have hresident : ∀ x g, m'.status? x = some (.resident g) ↔ m.status? x = some (.resident g) :=
    fun x g => h.status?_iff fun y r hy => (hnew y r hy).status_ne.1 g
  have hswapped : ∀ x s, m'.status? x = some (.swapped s) ↔ m.status? x = some (.swapped s) :=
    fun x s => h.status?_iff fun y r hy => (hnew y r hy).status_ne.2 s
  refine ⟨hs.linked.of_same (by rw [h.frames_eq]; exact hs.linked.counted)
    (fun g => by rw [h.frames_eq]) (fun g _ => by rw [h.frames_eq]) hresident h.translate_eq ?_,
    hs.slots.of_same (by rw [h.swap_eq]) hswapped, ⟨?_, ?_, ?_, ?_, ?_⟩⟩
  · intro x r g hr hst
    rcases h.record?_cases hr with hx | ⟨hx, hr⟩
    · cases hnew x r hx <;> cases hst
    · rw [h.flag_eq x _ hx]; exact hs.linked.writable_eq x r g hr hst
  · intro x r hr hst
    rcases h.record?_cases hr with hx | ⟨-, hr⟩
    · cases hnew x r hx with
      | zero => rfl
      | fileBacked => cases hst
    · exact hs.files.zero x r hr hst
  · intro x r span hr hst
    rcases h.record?_cases hr with hx | ⟨-, hr⟩
    · cases hnew x r hx with
      | zero => cases hst
      | fileBacked origin => cases hst; exact ⟨origin, rfl, rfl, rfl⟩
    · exact hs.files.backed x r span hr hst
  · intro x r s origin hr hst
    rcases h.record?_cases hr with hx | ⟨-, hr⟩
    · cases hnew x r hx <;> cases hst
    · exact hs.files.swapped x r s origin hr hst
  · intro x r g origin hr hst ho hd hflag
    rcases h.record?_cases hr with hx | ⟨hx, hr⟩
    · cases hnew x r hx <;> cases hst
    · rw [h.flag_eq x _ hx] at hflag
      rw [h.memory_eq]; exact hs.files.clean x r g origin hr hst ho hd hflag
  · intro x r origin hr ho
    rcases h.record?_cases hr with hx | ⟨-, hr⟩
    · cases hnew x r hx with
      | zero => cases ho
      | fileBacked origin _ hle => cases ho; exact hle
    · exact hs.files.span_le x r origin hr ho

theorem Added.flat_eq (h : m.Added m' new) (x : Owner) :
    m'.flat x = ((new x).map m.contentsOf).or (m.flat x) := by
  rw [flat, flat, h.record?_eq, contentsOf_eq h.memory_eq fun s => by rw [h.swap_eq]]
  cases new x <;> rfl

/-- A single page of zeros is new. -/
theorem unloaded_zero {writable : Bool} (y : Owner) (r : PageRecord)
    (h : (if o = y then some ({ status := .zero, writable := writable } : PageRecord) else none) =
      some r) : r.Unloaded := by
  split at h
  · cases h; exact .zero writable
  · cases h

/-- Replacing the table of a process by one with more records. -/
theorem added_setTable (m : Machine n) (process : Nat) {table : PageTable}
    (more : Page → Option PageRecord)
    (habsent : ∀ q r, more q = some r → (m.space process).table.get? q = none)
    (hget : ∀ q, table.get? q = (more q).or ((m.space process).table.get? q)) :
    m.Added (m.setTable process table)
      (fun x => if process = x.process then more x.page else none) where
  config_eq := rfl
  memory_eq := rfl
  swap_eq := rfl
  stats_eq := rfl
  frames_eq := rfl
  traits_eq := traits_setTable table
  absent := by
    intro x r hx
    split at hx
    · rename_i hp
      subst hp
      exact habsent x.page r hx
    · cases hx
  record?_eq := by
    intro x
    rw [record?_setTable]
    split
    · rename_i hp
      subst hp
      exact hget x.page
    · rw [Option.none_or]
  translate_eq _ := translate_setTable table
  flag_eq _ _ _ := flag_setTable table

/-- Adding a page of zeros to the table of a process. -/
theorem added_insertZero {writable : Bool} {table : PageTable}
    (h : (m.space o.process).table.insertZero o.page writable = .ok table) :
    m.Added (m.setTable o.process table)
      (fun x => if o = x then some { status := .zero, writable := writable } else none) := by
  obtain ⟨habsent, rfl⟩ := PageTable.insert_eq_ok_iff.1 h
  have hnew : (fun x => if o = x then some { status := .zero, writable := writable } else none) =
      fun x : Owner => if o.process = x.process then
        (if o.page = x.page then some ({ status := .zero, writable := writable } : PageRecord)
          else none) else none := by
    funext x
    by_cases hp : o.process = x.process <;> by_cases hq : o.page = x.page <;>
      simp [Owner.eq_iff, hp, hq]
  rw [hnew]
  refine m.added_setTable o.process (fun q => if o.page = q then some _ else none) ?_ ?_
  · intro q r hq
    split at hq
    · rename_i hpage; exact hpage ▸ habsent
    · cases hq
  · intro q
    rw [PageTable.get?_mk_insert]
    split
    · rfl
    · rw [Option.none_or]

/-! ## The frame in hand finds its page -/

theorem pin_cases (h : (m.pin frame).result = .ok m') :
    m.frames.pool.isAllocated frame = true ∧ m' = { m with frames := { m.frames with
      pool := m.frames.pool.setEntry frame { allocated := true, pinned := true } } } := by
  simp only [pin, Outcome.bind_eq_ok_iff] at h
  obtain ⟨frames, hframes, h⟩ := h
  cases h
  obtain ⟨hall, rfl⟩ := FrameTable.setPinned_cases hframes
  exact ⟨hall, rfl⟩

theorem unpin_cases (h : (m.unpin frame).result = .ok m') :
    m.frames.pool.isAllocated frame = true ∧ m' = { m with frames := { m.frames with
      pool := m.frames.pool.setEntry frame { allocated := true, pinned := false } } } := by
  simp only [unpin, Outcome.bind_eq_ok_iff] at h
  obtain ⟨frames, hframes, h⟩ := h
  cases h
  obtain ⟨hall, rfl⟩ := FrameTable.setPinned_cases hframes
  exact ⟨hall, rfl⟩

/-- The slot of a page that was in swap is released; of other pages there is none. -/
def SlotLeft (slots slots' : Slots) : PageStatus → Prop
  | .swapped slot => (slots.free slot).result = .ok slots'
  | _ => slots' = slots

/-- After a page left its slot, if it had one, the slots are still linked. -/
theorem SlotLeft.slotsLinked {status : PageStatus}
    (hleft : SlotLeft m.swap.slots m'.swap.slots status) (hs : m.SlotsLinked)
    (ho : m.status? o = some status ∨ m.status? o = none ∧ status = .zero)
    (hself : ∀ s, m'.status? o ≠ some (.swapped s))
    (hother : ∀ x, o ≠ x → m'.status? x = m.status? x) : m'.SlotsLinked := by
  by_cases hslot : ∃ slot, status = .swapped slot
  · obtain ⟨slot, rfl⟩ := hslot
    have ho : m.status? o = some (.swapped slot) := by
      rcases ho with ho | ⟨-, hzero⟩
      · exact ho
      · cases hzero
    have hfree : (m.swap.slots.free slot).result = .ok m'.swap.slots := hleft
    have hsound := hs.sound.free hfree
    have hstatus : ∀ x s, m'.status? x = some (.swapped s) ↔
        slot ≠ s ∧ m.status? x = some (.swapped s) := by
      intro x s
      by_cases hx : o = x
      · subst hx; simp [hself s, ho]
      · rw [hother x hx]
        refine ⟨fun hst => ⟨?_, hst⟩, fun hst => hst.2⟩
        rintro rfl
        exact hx (hs.unique slot o x ho hst)
    refine ⟨hsound, ?_, ?_⟩
    · intro s
      simp only [hstatus]
      rw [Slots.isOccupied_free hfree]
      by_cases hsl : slot = s
      · simp [hsl]
      · simp [hsl, hs.occupied_iff s]
    · intro s x y hx hy
      exact hs.unique s x y ((hstatus x s).1 hx).2 ((hstatus y s).1 hy).2
  · have hsame : m'.swap.slots = m.swap.slots := by
      unfold SlotLeft at hleft
      split at hleft
      · rename_i slot; exact absurd ⟨slot, rfl⟩ hslot
      · exact hleft
    have hstatus : ∀ x s, m'.status? x = some (.swapped s) ↔ m.status? x = some (.swapped s) := by
      intro x s
      by_cases hx : o = x
      · subst hx
        refine ⟨fun h => absurd h (hself s), fun h => ?_⟩
        rcases ho with ho | ⟨ho, -⟩
        · exact absurd ⟨s, Option.some.inj (ho.symm.trans h)⟩ hslot
        · cases ho.symm.trans h
      · rw [hother x hx]
    exact hs.of_same hsame hstatus

/-- The frame in hand became the place of the page `o`, of which `record` was known.  It is
    mapped, and unpinned again. -/
structure Installed (m m' : Machine n) (frame : Frame) (o : Owner) (record : PageRecord) :
    Prop where
  config_eq : m'.config = m.config
  memory_eq : m'.memory = m.memory
  stats_eq : m'.stats = m.stats.countArrival record.status
  device_eq : m'.swap.device = m.swap.device
  slots : SlotLeft m.swap.slots m'.swap.slots record.status
  traits_eq : ∀ p, (m'.space p).directory.toDirectoryTraits =
    (m.space p).directory.toDirectoryTraits
  hand_eq : m'.frames.hand = m.frames.hand
  counted : m.frames.pool.Counted → m'.frames.pool.Counted
  isAllocated_eq : ∀ g, m'.frames.pool.isAllocated g = m.frames.pool.isAllocated g
  hasPin_eq : ∀ g, m'.frames.pool.hasPin g = if frame = g then false else m.frames.pool.hasPin g
  owner?_eq : ∀ g, m'.frames.owner? g = m.frames.owner? g
  record?_eq : ∀ x, m'.record? x =
    if o = x then some { record with status := .resident frame } else m.record? x
  translate_eq : ∀ x, m'.translate x = if o = x then some frame else m.translate x
  writable_eq : ∀ x, m'.flag x .writable = if o = x then record.writable else m.flag x .writable
  accessed_eq : ∀ x, m'.flag x .accessed = if o = x then false else m.flag x .accessed
  dirty_eq : ∀ x, o ≠ x → m'.flag x .dirty = m.flag x .dirty

/-- Mapping a page to the frame in hand, recording it as resident and taking the pin away. -/
theorem installed_of (record : PageRecord) (slots : Slots) {directory : Directory}
    (hall : m.frames.pool.isAllocated frame = true)
    (htraits : directory.toDirectoryTraits =
      (m.space o.process).directory.toDirectoryTraits)
    (htranslate : ∀ q, directory.translate q =
      if o.page = q then some frame else (m.space o.process).directory.translate q)
    (hwritable : ∀ q, directory.has q .writable =
      if o.page = q then record.writable else (m.space o.process).directory.has q .writable)
    (haccessed : ∀ q, directory.has q .accessed =
      if o.page = q then false else (m.space o.process).directory.has q .accessed)
    (hdirty : ∀ q, o.page ≠ q → directory.has q .dirty =
      (m.space o.process).directory.has q .dirty)
    (hslots : SlotLeft m.swap.slots slots record.status) :
    m.Installed { ((m.setDirectory o.process directory).setTable o.process
        ⟨(m.space o.process).table.records.insert o.page
          { record with status := .resident frame }⟩) with
      swap := { m.swap with slots := slots }
      stats := m.stats.countArrival record.status
      frames := { m.frames with
        pool := m.frames.pool.setEntry frame { allocated := true, pinned := false } } }
      frame o record := by
  have hlt := Pool.lt_of_isAllocated hall
  constructor
  · rfl
  · rfl
  · rfl
  · rfl
  · exact hslots
  · exact fun p => (traits_setTable _ p).trans (traits_setDirectory htraits p)
  · rfl
  · exact fun hc => Pool.Counted.setPinned hc (Pool.setPinned_of_isAllocated hall)
  · intro g
    refine (Pool.isAllocated_setEntry _ hlt).trans ?_
    by_cases hg : frame = g
    · subst hg; simp [hall]
    · rw [if_neg hg]
  · exact fun g => Pool.hasPin_setEntry _ hlt
  · exact fun _ => rfl
  · intro x
    have htable : (m.space o.process).table =
        ((m.setDirectory o.process directory).space o.process).table := by simp
    show ((m.setDirectory o.process directory).setTable o.process _).record? x = _
    rw [htable, record?_setTable_insert, record?_setDirectory]
  · exact fun x => (translate_setTable _).trans (translate_setDirectory_of htranslate)
  · exact fun x => (flag_setTable _).trans (flag_setDirectory_of hwritable)
  · exact fun x => (flag_setTable _).trans (flag_setDirectory_of haccessed)
  · intro x hx
    refine (flag_setTable _).trans ((flag_setDirectory _).trans ?_)
    split
    · rename_i hp
      rw [hdirty x.page fun hq => hx (Owner.eq_iff.2 ⟨hp, hq⟩), hp]; rfl
    · rfl

namespace Installed

theorem page_eq (h : m.Installed m' frame o record) (slot : Slot) :
    m'.swap.page slot = m.swap.page slot :=
  SwapSpace.page_congr fun j => by rw [h.device_eq]

theorem status?_eq (h : m.Installed m' frame o record) (x : Owner) :
    m'.status? x = if o = x then some (.resident frame) else m.status? x := by
  rw [status?, h.record?_eq]
  split <;> rfl

theorem linked (h : m.Installed m' frame o record) (hl : m.Linked (some frame))
    (howner : m.frames.owner? frame = some o)
    (ho : ∀ g, m.status? o ≠ some (.resident g)) : m'.Linked none := by
  have habsent : ∀ x, m.status? x ≠ some (.resident frame) :=
    fun x => hl.held_absent frame x rfl
  have hallocated := hl.held_allocated frame rfl
  constructor
  · exact h.counted hl.counted
  · intro g _
    rw [h.isAllocated_eq, FrameTable.isTracked, h.owner?_eq]
    by_cases hg : frame = g
    · subst hg; simp [hallocated, howner]
    · exact hl.tracked_iff g fun e => hg (Option.some.inj e)
  · intro g x _
    rw [h.owner?_eq, h.status?_eq]
    by_cases hg : frame = g
    · subst hg
      by_cases hx : o = x
      · simp [hx, howner]
      · simp [hx, howner, habsent x]
    · rw [hl.owner_iff g x fun e => hg (Option.some.inj e)]
      by_cases hx : o = x
      · subst hx; simp [hg, ho g]
      · rw [if_neg hx]
  · intro g hg; cases hg
  · intro g x hg; cases hg
  · intro g x
    rw [h.translate_eq, h.status?_eq]
    by_cases hx : o = x
    · simp [hx]
    · rw [if_neg hx, if_neg hx]; exact hl.translate_iff g x
  · intro x r g hr hst
    rw [h.record?_eq] at hr
    rw [h.writable_eq]
    by_cases hx : o = x
    · rw [if_pos hx] at hr ⊢
      cases hr; rfl
    · rw [if_neg hx] at hr ⊢
      exact hl.writable_eq x r g hr hst

theorem slotsLinked (h : m.Installed m' frame o record) (hs : m.SlotsLinked)
    (ho : m.status? o = some record.status ∨ m.status? o = none ∧ record.status = .zero) :
    m'.SlotsLinked := by
  refine h.slots.slotsLinked hs ho ?_ ?_
  · intro s
    rw [h.status?_eq, if_pos rfl]; simp
  · intro x hx
    rw [h.status?_eq, if_neg hx]

theorem filesKept (h : m.Installed m' frame o record) (hf : m.FilesKept)
    (ho : m.record? o = some record ∨ record.origin = none)
    (hholds : ∀ origin, record.origin = some origin → record.dirty = false →
      origin.Holds (m.memory.contents frame)) : m'.FilesKept := by
  have hcases : ∀ x r, m'.record? x = some r →
      o = x ∧ r = { record with status := .resident frame } ∨ o ≠ x ∧ m.record? x = some r := by
    intro x r hr
    rw [h.record?_eq] at hr
    by_cases hx : o = x
    · rw [if_pos hx] at hr; exact .inl ⟨hx, (Option.some.inj hr).symm⟩
    · rw [if_neg hx] at hr; exact .inr ⟨hx, hr⟩
  constructor
  · intro x r hr hst
    rcases hcases x r hr with ⟨-, rfl⟩ | ⟨-, hr⟩
    · cases hst
    · exact hf.zero x r hr hst
  · intro x r span hr hst
    rcases hcases x r hr with ⟨-, rfl⟩ | ⟨-, hr⟩
    · cases hst
    · exact hf.backed x r span hr hst
  · intro x r s origin hr hst
    rcases hcases x r hr with ⟨-, rfl⟩ | ⟨-, hr⟩
    · cases hst
    · exact hf.swapped x r s origin hr hst
  · intro x r g origin hr hst horigin hd hflag
    rw [h.memory_eq]
    rcases hcases x r hr with ⟨-, rfl⟩ | ⟨hx, hr⟩
    · cases hst; exact hholds origin horigin hd
    · rw [h.dirty_eq x hx] at hflag
      exact hf.clean x r g origin hr hst horigin hd hflag
  · intro x r origin hr horigin
    rcases hcases x r hr with ⟨-, rfl⟩ | ⟨-, hr⟩
    · rcases ho with ho | hnone
      · exact hf.span_le o record origin ho horigin
      · rw [hnone] at horigin; cases horigin
    · exact hf.span_le x r origin hr horigin

/-- A page whose record is known comes into the frame in hand. -/
theorem sound (h : m.Installed m' frame o record) (hs : m.Sound (some frame))
    (howner : m.frames.owner? frame = some o) (hr : m.record? o = some record)
    (hout : record.status.isResident = false)
    (hholds : ∀ origin, record.origin = some origin → record.dirty = false →
      origin.Holds (m.memory.contents frame)) : m'.Sound none := by
  exact ⟨h.linked hs.linked howner (status?_ne_resident hr hout),
    h.slotsLinked hs.slots (.inl (status?_of_record hr)), h.filesKept hs.files (.inl hr) hholds⟩

/-- A page without a record comes into the frame in hand. -/
theorem sound_new {writable : Bool}
    (h : m.Installed m' frame o { status := .zero, writable := writable })
    (hs : m.Sound (some frame)) (howner : m.frames.owner? frame = some o)
    (hr : m.record? o = none) : m'.Sound none := by
  have ho := status?_eq_none hr
  exact ⟨h.linked hs.linked howner (by simp [ho]), h.slotsLinked hs.slots (.inr ⟨ho, rfl⟩),
    h.filesKept hs.files (.inr rfl) fun origin horigin => by cases horigin⟩

theorem flat_eq (h : m.Installed m' frame o record) (x : Owner) :
    m'.flat x = if o = x then some (m.memory.contents frame) else m.flat x := by
  rw [flat, flat, h.record?_eq, contentsOf_eq h.memory_eq h.page_eq]
  split <;> rfl

end Installed

end Machine

end DemandPaging
