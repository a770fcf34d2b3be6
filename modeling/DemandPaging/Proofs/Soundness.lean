/-
  The invariant of the machine: its records agree with each other.

  Five records tell where pages are: the pool, the owners of the frames, the
  tables, the directories and the slots.  A request changes them one after the
  other; in between, one frame is held back, allocated but not yet or no longer
  the place of a page.  `Sound m held` says that everything agrees apart from
  the frame in hand:

  * `Linked`: frames, tables and directories;
  * `SlotsLinked`: slots and tables;
  * `FilesKept`: a page that can be dropped is still in its file.

  `Linked.of_same`, `SlotsLinked.of_same` and `FilesKept.of_same`: each is kept as long as what
  it speaks of stays the same.
-/
import DemandPaging.Proofs.Pages

namespace DemandPaging

variable {n : Nat}

/-- A page holds what its file has for it, and the file has all of it. -/
def FileOrigin.Holds (origin : FileOrigin) (contents : Contents) : Prop :=
  (origin.file.readAt origin.span.offset origin.span.length).size = origin.span.length ∧
    contents = .ofBytes (origin.file.readAt origin.span.offset origin.span.length)

namespace Machine

/-- The frames that are allocated, tracked and mapped are those that tables name, apart
    from the frame in hand. -/
structure Linked (m : Machine n) (held : Option Frame) : Prop where
  counted : m.frames.pool.Counted
  tracked_iff : ∀ frame, held ≠ some frame →
    (m.frames.pool.isAllocated frame = true ↔ m.frames.isTracked frame = true)
  owner_iff : ∀ frame o, held ≠ some frame →
    (m.frames.owner? frame = some o ↔ m.status? o = some (.resident frame))
  held_allocated : ∀ frame, held = some frame → m.frames.pool.isAllocated frame = true
  held_absent : ∀ frame o, held = some frame → m.status? o ≠ some (.resident frame)
  translate_iff : ∀ frame o, m.translate o = some frame ↔ m.status? o = some (.resident frame)
  writable_eq : ∀ o record frame, m.record? o = some record → record.status = .resident frame →
    m.flag o .writable = record.writable

/-- The slots that are occupied are those that tables name, each named once. -/
structure SlotsLinked (m : Machine n) : Prop where
  sound : m.swap.slots.Sound
  occupied_iff : ∀ slot, m.swap.slots.isOccupied slot = true ↔
    ∃ o, m.status? o = some (.swapped slot)
  unique : ∀ slot o o', m.status? o = some (.swapped slot) → m.status? o' = some (.swapped slot) →
    o = o'

/-- A page in its file is clean, a page of a file that went to swap is not, and a page in a
    frame that counts as clean holds what its file has. -/
structure FilesKept (m : Machine n) : Prop where
  zero : ∀ o record, m.record? o = some record → record.status = .zero → record.origin = none
  backed : ∀ o record span, m.record? o = some record → record.status = .fileBacked span →
    ∃ origin, record.origin = some origin ∧ span = origin.span ∧ record.dirty = false
  swapped : ∀ o record slot origin, m.record? o = some record → record.status = .swapped slot →
    record.origin = some origin → record.dirty = true
  clean : ∀ o record frame origin, m.record? o = some record → record.status = .resident frame →
    record.origin = some origin → record.dirty = false → m.flag o .dirty = false →
    origin.Holds (m.memory.contents frame)
  span_le : ∀ o record origin, m.record? o = some record → record.origin = some origin →
    origin.span.length ≤ pageSize

/-- All records agree, apart from the frame in hand. -/
structure Sound (m : Machine n) (held : Option Frame) : Prop where
  linked : m.Linked held
  slots : m.SlotsLinked
  files : m.FilesKept

variable {m m' : Machine n} {held : Option Frame} {o x : Owner} {frame g : Frame} {slot : Slot}
  {record : PageRecord}

/-! ## What is linked -/

theorem Linked.isTracked_iff (h : m.Linked none) (g : Frame) :
    m.frames.pool.isAllocated g = true ↔ m.frames.isTracked g = true :=
  h.tracked_iff g (Option.some_ne_none g).symm

theorem Linked.owner?_iff (h : m.Linked none) (g : Frame) (x : Owner) :
    m.frames.owner? g = some x ↔ m.status? x = some (.resident g) :=
  h.owner_iff g x (Option.some_ne_none g).symm

/-- The frames that are allocated are those that a page is in. -/
theorem Linked.isAllocated_iff (h : m.Linked none) (g : Frame) :
    m.frames.pool.isAllocated g = true ↔ ∃ o, m.status? o = some (.resident g) := by
  rw [h.isTracked_iff, FrameTable.isTracked, Option.isSome_iff_exists]
  exact exists_congr fun o => h.owner?_iff g o

/-- A page that is in no frame is not mapped. -/
theorem Linked.translate_eq_none (h : m.Linked held) (ho : ∀ g, m.status? o ≠ some (.resident g)) :
    m.translate o = none := by
  rw [Option.eq_none_iff_forall_ne_some]
  exact fun g hg => ho g ((h.translate_iff g o).1 hg)

/-- A page is in one frame at most. -/
theorem Linked.frame_eq (h : m.Linked none) (hframe : m.frames.owner? frame = some o)
    (hg : m.frames.owner? g = some o) : frame = g := by
  have hin := (h.owner?_iff frame o).1 hframe
  have hin' := (h.owner?_iff g o).1 hg
  exact PageStatus.resident.inj (Option.some.inj (hin.symm.trans hin'))

theorem Linked.frame_inj (h : m.Linked held) (ho : m.status? o = some (.resident frame))
    (hx : m.status? x = some (.resident frame)) : o = x := by
  have hheld : held ≠ some frame := fun e => h.held_absent frame o e ho
  have h1 := (h.owner_iff frame o hheld).2 ho
  have h2 := (h.owner_iff frame x hheld).2 hx
  exact Option.some.inj (h1.symm.trans h2)

theorem Linked.allocated (h : m.Linked held) (ho : m.status? o = some (.resident frame)) :
    m.frames.pool.isAllocated frame = true := by
  have hheld : held ≠ some frame := fun e => h.held_absent frame o e ho
  rw [h.tracked_iff frame hheld, FrameTable.isTracked, (h.owner_iff frame o hheld).2 ho]
  rfl

theorem Linked.lt (h : m.Linked held) (ho : m.status? o = some (.resident frame)) :
    frame.index < n :=
  Pool.lt_of_isAllocated (h.allocated ho)

theorem Linked.held_lt (h : m.Linked (some frame)) : frame.index < n :=
  Pool.lt_of_isAllocated (h.held_allocated frame rfl)

/-! ## Machines that agree -/

/-- Frames stay linked as long as the pages in frames, their mappings and the owners of the
    frames that are not in hand stay the same. -/
theorem Linked.of_same (hl : m.Linked held) (hcounted : m'.frames.pool.Counted)
    (hallocated : ∀ g, m'.frames.pool.isAllocated g = m.frames.pool.isAllocated g)
    (howner : ∀ g, held ≠ some g → m'.frames.owner? g = m.frames.owner? g)
    (hstatus : ∀ x g, m'.status? x = some (.resident g) ↔ m.status? x = some (.resident g))
    (htranslate : ∀ x, m'.translate x = m.translate x)
    (hwritable : ∀ x r g, m'.record? x = some r → r.status = .resident g →
      m'.flag x .writable = r.writable) : m'.Linked held := by
  constructor
  · exact hcounted
  · intro g hg
    rw [hallocated, FrameTable.isTracked, howner g hg]
    exact hl.tracked_iff g hg
  · intro g x hg
    rw [howner g hg, hstatus]
    exact hl.owner_iff g x hg
  · intro g hg
    rw [hallocated]
    exact hl.held_allocated g hg
  · intro g x hg
    rw [Ne, hstatus]
    exact hl.held_absent g x hg
  · intro g x
    rw [htranslate, hstatus]
    exact hl.translate_iff g x
  · exact hwritable

/-- Slots stay linked as long as they and the pages in them stay the same. -/
theorem SlotsLinked.of_same (hs : m.SlotsLinked) (hslots : m'.swap.slots = m.swap.slots)
    (hstatus : ∀ x s, m'.status? x = some (.swapped s) ↔ m.status? x = some (.swapped s)) :
    m'.SlotsLinked := by
  constructor
  · rw [hslots]
    exact hs.sound
  · intro s
    simp only [hslots, hstatus]
    exact hs.occupied_iff s
  · intro s x y hx hy
    exact hs.unique s x y ((hstatus x s).1 hx) ((hstatus y s).1 hy)

/-- Files are kept as long as the records stay the same, and so do the pages in frames that
    still count as clean. -/
theorem FilesKept.of_same (hf : m.FilesKept) (hrecord : ∀ x, m'.record? x = m.record? x)
    (hclean : ∀ x r g, m.record? x = some r → r.status = .resident g →
      m'.flag x .dirty = false →
        m.flag x .dirty = false ∧ m'.memory.contents g = m.memory.contents g) :
    m'.FilesKept := by
  constructor
  · intro x r
    rw [hrecord]
    exact hf.zero x r
  · intro x r span
    rw [hrecord]
    exact hf.backed x r span
  · intro x r s origin
    rw [hrecord]
    exact hf.swapped x r s origin
  · intro x r g origin hr hst horigin hdirty hflag
    rw [hrecord] at hr
    obtain ⟨hbefore, hcontents⟩ := hclean x r g hr hst hflag
    rw [hcontents]
    exact hf.clean x r g origin hr hst horigin hdirty hbefore
  · intro x r origin
    rw [hrecord]
    exact hf.span_le x r origin

/-- What is sound depends on the views of the machine alone, accessed bits excepted. -/
theorem Sound.of_views (hs : m.Sound held) (hmemory : m'.memory = m.memory)
    (hslots : m'.swap.slots = m.swap.slots) (hcounted : m'.frames.pool.Counted)
    (hallocated : ∀ g, m'.frames.pool.isAllocated g = m.frames.pool.isAllocated g)
    (howner : ∀ g, m'.frames.owner? g = m.frames.owner? g)
    (hrecord : ∀ x, m'.record? x = m.record? x)
    (htranslate : ∀ x, m'.translate x = m.translate x)
    (hflag : ∀ x fl, fl ≠ .accessed → m'.flag x fl = m.flag x fl) : m'.Sound held := by
  have hstatus : ∀ x, m'.status? x = m.status? x := fun x => by rw [status?, status?, hrecord]
  constructor
  · refine hs.linked.of_same hcounted hallocated (fun g _ => howner g)
      (fun x g => by rw [hstatus]) htranslate ?_
    intro x r g hr hst
    rw [hrecord] at hr
    rw [hflag x .writable (by decide)]
    exact hs.linked.writable_eq x r g hr hst
  · exact hs.slots.of_same hslots fun x s => by rw [hstatus]
  · refine hs.files.of_same hrecord ?_
    intro x r g _ _ hdirty
    rw [hflag x .dirty (by decide)] at hdirty
    exact ⟨hdirty, by rw [hmemory]⟩

/-- Machines that differ in accessed bits and in the place of the hand alone. -/
structure SameUpToAccess (m m' : Machine n) : Prop where
  config_eq : m'.config = m.config
  memory_eq : m'.memory = m.memory
  swap_eq : m'.swap = m.swap
  stats_eq : m'.stats = m.stats
  pool_eq : m'.frames.pool = m.frames.pool
  owners_eq : m'.frames.owners = m.frames.owners
  hand_lt : m.frames.hand < n → m'.frames.hand < n
  table_eq : ∀ p, (m'.space p).table = (m.space p).table
  traits_eq : ∀ p, (m'.space p).directory.toDirectoryTraits =
    (m.space p).directory.toDirectoryTraits
  translate_eq : ∀ o, m'.translate o = m.translate o
  flag_eq : ∀ o fl, fl ≠ .accessed → m'.flag o fl = m.flag o fl

namespace SameUpToAccess

theorem refl (m : Machine n) : m.SameUpToAccess m :=
  ⟨rfl, rfl, rfl, rfl, rfl, rfl, id, fun _ => rfl, fun _ => rfl, fun _ => rfl, fun _ _ _ => rfl⟩

theorem trans {m₁ m₂ m₃ : Machine n} (h : m₁.SameUpToAccess m₂) (h' : m₂.SameUpToAccess m₃) :
    m₁.SameUpToAccess m₃ where
  config_eq := h'.config_eq.trans h.config_eq
  memory_eq := h'.memory_eq.trans h.memory_eq
  swap_eq := h'.swap_eq.trans h.swap_eq
  stats_eq := h'.stats_eq.trans h.stats_eq
  pool_eq := h'.pool_eq.trans h.pool_eq
  owners_eq := h'.owners_eq.trans h.owners_eq
  hand_lt := h'.hand_lt ∘ h.hand_lt
  table_eq p := (h'.table_eq p).trans (h.table_eq p)
  traits_eq p := (h'.traits_eq p).trans (h.traits_eq p)
  translate_eq o := (h'.translate_eq o).trans (h.translate_eq o)
  flag_eq o fl hfl := (h'.flag_eq o fl hfl).trans (h.flag_eq o fl hfl)

theorem record?_eq (h : m.SameUpToAccess m') (o : Owner) : m'.record? o = m.record? o := by
  simp [record?, h.table_eq]

theorem status?_eq (h : m.SameUpToAccess m') (o : Owner) : m'.status? o = m.status? o := by
  simp [status?, h.record?_eq]

theorem owner?_eq (h : m.SameUpToAccess m') (frame : Frame) :
    m'.frames.owner? frame = m.frames.owner? frame := by
  simp [FrameTable.owner?, h.owners_eq]

theorem flat_eq (h : m.SameUpToAccess m') : m'.flat = m.flat :=
  flat_congr h.record?_eq h.memory_eq fun slot => by rw [h.swap_eq]

theorem sound (h : m.SameUpToAccess m') (hs : m.Sound held) : m'.Sound held :=
  hs.of_views h.memory_eq (by rw [h.swap_eq]) (by rw [h.pool_eq]; exact hs.linked.counted)
    (fun g => by rw [h.pool_eq]) h.owner?_eq h.record?_eq h.translate_eq h.flag_eq

end SameUpToAccess

end Machine

end DemandPaging
