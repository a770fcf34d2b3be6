/-
  Machines that are told apart by bytes alone.

  Two machines are alike if they agree on all that decides what they do next:
  records, mappings, owners, slots, counts and sizes.  What frames, sectors and
  files hold may differ.

  * `Outcome.Rel`: computations that go in lockstep, with a rule for each way to
    put computations together;
  * `PageRecord.Alike`, `PageTable.Alike`, `Device.Alike` and `Machine.Alike`;
  * the operations of tables, of the swap space and of directories, on two that are
    alike.
-/
import DemandPaging.Machine.Request
import Mathlib.Data.List.Forall2

namespace DemandPaging

/-! ## Computations in lockstep -/

/-- Both are the same error, or both are values that are related. -/
inductive ExceptRel {ε α β : Type} (R : α → β → Prop) : Except ε α → Except ε β → Prop where
  | error (e : ε) : ExceptRel R (.error e) (.error e)
  | ok (a : α) (b : β) (h : R a b) : ExceptRel R (.ok a) (.ok b)

namespace Outcome

variable {α β γ δ : Type} {R : α → β → Prop} {S : γ → δ → Prop} {x : Outcome α} {y : Outcome β}

/-- Two computations report the same events, and end with the same panic or with values that are
    related. -/
inductive Rel (R : α → β → Prop) : Outcome α → Outcome β → Prop where
  | halted (events : List Event) (cause : Panic) :
      Rel R ⟨events, .error cause⟩ ⟨events, .error cause⟩
  | done (events : List Event) (a : α) (b : β) (h : R a b) : Rel R ⟨events, .ok a⟩ ⟨events, .ok b⟩

namespace Rel

protected theorem pure {a : α} {b : β} (h : R a b) : Rel R (pure a) (pure b) :=
  .done [] a b h

theorem halt (cause : Panic) : Rel R (Outcome.halt cause) (Outcome.halt cause) :=
  .halted [] cause

theorem refl {R : α → α → Prop} (hR : ∀ a, R a a) (x : Outcome α) : Rel R x x := by
  obtain ⟨events, cause | a⟩ := x
  · exact .halted events cause
  · exact .done events a a (hR a)

protected theorem bind {f : α → Outcome γ} {g : β → Outcome δ} (hx : Rel R x y)
    (h : ∀ a b, R a b → Rel S (f a) (g b)) : Rel S (x >>= f) (y >>= g) := by
  cases hx with
  | halted events cause => exact .halted events cause
  | done events a b hab =>
    have hrest := h a b hab
    change Rel S ⟨events ++ (f a).events, (f a).result⟩ ⟨events ++ (g b).events, (g b).result⟩
    generalize f a = u at hrest
    generalize g b = v at hrest
    cases hrest with
    | halted more cause => exact .halted (events ++ more) cause
    | done more c d hcd => exact .done (events ++ more) c d hcd

/-- A step that both computations take. -/
theorem step {f : α → Outcome γ} {g : α → Outcome δ} {x : Outcome α}
    (h : ∀ a, Rel S (f a) (g a)) : Rel S (x >>= f) (x >>= g) := by
  refine .bind (refl (fun _ => rfl) x) ?_
  rintro a _ rfl
  exact h a

/-- One computation panics if the other does. -/
theorem panic_iff (h : Rel R x y) (cause : Panic) :
    x.result = .error cause ↔ y.result = .error cause := by
  cases h with
  | halted events why =>
    constructor
    · rintro ⟨⟩
      rfl
    · rintro ⟨⟩
      rfl
  | done events a b hab => exact ⟨nofun, nofun⟩

theorem of_ok (h : Rel R x y) {a : α} {b : β} (hx : x.result = .ok a) (hy : y.result = .ok b) :
    R a b := by
  cases h with
  | halted events cause => cases hx
  | done events a b hab =>
    cases hx
    cases hy
    exact hab

/-- What else is known of the values may be added to the relation. -/
theorem imp {T : α → β → Prop} (h : Rel R x y)
    (hT : ∀ a b, x.result = .ok a → y.result = .ok b → R a b → T a b) : Rel T x y := by
  cases h with
  | halted events cause => exact .halted events cause
  | done events a b hab => exact .done events a b (hT a b rfl rfl hab)

end Rel

end Outcome

/-! ## Maps and tables -/

namespace PageMap

variable {α β : Type} {R : α → β → Prop} {a : α} {b : β}

/-- Two maps have the same pages, with related values. -/
def Rel (R : α → β → Prop) (m : PageMap α) (k : PageMap β) : Prop :=
  List.Forall₂ (fun a b => a.1 = b.1 ∧ R a.2 b.2) m.toList k.toList

theorem forall₂_put {l : List (Page × α)} {k : List (Page × β)} (page : Page)
    (h : List.Forall₂ (fun a b => a.1 = b.1 ∧ R a.2 b.2) l k) (hab : R a b) :
    List.Forall₂ (fun a b => a.1 = b.1 ∧ R a.2 b.2) (put page a l) (put page b k) := by
  induction h with
  | nil => exact .cons ⟨rfl, hab⟩ .nil
  | @cons x y l k hxy hrest ih =>
    obtain ⟨p, u⟩ := x
    obtain ⟨q, v⟩ := y
    obtain ⟨rfl, huv⟩ := hxy
    unfold put
    split
    · exact .cons ⟨rfl, hab⟩ (.cons ⟨rfl, huv⟩ hrest)
    · split
      · exact .cons ⟨rfl, hab⟩ hrest
      · exact .cons ⟨rfl, huv⟩ ih

namespace Rel

variable {m : PageMap α} {k : PageMap β}

theorem insert (h : Rel R m k) (page : Page) (hab : R a b) :
    Rel R (m.insert page a) (k.insert page b) :=
  forall₂_put page h hab

theorem get? (h : Rel R m k) (page : Page) : m.get? page = none ∧ k.get? page = none ∨
    ∃ a b, m.get? page = some a ∧ k.get? page = some b ∧ R a b := by
  obtain ⟨l, hl⟩ := m
  obtain ⟨r, hr⟩ := k
  change List.Forall₂ _ l r at h
  change find page l = none ∧ find page r = none ∨
    ∃ a b, find page l = some a ∧ find page r = some b ∧ R a b
  clear hl hr
  induction h with
  | nil => exact .inl ⟨rfl, rfl⟩
  | @cons x y l k hxy hrest ih =>
    obtain ⟨p, u⟩ := x
    obtain ⟨q, v⟩ := y
    obtain ⟨rfl, huv⟩ := hxy
    unfold find
    split
    · exact .inr ⟨u, v, rfl, rfl, huv⟩
    · exact ih

end Rel

end PageMap

/-- How large the file of a page is and which part of it the page takes. -/
def FileOrigin.extent (origin : FileOrigin) : Nat × FileSpan :=
  (origin.file.size, origin.span)

/-- Two records agree on all but the bytes of the file. -/
structure PageRecord.Alike (record record' : PageRecord) : Prop where
  status_eq : record.status = record'.status
  writable_eq : record.writable = record'.writable
  dirty_eq : record.dirty = record'.dirty
  extent_eq : record.origin.map FileOrigin.extent = record'.origin.map FileOrigin.extent

namespace PageRecord.Alike

variable {record record' : PageRecord}

theorem refl (record : PageRecord) : record.Alike record :=
  ⟨rfl, rfl, rfl, rfl⟩

/-- Both pages came from a file, or neither did. -/
theorem origin_cases (h : record.Alike record') : record.origin = none ∧ record'.origin = none ∨
    ∃ origin origin', record.origin = some origin ∧ record'.origin = some origin' ∧
      origin.file.size = origin'.file.size ∧ origin.span = origin'.span := by
  obtain ⟨-, -, -, hextent⟩ := h
  cases ho : record.origin with
  | none =>
    rw [ho] at hextent
    exact .inl ⟨rfl, Option.map_eq_none_iff.1 hextent.symm⟩
  | some origin =>
    rw [ho] at hextent
    obtain ⟨origin', ho', hextent⟩ := Option.map_eq_some_iff.1 hextent.symm
    obtain ⟨hsize, hspan⟩ := Prod.mk.inj hextent
    exact .inr ⟨origin, origin', rfl, ho', hsize.symm, hspan.symm⟩

end PageRecord.Alike

/-- Two segments differ in the bytes of the file alone. -/
def Segment.Alike (segment segment' : Segment) : Prop :=
  ∃ file : Bytes, file.size = segment.file.size ∧ segment' = { segment with file := file }

namespace PageTable

/-- Two tables have the same pages, with records that are alike. -/
def Alike (table table' : PageTable) : Prop :=
  table.records.Rel PageRecord.Alike table'.records

theorem Alike.refl (table : PageTable) : table.Alike table :=
  List.forall₂_same.2 fun _ _ => ⟨rfl, .refl _⟩

namespace Alike

variable {table table' : PageTable} {record record' : PageRecord}

theorem get? (h : table.Alike table') (page : Page) :
    table.get? page = none ∧ table'.get? page = none ∨
      ∃ record record', table.get? page = some record ∧ table'.get? page = some record' ∧
        record.Alike record' :=
  PageMap.Rel.get? h page

theorem contains_eq (h : table.Alike table') (page : Page) :
    table.contains page = table'.contains page := by
  unfold contains PageMap.contains
  rcases PageMap.Rel.get? h page with ⟨hr, hr'⟩ | ⟨record, record', hr, hr', -⟩
  · rw [hr, hr']
  · rw [hr, hr']
    rfl

theorem insert (h : table.Alike table') (page : Page) (hrecord : record.Alike record') :
    ExceptRel Alike (table.insert page record) (table'.insert page record') := by
  unfold PageTable.insert
  rw [← h.contains_eq page]
  split
  · exact .error _
  · exact .ok _ _ (PageMap.Rel.insert h page hrecord)

theorem insertZero (h : table.Alike table') (page : Page) (writable : Bool) :
    ExceptRel Alike (table.insertZero page writable) (table'.insertZero page writable) :=
  h.insert page (.refl _)

theorem intruded (h : table.Alike table') (page : Page) (intruder : Option Bool) :
    (table.intruded page intruder).Alike (table'.intruded page intruder) := by
  cases intruder with
  | none => exact h
  | some writable =>
    have hinsert := h.insertZero page writable
    simp only [PageTable.intruded]
    generalize table.insertZero page writable = inserted at hinsert
    generalize table'.insertZero page writable = inserted' at hinsert
    cases hinsert with
    | error e => exact h
    | ok table table' htable => exact htable

theorem insertResident (h : table.Alike table') (page : Page) (frame : Frame) (writable : Bool) :
    ExceptRel Alike (table.insertResident page frame writable)
      (table'.insertResident page frame writable) :=
  h.insert page (.refl _)

theorem markEvicted (h : table.Alike table') (page : Page) (eviction : Eviction) (dirty : Bool) :
    Outcome.Rel (ExceptRel Alike) (table.markEvicted page eviction dirty)
      (table'.markEvicted page eviction dirty) := by
  unfold PageTable.markEvicted
  rcases h.get? page with ⟨hr, hr'⟩ | ⟨record, record', hr, hr', hrecord⟩
  · rw [hr, hr']
    exact .pure (.error _)
  · simp only [hr, hr', ← hrecord.status_eq, ← hrecord.dirty_eq]
    split
    · exact .pure (.error _)
    · cases eviction with
      | swapped slot =>
        exact .pure (.ok _ _ (PageMap.Rel.insert h page
          ⟨rfl, hrecord.writable_eq, rfl, hrecord.extent_eq⟩))
      | discarded =>
        refine .step fun _ => ?_
        rcases hrecord.origin_cases with ⟨ho, ho'⟩ | ⟨origin, origin', ho, ho', -, hspan⟩
        · rw [ho, ho']
          exact .halt _
        · simp only [ho, ho', ← hspan]
          refine .pure (.ok _ _ (PageMap.Rel.insert h page ⟨rfl, hrecord.writable_eq, rfl, ?_⟩))
          rw [← ho, ← ho', hrecord.extent_eq]

theorem markResident (h : table.Alike table') (page : Page) (frame : Frame) :
    Outcome.Rel Alike (table.markResident page frame) (table'.markResident page frame) := by
  unfold PageTable.markResident
  rcases h.get? page with ⟨hr, hr'⟩ | ⟨record, record', hr, hr', hrecord⟩
  · rw [hr, hr']
    exact .halt _
  · rw [hr, hr']
    exact .pure (PageMap.Rel.insert h page
      ⟨rfl, hrecord.writable_eq, hrecord.dirty_eq, hrecord.extent_eq⟩)

theorem anyTaken_eq (h : table.Alike table') (base : Page) (index count : Nat) :
    table.anyTaken base index count = table'.anyTaken base index count := by
  induction count generalizing index with
  | zero => rfl
  | succ count ih =>
    unfold anyTaken
    refine congrArg (Outcome.bind _) (funext fun page => ?_)
    rw [h.contains_eq page, ih]

theorem insertSegment {segment segment' : Segment} (hsegment : segment.Alike segment')
    (index offset remaining count : Nat) (h : table.Alike table') :
    Outcome.Rel (fun a b => a.1 = b.1 ∧ a.2.Alike b.2)
      (table.insertSegment segment index offset remaining count)
      (table'.insertSegment segment' index offset remaining count) := by
  obtain ⟨file, hsize, rfl⟩ := hsegment
  induction count generalizing table table' index offset remaining with
  | zero => exact .pure ⟨rfl, h⟩
  | succ count ih =>
    unfold PageTable.insertSegment
    refine .step fun page => ?_
    dsimp only
    split
    · refine .bind (.step fun _ => .pure (h.insert page ⟨rfl, rfl, rfl, ?_⟩)) ?_
      · simp only [Option.map_some, FileOrigin.extent, hsize]
      · rintro _ _ (e | ⟨next, next', hnext⟩)
        · exact .pure ⟨rfl, h⟩
        · exact .step fun offset => ih _ _ _ hnext
    · refine .bind (.pure (h.insertZero page _)) ?_
      rintro _ _ (e | ⟨next, next', hnext⟩)
      · exact .pure ⟨rfl, h⟩
      · exact .step fun offset => ih _ _ _ hnext

theorem mapSegment {segment segment' : Segment} (h : table.Alike table')
    (hsegment : segment.Alike segment') :
    Outcome.Rel (fun a b => a.1 = b.1 ∧ a.2.Alike b.2) (table.mapSegment segment)
      (table'.mapSegment segment') := by
  have hinsert := h.insertSegment hsegment
  obtain ⟨file, hsize, rfl⟩ := hsegment
  refine .step fun count => ?_
  dsimp only
  rw [← h.anyTaken_eq]
  refine .step fun taken => ?_
  cases taken with
  | true => exact .pure ⟨rfl, h⟩
  | false => exact hinsert 0 segment.offset segment.fileBytes count

end Alike

end PageTable

/-! ## The swap space -/

section

variable {disk disk' : Disk} {drive drive' : Drive} {device device' : Device}
  {swap swap' : SwapSpace}

/-- Two drives differ in what is on their disks alone. -/
def Drive.Alike (drive drive' : Drive) : Prop :=
  ∃ disk : Disk, drive.disk.size = disk.size ∧ drive' = { drive with disk := disk }

/-- Two devices differ in what is on their disks alone. -/
def Device.Alike (device device' : Device) : Prop :=
  ∃ drive, device.drive.Alike drive ∧ device' = { device with drive := drive }

/-- Two swap spaces differ in what is in their slots alone. -/
def SwapSpace.Alike (swap swap' : SwapSpace) : Prop :=
  ∃ device, swap.device.Alike device ∧ swap' = { swap with device := device }

theorem SwapSpace.Alike.refl (swap : SwapSpace) : swap.Alike swap :=
  ⟨_, ⟨_, ⟨_, rfl, rfl⟩, rfl⟩, rfl⟩

theorem Disk.read_rel (h : disk.size = disk'.size) (sector length : Nat) :
    ExceptRel (fun _ _ => True) (disk.read sector length) (disk'.read sector length) := by
  rw [read_eq, read_eq, ← h]
  split
  · split
    · exact .ok _ _ trivial
    · exact .error _
  · exact .error _

theorem Disk.writeSector_rel (h : disk.size = disk'.size) (sector : Nat)
    (contents contents' : Sector) : ExceptRel (fun a b => a.size = b.size)
      (disk.writeSector sector contents) (disk'.writeSector sector contents') := by
  rw [writeSector_eq, writeSector_eq, ← h]
  split
  · refine .ok _ _ ?_
    simpa only [size, Array.size_setIfInBounds] using h
  · exact .error _

theorem Drive.Alike.attempt (h : drive.Alike drive') (sector : Nat) :
    (drive.attempt sector).1 = (drive'.attempt sector).1 ∧
      (drive.attempt sector).2.Alike (drive'.attempt sector).2 := by
  obtain ⟨disk, hsize, rfl⟩ := h
  unfold Drive.attempt
  dsimp only
  split
  · exact ⟨rfl, disk, hsize, rfl⟩
  · exact ⟨rfl, disk, hsize, rfl⟩

theorem Drive.Alike.read (h : drive.Alike drive') (sector length : Nat) :
    ExceptRel (fun _ _ => True) (drive.read sector length).1 (drive'.read sector length).1 ∧
      (drive.read sector length).2.Alike (drive'.read sector length).2 := by
  obtain ⟨hfails, hnext⟩ := h.attempt sector
  unfold Drive.read
  generalize drive.attempt sector = attempted at *
  generalize drive'.attempt sector = attempted' at *
  obtain ⟨fails, next⟩ := attempted
  obtain ⟨_, next'⟩ := attempted'
  cases hfails
  cases fails with
  | true => exact ⟨.error _, hnext⟩
  | false =>
    refine ⟨?_, hnext⟩
    obtain ⟨disk, hsize, rfl⟩ := hnext
    exact Disk.read_rel hsize sector length

theorem Drive.Alike.writeSector (h : drive.Alike drive') (sector : Nat)
    (contents contents' : Sector) : ExceptRel (fun _ _ => True)
        (drive.writeSector sector contents).1 (drive'.writeSector sector contents').1 ∧
      (drive.writeSector sector contents).2.Alike (drive'.writeSector sector contents').2 := by
  obtain ⟨hfails, hnext⟩ := h.attempt sector
  unfold Drive.writeSector
  generalize drive.attempt sector = attempted at *
  generalize drive'.attempt sector = attempted' at *
  obtain ⟨fails, next⟩ := attempted
  obtain ⟨_, next'⟩ := attempted'
  cases hfails
  cases fails with
  | true => exact ⟨.error _, hnext⟩
  | false =>
    obtain ⟨disk, hsize, rfl⟩ := hnext
    have hwritten := Disk.writeSector_rel hsize sector contents contents'
    dsimp only
    generalize next.disk.writeSector sector contents = written at hwritten
    generalize disk.writeSector sector contents' = written' at hwritten
    cases hwritten with
    | error e => exact ⟨.error e, disk, hsize, rfl⟩
    | ok a b hab => exact ⟨.ok _ _ trivial, b, hab, rfl⟩

theorem Device.Alike.read (h : device.Alike device') (sector length : Nat) :
    Outcome.Rel (fun a b => ExceptRel (fun _ _ => True) a.1 b.1 ∧ a.2.Alike b.2)
      (device.read sector length) (device'.read sector length) := by
  obtain ⟨drive, hdrive, rfl⟩ := h
  refine .step fun _ => .step fun _ => ?_
  obtain ⟨hanswer, hnext⟩ := hdrive.read sector length
  generalize device.drive.read sector length = result at *
  generalize drive.read sector length = result' at *
  obtain ⟨answer, next⟩ := result
  obtain ⟨answer', next'⟩ := result'
  cases hanswer with
  | error e => exact .pure ⟨.error e, next', hnext, rfl⟩
  | ok a b hab => exact .step fun reads => .pure ⟨.ok a b trivial, next', hnext, rfl⟩

theorem Device.Alike.writeSector (h : device.Alike device') (sector : Nat)
    (contents contents' : Sector) :
    Outcome.Rel (fun a b => ExceptRel (fun _ _ => True) a.1 b.1 ∧ a.2.Alike b.2)
      (device.writeSector sector contents) (device'.writeSector sector contents') := by
  obtain ⟨drive, hdrive, rfl⟩ := h
  refine .step fun _ => .step fun _ => ?_
  obtain ⟨hanswer, hnext⟩ := hdrive.writeSector sector contents contents'
  generalize device.drive.writeSector sector contents = result at *
  generalize drive.writeSector sector contents' = result' at *
  obtain ⟨answer, next⟩ := result
  obtain ⟨answer', next'⟩ := result'
  cases hanswer with
  | error e => exact .pure ⟨.error e, next', hnext, rfl⟩
  | ok a b hab => exact .step fun writes => .pure ⟨.ok a b trivial, next', hnext, rfl⟩

namespace SwapSpace

theorem writeSectors_rel (h : device.Alike device') (slot : Slot) (sector : Nat)
    {sectors sectors' : List Sector} (hlength : sectors.length = sectors'.length) :
    Outcome.Rel Device.Alike (writeSectors slot device sector sectors)
      (writeSectors slot device' sector sectors') := by
  induction sectors generalizing sectors' device device' sector with
  | nil =>
    obtain rfl := List.length_eq_zero_iff.1 hlength.symm
    exact .step fun _ => .pure h
  | cons contents rest ih =>
    cases sectors' with
    | nil => cases hlength
    | cons contents' rest' =>
      refine .step fun next => .bind (h.writeSector sector contents contents') ?_
      rintro ⟨_, device₁⟩ ⟨_, device₁'⟩ ⟨e | ⟨_, _, -⟩, hdevice⟩
      · exact .halt _
      · exact ih hdevice next (Nat.succ.inj hlength)

theorem readSectors_rel (h : device.Alike device') (slot : Slot) (sector count : Nat) :
    Outcome.Rel (fun a b => a.2.Alike b.2) (readSectors slot device sector count)
      (readSectors slot device' sector count) := by
  induction count generalizing device device' sector with
  | zero => exact .step fun _ => .pure h
  | succ count ih =>
    refine .step fun next => .bind (h.read sector sectorSize) ?_
    rintro ⟨_, device₁⟩ ⟨_, device₁'⟩ ⟨e | ⟨contents, contents', -⟩, hdevice⟩
    · exact .halt _
    · exact .bind (ih hdevice next) fun _ _ hrest => .pure hrest

namespace Alike

theorem write (h : swap.Alike swap') (slot : Slot) (contents contents' : Contents) :
    Outcome.Rel Alike (swap.write slot contents) (swap'.write slot contents') := by
  obtain ⟨device, hdevice, rfl⟩ := h
  refine .step fun _ => .step fun first => ?_
  refine .bind (writeSectors_rel hdevice slot first ?_) fun _ next hnext => .pure ⟨next, hnext, rfl⟩
  rw [Contents.length_sectors, Contents.length_sectors]

theorem read (h : swap.Alike swap') (slot : Slot) :
    Outcome.Rel (fun a b => a.2.Alike b.2) (swap.read slot) (swap'.read slot) := by
  obtain ⟨device, hdevice, rfl⟩ := h
  refine .step fun _ => .step fun first => ?_
  exact .bind (readSectors_rel hdevice slot first sectorsPerPage)
    fun _ next hnext => .pure ⟨next.2, hnext, rfl⟩

theorem allocate (h : swap.Alike swap') :
    Outcome.Rel (fun a b => a.1 = b.1 ∧ a.2.Alike b.2) swap.allocate swap'.allocate := by
  obtain ⟨device, hdevice, rfl⟩ := h
  exact .step fun _ => .pure ⟨rfl, device, hdevice, rfl⟩

theorem free (h : swap.Alike swap') (slot : Slot) :
    Outcome.Rel Alike (swap.free slot) (swap'.free slot) := by
  obtain ⟨device, hdevice, rfl⟩ := h
  exact .step fun _ => .pure ⟨device, hdevice, rfl⟩

end Alike

end SwapSpace

end

end DemandPaging
