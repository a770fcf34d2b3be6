/-
  Machines that are alike stay alike: no request looks at the bytes of a page.

  * `Machine.Alike`: machines that are told apart by bytes alone;
  * `Alike.evict`, `Alike.handleFault` and the other operations: each reports the same
    events on both machines, panics on both or on none, gives both the same answer
    and leaves machines that are alike;
  * `Alike.tryLoad` and `Alike.tryStore`: attempts fault in the same place; loads may
    come to other bytes, as many.
-/
import DemandPaging.Proofs.Alike
import DemandPaging.Proofs.Clock

namespace DemandPaging

/-! ## Machines that are alike -/

/-- Two address spaces differ in the bytes of files alone. -/
structure AddressSpace.Alike (space space' : AddressSpace) : Prop where
  pid_eq : space.pid = space'.pid
  table : space.table.Alike space'.table
  directory_eq : space.directory = space'.directory

namespace AddressSpaces

/-- The same processes are set up, with address spaces that are alike. -/
structure Alike (all all' : AddressSpaces) : Prop where
  size_eq : all.size = all'.size
  get : ∀ process, (all.get process).Alike (all'.get process)

variable {all all' : AddressSpaces} {space space' : AddressSpace}

theorem Alike.refl (all : AddressSpaces) : all.Alike all :=
  ⟨rfl, fun _ => ⟨rfl, .refl _, rfl⟩⟩

theorem Alike.set (h : all.Alike all') (process : Nat) (hspace : space.Alike space') :
    (all.set process space).Alike (all'.set process space') := by
  constructor
  · rw [size_set, size_set, h.size_eq]
  · intro p
    rw [get_set, get_set]
    split
    · exact hspace
    · exact h.get p

theorem Alike.push (h : all.Alike all') (hspace : space.Alike space') :
    (all.push space).Alike (all'.push space') := by
  constructor
  · change (all.spaces.push space).size = (all'.spaces.push space').size
    rw [Array.size_push, Array.size_push]
    exact congrArg (· + 1) h.size_eq
  · intro p
    rw [get_push, get_push, ← h.size_eq]
    split
    · exact hspace
    · exact h.get p

end AddressSpaces

/-- Two verdicts agree on all but the bytes of a file. -/
inductive Verdict.Alike : Verdict → Verdict → Prop where
  | rejected (error : Error) (event : Event) :
      Alike (.rejected error event) (.rejected error event)
  | known (page : Page) (record record' : PageRecord) (hrecord : record.Alike record') :
      Alike (.known page record) (.known page record')
  | stackGrowth (page : Page) : Alike (.stackGrowth page) (.stackGrowth page)

/-- Two machines are told apart by the bytes in frames, slots and files alone. -/
structure Machine.Alike {n : Nat} (m m' : Machine n) : Prop where
  config_eq : m.config = m'.config
  swap : m.swap.Alike m'.swap
  frames_eq : m.frames = m'.frames
  stats_eq : m.stats = m'.stats
  spaces : m.spaces.Alike m'.spaces

variable {n : Nat}

/-! ## Memory and directories -/

namespace Memory

variable (memory memory' : Memory n) (frame : Frame)

theorem get_rel : Outcome.Rel (fun _ _ => True) (memory.get frame) (memory'.get frame) := by
  rw [get_eq, get_eq]
  split
  · exact .pure trivial
  · exact .halt _

theorem put_rel (contents contents' : Contents) : Outcome.Rel (fun _ _ => True)
    (memory.put frame contents) (memory'.put frame contents') := by
  unfold put
  split
  · exact .pure trivial
  · exact .halt _

theorem update_rel (f f' : Contents → Contents) : Outcome.Rel (fun _ _ => True)
    (memory.update frame f) (memory'.update frame f') :=
  .bind (get_rel memory memory' frame) fun _ _ _ => put_rel memory memory' frame _ _

end Memory

namespace Directory

variable (memory memory' : Memory n) (address : Nat) (pieces : List Piece)

theorem loadPieces_rel (directory : Directory) {done done' : Bytes} (h : done.size = done'.size) :
    Outcome.Rel (fun a b => a.fault = b.fault ∧ a.directory = b.directory ∧
        a.bytes.size = b.bytes.size)
      (loadPieces memory address pieces directory done)
      (loadPieces memory' address pieces directory done') := by
  induction pieces generalizing directory done done' with
  | nil => exact .pure ⟨rfl, rfl, h⟩
  | cons piece rest ih =>
    refine .step fun target => ?_
    split
    · exact .pure ⟨rfl, rfl, h⟩
    · refine .bind (memory.get_rel memory' _) fun contents contents' _ => ih _ ?_
      simp only [Contents.slice, Array.size_append, Array.size_extract, Vector.size_toArray, h]

theorem storePieces_rel (data data' : Bytes) (directory : Directory) :
    Outcome.Rel (fun a b => a.fault = b.fault ∧ a.directory = b.directory)
      (storePieces address data pieces directory memory)
      (storePieces address data' pieces directory memory') := by
  induction pieces generalizing directory memory memory' with
  | nil => exact .pure ⟨rfl, rfl⟩
  | cons piece rest ih =>
    refine .step fun target => ?_
    split
    · exact .pure ⟨rfl, rfl⟩
    · exact .bind (memory.update_rel memory' _ _ _) fun next next' _ => ih next next' _

end Directory

/-! ## Teardowns -/

namespace Teardown

variable {σ : Type} {release : σ → Frame → Outcome σ} {state state' : Teardown σ}

/-- Two teardowns differ in what is in slots alone. -/
def Alike (state state' : Teardown σ) : Prop :=
  ∃ swap, state.swap.Alike swap ∧ state' = { state with swap := swap }

theorem Alike.giveBack (h : state.Alike state') (page : Page) (status : PageStatus) :
    Outcome.Rel Alike (state.giveBack release page status)
      (state'.giveBack release page status) := by
  obtain ⟨swap, hswap, rfl⟩ := h
  cases status with
  | resident frame => exact .step fun _ => .pure ⟨swap, hswap, rfl⟩
  | swapped slot => exact .bind (hswap.free slot) fun _ next hnext => .pure ⟨next, hnext, rfl⟩
  | zero => exact .pure ⟨swap, hswap, rfl⟩
  | fileBacked span => exact .pure ⟨swap, hswap, rfl⟩

theorem Alike.giveBackAll {pages pages' : List (Page × PageRecord)}
    (hpages : List.Forall₂ (fun a b => a.1 = b.1 ∧ a.2.Alike b.2) pages pages')
    (h : state.Alike state') :
    Outcome.Rel Alike (giveBackAll release pages state) (giveBackAll release pages' state') := by
  induction hpages generalizing state state' with
  | nil => exact .pure h
  | @cons entry entry' rest rest' hentry hrest ih =>
    obtain ⟨page, record⟩ := entry
    obtain ⟨_, record'⟩ := entry'
    obtain ⟨rfl, hrecord⟩ := hentry
    unfold Teardown.giveBackAll
    rw [← hrecord.status_eq]
    exact .bind (h.giveBack page record.status) fun _ _ hnext => ih hnext

end Teardown

/-! ## The clock -/

theorem FrameTable.accessTest_rel (table : FrameTable n) (frame : Nat) {all all' : AddressSpaces}
    (h : all.Alike all') : (table.accessTest frame all).1 = (table.accessTest frame all').1 ∧
      (table.accessTest frame all).2.Alike (table.accessTest frame all').2 := by
  unfold accessTest
  split
  · exact ⟨rfl, h⟩
  · rename_i owner _
    obtain ⟨hpid, htable, hdirectory⟩ := h.get owner.process
    simp only [← hdirectory]
    split
    · exact ⟨rfl, h.set _ ⟨hpid, htable, rfl⟩⟩
    · exact ⟨rfl, h⟩

namespace Machine

variable {m m' : Machine n}

/-- The same answer, and machines that are alike. -/
def Agree {α : Type} (a b : α × Machine n) : Prop :=
  a.1 = b.1 ∧ a.2.Alike b.2

namespace Alike

theorem refl (m : Machine n) : m.Alike m :=
  ⟨rfl, .refl _, rfl, rfl, .refl _⟩

/-- The second machine is the first with other bytes. -/
theorem exists_eq (h : m.Alike m') : ∃ memory swap spaces, m.swap.Alike swap ∧
    m.spaces.Alike spaces ∧ m' = { m with memory := memory, swap := swap, spaces := spaces } := by
  obtain ⟨config, memory, swap, frames, stats, spaces⟩ := m
  obtain ⟨_, memory', swap', _, _, spaces'⟩ := m'
  obtain ⟨rfl, hswap, rfl, rfl, hspaces⟩ := h
  exact ⟨memory', swap', spaces', hswap, hspaces, rfl⟩

theorem space (h : m.Alike m') (process : Nat) :
    (m.space process).Alike (m'.space process) :=
  h.spaces.get process

theorem setTable (h : m.Alike m') (process : Nat) {table table' : PageTable}
    (htable : table.Alike table') : (m.setTable process table).Alike (m'.setTable process table') :=
  ⟨h.config_eq, h.swap, h.frames_eq, h.stats_eq, h.spaces.set process
    ⟨(h.space process).pid_eq, htable, (h.space process).directory_eq⟩⟩

theorem setDirectory (h : m.Alike m') (process : Nat) (directory : Directory) :
    (m.setDirectory process directory).Alike (m'.setDirectory process directory) :=
  ⟨h.config_eq, h.swap, h.frames_eq, h.stats_eq, h.spaces.set process
    ⟨(h.space process).pid_eq, (h.space process).table, rfl⟩⟩

theorem pickVictim (h : m.Alike m') :
    m.pickVictim.1 = m'.pickVictim.1 ∧ m.pickVictim.2.Alike m'.pickVictim.2 := by
  obtain ⟨memory, swap, spaces, hswap, hspaces, rfl⟩ := h.exists_eq
  have htest : ∀ frame s t, s.Alike t → (m.frames.accessTest frame s).1 =
        (m.frames.accessTest frame t).1 ∧
      (m.frames.accessTest frame s).2.Alike (m.frames.accessTest frame t).2 :=
    fun frame _ _ => m.frames.accessTest_rel frame
  refine ⟨congrArg (Option.map Frame.mk) (Clock.pick_rel htest hspaces).1, rfl, hswap, ?_, rfl,
    (Clock.pick_rel htest hspaces).2.2⟩
  exact congrArg (fun hand => { m.frames with hand := hand }) (Clock.pick_rel htest hspaces).2.1

/-! ## Finding a frame -/

theorem free (h : m.Alike m') (frame : Frame) :
    Outcome.Rel Alike (m.free frame) (m'.free frame) := by
  obtain ⟨memory, swap, spaces, hswap, hspaces, rfl⟩ := h.exists_eq
  exact .step fun _ => .pure ⟨rfl, hswap, rfl, rfl, hspaces⟩

theorem pin (h : m.Alike m') (frame : Frame) :
    Outcome.Rel Alike (m.pin frame) (m'.pin frame) := by
  obtain ⟨memory, swap, spaces, hswap, hspaces, rfl⟩ := h.exists_eq
  exact .step fun _ => .pure ⟨rfl, hswap, rfl, rfl, hspaces⟩

theorem unpin (h : m.Alike m') (frame : Frame) :
    Outcome.Rel Alike (m.unpin frame) (m'.unpin frame) := by
  obtain ⟨memory, swap, spaces, hswap, hspaces, rfl⟩ := h.exists_eq
  exact .step fun _ => .pure ⟨rfl, hswap, rfl, rfl, hspaces⟩

theorem victimRecord (h : m.Alike m') (frame : Frame) :
    Outcome.Rel (fun a b => a.1 = b.1 ∧ a.2.Alike b.2) (m.victimRecord frame)
      (m'.victimRecord frame) := by
  unfold Machine.victimRecord
  rw [← h.frames_eq]
  split
  · exact .halt _
  · rename_i owner _
    have hspace := h.space owner.process
    rcases hspace.table.get? owner.page with ⟨hr, hr'⟩ | ⟨record, record', hr, hr', hrecord⟩
    · simp only [hr, hr', ← hspace.pid_eq]
      exact .halt _
    · simp only [hr, hr', ← hspace.pid_eq, ← hrecord.status_eq]
      exact .step fun _ => .pure ⟨rfl, hrecord⟩

theorem chooseEviction (h : m.Alike m') {record record' : PageRecord}
    (hrecord : record.Alike record') (dirty : Bool) :
    Outcome.Rel Agree (m.chooseEviction record dirty) (m'.chooseEviction record' dirty) := by
  obtain ⟨memory, swap, spaces, hswap, hspaces, rfl⟩ := h.exists_eq
  have hfile : record.origin.isSome = record'.origin.isSome := by
    rcases hrecord.origin_cases with ⟨ho, ho'⟩ | ⟨origin, origin', ho, ho', -⟩
    · rw [ho, ho']
    · rw [ho, ho']
      rfl
  unfold Machine.chooseEviction
  rw [← hfile]
  split
  · exact .pure ⟨rfl, h⟩
  · refine .bind hswap.allocate ?_
    rintro ⟨slot, next⟩ ⟨_, next'⟩ ⟨rfl, hnext⟩
    exact .pure ⟨rfl, rfl, hnext, rfl, rfl, hspaces⟩

theorem restoreMapping (h : m.Alike m') (owner : Owner) (frame : Frame)
    (writable accessed dirty : Bool) :
    Outcome.Rel Alike (m.restoreMapping owner frame writable accessed dirty)
      (m'.restoreMapping owner frame writable accessed dirty) := by
  unfold Machine.restoreMapping
  rw [← (h.space owner.process).directory_eq]
  exact .step fun _ => .step fun _ => .pure (h.setDirectory _ _)

theorem saveContents (h : m.Alike m') (frame : Frame) (eviction : Eviction) :
    Outcome.Rel Alike (m.saveContents frame eviction) (m'.saveContents frame eviction) := by
  obtain ⟨memory, swap, spaces, hswap, hspaces, rfl⟩ := h.exists_eq
  cases eviction with
  | swapped slot =>
    refine .bind (m.memory.get_rel memory frame) fun contents contents' _ => ?_
    exact .bind (hswap.write slot contents contents') fun _ _ hnext =>
      .pure ⟨rfl, hnext, rfl, rfl, hspaces⟩
  | discarded => exact .pure ⟨rfl, hswap, rfl, rfl, hspaces⟩

theorem takeFrame (h : m.Alike m') (frame : Frame) :
    Outcome.Rel Agree (m.takeFrame frame) (m'.takeFrame frame) := by
  refine .bind (h.victimRecord frame) ?_
  rintro ⟨owner, record⟩ ⟨_, record'⟩ ⟨rfl, hrecord⟩
  dsimp only
  rw [← (h.space owner.process).directory_eq, ← hrecord.dirty_eq, ← hrecord.writable_eq]
  refine .bind ((h.setDirectory owner.process _).chooseEviction hrecord _) ?_
  rintro ⟨_ | eviction, m₁⟩ ⟨_, m₁'⟩ ⟨rfl, h₁⟩
  · exact .bind (h₁.restoreMapping owner frame _ _ _) fun _ _ h₂ => .pure ⟨rfl, h₂⟩
  · refine .bind (h₁.saveContents frame eviction) fun m₂ m₂' h₂ => ?_
    have hspace := h₂.space owner.process
    refine .bind (hspace.table.markEvicted owner.page eviction _) ?_
    rintro _ _ (e | ⟨table, table', htable⟩)
    · exact .halt _
    · dsimp only
      rw [← hspace.pid_eq]
      have h₃ := h₂.setTable owner.process htable
      refine .step fun _ => .pure ⟨rfl, h₃.config_eq, h₃.swap, ?_, h₃.stats_eq, h₃.spaces⟩
      exact congrArg (FrameTable.setOwner · frame none) h₃.frames_eq

theorem evict (h : m.Alike m') : Outcome.Rel Agree m.evict m'.evict := by
  obtain ⟨hvictim, hswept⟩ := h.pickVictim
  unfold Machine.evict
  generalize m.pickVictim = picked at *
  generalize m'.pickVictim = picked' at *
  obtain ⟨_ | frame, swept⟩ := picked
  · obtain ⟨_, swept'⟩ := picked'
    cases hvictim
    exact .halt _
  · obtain ⟨_, swept'⟩ := picked'
    cases hvictim
    refine .bind (hswept.takeFrame frame) ?_
    rintro ⟨taken, m₁⟩ ⟨_, m₁'⟩ ⟨rfl, h₁⟩
    exact .pure ⟨rfl, h₁⟩

theorem obtainFrame (h : m.Alike m') : Outcome.Rel Agree m.obtainFrame m'.obtainFrame := by
  unfold Machine.obtainFrame
  rw [← h.frames_eq]
  refine .step fun allocated => ?_
  obtain ⟨free, frames⟩ := allocated
  have h₁ : Alike { m with frames := frames } { m' with frames := frames } :=
    ⟨h.config_eq, h.swap, rfl, h.stats_eq, h.spaces⟩
  cases free with
  | none => exact h₁.evict
  | some frame => exact .pure ⟨rfl, h₁⟩

theorem allocate (h : m.Alike m') (process : Nat) (page : Page) (zero : Bool) :
    Outcome.Rel Agree (m.allocate process page zero) (m'.allocate process page zero) := by
  refine .bind h.obtainFrame ?_
  rintro ⟨_ | frame, m₁⟩ ⟨_, m₁'⟩ ⟨rfl, h₁⟩
  · exact .pure ⟨rfl, h₁⟩
  · dsimp only
    rw [← h₁.frames_eq, ← (h₁.space process).pid_eq]
    refine .step fun frames => .step fun _ => ?_
    cases zero with
    | true =>
      exact .bind (m₁.memory.put_rel m₁'.memory frame _ _) fun _ _ _ =>
        .pure ⟨rfl, h₁.config_eq, h₁.swap, rfl, h₁.stats_eq, h₁.spaces⟩
    | false => exact .pure ⟨rfl, h₁.config_eq, h₁.swap, rfl, h₁.stats_eq, h₁.spaces⟩

/-! ## Faults -/

theorem fill (h : m.Alike m') (process : Nat) (page : Page) {record record' : PageRecord}
    (hrecord : record.Alike record') (frame : Frame) :
    Outcome.Rel Agree (m.fill process page record frame)
      (m'.fill process page record' frame) := by
  unfold Machine.fill
  rw [← hrecord.status_eq]
  split
  · exact .pure ⟨rfl, h⟩
  · exact .pure ⟨rfl, h⟩
  · refine .bind (h.swap.read _) ?_
    rintro ⟨contents, swap⟩ ⟨contents', swap'⟩ hswap
    exact .bind (m.memory.put_rel m'.memory frame contents contents') fun _ _ _ =>
      .pure ⟨rfl, h.config_eq, hswap, h.frames_eq, h.stats_eq, h.spaces⟩
  · rename_i span _
    rcases hrecord.origin_cases with ⟨ho, ho'⟩ | ⟨origin, origin', ho, ho', hsize, -⟩
    · rw [ho, ho']
      exact .halt _
    · have hread : (origin.file.readAt span.offset span.length).size =
          (origin'.file.readAt span.offset span.length).size := by
        simp only [Bytes.readAt, Array.size_extract, hsize]
      simp only [ho, ho', ← hread]
      split
      · exact .bind (m.memory.put_rel m'.memory frame _ _) fun _ _ _ =>
          .pure ⟨rfl, h.config_eq, h.swap, h.frames_eq, h.stats_eq, h.spaces⟩
      · refine .bind (m.memory.update_rel m'.memory frame _ _) fun memory memory' _ => ?_
        have h₁ : Alike { m with memory := memory } { m' with memory := memory' } :=
          ⟨h.config_eq, h.swap, h.frames_eq, h.stats_eq, h.spaces⟩
        refine .bind (h₁.free frame) fun m₂ m₂' h₂ => ?_
        rw [← (h₂.space process).pid_eq]
        exact .step fun _ => .pure ⟨rfl, h₂⟩

theorem leaveSource (h : m.Alike m') (status : PageStatus) :
    Outcome.Rel Alike (m.leaveSource status) (m'.leaveSource status) := by
  obtain ⟨memory, swap, spaces, hswap, hspaces, rfl⟩ := h.exists_eq
  cases status with
  | swapped slot =>
    exact .bind (hswap.free slot) fun _ _ hnext => .pure ⟨rfl, hnext, rfl, rfl, hspaces⟩
  | zero => exact .pure h
  | resident frame => exact .pure h
  | fileBacked span => exact .pure ⟨rfl, hswap, rfl, rfl, hspaces⟩

theorem install (h : m.Alike m') (process : Nat) (page : Page) {record record' : PageRecord}
    (hrecord : record.Alike record') (frame : Frame) :
    Outcome.Rel Agree (m.install process page record frame)
      (m'.install process page record' frame) := by
  unfold Machine.install
  rw [← (h.space process).directory_eq, ← hrecord.writable_eq, ← hrecord.status_eq]
  refine .step fun mapped => ?_
  obtain ⟨_ | _, directory⟩ := mapped
  · exact .bind (h.free frame) fun _ _ h₁ => .pure ⟨rfl, h₁⟩
  · have h₁ := h.setDirectory process (directory.setDirty page false)
    refine .bind ((h₁.space process).table.markResident page frame) fun table table' htable => ?_
    refine .bind ((h₁.setTable process htable).leaveSource record.status) fun m₂ m₂' h₂ => ?_
    exact .bind (h₂.unpin frame) fun _ _ h₃ => .pure ⟨rfl, h₃⟩

theorem bringIn (h : m.Alike m') (process : Nat) (page : Page) {record record' : PageRecord}
    (hrecord : record.Alike record') :
    Outcome.Rel Agree (m.bringIn process page record) (m'.bringIn process page record') := by
  unfold Machine.bringIn
  rw [← hrecord.status_eq]
  refine .bind (h.allocate process page _) ?_
  rintro ⟨_ | frame, m₁⟩ ⟨_, m₁'⟩ ⟨rfl, h₁⟩
  · exact .pure ⟨rfl, h₁⟩
  · refine .bind (h₁.fill process page hrecord frame) ?_
    rintro ⟨_ | _, m₂⟩ ⟨_, m₂'⟩ ⟨rfl, h₂⟩
    · exact .pure ⟨rfl, h₂⟩
    · exact h₂.install process page hrecord frame

/-- What a fault asks for does not depend on bytes. -/
theorem judge (h : m.Alike m') (process : Nat) (fault : PageFault) :
    (m.judge process fault).Alike (m'.judge process fault) := by
  have hspace := h.space process
  unfold Machine.judge
  rw [← h.config_eq]
  simp only [← hspace.pid_eq]
  split
  · exact .rejected _ _
  · rcases hspace.table.get? (.containing fault.address) with ⟨hr, hr'⟩ |
      ⟨record, record', hr, hr', hrecord⟩
    · simp only [hr, hr']
      split
      · exact .stackGrowth _
      · exact .rejected _ _
    · simp only [hr, hr', ← hrecord.writable_eq]
      split
      · exact .rejected _ _
      · exact .known _ record record' hrecord

theorem handleFault (h : m.Alike m') (process : Nat) (fault : PageFault) :
    Outcome.Rel Agree (m.handleFault process fault) (m'.handleFault process fault) := by
  have hjudge := h.judge process fault
  unfold Machine.handleFault
  generalize m.judge process fault = verdict at hjudge
  generalize m'.judge process fault = verdict' at hjudge
  cases hjudge with
  | rejected error event => exact .step fun _ => .pure ⟨rfl, h⟩
  | known page record record' hrecord =>
    dsimp only
    rw [← hrecord.status_eq]
    split
    · exact .pure ⟨rfl, h⟩
    · exact h.bringIn process page hrecord
  | stackGrowth page =>
    have hinsert := (h.space process).table.insertZero page true
    dsimp only
    generalize (m.space process).table.insertZero page true = inserted at hinsert
    generalize (m'.space process).table.insertZero page true = inserted' at hinsert
    cases hinsert with
    | error e => exact .pure ⟨rfl, h⟩
    | ok table table' htable =>
      have h₁ := h.setTable process htable
      dsimp only
      rw [← (h₁.space process).pid_eq]
      exact .step fun _ => h₁.bringIn process page (.refl _)

/-! ## Mappings and teardown -/

theorem placeNewPage (h : m.Alike m') (process : Nat) (page : Page) (frame : Frame)
    (writable : Bool) (intruder : Option Bool) :
    Outcome.Rel Agree (m.placeNewPage process page frame writable intruder)
      (m'.placeNewPage process page frame writable intruder) := by
  have hspace := h.space process
  unfold Machine.placeNewPage
  dsimp only
  rw [← hspace.directory_eq]
  refine .step fun mapped => ?_
  obtain ⟨_ | _, directory⟩ := mapped
  · exact .bind (h.free frame) fun _ _ h₁ => .pure ⟨rfl, h₁⟩
  · simp only [Bool.not_true, Bool.false_eq_true, if_false]
    have hintruded := hspace.table.intruded page intruder
    have h₁ := (h.setDirectory process directory).setTable process hintruded
    have hresident := hintruded.insertResident page frame writable
    generalize PageTable.insertResident _ page frame writable = inserted at hresident
    generalize PageTable.insertResident _ page frame writable = inserted' at hresident
    cases hresident with
    | error e =>
      exact .bind ((h₁.setDirectory process _).free frame) fun _ _ h₂ => .pure ⟨rfl, h₂⟩
    | ok table table' htable =>
      exact .bind ((h₁.setTable process htable).unpin frame) fun _ _ h₂ => .pure ⟨rfl, h₂⟩

theorem mapNewPage (h : m.Alike m') (process : Nat) (page : Page) (writable intruding : Bool) :
    Outcome.Rel Agree (m.mapNewPage process page writable intruding)
      (m'.mapNewPage process page writable intruding) := by
  unfold Machine.mapNewPage Machine.mapNewPageAgainst
  rw [← (h.space process).table.contains_eq page]
  split
  · exact .pure ⟨rfl, h⟩
  · refine .bind (h.allocate process page true) ?_
    rintro ⟨_ | frame, m₁⟩ ⟨_, m₁'⟩ ⟨rfl, h₁⟩
    · exact .pure ⟨rfl, h₁⟩
    · exact h₁.placeNewPage process page frame writable _

theorem mapSegment (h : m.Alike m') (process : Nat) {segment segment' : Segment}
    (hsegment : segment.Alike segment') :
    Outcome.Rel Agree (m.mapSegment process segment) (m'.mapSegment process segment') := by
  refine .bind ((h.space process).table.mapSegment hsegment) ?_
  rintro ⟨mapped, table⟩ ⟨_, table'⟩ ⟨rfl, htable⟩
  exact .pure ⟨rfl, h.setTable process htable⟩

theorem destroy (h : m.Alike m') (process : Nat) :
    Outcome.Rel Agree (m.destroy process) (m'.destroy process) := by
  obtain ⟨memory, swap, spaces, hswap, hspaces, rfl⟩ := h.exists_eq
  have hspace := hspaces.get process
  refine .bind (R := Agree) ?_ ?_
  · have hstart : Teardown.Alike ⟨{}, {}, (m.space process).directory, m.swap, m.frames⟩
        ⟨{}, {}, (spaces.get process).directory, swap, m.frames⟩ :=
      ⟨swap, hswap, by rw [← hspace.directory_eq]; rfl⟩
    refine .bind (hstart.giveBackAll hspace.table) ?_
    rintro done _ ⟨swap', hswap', rfl⟩
    exact .pure ⟨rfl, rfl, hswap', rfl, rfl,
      hspaces.set process ⟨hspace.pid_eq, PageTable.Alike.refl done.table, rfl⟩⟩
  · rintro ⟨released, m₁⟩ ⟨_, m₁'⟩ ⟨rfl, h₁⟩
    dsimp only
    rw [← (h₁.space process).pid_eq]
    exact .step fun _ => .pure ⟨rfl, h₁⟩

/-! ## Loads and stores -/

theorem tryLoad (h : m.Alike m') (process address length : Nat) :
    Outcome.Rel (fun a b => ExceptRel (fun bytes bytes' => bytes.size = bytes'.size) a.1 b.1 ∧
        a.2.Alike b.2)
      (m.tryLoad process address length) (m'.tryLoad process address length) := by
  unfold Machine.tryLoad
  rw [← (h.space process).directory_eq]
  refine .bind (Directory.loadPieces_rel m.memory m'.memory address _ _ rfl) ?_
  rintro ⟨fault, bytes, directory⟩ ⟨_, bytes', _⟩ ⟨rfl, rfl, hsize⟩
  have h₁ := h.setDirectory process directory
  cases fault with
  | none => exact .pure ⟨.ok _ _ hsize, h₁⟩
  | some fault => exact .pure ⟨.error _, h₁⟩

theorem tryStore (h : m.Alike m') (process address : Nat) {data data' : Bytes}
    (hsize : data.size = data'.size) :
    Outcome.Rel Agree (m.tryStore process address data) (m'.tryStore process address data') := by
  unfold Machine.tryStore Directory.store
  rw [← (h.space process).directory_eq, ← hsize]
  refine .bind (Directory.storePieces_rel m.memory m'.memory address _ data data' _) ?_
  rintro ⟨fault, directory, memory⟩ ⟨_, _, memory'⟩ ⟨rfl, rfl⟩
  have h₁ := h.setDirectory process directory
  have h₂ : Alike { m.setDirectory process directory with memory := memory }
      { m'.setDirectory process directory with memory := memory' } :=
    ⟨h₁.config_eq, h₁.swap, h₁.frames_eq, h₁.stats_eq, h₁.spaces⟩
  cases fault with
  | none => exact .pure ⟨rfl, h₂⟩
  | some fault => exact .pure ⟨rfl, h₂⟩

end Alike

end Machine

end DemandPaging
