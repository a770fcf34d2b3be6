/-
  The pages of a machine: what is recorded of each, how it is mapped and what it
  holds.

  Pages of different processes are told apart by their owner.  A machine is seen
  through `record?`, `translate`, `flag` and the contents of frames and slots;
  what the parts of a machine are made of plays no role after this module.

  * `contentsOf` is what a page holds according to its record, `flat` the memory
    of all processes as they see it;
  * `record?_setTable`, `translate_setDirectory` and `flag_setDirectory` are the
    views of an updated machine;
  * `flat_congr`: the memory stays as long as records, frames and slots do.
-/
import DemandPaging.Machine.Basic
import DemandPaging.Proofs.Directory
import DemandPaging.Proofs.Frames
import DemandPaging.Proofs.Swap

namespace DemandPaging

variable {n : Nat}

theorem Owner.eq_iff {o x : Owner} : o = x ↔ o.process = x.process ∧ o.page = x.page := by
  cases o; cases x; simp

/-! ## Contents of frames -/

/-- What a frame holds.  Frames that memory lacks hold zeros. -/
def Memory.contents (memory : Memory n) (frame : Frame) : Contents :=
  memory.frames[frame.index]?.getD Contents.zero

namespace Memory

variable {memory memory' : Memory n} {frame g : Frame} {contents : Contents}

theorem get_of_lt (h : frame.index < n) :
    memory.get frame = pure (memory.contents frame) := by
  rw [get_eq, if_pos h, contents]

theorem get_eq_ok_iff : (memory.get frame).result = .ok contents ↔
    frame.index < n ∧ contents = memory.contents frame := by
  rw [get_eq, Memory.contents]
  split <;> simp [*, eq_comm]

theorem put_cases (h : (memory.put frame contents).result = .ok memory') :
    frame.index < n ∧
      ∀ g, memory'.contents g = if frame = g then contents else memory.contents g := by
  unfold put at h
  split at h
  · rename_i hlt
    cases h
    refine ⟨hlt, fun g => ?_⟩
    by_cases hg : frame = g
    · subst hg; simp [Memory.contents]
    · have : frame.index ≠ g.index := fun hi => hg (Frame.index_inj.1 hi)
      simp [Memory.contents, hg, this]
  · cases h

theorem exists_put (contents : Contents) (h : frame.index < n) :
    ∃ memory', (memory.put frame contents).result = .ok memory' := by
  simp [put, h]

theorem update_cases {f : Contents → Contents}
    (h : (memory.update frame f).result = .ok memory') : frame.index < n ∧
      ∀ g, memory'.contents g =
        if frame = g then f (memory.contents frame) else memory.contents g := by
  simp only [update, Outcome.bind_eq_ok_iff, get_eq_ok_iff] at h
  obtain ⟨_, ⟨-, rfl⟩, h⟩ := h
  exact put_cases h

/-- A frame that memory has can be changed, which reports nothing. -/
theorem exists_update_eq (f : Contents → Contents) (h : frame.index < n) :
    ∃ memory', memory.update frame f = pure memory' :=
  ⟨⟨memory.frames.set frame.index (f (memory.contents frame)) h⟩, by
    rw [update, get_of_lt h, Outcome.pure_bind, put, dif_pos h]⟩

theorem exists_update (f : Contents → Contents) (h : frame.index < n) :
    ∃ memory', (memory.update frame f).result = .ok memory' := by
  obtain ⟨memory', hupdate⟩ := exists_update_eq f h
  exact ⟨memory', by rw [hupdate, Outcome.result_pure]⟩

end Memory

/-! ## Pages -/

theorem PageStatus.exists_of_isResident {status : PageStatus} (h : status.isResident = true) :
    ∃ frame, status = .resident frame := by
  cases status with
  | resident frame => exact ⟨frame, rfl⟩
  | zero => cases h
  | swapped slot => cases h
  | fileBacked span => cases h

namespace Machine

/-- What is recorded of a page. -/
def record? (m : Machine n) (o : Owner) : Option PageRecord :=
  (m.space o.process).table.get? o.page

/-- Where a page is. -/
def status? (m : Machine n) (o : Owner) : Option PageStatus :=
  (m.record? o).map PageRecord.status

/-- The frame that a page is mapped to. -/
def translate (m : Machine n) (o : Owner) : Option Frame :=
  (m.space o.process).directory.translate o.page

/-- A flag of the directory entry of a page. -/
def flag (m : Machine n) (o : Owner) (flag : Flag) : Bool :=
  (m.space o.process).directory.has o.page flag

/-- What a page with the given record holds.  A file that is too short is filled up
    with zeros. -/
def contentsOf (m : Machine n) (record : PageRecord) : Contents :=
  match record.status with
  | .zero => .zero
  | .resident frame => m.memory.contents frame
  | .swapped slot => m.swap.page slot
  | .fileBacked span =>
    match record.origin with
    | some origin => .ofBytes (origin.file.readAt span.offset span.length)
    | none => .zero

/-- The memory of all processes as they see it: what each of their pages holds. -/
def flat (m : Machine n) (o : Owner) : Option Contents :=
  (m.record? o).map m.contentsOf

variable {m m' : Machine n} {o : Owner} {process : Nat} {frame : Frame} {record : PageRecord}

theorem status?_eq_some {status : PageStatus} :
    m.status? o = some status ↔ ∃ record, m.record? o = some record ∧ record.status = status :=
  Option.map_eq_some_iff

theorem status?_of_record (h : m.record? o = some record) : m.status? o = some record.status := by
  simp [status?, h]

theorem status?_eq_none (h : m.record? o = none) : m.status? o = none := by
  rw [status?, h]; rfl

/-- A page that is somewhere else is in no frame. -/
theorem status?_ne_resident (hr : m.record? o = some record)
    (hout : record.status.isResident = false) (g : Frame) :
    m.status? o ≠ some (.resident g) := by
  rw [status?_of_record hr]
  intro hg
  rw [Option.some.inj hg] at hout
  cases hout

theorem flat_of_record (h : m.record? o = some record) : m.flat o = some (m.contentsOf record) := by
  simp [flat, h]

theorem flat_eq_none : m.flat o = none ↔ m.record? o = none := by
  simp [flat]

/-! ## Views of updated machines -/

end Machine

theorem AddressSpaces.set_set (all : AddressSpaces) (process : Nat) (a b : AddressSpace) :
    (all.set process a).set process b = all.set process b := by
  unfold set
  by_cases h : process < all.spaces.size
  · simp [h]
  · have hsize : (all.spaces ++ Array.replicate (process - all.spaces.size)
        AddressSpace.empty).size = process := by simp; omega
    simp only [h, dite_false, Array.size_push, hsize, Nat.lt_succ_self, dite_true, mk.injEq]
    generalize all.spaces ++ Array.replicate (process - all.spaces.size) AddressSpace.empty = l at *
    subst hsize
    ext i hi hi'
    · simp
    · rw [Array.getElem_set, Array.getElem_push, Array.getElem_push]
      by_cases hlt : i < l.size
      · have : l.size ≠ i := by omega
        simp [hlt, this]
      · have : l.size = i := by simp at hi'; omega
        simp [this]

namespace Machine

variable {m m' : Machine n} {o : Owner} {process : Nat} {frame : Frame} {record : PageRecord}

@[simp] theorem setTable_setTable (table table' : PageTable) :
    (m.setTable process table).setTable process table' = m.setTable process table' := by
  simp [setTable, space, AddressSpaces.set_set]

@[simp] theorem record?_setDirectory (directory : Directory) :
    (m.setDirectory process directory).record? o = m.record? o := by
  by_cases h : process = o.process <;> simp [record?, h]

@[simp] theorem translate_setTable (table : PageTable) :
    (m.setTable process table).translate o = m.translate o := by
  by_cases h : process = o.process <;> simp [translate, h]

@[simp] theorem flag_setTable (table : PageTable) {fl : Flag} :
    (m.setTable process table).flag o fl = m.flag o fl := by
  by_cases h : process = o.process <;> simp [flag, h]

theorem record?_setTable (table : PageTable) :
    (m.setTable process table).record? o =
      if process = o.process then table.get? o.page else m.record? o := by
  by_cases h : process = o.process <;> simp [record?, h]

theorem translate_setDirectory (directory : Directory) :
    (m.setDirectory process directory).translate o =
      if process = o.process then directory.translate o.page else m.translate o := by
  by_cases h : process = o.process <;> simp [translate, h]

theorem flag_setDirectory (directory : Directory) {fl : Flag} :
    (m.setDirectory process directory).flag o fl =
      if process = o.process then directory.has o.page fl else m.flag o fl := by
  by_cases h : process = o.process <;> simp [flag, h]

/-- The records after one of them was replaced. -/
theorem record?_setTable_insert (x : Owner) (record : PageRecord) :
    (m.setTable x.process ⟨(m.space x.process).table.records.insert x.page record⟩).record? o =
      if x = o then some record else m.record? o := by
  obtain ⟨process, page⟩ := x
  obtain ⟨other, q⟩ := o
  rw [record?_setTable]
  by_cases hp : process = other
  · subst hp
    simp only [if_true, PageTable.get?_mk_insert, Owner.mk.injEq, true_and]
    rfl
  · simp [hp]

/-- The translations after the directory of a page's process changed there alone. -/
theorem translate_setDirectory_of {x : Owner} {directory : Directory} {target : Option Frame}
    (h : ∀ q, directory.translate q =
      if x.page = q then target else (m.space x.process).directory.translate q) :
    (m.setDirectory x.process directory).translate o =
      if x = o then target else m.translate o := by
  obtain ⟨process, page⟩ := x
  obtain ⟨other, q⟩ := o
  rw [translate_setDirectory]
  by_cases hp : process = other
  · subst hp
    simp only [if_true, h, Owner.mk.injEq, true_and]
    rfl
  · simp [hp]

/-- The flags after the directory of a page's process changed there alone. -/
theorem flag_setDirectory_of {x : Owner} {directory : Directory} {fl : Flag} {on : Bool}
    (h : ∀ q, directory.has q fl =
      if x.page = q then on else (m.space x.process).directory.has q fl) :
    (m.setDirectory x.process directory).flag o fl = if x = o then on else m.flag o fl := by
  obtain ⟨process, page⟩ := x
  obtain ⟨other, q⟩ := o
  rw [flag_setDirectory]
  by_cases hp : process = other
  · subst hp
    simp only [if_true, h, Owner.mk.injEq, true_and]
    rfl
  · simp [hp]

@[simp] theorem table_setDirectory (directory : Directory) (p : Nat) :
    ((m.setDirectory process directory).space p).table = (m.space p).table := by
  by_cases hp : process = p
  · subst hp; simp
  · simp [hp]

theorem traits_setDirectory {directory : Directory}
    (h : directory.toDirectoryTraits = (m.space process).directory.toDirectoryTraits) (p : Nat) :
    ((m.setDirectory process directory).space p).directory.toDirectoryTraits =
      (m.space p).directory.toDirectoryTraits := by
  by_cases hp : process = p
  · subst hp; simp [h]
  · simp [hp]

@[simp] theorem traits_setTable (table : PageTable) (p : Nat) :
    ((m.setTable process table).space p).directory.toDirectoryTraits =
      (m.space p).directory.toDirectoryTraits := by
  by_cases hp : process = p
  · subst hp; simp
  · simp [hp]

/-- Machines with the same memory and swap space agree on what a record stands
    for. -/
theorem contentsOf_congr (hmem : ∀ frame, record.status = .resident frame →
      m'.memory.contents frame = m.memory.contents frame)
    (hswap : ∀ slot, record.status = .swapped slot → m'.swap.page slot = m.swap.page slot) :
    m'.contentsOf record = m.contentsOf record := by
  unfold contentsOf
  cases hs : record.status with
  | zero => rfl
  | resident frame => exact hmem frame hs
  | swapped slot => exact hswap slot hs
  | fileBacked span => rfl

theorem contentsOf_eq (hmemory : m'.memory = m.memory)
    (hpage : ∀ slot, m'.swap.page slot = m.swap.page slot) : m'.contentsOf = m.contentsOf := by
  funext record
  exact contentsOf_congr (fun _ _ => by rw [hmemory]) (fun slot _ => hpage slot)

/-- Pages hold what they held as long as their records, the memory and the slots stay. -/
theorem flat_congr (hrecord : ∀ x, m'.record? x = m.record? x) (hmemory : m'.memory = m.memory)
    (hpage : ∀ slot, m'.swap.page slot = m.swap.page slot) : m'.flat = m.flat := by
  funext x
  rw [flat, flat, hrecord, contentsOf_eq hmemory hpage]

end Machine

end DemandPaging
