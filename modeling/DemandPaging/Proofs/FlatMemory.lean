/-
  Memory without paging: what the processes see.

  A `FlatMemory` says of every page of a process what it holds, if there is such a
  page.  There are no frames, slots or files that come in late: pages of zeros
  appear, segments appear as a whole, stores replace bytes, and processes end.

  * `byte?_store` is a store byte by byte;
  * `fault_store`: bytes stored into pages that are there do not matter to a fault;
  * `faults_of_some`: faults leave the pages alone that there are.
-/
import DemandPaging.Directory.Access
import DemandPaging.Config
import DemandPaging.Frame.Table
import DemandPaging.Table.Segment

namespace DemandPaging

theorem Page.base_add_pageOffset (a : Nat) : (Page.containing a).base + pageOffset a = a := by
  rw [Page.base_containing, pageRoundDown_add_pageOffset]

theorem Page.containing_base_add (page : Page) {i : Nat} (hi : i < pageSize) :
    Page.containing (page.base + i) = page := by
  ext
  simp only [Page.containing, Page.base, pageSize] at *
  omega

/-- An address a little further on is in the same page, as long as the page goes on. -/
theorem Page.containing_add (address : Nat) {j : Nat} (h : pageOffset address + j < pageSize) :
    Page.containing (address + j) = .containing address ∧
      pageOffset (address + j) = pageOffset address + j := by
  simp only [Page.containing, Page.mk.injEq, pageOffset, pageSize] at *
  omega

theorem Contents.size_slice {contents : Contents} {offset length : Nat}
    (h : offset + length ≤ pageSize) : (contents.slice offset length).size = length := by
  simp only [Contents.slice, Array.size_extract, Vector.size_toArray]
  omega

theorem Contents.getElem?_slice {contents : Contents} {offset length j : Nat}
    (h : offset + length ≤ pageSize) (hj : j < length) :
    (contents.slice offset length)[j]? =
      some contents[(⟨offset + j, by omega⟩ : Fin pageSize)] := by
  have hlt : offset + j < contents.toArray.size := by
    rw [Vector.size_toArray]; omega
  rw [Contents.slice, Array.getElem?_extract, if_pos (by rw [Vector.size_toArray]; omega),
    Array.getElem?_eq_getElem hlt]
  rfl

/-- What each page of each process holds. -/
abbrev FlatMemory : Type := Owner → Option Contents

/-- A page is one of the pages of a segment. -/
def Segment.Covers (segment : Segment) (page : Page) : Prop :=
  segment.base.number ≤ page.number ∧
    page.number < segment.base.number + (segment.fileBytes + segment.zeroBytes) / pageSize

instance (segment : Segment) (page : Page) : Decidable (segment.Covers page) :=
  inferInstanceAs (Decidable (_ ∧ _))

/-- What the `k`-th page of a segment starts out with: bytes of the file, then zeros. -/
def Segment.contents (segment : Segment) (k : Nat) : Contents :=
  Vector.ofFn fun i =>
    let j := k * pageSize + i.val
    if j < segment.fileBytes then segment.file.getD (segment.offset + j) 0 else 0

namespace FlatMemory

/-- Memory without pages. -/
def empty : FlatMemory := fun _ => none

/-- The byte of a process at an address, if there is a page. -/
def byte? (memory : FlatMemory) (process address : Nat) : Option UInt8 :=
  (memory ⟨process, .containing address⟩).map fun contents =>
    getElem contents (pageOffset address) (pageOffset_lt address)

/-- A page of zeros appears. -/
def addZeros (memory : FlatMemory) (o : Owner) : FlatMemory := fun x =>
  if o = x then some .zero else memory x

/-- The pages of a segment appear. -/
def addSegment (memory : FlatMemory) (process : Nat) (segment : Segment) : FlatMemory := fun x =>
  if process = x.process ∧ segment.Covers x.page then
    some (segment.contents (x.page.number - segment.base.number))
  else memory x

/-- The first `count` bytes of `data` replace what a process has from `address` on. -/
def store (memory : FlatMemory) (process address : Nat) (data : Bytes) (count : Nat) :
    FlatMemory := fun x =>
  (memory x).map fun contents => Vector.ofFn fun i =>
    let a := x.page.base + i.val
    if process = x.process ∧ address ≤ a ∧ a < address + count then data.getD (a - address) 0
    else getElem contents i.val i.isLt

/-- A process ends, and its memory with it. -/
def remove (memory : FlatMemory) (process : Nat) : FlatMemory := fun x =>
  if process = x.process then none else memory x

/-- A fault adds a page of zeros to the stack, if there is no page and the access looks like a
    push. -/
def fault (memory : FlatMemory) (config : Config) (process stackPointer address : Nat) :
    FlatMemory :=
  if isUserAddress address = true ∧ memory ⟨process, .containing address⟩ = none ∧
      config.isStackAccess address stackPointer = true then
    memory.addZeros ⟨process, .containing address⟩
  else memory

/-- Faults at the given addresses, one after the other. -/
def faults (memory : FlatMemory) (config : Config) (process stackPointer : Nat)
    (addresses : List Nat) : FlatMemory :=
  addresses.foldl (fun memory address => memory.fault config process stackPointer address) memory

variable {memory : FlatMemory} {config : Config} {process stackPointer address count : Nat}
  {data : Bytes} {o x : Owner}

theorem byte?_store (p a : Nat) : (memory.store process address data count).byte? p a =
    if process = p ∧ address ≤ a ∧ a < address + count then
      (memory.byte? p a).map fun _ => data.getD (a - address) 0
    else memory.byte? p a := by
  unfold byte? store
  cases memory ⟨p, .containing a⟩ with
  | none => simp
  | some contents =>
    simp only [Option.map_some, Vector.getElem_ofFn, Page.base_add_pageOffset]
    split <;> rfl

@[simp] theorem store_zero : memory.store process address data 0 = memory := by
  funext x
  cases h : memory x with
  | none => simp [store, h]
  | some contents =>
    simp only [store, h, Option.map_some, Option.some.injEq]
    ext i hi
    rw [Vector.getElem_ofFn, if_neg (by omega)]

theorem store_eq_none : memory.store process address data count x = none ↔ memory x = none :=
  Option.map_eq_none_iff

theorem isSome_byte?_store {p a : Nat} :
    ((memory.store process address data count).byte? p a).isSome = (memory.byte? p a).isSome := by
  rw [byte?_store]
  split
  · rw [Option.isSome_map]
  · rfl

theorem memory_of_byte? {p a : Nat} (h : (memory.byte? p a).isSome = true) :
    memory ⟨p, .containing a⟩ ≠ none := by
  intro hnone
  rw [byte?, hnone] at h
  cases h

/-- A store into pages that are there does not touch a page that appears. -/
theorem addZeros_store
    (hpages : ∀ i, i < count → (memory.byte? process (address + i)).isSome = true)
    (ho : memory o = none) :
    (memory.store process address data count).addZeros o =
      (memory.addZeros o).store process address data count := by
  funext x
  unfold addZeros store
  by_cases hx : o = x
  · subst hx
    simp only [if_true, Option.map_some, Option.some.injEq]
    ext i hi
    simp only [Vector.getElem_ofFn]
    rw [if_neg]
    rintro ⟨rfl, hle, hlt⟩
    have hsome := memory_of_byte? (hpages (o.page.base + i - address) (by omega))
    rw [Nat.add_sub_cancel' hle, Page.containing_base_add _ hi] at hsome
    exact hsome ho
  · simp only [hx, if_false]

/-- Storing and faulting do not get in each other's way, as long as bytes are stored only
    where there are pages. -/
theorem fault_store {a : Nat}
    (hpages : ∀ i, i < count → (memory.byte? process (address + i)).isSome = true) :
    (memory.store process address data count).fault config process stackPointer a =
      (memory.fault config process stackPointer a).store process address data count := by
  unfold fault
  simp only [store_eq_none]
  split
  · rename_i h
    exact addZeros_store hpages h.2.1
  · rfl

theorem byte?_addZeros (p b : Nat) : (memory.addZeros o).byte? p b =
    if o = ⟨p, .containing b⟩ then some 0 else memory.byte? p b := by
  unfold byte? addZeros
  split
  · rw [Option.map_some, Contents.getElem_zero]
  · rfl

section

variable {contents : Contents}

theorem addZeros_of_some (ho : memory o = some contents) (hx : memory x = none) :
    memory.addZeros x o = some contents := by
  rw [addZeros, if_neg, ho]
  rintro rfl
  cases hx.symm.trans ho

/-- A fault leaves the pages alone that there are. -/
theorem fault_of_some (address : Nat) (ho : memory o = some contents) :
    memory.fault config process stackPointer address o = some contents := by
  unfold fault
  split
  · rename_i hgrows
    exact addZeros_of_some ho hgrows.2.1
  · exact ho

theorem faults_of_some (faults : List Nat) (ho : memory o = some contents) :
    memory.faults config process stackPointer faults o = some contents := by
  induction faults generalizing memory with
  | nil => exact ho
  | cons address rest ih => exact ih (fault_of_some address ho)

end

/-- A fault takes no byte away. -/
theorem isSome_byte?_fault {p b a : Nat} (h : (memory.byte? p b).isSome = true) :
    ((memory.fault config process stackPointer a).byte? p b).isSome = true := by
  obtain ⟨contents, hcontents⟩ := Option.ne_none_iff_exists'.1 (memory_of_byte? h)
  rw [byte?, fault_of_some a hcontents, Option.map_some, Option.isSome_some]

/-- Faults change no byte of a page that is there. -/
theorem byte?_faults {p b : Nat} (faults : List Nat) (h : (memory.byte? p b).isSome = true) :
    (memory.faults config process stackPointer faults).byte? p b = memory.byte? p b := by
  obtain ⟨contents, hcontents⟩ := Option.ne_none_iff_exists'.1 (memory_of_byte? h)
  rw [byte?, byte?, faults_of_some faults hcontents, hcontents]

end FlatMemory

end DemandPaging
