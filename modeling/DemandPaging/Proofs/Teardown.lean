/-
  The end of a process: one page after the other gives back what it takes up.

  * `Removed`: a page is gone; `Removed.sound` and `Removed.flat_eq`: the machine
    stays sound and no other page changes;
  * `TornDown`: a process lost its pages one by one (`destroy_cases`);
    `TornDown.sound` and `TornDown.flat_eq` follow by induction on the pages.
-/
import DemandPaging.Machine.Teardown
import DemandPaging.Proofs.Placing

namespace DemandPaging.Machine

variable {n : Nat} {m m' m₁ : Machine n} {frame : Frame} {o x : Owner} {record : PageRecord}

/-! ## One page -/

/-- The page `o`, of which `record` was known, is gone, and with it what it took up. -/
structure Removed (m m' : Machine n) (o : Owner) (record : PageRecord) : Prop where
  config_eq : m'.config = m.config
  memory_eq : m'.memory = m.memory
  stats_eq : m'.stats = m.stats
  device_eq : m'.swap.device = m.swap.device
  slots : SlotLeft m.swap.slots m'.swap.slots record.status
  traits_eq : ∀ p, (m'.space p).directory.toDirectoryTraits =
    (m.space p).directory.toDirectoryTraits
  hand_eq : m'.frames.hand = m.frames.hand
  counted : m.frames.pool.Counted → m'.frames.pool.Counted
  isAllocated_eq : ∀ g, m'.frames.pool.isAllocated g =
    if record.status = .resident g then false else m.frames.pool.isAllocated g
  hasPin_eq : ∀ g, m'.frames.pool.hasPin g =
    if record.status = .resident g then false else m.frames.pool.hasPin g
  owner?_eq : ∀ g, m'.frames.owner? g =
    if record.status = .resident g then none else m.frames.owner? g
  record?_eq : ∀ x, m'.record? x = if o = x then none else m.record? x
  translate_eq : ∀ x, m'.translate x = if o = x then none else m.translate x
  flag_eq : ∀ x fl, fl ≠ .present → m'.flag x fl = m.flag x fl

namespace Removed

theorem status?_eq (h : m.Removed m' o record) (x : Owner) :
    m'.status? x = if o = x then none else m.status? x := by
  rw [status?, h.record?_eq]
  split <;> rfl

theorem record?_cases (h : m.Removed m' o record) {r : PageRecord} (hx : m'.record? x = some r) :
    o ≠ x ∧ m.record? x = some r := by
  rw [h.record?_eq] at hx
  split at hx
  · cases hx
  · rename_i hne
    exact ⟨hne, hx⟩

theorem linked (h : m.Removed m' o record) (hl : m.Linked none) (hr : m.record? o = some record) :
    m'.Linked none := by
  have ho : m.status? o = some record.status := status?_of_record hr
  constructor
  · exact h.counted hl.counted
  · intro g _
    rw [h.isAllocated_eq, FrameTable.isTracked, h.owner?_eq]
    split
    · simp
    · exact hl.isTracked_iff g
  · intro g x _
    rw [h.owner?_eq, h.status?_eq]
    by_cases hg : record.status = .resident g
    · rw [if_pos hg]
      refine ⟨fun hx => (by cases hx), fun hx => ?_⟩
      split at hx
      · cases hx
      · rename_i hne
        exact absurd (hl.frame_inj (hg ▸ ho) hx) hne
    · rw [if_neg hg, hl.owner?_iff g x]
      by_cases hx : o = x
      · subst hx
        rw [if_pos rfl, ho]
        exact ⟨fun h => absurd (Option.some.inj h) hg, fun h => by cases h⟩
      · rw [if_neg hx]
  · intro g hg; cases hg
  · intro g x hg; cases hg
  · intro g x
    rw [h.translate_eq, h.status?_eq]
    by_cases hx : o = x
    · simp [hx]
    · rw [if_neg hx, if_neg hx]; exact hl.translate_iff g x
  · intro x r g hr hst
    rw [h.flag_eq x _ (by decide)]
    exact hl.writable_eq x r g (h.record?_cases hr).2 hst

theorem filesKept (h : m.Removed m' o record) (hf : m.FilesKept) : m'.FilesKept := by
  constructor
  · exact fun x r hr => hf.zero x r (h.record?_cases hr).2
  · exact fun x r span hr => hf.backed x r span (h.record?_cases hr).2
  · exact fun x r s origin hr => hf.swapped x r s origin (h.record?_cases hr).2
  · intro x r g origin hr
    rw [h.memory_eq, h.flag_eq x _ (by decide)]
    exact hf.clean x r g origin (h.record?_cases hr).2
  · exact fun x r origin hr => hf.span_le x r origin (h.record?_cases hr).2

theorem sound (h : m.Removed m' o record) (hs : m.Sound none) (hr : m.record? o = some record) :
    m'.Sound none := by
  refine ⟨h.linked hs.linked hr, ?_, h.filesKept hs.files⟩
  refine h.slots.slotsLinked hs.slots (.inl (status?_of_record hr)) ?_ ?_
  · intro s
    rw [h.status?_eq, if_pos rfl]
    exact (Option.some_ne_none _).symm
  · intro x hx
    rw [h.status?_eq, if_neg hx]

theorem flat_eq (h : m.Removed m' o record) (x : Owner) :
    m'.flat x = if o = x then none else m.flat x := by
  have hpage : ∀ slot, m'.swap.page slot = m.swap.page slot :=
    fun slot => SwapSpace.page_congr fun j => by rw [h.device_eq]
  rw [flat, flat, h.record?_eq, contentsOf_eq h.memory_eq hpage]
  split <;> rfl

end Removed

/-! ## Giving back what a page takes up -/

/-- What giving back a page with the given status does to the frames, the slots and the
    directory. -/
structure GaveBack (state state' : Teardown (FrameTable n)) (page : Page) (status : PageStatus) :
    Prop where
  device_eq : state'.swap.device = state.swap.device
  slots : SlotLeft state.swap.slots state'.swap.slots status
  inUse_eq : state'.released.slots + state'.swap.slots.inUse =
    state.released.slots + state.swap.slots.inUse
  traits_eq : state'.directory.toDirectoryTraits = state.directory.toDirectoryTraits
  hand_eq : state'.receiver.hand = state.receiver.hand
  counted : state.receiver.pool.Counted → state'.receiver.pool.Counted
  isAllocated_eq : ∀ g, state'.receiver.pool.isAllocated g =
    if status = .resident g then false else state.receiver.pool.isAllocated g
  hasPin_eq : ∀ g, state'.receiver.pool.hasPin g =
    if status = .resident g then false else state.receiver.pool.hasPin g
  owner?_eq : ∀ g, state'.receiver.owner? g =
    if status = .resident g then none else state.receiver.owner? g
  translate_eq : ∀ q, state'.directory.translate q =
    if page = q ∧ status.isResident = true then none else state.directory.translate q
  has_eq : ∀ q fl, fl ≠ .present → state'.directory.has q fl = state.directory.has q fl

theorem giveBack_cases {state state' : Teardown (FrameTable n)} {page : Page} {status : PageStatus}
    (h : (state.giveBack FrameTable.release page status).result = .ok state') :
    GaveBack state state' page status := by
  cases status with
  | zero => cases h; constructor <;> simp [SlotLeft, PageStatus.isResident]
  | fileBacked span => cases h; constructor <;> simp [SlotLeft, PageStatus.isResident]
  | swapped slot =>
    obtain ⟨swap, hfree, h⟩ := Outcome.bind_eq_ok_iff.1 h
    cases h
    obtain ⟨slots, hslots, rfl⟩ := SwapSpace.free_cases hfree
    have hinUse := Slots.inUse_free hslots
    constructor <;> simp [SlotLeft, PageStatus.isResident, hslots]
    omega
  | resident frame =>
    obtain ⟨frames, hrelease, h⟩ := Outcome.bind_eq_ok_iff.1 h
    cases h
    obtain ⟨-, pool, hpool, rfl⟩ := FrameTable.release_cases hrelease
    obtain ⟨hall, hmap, -⟩ := Pool.dealloc_cases hpool
    have hlt := Pool.lt_of_isAllocated hall
    constructor
    · rfl
    · rfl
    · rfl
    · rfl
    · rfl
    · exact fun hc => hc.dealloc hpool
    · intro g
      simp only [PageStatus.resident.injEq]
      exact (Pool.isAllocated_congr hmap).trans (Pool.isAllocated_setEntry _ hlt)
    · intro g
      simp only [PageStatus.resident.injEq]
      exact (Pool.hasPin_congr hmap).trans (Pool.hasPin_setEntry _ hlt)
    · intro g
      simp only [PageStatus.resident.injEq]
      exact FrameTable.owner?_setOwner none hlt
    · intro q
      simp only [PageStatus.isResident, and_true]
      exact Directory.translate_clear _ _ _
    · exact fun q fl hfl => Directory.has_clear _ _ _ hfl

/-- Giving back what pages take up does not touch the table, since it was emptied before. -/
theorem table_giveBackAll {σ : Type} {release : σ → Frame → Outcome σ} {state done : Teardown σ}
    {pages : List (Page × PageRecord)}
    (h : (Teardown.giveBackAll release pages state).result = .ok done) :
    done.table = state.table := by
  induction pages generalizing state with
  | nil => cases h; rfl
  | cons entry rest ih =>
    obtain ⟨page, status, writable, dirty, origin⟩ := entry
    obtain ⟨state', hgive, h⟩ := Outcome.bind_eq_ok_iff.1 h
    refine (ih h).trans ?_
    cases status with
    | zero => cases hgive; rfl
    | fileBacked span => cases hgive; rfl
    | swapped slot =>
      obtain ⟨swap, -, hgive⟩ := Outcome.bind_eq_ok_iff.1 hgive
      cases hgive; rfl
    | resident frame =>
      obtain ⟨receiver, -, hgive⟩ := Outcome.bind_eq_ok_iff.1 hgive
      cases hgive; rfl

/-- Every slot that a teardown releases counts among what it gave back. -/
theorem inUse_giveBackAll {state done : Teardown (FrameTable n)} {pages : List (Page × PageRecord)}
    (h : (Teardown.giveBackAll FrameTable.release pages state).result = .ok done) :
    done.released.slots + done.swap.slots.inUse =
      state.released.slots + state.swap.slots.inUse := by
  induction pages generalizing state with
  | nil => cases h; rfl
  | cons entry rest ih =>
    obtain ⟨state', hgive, h⟩ := Outcome.bind_eq_ok_iff.1 h
    exact (ih h).trans (giveBack_cases hgive).inUse_eq

/-! ## A whole process -/

/-- The machine while a process is torn down, with the pages in `table` left. -/
def duringTeardown (m : Machine n) (process : Nat) (state : Teardown (FrameTable n))
    (table : PageTable) : Machine n :=
  { m with
    frames := state.receiver
    swap := state.swap
    spaces := m.spaces.set process
      { m.space process with table := table, directory := state.directory } }

section

variable {process : Nat} {state state' : Teardown (FrameTable n)} {table table' : PageTable}

theorem record?_duringTeardown : (m.duringTeardown process state table).record? x =
    if process = x.process then table.get? x.page else m.record? x := by
  by_cases h : process = x.process <;>
    simp [record?, duringTeardown, space, AddressSpaces.get_set, h]

theorem translate_duringTeardown : (m.duringTeardown process state table).translate x =
    if process = x.process then state.directory.translate x.page else m.translate x := by
  by_cases h : process = x.process <;>
    simp [translate, duringTeardown, space, AddressSpaces.get_set, h]

theorem flag_duringTeardown {fl : Flag} : (m.duringTeardown process state table).flag x fl =
    if process = x.process then state.directory.has x.page fl else m.flag x fl := by
  by_cases h : process = x.process <;>
    simp [flag, duringTeardown, space, AddressSpaces.get_set, h]

theorem traits_duringTeardown (p : Nat) :
    ((m.duringTeardown process state table).space p).directory.toDirectoryTraits =
      if process = p then state.directory.toDirectoryTraits
      else (m.space p).directory.toDirectoryTraits := by
  by_cases h : process = p <;> simp [duringTeardown, space, AddressSpaces.get_set, h]

/-- A page that gave back what it takes up, and is struck from the table, is gone. -/
theorem GaveBack.removed {page : Page} (h : GaveBack state state' page record.status)
    (hl : (m.duringTeardown process state table).Linked none) (hr : table.get? page = some record)
    (hget : ∀ q, table'.get? q = if page = q then none else table.get? q) :
    (m.duringTeardown process state table).Removed (m.duringTeardown process state' table')
      ⟨process, page⟩ record where
  config_eq := rfl
  memory_eq := rfl
  stats_eq := rfl
  device_eq := h.device_eq
  slots := h.slots
  traits_eq p := by rw [traits_duringTeardown, traits_duringTeardown, h.traits_eq]
  hand_eq := h.hand_eq
  counted := h.counted
  isAllocated_eq := h.isAllocated_eq
  hasPin_eq := h.hasPin_eq
  owner?_eq := h.owner?_eq
  record?_eq x := by
    rw [record?_duringTeardown, record?_duringTeardown, hget]
    by_cases hp : process = x.process <;> simp [Owner.eq_iff, hp]
  translate_eq x := by
    have hself : ¬record.status.isResident = true →
        (m.duringTeardown process state table).translate ⟨process, page⟩ = none := by
      intro hout
      cases ht : (m.duringTeardown process state table).translate ⟨process, page⟩ with
      | none => rfl
      | some g =>
        have hst := (hl.translate_iff g _).1 ht
        rw [status?, record?_duringTeardown, if_pos rfl, hr] at hst
        rw [Option.some.inj hst] at hout
        exact absurd rfl hout
    by_cases hx : (⟨process, page⟩ : Owner) = x
    · subst hx
      rw [if_pos rfl, translate_duringTeardown, if_pos rfl, h.translate_eq]
      split
      · rfl
      · rename_i hout
        rw [translate_duringTeardown, if_pos rfl] at hself
        exact hself fun hin => hout ⟨rfl, hin⟩
    · rw [if_neg hx, translate_duringTeardown, translate_duringTeardown]
      split
      · rename_i hp
        rw [h.translate_eq, if_neg fun hq => hx (Owner.eq_iff.2 ⟨hp, hq.1⟩)]
      · rfl
  flag_eq x fl hfl := by
    rw [flag_duringTeardown, flag_duringTeardown, h.has_eq _ _ hfl]

end

/-- The process lost its pages, one by one. -/
inductive TornDown (process : Nat) : Machine n → Machine n → Prop where
  | done (m : Machine n) (hempty : ∀ q, m.record? ⟨process, q⟩ = none) : TornDown process m m
  | page (m m₁ m' : Machine n) (page : Page) (record : PageRecord)
      (hr : m.record? ⟨process, page⟩ = some record)
      (hremoved : m.Removed m₁ ⟨process, page⟩ record) (rest : TornDown process m₁ m') :
      TornDown process m m'

section

variable {process : Nat} {state : Teardown (FrameTable n)} {page : Page}
  {rest : List (Page × PageRecord)}
  {hsorted : ((page, record) :: rest).Pairwise fun a b => a.1.number < b.1.number}

theorem record?_first : (m.duringTeardown process state ⟨⟨(page, record) :: rest, hsorted⟩⟩).record?
    ⟨process, page⟩ = some record := by
  rw [record?_duringTeardown, if_pos rfl]
  simp [PageTable.get?, PageMap.get?, PageMap.find]

/-- Giving back what the first page takes up removes that page. -/
theorem removed_first {state' : Teardown (FrameTable n)}
    (h : (state.giveBack FrameTable.release page record.status).result = .ok state')
    (hs : (m.duringTeardown process state ⟨⟨(page, record) :: rest, hsorted⟩⟩).Sound none) :
    (m.duringTeardown process state ⟨⟨(page, record) :: rest, hsorted⟩⟩).Removed
      (m.duringTeardown process state' ⟨⟨rest, (List.pairwise_cons.1 hsorted).2⟩⟩)
      ⟨process, page⟩ record := by
  refine (giveBack_cases h).removed hs.linked ?_ ?_
  · simp [PageTable.get?, PageMap.get?, PageMap.find]
  · intro q
    by_cases hq : page = q
    · subst hq
      rw [if_pos rfl]
      exact PageMap.find_eq_none_of_lt (List.pairwise_cons.1 hsorted).1
    · simp [PageTable.get?, PageMap.get?, PageMap.find, hq]

end

theorem tornDown_of_giveBackAll {process : Nat} {state done : Teardown (FrameTable n)}
    {pages : List (Page × PageRecord)}
    (hsorted : pages.Pairwise fun a b => a.1.number < b.1.number)
    (h : (Teardown.giveBackAll FrameTable.release pages state).result = .ok done)
    (hs : (m.duringTeardown process state ⟨⟨pages, hsorted⟩⟩).Sound none) :
    TornDown process (m.duringTeardown process state ⟨⟨pages, hsorted⟩⟩)
      (m.duringTeardown process done {}) := by
  induction pages generalizing state with
  | nil =>
    cases h
    refine .done _ fun q => ?_
    rw [record?_duringTeardown, if_pos rfl]
    rfl
  | cons entry rest ih =>
    obtain ⟨page, record⟩ := entry
    obtain ⟨state', hgive, h⟩ := Outcome.bind_eq_ok_iff.1 h
    have hremoved := removed_first hgive hs
    exact .page _ _ _ page record record?_first hremoved
      (ih _ h (hremoved.sound hs record?_first))

namespace TornDown

variable {process : Nat}

theorem sound (h : TornDown process m m') (hs : m.Sound none) : m'.Sound none := by
  induction h with
  | done m hempty => exact hs
  | page m m₁ m' page record hr hremoved rest ih => exact ih (hremoved.sound hs hr)

theorem flat_eq (h : TornDown process m m') (x : Owner) :
    m'.flat x = if process = x.process then none else m.flat x := by
  induction h with
  | done m hempty =>
    split
    · rename_i hp
      obtain ⟨p, q⟩ := x
      obtain rfl : process = p := hp
      exact flat_eq_none.2 (hempty q)
    · rfl
  | page m m₁ m' page record hr hremoved rest ih =>
    rw [ih]
    split
    · rfl
    · rename_i hp
      rw [hremoved.flat_eq, if_neg fun hx => hp (Owner.eq_iff.1 hx).1]

end TornDown

/-- Before the first page is dealt with, the machine is the one that was there. -/
theorem same_duringTeardown (m : Machine n) (process : Nat) :
    m.SameUpToAccess (m.duringTeardown process
      { table := {}, directory := (m.space process).directory, swap := m.swap,
        receiver := m.frames }
      (m.space process).table) := by
  refine ⟨rfl, rfl, rfl, rfl, rfl, rfl, id, ?_, ?_, ?_, ?_⟩
  · intro p
    by_cases hp : process = p
    · subst hp; simp [duringTeardown, space]
    · simp [duringTeardown, space, AddressSpaces.get_set, hp]
  · intro p
    rw [traits_duringTeardown]
    split
    · rename_i hp; rw [hp]
    · rfl
  · intro x
    rw [translate_duringTeardown]
    split
    · rename_i hp; rw [hp]; rfl
    · rfl
  · intro x fl _
    rw [flag_duringTeardown]
    split
    · rename_i hp; rw [hp]; rfl
    · rfl

theorem destroy_eq_ok_iff {process : Nat} {released : Released} :
    (m.destroy process).result = .ok (released, m') ↔
    ∃ done, ((m.space process).table.teardown FrameTable.release (m.space process).directory
      m.swap m.frames).result = .ok done ∧ released = done.released ∧
        m' = m.duringTeardown process done {} := by
  simp only [destroy, releaseProcess, Outcome.bind_eq_ok_iff, Prod.exists]
  constructor
  · rintro ⟨_, _, ⟨done, hdone, h'⟩, _, -, h⟩
    cases h'
    cases h
    exact ⟨done, hdone, rfl, congrArg (m.duringTeardown process done) (table_giveBackAll hdone)⟩
  · rintro ⟨done, hdone, rfl, rfl⟩
    refine ⟨_, _, ⟨done, hdone, rfl⟩, (), rfl, ?_⟩
    rw [show done.table = {} from table_giveBackAll hdone]
    rfl

theorem destroy_cases {process : Nat} {released : Released}
    (h : (m.destroy process).result = .ok (released, m')) (hs : m.Sound none) :
    (∃ m₁, m.SameUpToAccess m₁ ∧ TornDown process m₁ m') ∧
      released.slots + m'.swap.slots.inUse = m.swap.slots.inUse := by
  obtain ⟨done, hdone, rfl, rfl⟩ := destroy_eq_ok_iff.1 h
  have hsame := m.same_duringTeardown process
  exact ⟨⟨_, hsame, tornDown_of_giveBackAll _ hdone (hsame.sound hs)⟩,
    (inUse_giveBackAll hdone).trans (Nat.zero_add _)⟩

end DemandPaging.Machine
