/-
  What the operations of the frame table do to the frames: which are allocated,
  which are pinned, and what each holds.

  * `Pool.alloc_cases`: a frame handed out was free, is part of the pool and comes
    without a pin;
  * `Pool.Counted` is what the pool's count means (`Counted.alloc`,
    `Counted.dealloc`), and `Pool.Counted.isAllocated_of_full` that a full pool has
    no free frame;
  * `Pool.exists_alloc`: with next fit, handing out a frame never stops the machine,
    and turns a request down only when every frame is in use
    (`FrameTable.isAllocated_of_none`); `Pool.alloc_find` says which frame it is.
-/
import DemandPaging.Frame.Table
import DemandPaging.Proofs.Outcome

namespace DemandPaging

theorem Frame.index_inj {f g : Frame} : f.index = g.index ↔ f = g := by
  cases f; cases g; simp

namespace Pool

variable {π : Type} {n : Nat} {pool pool' : Pool π n} {frame g : Frame}

/-! ## Entries -/

theorem lt_of_isAllocated (h : pool.isAllocated frame = true) : frame.index < n := by
  unfold isAllocated at h
  split at h
  · rename_i heq; exact (Vector.getElem?_eq_some_iff.1 heq).1
  · cases h

theorem isAllocated_setEntry (entry : CoreEntry) (h : frame.index < n) :
    (pool.setEntry frame entry).isAllocated g =
      if frame = g then entry.allocated else pool.isAllocated g := by
  by_cases hg : frame = g
  · subst hg; simp [isAllocated, setEntry, h]
  · have : frame.index ≠ g.index := fun hi => hg (Frame.index_inj.1 hi)
    simp [isAllocated, setEntry, hg, this]

theorem hasPin_setEntry (entry : CoreEntry) (h : frame.index < n) :
    (pool.setEntry frame entry).hasPin g =
      if frame = g then entry.pinned else pool.hasPin g := by
  by_cases hg : frame = g
  · subst hg; simp [hasPin, setEntry, h]
  · have : frame.index ≠ g.index := fun hi => hg (Frame.index_inj.1 hi)
    simp [hasPin, setEntry, hg, this]

theorem entry_eq_ok_iff {entry : CoreEntry} :
    (pool.entry frame).result = .ok entry ↔ pool.coreMap[frame.index]? = some entry := by
  unfold Pool.entry
  cases pool.coreMap[frame.index]? <;> simp

theorem exists_entry (h : frame.index < n) : ∃ entry, pool.coreMap[frame.index]? = some entry ∧
    entry.allocated = pool.isAllocated frame ∧ entry.pinned = pool.hasPin frame :=
  ⟨pool.coreMap[frame.index], by simp [h], by simp [isAllocated, h], by simp [hasPin, h]⟩

/-! ## The operations -/

/-- The core map is all that the frames depend on. -/
theorem isAllocated_congr (h : pool'.coreMap = pool.coreMap) :
    pool'.isAllocated frame = pool.isAllocated frame := by
  simp [isAllocated, h]

theorem hasPin_congr (h : pool'.coreMap = pool.coreMap) :
    pool'.hasPin frame = pool.hasPin frame := by
  simp [hasPin, h]

theorem alloc_cases [PlacementPolicy π] {res : Option Frame}
    (h : pool.alloc.result = .ok (res, pool')) :
    res = none ∧ pool'.coreMap = pool.coreMap ∧ pool'.inUse = pool.inUse ∨
      ∃ frame, res = some frame ∧ frame.index < n ∧ pool.isAllocated frame = false ∧
        pool'.coreMap = (pool.setEntry frame { allocated := true }).coreMap ∧
        pool'.inUse = pool.inUse + 1 := by
  unfold alloc at h
  split at h
  · cases h; exact .inl ⟨rfl, rfl, rfl⟩
  · split at h
    · cases h; exact .inl ⟨rfl, rfl, rfl⟩
    · split at h
      · cases h
      · rename_i index _ _ _ entry hentry
        simp only [Outcome.bind_eq_ok_iff, Outcome.require_result_iff, Outcome.result_pure,
          Except.ok.injEq, Prod.mk.injEq] at h
        obtain ⟨_, hfree, rfl, rfl⟩ := h
        refine .inr ⟨⟨index⟩, rfl, (Vector.getElem?_eq_some_iff.1 hentry).1, ?_, rfl, rfl⟩
        simpa [isAllocated, hentry] using hfree

theorem dealloc_cases (h : (pool.dealloc frame).result = .ok pool') :
    pool.isAllocated frame = true ∧ pool'.coreMap = (pool.setEntry frame {}).coreMap ∧
      pool'.inUse = pool.inUse - 1 := by
  simp only [dealloc, Outcome.bind_eq_ok_iff, entry_eq_ok_iff, Outcome.require_result_iff,
    Outcome.result_pure, Except.ok.injEq] at h
  obtain ⟨entry, hentry, _, hall, rfl⟩ := h
  exact ⟨by simpa [isAllocated, hentry] using hall, rfl, rfl⟩

theorem exists_dealloc (h : pool.isAllocated frame = true) :
    ∃ pool', (pool.dealloc frame).result = .ok pool' := by
  obtain ⟨entry, hentry, hall, -⟩ := pool.exists_entry (lt_of_isAllocated h)
  simp only [dealloc, Outcome.bind_eq_ok_iff, entry_eq_ok_iff, Outcome.require_result_iff]
  exact ⟨_, entry, hentry, (), hall.trans h, rfl⟩

theorem setPinned_cases {pinned : Bool} (h : (pool.setPinned frame pinned).result = .ok pool') :
    pool.isAllocated frame = true ∧
      pool' = pool.setEntry frame { allocated := true, pinned := pinned } := by
  simp only [setPinned, Outcome.bind_eq_ok_iff, entry_eq_ok_iff, Outcome.require_result_iff,
    Outcome.result_pure, Except.ok.injEq] at h
  obtain ⟨entry, hentry, _, hall, rfl⟩ := h
  exact ⟨by simpa [isAllocated, hentry] using hall, by rw [← hall]⟩

theorem setPinned_of_isAllocated {pinned : Bool} (h : pool.isAllocated frame = true) :
    (pool.setPinned frame pinned).result =
      .ok (pool.setEntry frame { allocated := true, pinned := pinned }) := by
  obtain ⟨entry, hentry, hall, -⟩ := pool.exists_entry (lt_of_isAllocated h)
  simp only [setPinned, Outcome.bind_eq_ok_iff, entry_eq_ok_iff, Outcome.require_result_iff]
  refine ⟨entry, hentry, (), hall.trans h, ?_⟩
  rw [← hall.trans h]; rfl

/-! ## The count of frames in use -/

/-- The pool's count is the number of frames that are allocated. -/
def Counted (pool : Pool π n) : Prop :=
  pool.inUse = pool.coreMap.toList.countP CoreEntry.allocated

theorem counted_ofPolicy (policy : π) : (ofPolicy policy n).Counted := by
  simp [Counted, ofPolicy, List.countP_replicate]

/-- Giving a frame a new entry changes the count by what is known about it. -/
theorem countP_setEntry (entry : CoreEntry) (h : frame.index < n) :
    (pool.setEntry frame entry).coreMap.toList.countP CoreEntry.allocated =
      pool.coreMap.toList.countP CoreEntry.allocated - (pool.isAllocated frame).toNat +
        entry.allocated.toNat := by
  have hlen : frame.index < pool.coreMap.toList.length := by simpa using h
  have hget : pool.isAllocated frame = pool.coreMap.toList[frame.index].allocated := by
    simp [isAllocated, h]
  simp only [setEntry, Vector.toList_setIfInBounds, List.countP_set hlen, hget]
  cases pool.coreMap.toList[frame.index].allocated <;> cases entry.allocated <;> rfl

theorem countP_pos_of_isAllocated (h : pool.isAllocated frame = true) :
    0 < pool.coreMap.toList.countP CoreEntry.allocated := by
  obtain ⟨entry, hentry, hall, -⟩ := pool.exists_entry (lt_of_isAllocated h)
  refine List.countP_pos_iff.2 ⟨entry, ?_, hall.trans h⟩
  rw [Vector.mem_toList_iff]
  exact Vector.mem_of_getElem? hentry

theorem Counted.alloc [PlacementPolicy π] {res : Option Frame} (hc : pool.Counted)
    (h : pool.alloc.result = .ok (res, pool')) : pool'.Counted := by
  rcases alloc_cases h with ⟨-, hmap, huse⟩ | ⟨frame, -, hlt, hfree, hmap, huse⟩
  · rw [Counted, hmap, huse]; exact hc
  · rw [Counted, hmap, huse, countP_setEntry _ hlt, hfree, hc]
    rfl

theorem Counted.dealloc (hc : pool.Counted) (h : (pool.dealloc frame).result = .ok pool') :
    pool'.Counted := by
  obtain ⟨hall, hmap, huse⟩ := dealloc_cases h
  rw [Counted, hmap, huse, countP_setEntry _ (lt_of_isAllocated hall), hall, hc]
  rfl

theorem Counted.setPinned {pinned : Bool} (hc : pool.Counted)
    (h : (pool.setPinned frame pinned).result = .ok pool') : pool'.Counted := by
  obtain ⟨hall, rfl⟩ := setPinned_cases h
  have hpos := countP_pos_of_isAllocated hall
  rw [Counted, countP_setEntry _ (lt_of_isAllocated hall), hall]
  have hc : pool.inUse = _ := hc
  simp only [setEntry, Bool.toNat_true]
  omega

/-- When every frame is in use, each is allocated. -/
theorem Counted.isAllocated_of_full (hc : pool.Counted) (hfull : pool.inUse = n)
    (h : frame.index < n) : pool.isAllocated frame = true := by
  obtain ⟨entry, hentry, hall, -⟩ := pool.exists_entry h
  have hlen : pool.coreMap.toList.countP CoreEntry.allocated = pool.coreMap.toList.length := by
    rw [Vector.length_toList]; exact hc.symm.trans hfull
  rw [← hall]
  refine List.countP_eq_length.1 hlen entry ?_
  rw [Vector.mem_toList_iff]
  exact Vector.mem_of_getElem? hentry

end Pool

/-! ## Next fit -/

theorem NextFit.mem_order {policy : NextFit} {frames index : Nat} :
    index ∈ policy.order frames ↔ index < frames := by
  simp only [NextFit.order, List.mem_append, List.mem_range'_1, List.mem_range]
  omega

theorem isFreeAt_toArray {n : Nat} {pool : Pool NextFit n} {index : Nat} :
    isFreeAt pool.coreMap.toArray index = true ↔
      index < n ∧ pool.isAllocated ⟨index⟩ = false := by
  by_cases h : index < n <;> simp [isFreeAt, Pool.isAllocated, h]

/-- Next fit answers a free frame, and finds one if there is any. -/
theorem NextFit.place_cases {n : Nat} (pool : Pool NextFit n) :
    (∃ policy, PlacementPolicy.place pool.policy pool.coreMap.toArray = (none, policy)) ∧
        (∀ frame : Frame, frame.index < n → pool.isAllocated frame = true) ∨
      ∃ index policy, PlacementPolicy.place pool.policy pool.coreMap.toArray =
        (some index, policy) ∧ index < n ∧ pool.isAllocated ⟨index⟩ = false := by
  simp only [PlacementPolicy.place]
  split
  · rename_i index hfind
    exact .inr ⟨index, _, rfl, isFreeAt_toArray.1 (List.find?_some hfind)⟩
  · rename_i hfind
    refine .inl ⟨⟨_, rfl⟩, fun frame hlt => ?_⟩
    have hnot := List.find?_eq_none.1 hfind frame.index (NextFit.mem_order.2 (by simpa using hlt))
    rw [isFreeAt_toArray] at hnot
    simpa [hlt] using hnot

/-- Handing out a frame does not stop the machine.  If there is none, every frame is
    allocated. -/
theorem Pool.exists_alloc {n : Nat} {pool : Pool NextFit n} (hc : pool.Counted) :
    ∃ res pool', pool.alloc.result = .ok (res, pool') ∧
      (res = none → ∀ frame : Frame, frame.index < n → pool.isAllocated frame = true) := by
  unfold Pool.alloc
  split
  · rename_i hfull
    exact ⟨none, _, rfl, fun _ frame hlt => hc.isAllocated_of_full hfull hlt⟩
  · rcases NextFit.place_cases pool with ⟨⟨policy, hplace⟩, hall⟩ |
      ⟨index, policy, hplace, hlt, hfree⟩
    · exact ⟨none, _, by rw [hplace]; rfl, fun _ => hall⟩
    · have hentry : pool.coreMap[index]? = some pool.coreMap[index] := by simp [hlt]
      have hnot : pool.coreMap[index].allocated = false := by
        simpa [Pool.isAllocated, hlt] using hfree
      refine ⟨some ⟨index⟩, { pool.setEntry ⟨index⟩ { allocated := true } with
        policy := policy, inUse := pool.inUse + 1 }, ?_, fun h => by cases h⟩
      simp only [hplace, hentry]
      exact Outcome.bind_eq_ok_iff.2 ⟨(), by simp [hnot], rfl⟩

/-- The frame handed out is the first free one that next fit looks at, and the next search begins
    behind it.  If there is none, nothing changes. -/
theorem Pool.alloc_find {n : Nat} {pool pool' : Pool NextFit n} {res : Option Frame}
    (h : pool.alloc.result = .ok (res, pool')) :
    res = none ∧ pool' = pool ∨ ∃ index, res = some ⟨index⟩ ∧
      (pool.policy.order n).find? (isFreeAt pool.coreMap.toArray) = some index ∧
      pool' = { pool.setEntry ⟨index⟩ { allocated := true } with
        policy := ⟨(index + 1) % n⟩, inUse := pool.inUse + 1 } := by
  simp only [alloc, PlacementPolicy.place, Vector.size_toArray] at h
  split at h
  · cases h
    exact .inl ⟨rfl, rfl⟩
  · cases hfind : (pool.policy.order n).find? (isFreeAt pool.coreMap.toArray) with
    | none =>
      rw [hfind] at h
      cases h
      exact .inl ⟨rfl, rfl⟩
    | some index =>
      rw [hfind] at h
      dsimp only at h
      split at h
      · cases h
      · obtain ⟨_, -, h⟩ := Outcome.bind_eq_ok_iff.1 h
        cases h
        exact .inr ⟨index, rfl, rfl, rfl⟩

namespace FrameTable

variable {n : Nat} {table table' : FrameTable n} {frame g : Frame}

theorem owner?_setOwner (owner : Option Owner) (h : frame.index < n) :
    (table.setOwner frame owner).owner? g = if frame = g then owner else table.owner? g := by
  by_cases hg : frame = g
  · subst hg; simp [owner?, setOwner, h]
  · have : frame.index ≠ g.index := fun hi => hg (Frame.index_inj.1 hi)
    simp [owner?, setOwner, hg, this]

theorem alloc_cases {res : Option Frame} (h : table.alloc.result = .ok (res, table')) :
    ∃ pool, table.pool.alloc.result = .ok (res, pool) ∧ table' = { table with pool := pool } := by
  simp only [alloc, Outcome.bind_eq_ok_iff, Outcome.result_pure, Except.ok.injEq, Prod.exists,
    Prod.mk.injEq] at h
  obtain ⟨_, pool, hpool, rfl, rfl⟩ := h
  exact ⟨pool, hpool, rfl⟩

/-- A table without a free frame stays as it is. -/
theorem alloc_none (h : table.alloc.result = .ok (none, table')) : table' = table := by
  obtain ⟨pool, hpool, rfl⟩ := alloc_cases h
  rcases Pool.alloc_find hpool with ⟨-, rfl⟩ | ⟨_, hsome, -⟩
  · rfl
  · cases hsome

theorem setPinned_cases {pinned : Bool} (h : (table.setPinned frame pinned).result = .ok table') :
    table.pool.isAllocated frame = true ∧ table' = { table with
      pool := table.pool.setEntry frame { allocated := true, pinned := pinned } } := by
  simp only [setPinned, Outcome.bind_eq_ok_iff, Outcome.result_pure, Except.ok.injEq] at h
  obtain ⟨pool, hpool, rfl⟩ := h
  obtain ⟨hall, rfl⟩ := Pool.setPinned_cases hpool
  exact ⟨hall, rfl⟩

theorem exists_setPinned (pinned : Bool) (h : table.pool.isAllocated frame = true) :
    ∃ table', (table.setPinned frame pinned).result = .ok table' :=
  ⟨_, Outcome.bind_eq_ok_iff.2 ⟨_, Pool.setPinned_of_isAllocated h, rfl⟩⟩

theorem release_cases (h : (table.release frame).result = .ok table') :
    table.isTracked frame = true ∧ ∃ pool, (table.pool.dealloc frame).result = .ok pool ∧
      table' = { table.setOwner frame none with pool := pool } := by
  simp only [release, Outcome.bind_eq_ok_iff, Outcome.require_result_iff, Outcome.result_pure,
    Except.ok.injEq] at h
  obtain ⟨_, -, _, htracked, pool, hpool, rfl⟩ := h
  exact ⟨htracked, pool, hpool, rfl⟩

theorem exists_release (htracked : table.isTracked frame = true)
    (hall : table.pool.isAllocated frame = true) :
    ∃ table', (table.release frame).result = .ok table' := by
  obtain ⟨pool, hpool⟩ := Pool.exists_dealloc hall
  simp only [release, Outcome.bind_eq_ok_iff, Outcome.require_result_iff]
  exact ⟨_, (), Pool.lt_of_isAllocated hall, (), htracked, pool, hpool, rfl⟩

/-- The same of the frame table. -/
theorem exists_alloc (hc : table.pool.Counted) :
    ∃ res table', table.alloc.result = .ok (res, table') ∧
      (res = none → ∀ frame : Frame, frame.index < n → table.pool.isAllocated frame = true) := by
  obtain ⟨res, pool, hres, hnone⟩ := Pool.exists_alloc hc
  exact ⟨res, _, Outcome.bind_eq_ok_iff.2 ⟨_, hres, rfl⟩, hnone⟩

/-- When there is no frame to hand out, all are allocated. -/
theorem isAllocated_of_none (hc : table.pool.Counted)
    (h : table.alloc.result = .ok (none, table')) (hlt : frame.index < n) :
    table.pool.isAllocated frame = true := by
  obtain ⟨res, table'', halloc, hall⟩ := table.exists_alloc hc
  rw [halloc] at h
  cases h
  exact hall rfl frame hlt

end FrameTable

end DemandPaging
