/-
  Runs of a pool of frames: no frame is lost, handed out twice or withheld.

  * `PoolRequest`, `PoolAnswer`, `Pool.perform`: what a pool is asked, and what it answers;
  * `Pool.Sound`: the count is right and no free frame is pinned; `Performed.sound` and
    `Run.sound`: a request, and so a run of them, keeps this;
  * `Pool.exists_alloc_cases`: what handing out a frame comes to; `Pool.dealloc_eq_error_iff` and
    `Pool.dealloc_frees`: what freeing one does;
  * `run_pool`: all this after any run of a pool that places by next fit.
-/
import DemandPaging.Proofs.Frames
import DemandPaging.Proofs.History

namespace DemandPaging

/-! ## Requests to a pool -/

/-- What is asked of a pool. -/
inductive PoolRequest where
  /-- Hand out a frame. -/
  | alloc
  /-- Take a frame back. -/
  | dealloc (frame : Frame)
  /-- Pin or unpin a frame. -/
  | setPinned (frame : Frame) (pinned : Bool)

/-- What a pool answers. -/
inductive PoolAnswer where
  /-- The frame handed out, if there was one. -/
  | allocated (frame : Option Frame)
  /-- The frame is free. -/
  | freed
  /-- The frame is pinned, or is not. -/
  | pinSet
  deriving DecidableEq

namespace Pool

section

variable {π : Type} {n : Nat} {pool pool' : Pool π n} {frame : Frame} {request : PoolRequest}
  {requests : List PoolRequest} {answer : PoolAnswer} {answers : List PoolAnswer}

section

variable [PlacementPolicy π]

/-- Carry out a request. -/
def perform (pool : Pool π n) : PoolRequest → Outcome (PoolAnswer × Pool π n)
  | .alloc => do
    let (frame, pool) ← pool.alloc
    return (.allocated frame, pool)
  | .dealloc frame => do
    let pool ← pool.dealloc frame
    return (.freed, pool)
  | .setPinned frame pinned => do
    let pool ← pool.setPinned frame pinned
    return (.pinSet, pool)

/-! ## One request -/

/-- How a request ends that does not stop the machine. -/
inductive Performed (pool pool' : Pool π n) : PoolRequest → PoolAnswer → Prop where
  | allocated (res : Option Frame) (h : pool.alloc.result = .ok (res, pool')) :
      Performed pool pool' .alloc (.allocated res)
  | freed (frame : Frame) (h : (pool.dealloc frame).result = .ok pool') :
      Performed pool pool' (.dealloc frame) .freed
  | pinSet (frame : Frame) (pinned : Bool)
      (h : (pool.setPinned frame pinned).result = .ok pool') :
      Performed pool pool' (.setPinned frame pinned) .pinSet

theorem perform_cases (h : (pool.perform request).result = .ok (answer, pool')) :
    pool.Performed pool' request answer := by
  cases request with
  | alloc =>
    obtain ⟨⟨res, next⟩, halloc, h⟩ := Outcome.bind_eq_ok_iff.1 h
    cases h
    exact .allocated res halloc
  | dealloc frame =>
    obtain ⟨next, hdealloc, h⟩ := Outcome.bind_eq_ok_iff.1 h
    cases h
    exact .freed frame hdealloc
  | setPinned frame pinned =>
    obtain ⟨next, hpin, h⟩ := Outcome.bind_eq_ok_iff.1 h
    cases h
    exact .pinSet frame pinned hpin

end

/-! ## The books of a pool -/

/-- The count of a pool is right, and no free frame is pinned. -/
structure Sound (pool : Pool π n) : Prop where
  counted : pool.Counted
  hasPin_of_free : ∀ frame, pool.isAllocated frame = false → pool.hasPin frame = false

/-- Two pools that know the same about every frame but one. -/
def SameBut (frame : Frame) (pool pool' : Pool π n) : Prop :=
  ∀ other : Frame, other ≠ frame → pool'.coreMap[other.index]? = pool.coreMap[other.index]?

theorem sound_ofPolicy (policy : π) : (ofPolicy policy n).Sound := by
  refine ⟨counted_ofPolicy policy, fun frame _ => ?_⟩
  unfold hasPin
  split
  · rename_i entry hentry
    obtain ⟨_, rfl⟩ := by simpa [ofPolicy, Vector.getElem?_replicate] using hentry
    rfl
  · rfl

theorem Sound.inUse_le (h : pool.Sound) : pool.inUse ≤ n := by
  calc pool.inUse = pool.coreMap.toList.countP CoreEntry.allocated := h.counted
    _ ≤ pool.coreMap.toList.length := List.countP_le_length
    _ = n := pool.coreMap.length_toList

theorem sameBut_setEntry (entry : CoreEntry) : pool.SameBut frame (pool.setEntry frame entry) := by
  intro other hother
  have hne : frame.index ≠ other.index := fun e => hother (Frame.index_inj.1 e).symm
  simp [setEntry, hne]

/-- A frame that gets an entry that is free only if it is unpinned leaves no free frame pinned. -/
theorem Sound.hasPin_setEntry_of_free (h : pool.Sound) {entry : CoreEntry} {g : Frame}
    (hframe : frame.index < n) (hentry : entry.allocated = false → entry.pinned = false)
    (hfree : (pool.setEntry frame entry).isAllocated g = false) :
    (pool.setEntry frame entry).hasPin g = false := by
  rw [isAllocated_setEntry entry hframe] at hfree
  rw [hasPin_setEntry entry hframe]
  split
  · rename_i hg
    rw [if_pos hg] at hfree
    exact hentry hfree
  · rename_i hg
    rw [if_neg hg] at hfree
    exact h.hasPin_of_free g hfree

/-- Freeing a frame stops the machine unless the frame is one of those there are and allocated. -/
theorem dealloc_eq_error_iff : (∃ cause, (pool.dealloc frame).result = .error cause) ↔
    n ≤ frame.index ∨ pool.isAllocated frame = false := by
  have hcompletes : (pool.dealloc frame).Completes ↔
      frame.index < n ∧ pool.isAllocated frame = true := by
    constructor
    · rintro ⟨pool', h⟩
      have hall := (dealloc_cases h).1
      exact ⟨lt_of_isAllocated hall, hall⟩
    · exact fun h => exists_dealloc h.2
  rw [← Outcome.Completes.not_iff, hcompletes, ← Nat.not_lt, ← Bool.not_eq_true]
  exact Decidable.not_and_iff_not_or_not

/-- Freeing a frame makes it free and unpinned, and no other frame changes. -/
theorem dealloc_frees (h : (pool.dealloc frame).result = .ok pool') :
    pool'.isAllocated frame = false ∧ pool'.hasPin frame = false ∧ pool.SameBut frame pool' := by
  obtain ⟨hall, hmap, -⟩ := dealloc_cases h
  have hlt := lt_of_isAllocated hall
  refine ⟨?_, ?_, fun other hother => ?_⟩
  · rw [isAllocated_congr hmap, isAllocated_setEntry _ hlt, if_pos rfl]
  · rw [hasPin_congr hmap, hasPin_setEntry _ hlt, if_pos rfl]
  · rw [hmap]
    exact sameBut_setEntry _ other hother

theorem Performed.sound [PlacementPolicy π] (h : pool.Performed pool' request answer)
    (hs : pool.Sound) : pool'.Sound := by
  cases h with
  | allocated res h =>
    refine ⟨hs.counted.alloc h, fun g hfree => ?_⟩
    rcases alloc_cases h with ⟨-, hmap, -⟩ | ⟨frame, -, hlt, -, hmap, -⟩
    · rw [isAllocated_congr hmap] at hfree
      rw [hasPin_congr hmap]
      exact hs.hasPin_of_free g hfree
    · rw [isAllocated_congr hmap] at hfree
      rw [hasPin_congr hmap]
      exact hs.hasPin_setEntry_of_free hlt (fun _ => rfl) hfree
  | freed frame h =>
    refine ⟨hs.counted.dealloc h, fun g hfree => ?_⟩
    obtain ⟨hall, hmap, -⟩ := dealloc_cases h
    rw [isAllocated_congr hmap] at hfree
    rw [hasPin_congr hmap]
    exact hs.hasPin_setEntry_of_free (lt_of_isAllocated hall) (fun _ => rfl) hfree
  | pinSet frame pinned h =>
    refine ⟨hs.counted.setPinned h, fun g hfree => ?_⟩
    obtain ⟨hall, rfl⟩ := setPinned_cases h
    exact hs.hasPin_setEntry_of_free (lt_of_isAllocated hall) nofun hfree

end

/-! ## Runs with next fit -/

variable {n : Nat} {pool pool' : Pool NextFit n} {requests : List PoolRequest}
  {answers : List PoolAnswer}

/-- The requests, carried out one after the other on a pool of `n` free frames, are answered by
    `answers` and leave `pool` behind. -/
def Run (n : Nat) (requests : List PoolRequest) (answers : List PoolAnswer)
    (pool : Pool NextFit n) : Prop :=
  (Outcome.answerAll perform (ofPolicy {} n) requests).result = .ok (answers, pool)

/-- Handing out a frame does not stop the machine.  There is none exactly if all are allocated;
    else the frame was free, and it is the only one that changes. -/
theorem exists_alloc_cases (hc : pool.Counted) :
    ∃ res pool', pool.alloc.result = .ok (res, pool') ∧
      ((∀ frame : Frame, frame.index < n → pool.isAllocated frame = true) ∧
          res = none ∧ pool' = pool ∨
        ∃ frame, res = some frame ∧ frame.index < n ∧ pool.isAllocated frame = false ∧
          pool'.isAllocated frame = true ∧ pool'.hasPin frame = false ∧
          pool.SameBut frame pool') := by
  obtain ⟨res, pool', halloc, hnone⟩ := exists_alloc hc
  refine ⟨res, pool', halloc, ?_⟩
  rcases alloc_cases halloc with ⟨rfl, -, -⟩ | ⟨frame, rfl, hlt, hfree, hmap, -⟩
  · rcases alloc_find halloc with ⟨-, hsame⟩ | ⟨_, hsome, -⟩
    · exact .inl ⟨hnone rfl, rfl, hsame⟩
    · cases hsome
  · refine .inr ⟨frame, rfl, hlt, hfree, ?_, ?_, fun other hother => ?_⟩
    · rw [isAllocated_congr hmap, isAllocated_setEntry _ hlt, if_pos rfl]
    · rw [hasPin_congr hmap, hasPin_setEntry _ hlt, if_pos rfl]
    · rw [hmap]
      exact sameBut_setEntry _ other hother

theorem Run.sound (h : Run n requests answers pool) : pool.Sound :=
  Outcome.answerAll_keeps (fun _ _ _ _ _ hs hrequest => (perform_cases hrequest).sound hs)
    (sound_ofPolicy _) h

/-- After any run, the frames in use are those that are allocated, and no free frame is pinned.
    Handing out a frame never stops the machine; it turns a request down only when every frame is
    allocated, and else makes a free frame allocated and unpinned.  Freeing a frame makes that
    frame free and unpinned, unless there is no such frame or it is free already. -/
theorem run_pool (h : Run n requests answers pool) :
    pool.inUse = pool.coreMap.toList.countP CoreEntry.allocated ∧ pool.inUse ≤ n ∧
      (∀ frame, pool.isAllocated frame = false → pool.hasPin frame = false) ∧
      (∃ res pool', pool.alloc.result = .ok (res, pool') ∧
        ((∀ frame : Frame, frame.index < n → pool.isAllocated frame = true) ∧
            res = none ∧ pool' = pool ∨
          ∃ frame, res = some frame ∧ frame.index < n ∧ pool.isAllocated frame = false ∧
            pool'.isAllocated frame = true ∧ pool'.hasPin frame = false ∧
            pool.SameBut frame pool')) ∧
      (∀ frame, (∃ cause, (pool.dealloc frame).result = .error cause) ↔
        n ≤ frame.index ∨ pool.isAllocated frame = false) ∧
      ∀ frame pool', (pool.dealloc frame).result = .ok pool' →
        pool'.isAllocated frame = false ∧ pool'.hasPin frame = false ∧
          pool.SameBut frame pool' := by
  have hs := h.sound
  exact ⟨hs.counted, hs.inUse_le, hs.hasPin_of_free, exists_alloc_cases hs.counted,
    fun frame => dealloc_eq_error_iff, fun frame pool' => dealloc_frees⟩

/-- A frame that was pinned is freed and handed out again: it has no pin. -/
theorem run_pool_twoFrames : ∃ answers pool pool',
    Run 2 [.alloc, .alloc, .setPinned ⟨0⟩ true, .dealloc ⟨0⟩] answers pool ∧
    pool.isAllocated ⟨0⟩ = false ∧ pool.alloc.result = .ok (some ⟨0⟩, pool') ∧
    pool'.isAllocated ⟨0⟩ = true ∧ pool'.hasPin ⟨0⟩ = false ∧ pool.SameBut ⟨0⟩ pool' := by
  have hruns : (Outcome.answerAll perform (ofPolicy ({} : NextFit) 2)
      [.alloc, .alloc, .setPinned ⟨0⟩ true, .dealloc ⟨0⟩]).result.toOption.any (fun (_, pool) =>
        match pool.alloc.result with
        | .ok (some frame, _) => frame = ⟨0⟩
        | _ => false) = true := by
    decide +kernel
  obtain ⟨⟨answers, pool⟩, h, hp⟩ := Outcome.exists_of_any hruns
  obtain ⟨-, -, -, ⟨res, pool', halloc, hcases⟩, -⟩ := run_pool h
  simp only [halloc] at hp
  rcases hcases with ⟨-, rfl, -⟩ | ⟨frame, rfl, -, hfree, hallocated, hunpinned, hsame⟩
  · cases hp
  · obtain rfl : frame = ⟨0⟩ := by simpa using hp
    exact ⟨answers, pool, pool', h, hfree, halloc, hallocated, hunpinned, hsame⟩

end Pool

end DemandPaging
