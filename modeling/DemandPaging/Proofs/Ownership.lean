/-
  Who owns the frames and the slots.

  A frame that is allocated has exactly one owner, which every record agrees on: the frame
  table, the table of the process and its directory.  A slot that is occupied has exactly one
  owner as well.  `Owned` states this in terms of the records themselves, with the counts that
  follow from it.

  * `run_owned`: between the requests of any run without pins, everything is owned.
-/
import DemandPaging.Proofs.Counting
import DemandPaging.Proofs.Transparency

namespace DemandPaging.Machine

variable {n : Nat} {m : Machine n} {config : Config} {device : Device}
  {requests : List Request} {answers : List Answer}

/-- Frames, tables, directories and slots agree on who owns what, and no frame is pinned. -/
structure Owned (m : Machine n) : Prop where
  allocated_iff : ∀ frame,
    m.frames.pool.isAllocated frame = true ↔ m.frames.isTracked frame = true
  lookup_iff : ∀ frame process page, m.frames.owner? frame = some ⟨process, page⟩ ↔
    (m.space process).table.lookup page = some (.resident frame)
  translate_iff : ∀ frame process page, m.frames.owner? frame = some ⟨process, page⟩ ↔
    (m.space process).directory.translate page = some frame
  writable_eq : ∀ process page record frame, (m.space process).table.get? page = some record →
    record.status = .resident frame →
    (m.space process).directory.isWritable page = record.writable
  unpinned : ∀ frame, m.frames.pool.hasPin frame = false
  occupied : ∀ process page slot, (m.space process).table.lookup page = some (.swapped slot) →
    m.swap.slots.isOccupied slot = true
  unshared : ∀ process page process' page' slot,
    (m.space process).table.lookup page = some (.swapped slot) →
    (m.space process').table.lookup page' = some (.swapped slot) →
    process = process' ∧ page = page'
  slot_owner : ∀ slot, m.swap.slots.isOccupied slot = true →
    ∃ process page, (m.space process).table.lookup page = some (.swapped slot)
  framesInUse_eq : m.frames.pool.inUse = m.total fun space => space.table.residentPages
  mappedPages_eq : ∀ process,
    (m.space process).directory.mappedPages = (m.space process).table.residentPages
  slotsInUse_eq : m.swap.slots.inUse = m.total fun space => space.table.swappedPages

theorem Sound.owned (hs : m.Sound none) (hp : m.Unpinned none) : m.Owned where
  allocated_iff frame := hs.linked.isTracked_iff frame
  lookup_iff frame process page := hs.linked.owner?_iff frame ⟨process, page⟩
  translate_iff frame process page :=
    (hs.linked.owner?_iff frame ⟨process, page⟩).trans
      (hs.linked.translate_iff frame ⟨process, page⟩).symm
  writable_eq process page record frame hr hstatus := by
    have htranslate := (hs.linked.translate_iff frame ⟨process, page⟩).2
      (status?_eq_some.2 ⟨record, hr, hstatus⟩)
    have hpresent : (m.space process).directory.has page .present = true := by
      rw [Directory.has_present_iff]
      exact Option.isSome_iff_exists.2 ⟨frame, htranslate⟩
    have hwritable := hs.linked.writable_eq ⟨process, page⟩ record frame hr hstatus
    rw [Directory.isWritable, hpresent, Bool.true_and]
    exact hwritable
  unpinned frame := hp frame nofun
  occupied process page slot hlookup :=
    (hs.slots.occupied_iff slot).2 ⟨⟨process, page⟩, hlookup⟩
  unshared process page process' page' slot h h' :=
    Owner.eq_iff.1 (hs.slots.unique slot ⟨process, page⟩ ⟨process', page'⟩ h h')
  slot_owner slot hslot := by
    obtain ⟨o, ho⟩ := (hs.slots.occupied_iff slot).1 hslot
    exact ⟨o.process, o.page, ho⟩
  framesInUse_eq := inUse_eq_residentPages hs.linked
  mappedPages_eq := mappedPages_eq_residentPages hs.linked
  slotsInUse_eq := inUse_eq_swappedPages hs.slots

/-- After every request of a run that pins nothing, whether it was carried out or turned down,
    every frame and every slot that is in use has exactly one owner, and is counted. -/
theorem run_owned (h : Run config n device requests answers m)
    (hfree : ∀ request ∈ requests, request.PinFree) : m.Owned :=
  h.sound.owned (h.unpinned hfree)

/-- Two processes compete for a frame.  The page of the first, which always counts as accessed
    and is mapped dirty, goes to swap with the byte stored to it and comes back for a load.  It
    leaves again for a page that a page of zeros gets in the way of, and is turned down when it
    is to come back once more. -/
theorem run_owned_oneFrame : ∃ m m₁ m₂ : Machine 1,
    Run {} 1 (.inMemory 2) [.spawn 0 ⟨[], true, true⟩, .spawn 1 {}, .mapNewPage 0 ⟨0⟩ true false,
      .store 0 1 #[7] 0 0, .mapNewPage 1 ⟨0⟩ true false]
      [.spawned 0, .spawned 1, .done, .stored (.done 0 1), .done] m ∧
    m.status? ⟨0, ⟨0⟩⟩ = some (.swapped ⟨0⟩) ∧ m.Owned ∧
    (m.perform (.load 0 0 3 0 1)).result = .ok (.loaded (.done 1 #[0, 7, 0]), m₁) ∧ m₁.Owned ∧
    (Outcome.answerAll perform m₁ [.mapNewPage 1 ⟨1⟩ true true, .store 1 1 #[9] 0 1, .pickVictim,
      .refuse 0 [⟨0⟩], .load 0 0 3 0 1, .destroy 0]).result =
      .ok ([.failed .alreadyMapped, .stored (.done 1 1), .victim (some ⟨0⟩), .done,
        .loaded (.failed 1 .outOfMemory), .released ⟨0, 1⟩], m₂) ∧ m₂.Owned := by
  have hruns : (Outcome.answerAll perform (booted {} 1 (.inMemory 2)) [.spawn 0 ⟨[], true, true⟩,
      .spawn 1 {}, .mapNewPage 0 ⟨0⟩ true false, .store 0 1 #[7] 0 0,
      .mapNewPage 1 ⟨0⟩ true false]).result.toOption.any (fun done =>
        done.1 = [.spawned 0, .spawned 1, .done, .stored (.done 0 1), .done] ∧
        done.2.status? ⟨0, ⟨0⟩⟩ = some (.swapped ⟨0⟩) ∧
        (done.2.perform (.load 0 0 3 0 1)).result.toOption.any fun loaded =>
          loaded.1.loaded?.map Prod.fst = some 1 ∧
          (Outcome.answerAll perform loaded.2 [.mapNewPage 1 ⟨1⟩ true true, .store 1 1 #[9] 0 1,
            .pickVictim, .refuse 0 [⟨0⟩], .load 0 0 3 0 1, .destroy 0]).result.toOption.any
            fun later => later.1 = [.failed .alreadyMapped, .stored (.done 1 1),
              .victim (some ⟨0⟩), .done, .loaded (.failed 1 .outOfMemory), .released ⟨0, 1⟩])
      = true := by
    decide +kernel
  obtain ⟨⟨answers, m⟩, hperform, hp⟩ := Outcome.exists_of_any hruns
  obtain ⟨rfl, hswapped, hany⟩ := of_decide_eq_true hp
  obtain ⟨⟨answer, m₁⟩, hload, hp⟩ := Outcome.exists_of_any hany
  obtain ⟨hanswer, hany⟩ := of_decide_eq_true hp
  obtain ⟨⟨_, bytes⟩, hloaded, rfl⟩ := Option.map_eq_some_iff.1 hanswer
  obtain rfl := Answer.loaded?_eq_some_iff.1 hloaded
  obtain ⟨⟨others, m₂⟩, hlater, hp⟩ := Outcome.exists_of_any hany
  obtain rfl := of_decide_eq_true hp
  have h := run_iff.2 hperform
  -- what the load yields is told from the flat memory: the byte stored, among zeros
  have hflat := flat_run sound_booted hperform
  rw [flat_booted] at hflat
  have hmemory : m.flat = ((FlatMemory.empty.addZeros ⟨0, ⟨0⟩⟩).store 0 1 #[7] 1).addZeros
      ⟨1, ⟨0⟩⟩ := hflat.of_spawn.of_spawn.of_newPage.of_store.of_newPage.of_nil
  have hstep := (perform_cases h.sound hload).flat_step h.sound
  obtain rfl : bytes = #[0, 7, 0] := hstep.loaded_eq rfl fun i hi => by
    rw [hmemory, FlatMemory.byte?_addZeros, FlatMemory.byte?_store, FlatMemory.byte?_addZeros]
    decide +revert
  have h₁ := h.snoc hload
  exact ⟨m, m₁, m₂, h, hswapped, run_owned h (by decide), hload, run_owned h₁ (by decide), hlater,
    run_owned (h₁.append hlater) (by decide)⟩

end DemandPaging.Machine
