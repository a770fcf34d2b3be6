/-
  Faults that fail after they got a frame can be raised again without loss.

  The file of a page may turn out too short, and a directory may have no memory for a mapping.
  By then another page may have lost its frame.  `GivenUp` says what is left of such a fault.

  * `Brought.givenUp`: bringing in a page that fails this way leaves the page where it was;
  * `run_fault_givenUp`: so does a fault, after any run; and it fails this way only for want
    of bytes in the file or of memory in the directory.
-/
import DemandPaging.Proofs.Steady

namespace DemandPaging.Machine

variable {n : Nat} {m m' m₁ : Machine n} {o : Owner} {record : PageRecord} {process : Nat}
  {fault : PageFault} {e : Error}

instance (m : Machine n) (process : Nat) (fault : PageFault) :
    Decidable (m.StackGrows process fault) :=
  inferInstanceAs (Decidable (_ ∧ _ ∧ _))

/-- A fault on the page `o`, which was new if the stack had `grown`, failed although there was a
    frame.  The page is where it was, the frame is free, and no page holds other bytes. -/
structure GivenUp (m m' : Machine n) (o : Owner) (grown : Prop) [Decidable grown] : Prop where
  record?_eq : m'.record? o =
    if grown then some { status := .zero, writable := true } else m.record? o
  slot_kept : ∀ slot, m.status? o = some (.swapped slot) →
    m'.swap.slots.isOccupied slot = true ∧ m'.swap.page slot = m.swap.page slot
  unmapped : m'.translate o = none
  frame_free : ∃ frame m₁,
    (if grown then m.growStack o else m).obtainFrame.result = .ok (.ok frame, m₁) ∧
      m'.frames.pool.isAllocated frame = false ∧ m'.frames.pool.hasPin frame = false ∧
        m'.frames.owner? frame = none
  swapIns_eq : m'.stats.swapIns = m.stats.swapIns
  fileLoads_eq : m'.stats.fileLoads = m.stats.fileLoads
  flat_eq : ∀ x, m'.flat x = if grown ∧ o = x then some .zero else m.flat x

/-! ## Bringing a page in -/

/-- Getting a frame counts no page as brought in. -/
theorem Obtained.arrivals_eq {res : Except Error Frame} (h : m.Obtained m' res) :
    m'.stats.swapIns = m.stats.swapIns ∧ m'.stats.fileLoads = m.stats.fileLoads := by
  cases h with
  | free frame pool halloc hm' => subst hm'; exact ⟨rfl, rfl⟩
  | evicted swept frame o record _ hpick _ _ _ hevicted =>
    rw [← (pickVictim_cases hpick).1.stats_eq]
    cases hevicted with
    | discarded _ _ _ _ _ hstats => rw [hstats]; exact ⟨rfl, rfl⟩
    | swapped _ _ _ _ _ _ hstats => rw [hstats]; exact ⟨rfl, rfl⟩
  | exhausted swept frame o record _ hpick _ _ _ hrestored =>
    rw [hrestored.stats_eq, (pickVictim_cases hpick).1.stats_eq]
    exact ⟨rfl, rfl⟩

/-- What is in the way of a page does not depend on where pages are. -/
theorem Obstacle.of_sameSetup (h : m'.Obstacle o record e) (hsame : m.SameSetup m') :
    m.Obstacle o record e := by
  cases h with
  | shortFile hshort => exact .shortFile hshort
  | refused hrefused =>
    have hlist := congrArg DirectoryTraits.refused (hsame.traits_eq o.process)
    exact .refused (hlist ▸ hrefused)

theorem Brought.givenUp {grown : Prop} [Decidable grown] (hnot : ¬grown)
    (h : m.Brought m' o record (.error e)) (hs : m.Sound none) (hr : m.record? o = some record)
    (hout : record.status.isResident = false) (he : e ≠ .swapExhausted) :
    m.GivenUp m' o grown ∧ m.Obstacle o record e := by
  have hs' := h.sound hs hr hout
  have hflat := h.flat_eq hs hr hout
  cases h with
  | frameless e hobtained => cases hobtained; exact absurd rfl he
  | givenBack e frame m₁ m₂ hframe hobtained hsame hfreed hobstacle =>
    have hr' : m'.record? o = some record := by
      rw [hfreed.record?_eq, hsame.record?_eq, hobtained.record?_of_out hr hout]
    obtain ⟨hswapIns, hfileLoads⟩ := hobtained.arrivals_eq
    refine ⟨⟨?_, ?_, ?_, ⟨frame, m₁, ?_, ?_, ?_, ?_⟩, ?_, ?_, ?_⟩, ?_⟩
    · rw [if_neg hnot, hr', hr]
    · intro slot hslot
      rw [status?_of_record hr, Option.some.injEq] at hslot
      -- the page has not left its slot, so it holds what the slot holds
      have hholds := congrFun hflat o
      rw [flat_of_record hr', flat_of_record hr, Option.some.injEq] at hholds
      simp only [contentsOf, hslot] at hholds
      exact ⟨(hs'.slots.occupied_iff slot).2 ⟨o, hslot ▸ status?_of_record hr'⟩, hholds⟩
    · exact hs'.linked.translate_eq_none (status?_ne_resident hr' hout)
    · rw [if_neg hnot]
      exact hframe
    · rw [hfreed.isAllocated_eq, if_pos rfl]
    · rw [hfreed.hasPin_eq, if_pos rfl]
    · rw [hfreed.owner?_eq, if_pos rfl]
    · rw [hfreed.stats_eq, hsame.stats_eq, hswapIns]
    · rw [hfreed.stats_eq, hsame.stats_eq, hfileLoads]
    · intro x
      rw [if_neg fun hx => hnot hx.1, hflat]
    · exact hobstacle.of_sameSetup (hobtained.sameSetup.trans hsame.sameSetup)

/-- The page that was not brought in had been added to the stack just before. -/
theorem GivenUp.of_grown {grown : Prop} [Decidable grown] (hgrown : grown)
    (h : (m.growStack o).GivenUp m' o False) (hr : m.record? o = none) :
    m.GivenUp m' o grown where
  record?_eq := by
    rw [h.record?_eq, if_neg id, (added_growStack hr).record?_self, if_pos hgrown]
  slot_kept slot hslot := by
    rw [status?_eq_none hr] at hslot
    cases hslot
  unmapped := h.unmapped
  frame_free := by
    obtain ⟨frame, m₁, hframe, hfree⟩ := h.frame_free
    rw [if_neg id] at hframe
    exact ⟨frame, m₁, by rw [if_pos hgrown]; exact hframe, hfree⟩
  swapIns_eq := h.swapIns_eq
  fileLoads_eq := h.fileLoads_eq
  flat_eq x := by
    rw [h.flat_eq, if_neg fun hx => hx.1, (added_growStack hr).flat_eq]
    by_cases hx : o = x
    · rw [if_pos hx, if_pos ⟨hgrown, hx⟩]; rfl
    · rw [if_neg hx, if_neg fun h => hx h.2]; rfl

/-! ## Faults -/

theorem Handled.givenUp (h : m.Handled m' process fault (.error e)) (hs : m.Sound none)
    (he : e = .fileRead ∨ e = .outOfMemory) :
    m.GivenUp m' ⟨process, .containing fault.address⟩ (m.StackGrows process fault) ∧
      ∃ record, (m.record? ⟨process, .containing fault.address⟩ = some record ∨
          m.StackGrows process fault ∧ record = { status := .zero, writable := true }) ∧
        m.Obstacle ⟨process, .containing fault.address⟩ record e := by
  have hne : e ≠ .swapExhausted := by rcases he with rfl | rfl <;> exact nofun
  cases h with
  | rejected e hnot hm hwhy =>
    rcases he with rfl | rfl <;> rcases hwhy with hwhy | hwhy <;> cases hwhy
  | known record res hr hout hbrought =>
    have hnot : ¬m.StackGrows process fault := fun hgrows => nomatch hr.symm.trans hgrows.2.1
    obtain ⟨hup, hobstacle⟩ := hbrought.givenUp hnot hs hr hout hne
    exact ⟨hup, record, .inl hr, hobstacle⟩
  | grown m₁ res hgrows hadded hbrought hm₁ =>
    subst hm₁
    obtain ⟨hup, hobstacle⟩ :=
      hbrought.givenUp id (hadded.sound unloaded_zero hs) hadded.record?_self rfl hne
    exact ⟨hup.of_grown hgrows hgrows.2.1, _, .inr ⟨hgrows, rfl⟩,
      hobstacle.of_sameSetup hadded.sameSetup⟩

/-- After any run, a fault that fails because a file is too short or because a directory has no
    memory leaves its page to be brought in by the next fault: where it was, in the slot it was
    in, or as a new page of the stack.  The frame got for it is free, nothing counts as brought
    in, and every page holds what it held, the one included that may have lost its frame.  The
    file ends within the bytes that the page starts with in the one case, and the directory
    refuses the page in the other. -/
theorem run_fault_givenUp {config : Config} {device : Device} {requests : List Request}
    {answers : List Answer} (h : Run config n device requests answers m)
    (hfault : (m.handleFault process fault).result = .ok (.error e, m'))
    (he : e = .fileRead ∨ e = .outOfMemory) :
    m.GivenUp m' ⟨process, .containing fault.address⟩ (m.StackGrows process fault) ∧
    (e = .fileRead → ∃ record, m.record? ⟨process, .containing fault.address⟩ = some record ∧
      record.FileTooShort) ∧
    (e = .outOfMemory → .containing fault.address ∈ (m.space process).directory.refused) := by
  obtain ⟨hup, record, hrecord, hobstacle⟩ := (handleFault_cases hfault).givenUp h.sound he
  refine ⟨hup, ?_, ?_⟩
  · rintro rfl
    cases hobstacle with
    | shortFile hshort =>
      rcases hrecord with hr | ⟨-, rfl⟩
      · exact ⟨record, hr, hshort⟩
      · obtain ⟨span, origin, hstatus, -⟩ := hshort
        cases hstatus
  · rintro rfl
    cases hobstacle with
    | refused hrefused => exact hrefused

/-- A page of the first process is in swap and the only frame holds one of the second.  The
    first process cannot map its page, and the file of another page of the second is too
    short. -/
theorem run_fault_givenUp_oneFrame : ∃ answers, ∃ m m₁ m₂ : Machine 1,
    Run {} 1 (.inMemory 2) [.spawn 0 {}, .spawn 1 {}, .mapNewPage 0 ⟨0⟩ true false,
      .store 0 1 #[7] 0 0, .mapNewPage 1 ⟨3⟩ true false,
      .mapSegment 1 ⟨#[5, 6, 7], 0, ⟨0⟩, 4, 4092, true⟩, .refuse 0 [⟨0⟩]] answers m ∧
    (m.handleFault 0 ⟨1, false, 0⟩).result = .ok (.error .outOfMemory, m₁) ∧
    (m.handleFault 1 ⟨1, false, 0⟩).result = .ok (.error .fileRead, m₂) ∧
    m.GivenUp m₁ ⟨0, ⟨0⟩⟩ (m.StackGrows 0 ⟨1, false, 0⟩) ∧
    m.GivenUp m₂ ⟨1, ⟨0⟩⟩ (m.StackGrows 1 ⟨1, false, 0⟩) ∧
    ∃ record, m.record? ⟨1, ⟨0⟩⟩ = some record ∧ record.FileTooShort := by
  obtain ⟨answers, m, h, hp⟩ := exists_run {} 1 (.inMemory 2) [.spawn 0 {}, .spawn 1 {},
    .mapNewPage 0 ⟨0⟩ true false, .store 0 1 #[7] 0 0, .mapNewPage 1 ⟨3⟩ true false,
    .mapSegment 1 ⟨#[5, 6, 7], 0, ⟨0⟩, 4, 4092, true⟩, .refuse 0 [⟨0⟩]]
    (fun m => (m.handleFault 0 ⟨1, false, 0⟩).result matches .ok (.error .outOfMemory, _) &&
      (m.handleFault 1 ⟨1, false, 0⟩).result matches .ok (.error .fileRead, _))
    (by decide +kernel)
  rw [Bool.and_eq_true] at hp
  obtain ⟨hmemory, hfile⟩ := hp
  split at hmemory
  · rename_i m₁ hfault₁
    split at hfile
    · rename_i m₂ hfault₂
      have hfirst := run_fault_givenUp h hfault₁ (.inr rfl)
      have hsecond := run_fault_givenUp h hfault₂ (.inl rfl)
      exact ⟨answers, m, m₁, m₂, h, hfault₁, hfault₂, hfirst.1, hsecond.1, hsecond.2.1 rfl⟩
    · cases hfile
  · cases hmemory

end DemandPaging.Machine
