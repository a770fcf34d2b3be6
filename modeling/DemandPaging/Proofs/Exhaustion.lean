/-
  Requests that find no frame because swap is full.

  The clock has moved by then and the victim has lost its mapping, so that both
  are put back.  `TurnedDown` says what is left of the request: where the hand
  is, accessed bits that are clear now, and what is known of the victim's dirty
  bit.

  * `Obtained.full` and `Obtained.turnedDown`: looking for a frame in vain;
  * `MappedNew.turnedDown` and `Handled.turnedDown`: a request for a page or a
    fault that runs out of swap did nothing else, but that a stack may have grown;
  * `run_exhausted`: the same of both requests, after any run, as long as pages
    are only touched by loads and stores.
-/
import DemandPaging.Proofs.Steady

namespace DemandPaging

/-- An access test looks at directories alone. -/
theorem FrameTable.accessTest_congr {n : Nat} (table : FrameTable n) (frame : Nat)
    {s t : AddressSpaces} (h : ∀ p, (s.get p).directory = (t.get p).directory) :
    (table.accessTest frame s).1 = (table.accessTest frame t).1 ∧
      ∀ p, ((table.accessTest frame s).2.get p).directory =
        ((table.accessTest frame t).2.get p).directory := by
  unfold accessTest
  split
  · exact ⟨rfl, h⟩
  · rename_i owner _
    simp only [h owner.process]
    split
    · refine ⟨rfl, fun p => ?_⟩
      rw [AddressSpaces.get_set, AddressSpaces.get_set]
      split
      · rfl
      · exact h p
    · exact ⟨rfl, h⟩

namespace Machine

variable {n : Nat} {m m' : Machine n} {config : Config} {device : Device} {o x : Owner}
  {requests : List Request} {answers : List Answer}

/-! ## The clock -/

/-- The clock does not look at tables. -/
theorem victim_setTable (process : Nat) (table : PageTable) :
    (m.setTable process table).pickVictim.1 = m.pickVictim.1 := by
  have hsame : ∀ p, ((m.setTable process table).spaces.get p).directory =
      (m.spaces.get p).directory := by
    intro p
    show ((m.setTable process table).space p).directory = (m.space p).directory
    rw [space_setTable]
    split
    · rename_i hp; rw [hp]
    · rfl
  exact congrArg (Option.map Frame.mk)
    (Clock.pick_rel (fun frame _ _ => m.frames.accessTest_congr frame) hsame).1

/-! ## What is left of a request that finds no frame -/

/-- Every frame and every slot is in use. -/
structure Full (m : Machine n) : Prop where
  frames : ∀ frame : Frame, frame.index < n → m.frames.pool.isAllocated frame = true
  slots : ∀ slot : Slot, slot.index < m.swap.slots.capacity → m.swap.slots.isOccupied slot = true

/-- A request found no frame.  The page `grown`, if any, was added to a stack; apart from it,
    only the hand, accessed bits and the dirty bit of the victim have changed. -/
structure TurnedDown (m m' : Machine n) (grown : Option Owner) : Prop where
  config_eq : m'.config = m.config
  memory_eq : m'.memory = m.memory
  swap_eq : m'.swap = m.swap
  pool_eq : m'.frames.pool = m.frames.pool
  owners_eq : m'.frames.owners = m.frames.owners
  stats_eq : m'.stats = m.stats
  traits_eq : ∀ p, (m'.space p).directory.toDirectoryTraits =
    (m.space p).directory.toDirectoryTraits
  record?_eq : ∀ x, m'.record? x =
    if grown = some x then some { status := .zero, writable := true } else m.record? x
  translate_eq : ∀ x, m'.translate x = m.translate x
  writable_eq : ∀ x, m'.flag x .writable = m.flag x .writable
  accessed_of : ∀ x, m'.flag x .accessed = true → m.flag x .accessed = true
  dirty_eq : ∃ frame victim record, m.pickVictim.1 = some frame ∧
    m.frames.owner? frame = some victim ∧ m.record? victim = some record ∧
    ∀ x, m'.flag x .dirty =
      if victim = x then m.flag x .dirty || record.dirty else m.flag x .dirty

theorem Obtained.full {e : Error} (h : m.Obtained m' (.error e)) (hs : m.Sound none) :
    m.Full := by
  cases h with
  | exhausted swept frame o record hfull hpick howner hrecord hstatus hrestored =>
    constructor
    · intro g hlt
      exact FrameTable.isAllocated_of_none hs.linked.counted hfull hlt
    · intro slot hlt
      have hrefused := hrestored.full
      rw [(pickVictim_cases hpick).1.swap_eq] at hrefused
      obtain ⟨slots, hslots, -⟩ := SwapSpace.allocate_cases hrefused
      rcases Slots.allocate_next hslots with ⟨-, hnext, -⟩ | ⟨_, _, -, hno, -⟩
      · exact hs.slots.sound.isOccupied_of_full hnext hlt
      · cases hno

theorem Obtained.turnedDown {e : Error} (h : m.Obtained m' (.error e)) (hs : m.Sound none)
    (hidle : ∀ p, (m.space p).directory.busy = false) : m.TurnedDown m' none := by
  cases h with
  | exhausted swept frame o record hfull hpick howner hrecord hstatus hrestored =>
    have hsame := (pickVictim_cases hpick).1
    have ho : swept.translate o = some frame :=
      ((hsame.sound hs).linked.translate_iff frame o).2 (hstatus ▸ status?_of_record hrecord)
    constructor
    · exact hrestored.config_eq.trans hsame.config_eq
    · exact hrestored.memory_eq.trans hsame.memory_eq
    · exact hrestored.swap_eq.trans hsame.swap_eq
    · rw [hrestored.frames_eq, hsame.pool_eq]
    · rw [hrestored.frames_eq, hsame.owners_eq]
    · exact hrestored.stats_eq.trans hsame.stats_eq
    · exact fun p => (hrestored.traits_eq p).trans (hsame.traits_eq p)
    · intro x
      rw [hrestored.record?_eq, hsame.record?_eq, if_neg (Option.some_ne_none x).symm]
    · intro x
      rw [hrestored.translate_eq, ← hsame.translate_eq x]
      split
      · rename_i hx; rw [← hx, ho]
      · rfl
    · intro x
      rw [hrestored.writable_eq, ← hsame.flag_eq x .writable (by decide)]
      split
      · rename_i hx
        subst hx
        exact ((hsame.sound hs).linked.writable_eq o record frame hrecord hstatus).symm
      · rfl
    · intro x hx
      refine accessed_of_pickVictim hpick ?_
      rw [hrestored.accessed_eq] at hx
      split at hx
      · rename_i hox
        -- the page counted as accessed because of its bit
        have hbusy : (swept.space o.process).directory.busy = false :=
          (congrArg DirectoryTraits.busy (hsame.traits_eq o.process)).trans (hidle o.process)
        rw [Directory.isAccessed, hbusy, if_neg (by decide)] at hx
        rw [← hox]
        exact hx
      · exact hx
    · refine ⟨frame, o, record, by rw [hpick], ?_, ?_, fun x => ?_⟩
      · rw [← hsame.owner?_eq]; exact howner
      · rw [← hsame.record?_eq]; exact hrecord
      · rw [hrestored.dirty_eq, hsame.flag_eq o _ (by decide), hsame.flag_eq x _ (by decide)]
        split
        · rename_i hx; rw [hx]
        · rfl

/-- A page was added to the stack before it was found that there is no frame for it. -/
theorem TurnedDown.of_grown {table : PageTable} (hs : m.Sound none)
    (hadded : m.Added (m.setTable o.process table) fun x =>
      if o = x then some { status := .zero, writable := true } else none)
    (h : (m.setTable o.process table).TurnedDown m' none) : m.TurnedDown m' (some o) := by
  have hr : m.record? o = none := hadded.absent o _ (if_pos rfl)
  obtain ⟨frame, victim, record, hpick, howner, hvictim, hdirty⟩ := h.dirty_eq
  have hne : o ≠ victim := by
    rintro rfl
    have hin := (hs.linked.owner?_iff frame o).1 howner
    rw [status?, hr] at hin
    cases hin
  refine ⟨h.config_eq, h.memory_eq, h.swap_eq, h.pool_eq, h.owners_eq, h.stats_eq,
    fun p => (h.traits_eq p).trans (traits_setTable table p), fun x => ?_, fun x => ?_,
    fun x => ?_, fun x hx => ?_, frame, victim, record, ?_, howner, ?_, fun x => ?_⟩
  · rw [h.record?_eq, if_neg (Option.some_ne_none x).symm, hadded.record?_eq,
      apply_ite (Option.or · _)]
    simp only [Option.some_or, Option.none_or, Option.some.injEq]
  · rw [h.translate_eq, translate_setTable]
  · rw [h.writable_eq, flag_setTable]
  · rw [← flag_setTable table]
    exact h.accessed_of x hx
  · rw [← victim_setTable o.process table, hpick]
  · rw [hadded.record?_eq, if_neg hne, Option.none_or] at hvictim
    exact hvictim
  · rw [hdirty, flag_setTable]

/-! ## Requests -/

theorem MappedNew.turnedDown {writable : Bool} {intruder : Option Bool}
    (h : m.MappedNew m' o writable intruder (.error .swapExhausted)) (hs : m.Sound none)
    (hidle : ∀ p, (m.space p).directory.busy = false) : m.Full ∧ m.TurnedDown m' none := by
  cases h with
  | frameless e hr hobtained => exact ⟨hobtained.full hs, hobtained.turnedDown hs hidle⟩

theorem Brought.obtained {record : PageRecord}
    (h : m.Brought m' o record (.error .swapExhausted)) :
    m.Obtained m' (.error .swapExhausted) := by
  cases h with
  | frameless e hobtained => exact hobtained
  | givenBack e frame m₁ m₂ hframe hobtained hsame hfreed hobstacle => cases hobstacle

theorem Handled.turnedDown {process : Nat} {fault : PageFault}
    (h : m.Handled m' process fault (.error .swapExhausted)) (hs : m.Sound none)
    (hidle : ∀ p, (m.space p).directory.busy = false) :
    m.Full ∧ (m.StackGrows process fault →
        m.TurnedDown m' (some ⟨process, .containing fault.address⟩)) ∧
      (¬m.StackGrows process fault → m.TurnedDown m' none) := by
  cases h with
  | rejected e hnot hm he => rcases he with he | he <;> cases he
  | known record res hr hout hbrought =>
    have hobtained := hbrought.obtained
    refine ⟨hobtained.full hs, fun hgrows => ?_, fun _ => hobtained.turnedDown hs hidle⟩
    cases hr.symm.trans hgrows.2.1
  | grown m₁ res hgrows hadded hbrought hm₁ =>
    subst hm₁
    have hobtained := hbrought.obtained
    have hs₁ := hadded.sound unloaded_zero hs
    have hfull := hobtained.full hs₁
    have hdown := hobtained.turnedDown hs₁ fun p =>
      (congrArg DirectoryTraits.busy (hadded.traits_eq p)).trans (hidle p)
    exact ⟨⟨hfull.frames, hfull.slots⟩, fun _ => hdown.of_grown hs hadded,
      fun hnot => absurd hgrows hnot⟩

/-- A request for a page or a fault is turned down for want of swap only when every frame and
    every slot is in use.  It leaves everything as it was, unless it adds a page to a stack, but
    for the hand of the clock, accessed bits that the clock cleared and the dirty bit of the page
    that it chose. -/
theorem run_exhausted (h : Run config n device requests answers m)
    (hidle : ∀ p, (m.space p).directory.busy = false) :
    (∀ process page writable intruding m',
      (m.mapNewPage process page writable intruding).result = .ok (.error .swapExhausted, m') →
        m.Full ∧ m.TurnedDown m' none) ∧
    ∀ process fault m',
      (m.handleFault process fault).result = .ok (.error .swapExhausted, m') →
        m.Full ∧ (m.StackGrows process fault →
            m.TurnedDown m' (some ⟨process, .containing fault.address⟩)) ∧
          (¬m.StackGrows process fault → m.TurnedDown m' none) := by
  constructor
  · intro process page writable intruding m' hmap
    exact (mapNewPage_cases (o := ⟨process, page⟩) hmap h.sound).turnedDown h.sound hidle
  · intro process fault m' hhandle
    exact (handleFault_cases hhandle).turnedDown h.sound hidle

/-- Swap holds a page of the first process and the only frame one of the second, when the second
    asks for another page and the stack of the first grows. -/
theorem run_exhausted_oneFrame : ∃ answers, ∃ m m₁ m₂ : Machine 1,
    Run {} 1 (.inMemory 1) [.spawn 0 {}, .spawn 1 {}, .mapNewPage 0 ⟨0⟩ true false,
      .store 0 1 #[7] 0 0, .mapNewPage 1 ⟨0⟩ true false, .load 1 0 1 0 0] answers m ∧
    (m.mapNewPage 1 ⟨1⟩ true false).result = .ok (.error .swapExhausted, m₁) ∧
    (m.handleFault 0 ⟨kernelBase - 8, true, kernelBase - 4⟩).result =
      .ok (.error .swapExhausted, m₂) ∧
    m.Full ∧ m.TurnedDown m₁ none ∧
    m.TurnedDown m₂ (some ⟨0, .containing (kernelBase - 8)⟩) := by
  obtain ⟨answers, m, h, hp⟩ := exists_run {} 1 (.inMemory 1) [.spawn 0 {}, .spawn 1 {},
    .mapNewPage 0 ⟨0⟩ true false, .store 0 1 #[7] 0 0, .mapNewPage 1 ⟨0⟩ true false,
    .load 1 0 1 0 0]
    (fun m => (m.mapNewPage 1 ⟨1⟩ true false).result matches .ok (.error .swapExhausted, _) &&
      ((m.handleFault 0 ⟨kernelBase - 8, true, kernelBase - 4⟩).result matches
        .ok (.error .swapExhausted, _) &&
      ((m.record? ⟨0, .containing (kernelBase - 8)⟩).isNone &&
        (m.config.isStackAccess (kernelBase - 8) (kernelBase - 4) &&
        m.spaces.spaces.toList.all fun space => !space.directory.busy))))
    (by decide +kernel)
  simp only [Bool.and_eq_true, Option.isNone_iff_eq_none, List.all_eq_true,
    Bool.not_eq_true'] at hp
  obtain ⟨hnew, hfault, hr, hstack, hidle⟩ := hp
  split at hnew
  · rename_i m₁ hmap
    split at hfault
    · rename_i m₂ hhandle
      have hexhausted := run_exhausted h
        (forall_space (P := fun space => space.directory.busy = false) rfl hidle)
      obtain ⟨hfull, hdown⟩ := hexhausted.1 _ _ _ _ _ hmap
      exact ⟨answers, m, m₁, m₂, h, hmap, hhandle, hfull, hdown,
        (hexhausted.2 _ _ _ hhandle).2.1 ⟨by decide, hr, hstack⟩⟩
    · cases hfault
  · cases hnew

end Machine

end DemandPaging
