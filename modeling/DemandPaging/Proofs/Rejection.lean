/-
  Which faults are rejected.

  A fault is turned down for the access that raised it, before anything is done about it.  The
  access strays if its address is a kernel address, or lies in a page without a record and not
  where a push would store (`Strays`); it breaks the protection of its page if it is a store and
  the page is read-only (`BreaksProtection`).

  * `judge_of_strays`, `judge_of_breaksProtection` and `judge_allowed`: the verdict on a fault;
  * `Error.IsShortage`: something was lacking that bringing in a page needs;
    `handleFault_shortage`: a fault that is not rejected fails for nothing else;
  * `handleFault_rejections`: when a fault is rejected, and that nothing changes then.
-/
import DemandPaging.Proofs.Served

namespace DemandPaging

theorem Config.isStackAccess_iff {config : Config} {address stackPointer : Nat} :
    config.isStackAccess address stackPointer = true ↔
      kernelBase - config.stackSize ≤ address ∧
        stackPointer ≤ min (address + config.pushMargin) (wordLimit - 1) := by
  rw [isStackAccess, Word.saturatingAdd, Bool.and_eq_true, decide_eq_true_iff, decide_eq_true_iff]

/-- Something was lacking that bringing in a page needs: a swap slot, bytes of its file, or memory
    for its mapping. -/
def Error.IsShortage (e : Error) : Prop :=
  e = .swapExhausted ∨ e = .fileRead ∨ e = .outOfMemory

namespace Machine

variable {n : Nat} {m m' : Machine n} {process : Nat} {fault : PageFault} {o : Owner}
  {record : PageRecord} {e : Error} {event : Event}

/-! ## Accesses that are not allowed -/

/-- The address touched is none of the process's: a kernel address, or one in a page without a
    record, unless it looks like a push onto the stack. -/
def Strays (m : Machine n) (process : Nat) (fault : PageFault) : Prop :=
  kernelBase ≤ fault.address ∨
    m.record? ⟨process, .containing fault.address⟩ = none ∧
      ¬(kernelBase - m.config.stackSize ≤ fault.address ∧
        fault.stackPointer ≤ min (fault.address + m.config.pushMargin) (wordLimit - 1))

/-- The access is a store to a page of the process that it may not write. -/
def BreaksProtection (m : Machine n) (process : Nat) (fault : PageFault) : Prop :=
  fault.address < kernelBase ∧ fault.write = true ∧
    ∃ record, m.record? ⟨process, .containing fault.address⟩ = some record ∧
      record.writable = false

/-- The page touched is in a frame and may be touched in this way. -/
def IsSettled (m : Machine n) (process : Nat) (fault : PageFault) : Prop :=
  fault.address < kernelBase ∧
    ∃ record, m.record? ⟨process, .containing fault.address⟩ = some record ∧
      record.status.isResident = true ∧ (fault.write = true → record.writable = true)

/-! ## The verdict -/

theorem judge_of_record (huser : fault.address < kernelBase)
    (hr : m.record? ⟨process, .containing fault.address⟩ = some record) :
    m.judge process fault = if fault.write && !record.writable then
      .rejected .readOnly (.readOnlyWrite (m.space process).pid (.containing fault.address))
    else .known (.containing fault.address) record := by
  have huser : isUserAddress fault.address = true := decide_eq_true huser
  have hget : (m.space process).table.get? (.containing fault.address) = some record := hr
  simp only [judge, huser, hget, Bool.not_true, Bool.false_eq_true, if_false]

theorem judge_of_absent (huser : fault.address < kernelBase)
    (hr : m.record? ⟨process, .containing fault.address⟩ = none) :
    m.judge process fault =
      if m.config.isStackAccess fault.address fault.stackPointer then
        .stackGrowth (.containing fault.address)
      else .rejected .invalidAccess
        (.invalidAccess (m.space process).pid fault.address fault.stackPointer) := by
  have huser : isUserAddress fault.address = true := decide_eq_true huser
  have hget : (m.space process).table.get? (.containing fault.address) = none := hr
  simp only [judge, huser, hget, Bool.not_true, Bool.false_eq_true, if_false]

theorem judge_of_strays (h : m.Strays process fault) :
    ∃ event, m.judge process fault = .rejected .invalidAccess event := by
  by_cases huser : fault.address < kernelBase
  · rcases h with hkernel | ⟨hr, hnot⟩
    · exact absurd huser (Nat.not_lt.2 hkernel)
    · refine ⟨_, (judge_of_absent huser hr).trans (if_neg fun hpush => hnot ?_)⟩
      exact Config.isStackAccess_iff.1 hpush
  · have hkernel : isUserAddress fault.address = false := decide_eq_false huser
    exact ⟨_, by simp only [judge, hkernel, Bool.not_false, if_true]; rfl⟩

theorem judge_of_breaksProtection (h : m.BreaksProtection process fault) :
    ∃ event, m.judge process fault = .rejected .readOnly event := by
  obtain ⟨huser, hwrite, record, hr, hprotected⟩ := h
  exact ⟨_, (judge_of_record huser hr).trans (if_pos (by rw [hwrite, hprotected]; rfl))⟩

/-- A fault is rejected for no other reason. -/
theorem judge_allowed (hstrays : ¬m.Strays process fault)
    (hbreaks : ¬m.BreaksProtection process fault) (e : Error) (event : Event) :
    m.judge process fault ≠ .rejected e event := by
  have huser : fault.address < kernelBase := Nat.lt_of_not_le fun hge => hstrays (.inl hge)
  cases hr : m.record? ⟨process, .containing fault.address⟩ with
  | some record =>
    have hallowed : ¬(fault.write && !record.writable) = true := by
      rw [Bool.and_eq_true, Bool.not_eq_true']
      exact fun hstore => hbreaks ⟨huser, hstore.1, record, hr, hstore.2⟩
    rw [judge_of_record huser hr, if_neg hallowed]
    exact nofun
  | none =>
    have hpush : m.config.isStackAccess fault.address fault.stackPointer = true :=
      Config.isStackAccess_iff.2 (Classical.not_not.1 fun hnot => hstrays (.inr ⟨hr, hnot⟩))
    rw [judge_of_absent huser hr, if_pos hpush]
    exact nofun

/-! ## How a fault ends -/

theorem handleFault_of_rejected (h : m.judge process fault = .rejected e event) :
    (m.handleFault process fault).result = .ok (.error e, m) := by
  simp only [handleFault, h]
  rfl

/-- Bringing in a page fails only for want of something that it needs. -/
theorem Brought.isShortage (h : m.Brought m' o record (.error e)) : e.IsShortage := by
  cases h with
  | frameless e hobtained => exact .inl hobtained.eq_exhausted
  | givenBack e frame m₁ m₂ hframe hobtained hsame hfreed hobstacle =>
    cases hobstacle with
    | shortFile => exact .inr (.inl rfl)
    | refused => exact .inr (.inr rfl)

/-- So does a fault that is not rejected: the page by which a stack grows is never taken. -/
theorem handleFault_shortage (hallowed : ∀ e event, m.judge process fault ≠ .rejected e event)
    (h : (m.handleFault process fault).result = .ok (.error e, m')) : e.IsShortage := by
  unfold handleFault at h
  split at h
  · rename_i e' event hverdict
    exact absurd hverdict (hallowed e' event)
  · rename_i page record hverdict
    obtain ⟨rfl, hr, -⟩ := judge_known hverdict
    split at h
    · cases h
    · rename_i hout
      have hout : record.status.isResident = false := by simpa using hout
      exact (bringIn_cases (o := ⟨process, .containing fault.address⟩) h hr hout).isShortage
  · rename_i page hverdict
    obtain ⟨rfl, hgrows⟩ := judge_stackGrowth hverdict
    split at h
    · rename_i e' hinsert
      cases hinsert.symm.trans (PageTable.insertZero_of_absent true hgrows.2.1)
    · rename_i table hinsert
      have hadded := added_insertZero (o := ⟨process, .containing fault.address⟩) hinsert
      exact (bringIn_cases (o := ⟨process, .containing fault.address⟩) h hadded.record?_self
        rfl).isShortage

theorem handleFault_of_strays (h : m.Strays process fault) :
    (m.handleFault process fault).result = .ok (.error .invalidAccess, m) := by
  obtain ⟨event, hjudge⟩ := judge_of_strays h
  exact handleFault_of_rejected hjudge

theorem handleFault_of_breaksProtection (h : m.BreaksProtection process fault) :
    (m.handleFault process fault).result = .ok (.error .readOnly, m) := by
  obtain ⟨event, hjudge⟩ := judge_of_breaksProtection h
  exact handleFault_of_rejected hjudge

theorem handleFault_error_cases (h : (m.handleFault process fault).result = .ok (.error e, m')) :
    m.Strays process fault ∧ e = .invalidAccess ∧ m' = m ∨
      m.BreaksProtection process fault ∧ e = .readOnly ∧ m' = m ∨ e.IsShortage := by
  by_cases hstrays : m.Strays process fault
  · rw [handleFault_of_strays hstrays] at h
    cases h
    exact .inl ⟨hstrays, rfl, rfl⟩
  · by_cases hbreaks : m.BreaksProtection process fault
    · rw [handleFault_of_breaksProtection hbreaks] at h
      cases h
      exact .inr (.inl ⟨hbreaks, rfl, rfl⟩)
    · exact .inr (.inr (handleFault_shortage (judge_allowed hstrays hbreaks) h))

/-- On every machine, a fault is rejected as invalid exactly if its access strays, and as a write to
    a read-only page exactly if it breaks the protection of its page; and nothing changes then.
    Neither does anything if the page is in a frame already and permits the access.  Any other
    fault that does not stop the machine is resolved, or fails for want of a slot, of bytes of
    a file or of memory for the mapping. -/
theorem handleFault_rejections (m : Machine n) (process : Nat) (fault : PageFault) :
    (∀ m', (m.handleFault process fault).result = .ok (.error .invalidAccess, m') ↔
      m.Strays process fault ∧ m' = m) ∧
    (∀ m', (m.handleFault process fault).result = .ok (.error .readOnly, m') ↔
      m.BreaksProtection process fault ∧ m' = m) ∧
    (m.IsSettled process fault → (m.handleFault process fault).result = .ok (.ok (), m)) ∧
    (¬m.Strays process fault → ¬m.BreaksProtection process fault → ¬m.IsSettled process fault →
      ∀ res m', (m.handleFault process fault).result = .ok (res, m') →
        res = .ok () ∨ res = .error .swapExhausted ∨ res = .error .fileRead ∨
          res = .error .outOfMemory) := by
  refine ⟨fun m' => ⟨fun h => ?_, ?_⟩, fun m' => ⟨fun h => ?_, ?_⟩, ?_, ?_⟩
  · rcases handleFault_error_cases h with ⟨hstrays, -, hm⟩ | ⟨-, he, -⟩ | he | he | he
    · exact ⟨hstrays, hm⟩
    all_goals cases he
  · rintro ⟨hstrays, rfl⟩
    exact handleFault_of_strays hstrays
  · rcases handleFault_error_cases h with ⟨-, he, -⟩ | ⟨hbreaks, -, hm⟩ | he | he | he
    · cases he
    · exact ⟨hbreaks, hm⟩
    all_goals cases he
  · rintro ⟨hbreaks, rfl⟩
    exact handleFault_of_breaksProtection hbreaks
  · rintro ⟨huser, record, hr, hin, hwritable⟩
    rw [handleFault_of_resident (decide_eq_true huser) hr hin hwritable]
    rfl
  · intro hstrays hbreaks _ res m' h
    cases res with
    | ok u => exact .inl rfl
    | error e =>
      rcases handleFault_shortage (judge_allowed hstrays hbreaks) h with rfl | rfl | rfl
      · exact .inr (.inl rfl)
      · exact .inr (.inr (.inl rfl))
      · exact .inr (.inr (.inr rfl))

end Machine

end DemandPaging
