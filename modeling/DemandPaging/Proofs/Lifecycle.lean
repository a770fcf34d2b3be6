/-
  The life of a page, from the call that adds its record to the end of its process.

  A page comes into a frame from wherever it is, and leaves a frame for swap or for its file.  The
  frame that a page needs may be taken from any other, so that every call may move any page; what
  it does to the record of one is the same whoever makes it.

  * `PageRecord.Moves` lists the ways that a page goes, and `PageRecord.Follows` says what a call
    makes of a record;
  * `Evicted.follows` and `Installed.follows`: out of a frame and into one;
  * `Performed.follows`: one call does one of the two to a page, or nothing;
  * `run_lifecycle`: so it goes on, call after call, as long as the process lives.
-/
import DemandPaging.Proofs.Calls

namespace DemandPaging

/-- The ways of a page with the given record: into a frame, out to swap, or back to its file when
    it is not dirty. -/
inductive PageRecord.Moves (record : PageRecord) : PageStatus → Prop where
  | zeroIn (frame : Frame) (h : record.status = .zero) : Moves record (.resident frame)
  | fileIn (span : FileSpan) (frame : Frame) (h : record.status = .fileBacked span) :
      Moves record (.resident frame)
  | swapIn (slot : Slot) (frame : Frame) (h : record.status = .swapped slot) :
      Moves record (.resident frame)
  | swapOut (frame : Frame) (slot : Slot) (h : record.status = .resident frame) :
      Moves record (.swapped slot)
  | drop (frame : Frame) (origin : FileOrigin) (h : record.status = .resident frame)
      (horigin : record.origin = some origin) (hclean : record.dirty = false) :
      Moves record (.fileBacked origin.span)

/-- What is recorded of a page after a call, given what was recorded before. -/
structure PageRecord.Follows (before after : PageRecord) : Prop where
  writable_eq : after.writable = before.writable
  origin_eq : after.origin = before.origin
  dirty_of : before.dirty = true → after.dirty = true
  /-- Only a page that leaves its frame gets dirty. -/
  dirty_eq : (before.status.isResident = true → after.status.isResident = true) →
    after.dirty = before.dirty
  moves : after.status = before.status ∨ before.Moves after.status

namespace PageRecord

variable {before after record : PageRecord} {frame g : Frame}

theorem Follows.refl (record : PageRecord) : record.Follows record :=
  ⟨rfl, rfl, id, fun _ => rfl, .inl rfl⟩

/-- A page that is not in a frame comes into one. -/
theorem moves_in (frame : Frame) (hout : record.status.isResident = false) :
    record.Moves (.resident frame) := by
  cases hstatus : record.status with
  | zero => exact .zeroIn frame hstatus
  | fileBacked span => exact .fileIn span frame hstatus
  | swapped slot => exact .swapIn slot frame hstatus
  | resident g => rw [hstatus] at hout; cases hout

/-- No page becomes one that was never touched. -/
theorem Follows.zero_of (h : before.Follows after) (hzero : after.status = .zero) :
    before.status = .zero := by
  rcases h.moves with heq | hmoves
  · exact heq.symm.trans hzero
  · rw [hzero] at hmoves
    cases hmoves

/-- A page does not go from one frame to another at once. -/
theorem Follows.frame_eq (h : before.Follows after) (hbefore : before.status = .resident frame)
    (hafter : after.status = .resident g) : g = frame := by
  rcases h.moves with heq | hmoves
  · exact PageStatus.resident.inj (hafter.symm.trans (heq.trans hbefore))
  · rw [hafter] at hmoves
    cases hmoves with
    | zeroIn _ h => cases hbefore.symm.trans h
    | fileIn span _ h => cases hbefore.symm.trans h
    | swapIn slot _ h => cases hbefore.symm.trans h

end PageRecord

namespace Machine

variable {n : Nat} {m m' : Machine n} {frame : Frame} {o x : Owner} {before record : PageRecord}

/-- The page `x`, of which `before` was known, still has a record, and it follows that one. -/
def LivesOn (m : Machine n) (x : Owner) (before : PageRecord) : Prop :=
  ∃ after, m.record? x = some after ∧ before.Follows after

theorem livesOn_of_record (hx : m.record? x = some before) : m.LivesOn x before :=
  ⟨before, hx, .refl before⟩

theorem LivesOn.of_same (h : m.LivesOn x before) (hrecord : m'.record? x = m.record? x) :
    m'.LivesOn x before := by
  obtain ⟨after, hafter, hfollows⟩ := h
  exact ⟨after, hrecord.trans hafter, hfollows⟩

/-! ## Out of a frame and into one -/

/-- A page whose frame is taken away goes to swap, or to its file when it is not dirty. -/
theorem Evicted.livesOn (h : m.Evicted m' frame o record) (hr : m.record? o = some record)
    (hstatus : record.status = .resident frame) (hx : m.record? x = some before) :
    m'.LivesOn x before := by
  unfold LivesOn
  cases h with
  | discarded origin horigin hclean hloses hswap hstats =>
    rw [hloses.record?_eq]
    split
    · rename_i hox
      obtain rfl : record = before := Option.some.inj (hr.symm.trans (hox ▸ hx))
      have hdirty : record.dirty = false := (Bool.or_eq_false_iff.1 hclean).2
      exact ⟨_, rfl, rfl, rfl, id, fun _ => rfl, .inr (.drop frame origin hstatus horigin hdirty)⟩
    · exact livesOn_of_record hx
  | swapped slot swap hdirty hslot hwrite hloses hstats =>
    rw [hloses.record?_eq]
    split
    · rename_i hox
      obtain rfl : record = before := Option.some.inj (hr.symm.trans (hox ▸ hx))
      refine ⟨_, rfl, rfl, rfl, fun hd => ?_, fun hstays => ?_, .inr (.swapOut frame slot hstatus)⟩
      · simp [hd]
      · simp [hstatus, PageStatus.isResident] at hstays
    · exact livesOn_of_record hx

theorem Obtained.livesOn {res : Except Error Frame} (h : m.Obtained m' res)
    (hx : m.record? x = some before) : m'.LivesOn x before := by
  cases h with
  | free frame pool halloc hm' => subst hm'; exact livesOn_of_record hx
  | evicted swept frame o record _ hpick _ hr hstatus hevicted =>
    rw [← (pickVictim_cases hpick).1.record?_eq] at hx
    exact hevicted.livesOn hr hstatus hx
  | exhausted swept frame o record _ hpick _ _ _ hrestored =>
    refine (livesOn_of_record hx).of_same ?_
    rw [hrestored.record?_eq, (pickVictim_cases hpick).1.record?_eq]

/-- A page that is in no frame comes into the frame in hand, and the others stay. -/
theorem Installed.livesOn (h : m.Installed m' frame o record)
    (hout : record.status.isResident = false) (hself : o = x → before = record)
    (hx : m.LivesOn x before) : m'.LivesOn x before := by
  by_cases hox : o = x
  · subst hox
    obtain rfl := hself rfl
    refine ⟨_, (h.record?_eq o).trans (if_pos rfl), rfl, rfl, id, fun _ => rfl, ?_⟩
    exact .inr (PageRecord.moves_in frame hout)
  · exact hx.of_same ((h.record?_eq x).trans (if_neg hox))

/-! ## Faults and new pages -/

theorem Added.record?_of_some {new : Owner → Option PageRecord} (h : m.Added m' new)
    (hx : m.record? x = some before) : m'.record? x = some before := by
  rw [h.record?_eq]
  cases hnew : new x with
  | none => exact hx
  | some r => cases (h.absent x r hnew).symm.trans hx

theorem Brought.livesOn {res : Except Error Unit} (h : m.Brought m' o record res)
    (hr : m.record? o = some record) (hout : record.status.isResident = false)
    (hx : m.record? x = some before) : m'.LivesOn x before := by
  cases h with
  | frameless e hobtained => exact hobtained.livesOn hx
  | givenBack e frame m₁ m₂ hframe hobtained hsame hfreed =>
    refine (hobtained.livesOn hx).of_same ?_
    rw [hfreed.record?_eq, hsame.record?_eq]
  | installed frame m₁ m₂ m₃ hobtained hclaimed hfilled hinstalled =>
    refine hinstalled.livesOn hout ?_ ((hobtained.livesOn hx).of_same ?_)
    · rintro rfl
      exact Option.some.inj (hx.symm.trans hr)
    · rw [hfilled.same.record?_eq, hclaimed.same.record?_eq]

theorem Handled.livesOn {process : Nat} {fault : PageFault} {res : Except Error Unit}
    (h : m.Handled m' process fault res) (hx : m.record? x = some before) :
    m'.LivesOn x before := by
  cases h with
  | rejected e hnot hm => subst hm; exact livesOn_of_record hx
  | resident record hr hin hm => subst hm; exact livesOn_of_record hx
  | known record res hr hout hbrought => exact hbrought.livesOn hr hout hx
  | grown m₁ res hgrows hadded hbrought =>
    exact hbrought.livesOn hadded.record?_self rfl (hadded.record?_of_some hx)

theorem MappedNew.livesOn {writable : Bool} {intruder : Option Bool} {res : Except Error Unit}
    (h : m.MappedNew m' o writable intruder res) (hx : m.record? x = some before) :
    m'.LivesOn x before := by
  cases h with
  | taken record hr hm => subst hm; exact livesOn_of_record hx
  | frameless e hr hobtained => exact hobtained.livesOn hx
  | refused frame m₁ m₂ hr hobtained hclaimed hfreed =>
    refine (hobtained.livesOn hx).of_same ?_
    rw [hfreed.record?_eq, hclaimed.same.record?_eq]
  | intruded frame m₁ m₂ m₃ hr hintruder hobtained hclaimed hadded hfreed =>
    obtain ⟨after, hafter, hfollows⟩ := hobtained.livesOn hx
    refine ⟨after, ?_, hfollows⟩
    rw [hfreed.record?_eq]
    exact hadded.record?_of_some ((hclaimed.same.record?_eq x).trans hafter)
  | placed frame m₁ m₂ hr hintruder hobtained hclaimed hinstalled =>
    refine hinstalled.livesOn rfl ?_ ((hobtained.livesOn hx).of_same (hclaimed.same.record?_eq x))
    rintro rfl
    cases hr.symm.trans hx

/-! ## Single calls -/

/-- The end of a process leaves the pages of the others alone. -/
theorem TornDown.record?_eq_of_ne {process : Nat} (h : TornDown process m m')
    (hne : process ≠ x.process) : m'.record? x = m.record? x := by
  induction h with
  | done m hempty => rfl
  | page m m₁ m' page record hr hremoved rest ih =>
    rw [ih, hremoved.record?_eq, if_neg fun hx => hne (congrArg Owner.process hx)]

/-- A call moves a page one step at most, unless it ends its process. -/
theorem Performed.livesOn {call : Request} {answer : Answer} (h : m.Performed m' call answer)
    (hs : m.Sound none) (hsingle : call.Single) (hkeep : call ≠ .destroy x.process)
    (hx : m.record? x = some before) : m'.LivesOn x before := by
  cases h with
  | spawn pid traits hm => subst hm; exact (livesOn_of_record hx).of_same (record?_spawn x)
  | mapNewPage process page writable intruding result hmapped => exact hmapped.livesOn hx
  | mapSegment process segment result hmapped =>
    rcases hmapped with ⟨-, hadded⟩ | ⟨count, -, -, hadded⟩
    · exact livesOn_of_record (hadded.record?_of_some hx)
    · exact livesOn_of_record (hadded.record?_of_some hx)
  | fault process fault result hhandled => exact hhandled.livesOn hx
  | load process address length stackPointer limit access hload =>
    exact (livesOn_of_record hx).of_same (record?_load hs hsingle hload x)
  | store process address data stackPointer limit access hstore =>
    exact (livesOn_of_record hx).of_same (record?_store hs hsingle hstore x)
  | destroy process released m₁ hsame htorn =>
    have hne : process ≠ x.process := fun hp => hkeep (hp ▸ rfl)
    refine (livesOn_of_record hx).of_same ?_
    rw [htorn.record?_eq_of_ne hne, hsame.record?_eq]
  | pin frame hallocated hm => subst hm; exact livesOn_of_record hx
  | unpin frame hallocated hm => subst hm; exact livesOn_of_record hx
  | pickVictim frame hpick =>
    exact (livesOn_of_record hx).of_same ((pickVictim_cases hpick).1.record?_eq x)
  | refuse process pages hm =>
    subst hm
    exact (livesOn_of_record hx).of_same (record?_setDirectory _)

/-- A single call, after which the record of the page `x` follows the one before. -/
inductive Outlived (x : Owner) (m m' : Machine n) : Prop where
  | mk (call : Request) (answer : Answer) (before after : PageRecord) (hsingle : call.Single)
      (hperform : (m.perform call).result = .ok (answer, m')) (hbefore : m.record? x = some before)
      (hafter : m'.record? x = some after) (hfollows : before.Follows after)

/-! ## Runs -/

/-- What is known of a page after any number of calls, given what was known before. -/
structure Lived (m m' : Machine n) (x : Owner) (before after : PageRecord) : Prop where
  calls : Relation.ReflTransGen (Outlived x) m m'
  record?_eq : m'.record? x = some after
  writable_eq : after.writable = before.writable
  origin_eq : after.origin = before.origin
  dirty_of : before.dirty = true → after.dirty = true
  zero_of : after.status = .zero → before.status = .zero

theorem Lived.tail {after : PageRecord} {call : Request} {answer : Answer}
    (h : m.Lived m₁ x before after) (hs : m₁.Sound none) (hsingle : call.Single)
    (hkeep : call ≠ .destroy x.process) (hperform : (m₁.perform call).result = .ok (answer, m')) :
    ∃ next, m.Lived m' x before next := by
  have hperformed := perform_cases hs hperform
  obtain ⟨next, hnext, hfollows⟩ := hperformed.livesOn hs hsingle hkeep h.record?_eq
  refine ⟨next, ?_, hnext, ?_, ?_, ?_, ?_⟩
  · exact h.calls.tail
      ⟨call, answer, after, next, hsingle, hperform, h.record?_eq, hnext, hfollows⟩
  · exact hfollows.writable_eq.trans h.writable_eq
  · exact hfollows.origin_eq.trans h.origin_eq
  · exact hfollows.dirty_of ∘ h.dirty_of
  · exact h.zero_of ∘ hfollows.zero_of

/-- What is known of a page is known of it through any number of requests that leave its process
    alive. -/
theorem exists_lived {window : List Request} {later : List Answer} (hs : m.Sound none)
    (hr : m.record? x = some record) (hkeep : .destroy x.process ∉ window)
    (hperform : (Outcome.answerAll perform m window).result = .ok (later, m')) :
    ∃ after, m.Lived m' x record after := by
  refine hs.calls_keep (I := fun m' => ∃ after, m.Lived m' x record after)
    ⟨record, .refl, hr, rfl, rfl, id, id⟩ ?_ hperform
  rintro m₁ request call reply m₂ hmem hs hmakes ⟨after, hlived⟩ hcall
  refine hlived.tail hs hmakes.single ?_ hcall
  rintro rfl
  exact hkeep (hmakes.eq_destroy ▸ hmem)

/-- Once a page has a record, it keeps one until its process ends, whatever is asked of the
    machine.  Whether it may be written to and which file it comes from never change, it does not
    stop being dirty, and it is never again a page that was not touched.  All this comes about call
    by call, and so it goes on: a call leaves the page where it is, brings it into a frame from
    anywhere else, or takes it from its frame to swap or, when it is not dirty, to the span of its
    file.  Only then may it get dirty, and it does not change frames. -/
theorem run_lifecycle {config : Config} {device : Device} {requests window : List Request}
    {answers later : List Answer} (h : Run config n device requests answers m)
    (hr : m.record? x = some record) (hkeep : .destroy x.process ∉ window)
    (hperform : (Outcome.answerAll perform m window).result = .ok (later, m')) :
    ∃ after, m.Lived m' x record after ∧ ∀ call answer m'', call.Single →
      call ≠ .destroy x.process → (m'.perform call).result = .ok (answer, m'') →
        ∃ next, m''.record? x = some next ∧ after.Follows next ∧
          ∀ frame g, after.status = .resident frame → next.status = .resident g → g = frame := by
  obtain ⟨after, hlived⟩ := exists_lived h.sound hr hkeep hperform
  refine ⟨after, hlived, fun call answer m'' hsingle hcall hperform' => ?_⟩
  have hs : m'.Sound none := h.sound.answerAll hperform
  obtain ⟨next, hnext, hfollows⟩ :=
    (perform_cases hs hperform').livesOn hs hsingle hcall hlived.record?_eq
  exact ⟨next, hnext, hfollows, fun frame g => hfollows.frame_eq⟩

/-- The only frame is wanted by two pages in turn.  The page of a file is read, dropped, written
    to and goes to swap. -/
theorem run_lifecycle_oneFrame : ∃ answers later, ∃ m m' : Machine 1, ∃ record after,
    Run {} 1 (.inMemory 2) [.spawn 0 {}, .mapSegment 0 ⟨#[5, 6], 0, ⟨0⟩, 2, 4094, true⟩]
      answers m ∧
    (Outcome.answerAll perform m [.load 0 0 1 0 1, .mapNewPage 0 ⟨1⟩ true false,
      .store 0 1 #[9] 0 1, .load 0 4096 1 0 1]).result = .ok (later, m') ∧
    m.Lived m' ⟨0, ⟨0⟩⟩ record after ∧ record.dirty = false ∧ after.dirty = true := by
  obtain ⟨answers, m, h, hp⟩ := exists_run {} 1 (.inMemory 2) [.spawn 0 {},
    .mapSegment 0 ⟨#[5, 6], 0, ⟨0⟩, 2, 4094, true⟩]
    (fun m => (m.record? ⟨0, ⟨0⟩⟩).any (!·.dirty) &&
      (Outcome.answerAll perform m [.load 0 0 1 0 1, .mapNewPage 0 ⟨1⟩ true false,
        .store 0 1 #[9] 0 1, .load 0 4096 1 0 1]).result.toOption.any fun done =>
          (done.2.record? ⟨0, ⟨0⟩⟩).any PageRecord.dirty)
    (by decide +kernel)
  rw [Bool.and_eq_true, Option.any_eq_true] at hp
  obtain ⟨⟨record, hr, hclean⟩, hlater⟩ := hp
  obtain ⟨⟨later, m'⟩, hperform, hafter⟩ := Outcome.exists_of_any hlater
  obtain ⟨after, hafter, hdirty⟩ := (Option.any_eq_true ..).1 hafter
  obtain ⟨after', hlived, -⟩ := run_lifecycle h hr (by simp) hperform
  obtain rfl : after = after' := Option.some.inj (hafter.symm.trans hlived.record?_eq)
  exact ⟨answers, later, m, m', record, after, h, hperform, hlived, by simpa using hclean, hdirty⟩

end Machine

end DemandPaging
