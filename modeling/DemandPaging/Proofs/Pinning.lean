/-
  Pinned frames: the page in one stays there.

  A request takes a frame into hand, changes it and lets it go, or takes frames from a process
  that ends.  None of these is a frame that is pinned and has an owner.

  * `Obtained.pinned`: the frame that comes into hand is another one;
  * `Performed.pinned`: the page stays in its frame through every request that does not unpin
    the frame or end its process;
  * `FlatMemory.Step.getElem_cases`: only a store of the process changes a byte of its page;
  * `run_pinned`: what is known of a page in a pinned frame until it is let go.
-/
import DemandPaging.Proofs.Transparency

namespace DemandPaging

/-! ## Requests -/

/-- A request that unpins the frame `f` or ends the process whose page it holds. -/
def Request.LetsGo (f : Frame) (process : Nat) : Request → Prop
  | .unpin g => g = f
  | .destroy p => p = process
  | _ => False

instance (f : Frame) (process : Nat) : DecidablePred (Request.LetsGo f process)
  | .unpin g => decEq g f
  | .destroy p => decEq p process
  | .spawn .. | .mapNewPage .. | .mapSegment .. | .fault .. | .load .. | .store .. | .pin _
  | .pickVictim | .refuse .. => .isFalse id

/-- A request that stores `byte` as the `i`-th byte of the page `o`. -/
def Request.Stores (o : Owner) (i : Nat) (byte : UInt8) : Request → Prop
  | .store process address data _ _ => process = o.process ∧ address ≤ o.page.base + i ∧
      data[o.page.base + i - address]? = some byte
  | _ => False

/-! ## Flat memory, byte by byte -/

namespace FlatMemory

variable {memory memory' : FlatMemory} {config : Config} {process stackPointer : Nat} {o : Owner}
  {contents contents' : Contents}

/-- Only the bytes that are stored change. -/
theorem getElem_store {address count i : Nat} {data : Bytes} {stackPointer' limit : Nat}
    (hcount : count ≤ data.size) (ho : memory o = some contents)
    (ho' : memory.store process address data count o = some contents') (hi : i < pageSize) :
    contents'[i] = contents[i] ∨
      (Request.store process address data stackPointer' limit).Stores o i contents'[i] := by
  rw [store, ho, Option.map_some, Option.some.injEq] at ho'
  subst ho'
  rw [Vector.getElem_ofFn]
  dsimp only
  split
  · rename_i hin
    have hlt : o.page.base + i - address < data.size := by omega
    refine .inr ⟨hin.1, hin.2.1, ?_⟩
    rw [Array.getD_eq_getD_getElem?, Array.getElem?_eq_getElem hlt, Option.getD_some]
  · exact .inl rfl

theorem Step.getElem_cases {request : Request} {answer : Answer} {i : Nat}
    (h : Step config memory request answer memory') (ho : memory o = some contents)
    (ho' : memory' o = some contents') (hi : i < pageSize) :
    contents'[i] = contents[i] ∨ request.Stores o i contents'[i] := by
  have hsame : memory' o = some contents → contents'[i] = contents[i] := by
    intro hsame
    cases hsame.symm.trans ho'
    rfl
  cases h with
  | spawn | noPage | noSegment | pin | unpin | pickVictim | refuse => exact .inl (hsame ho)
  | newPage process page writable habsent => exact .inl (hsame (addZeros_of_some ho habsent))
  | intruder process page writable e habsent => exact .inl (hsame (addZeros_of_some ho habsent))
  | segment process segment hwhole habsent =>
    refine .inl (hsame ((if_neg ?_).trans ho))
    rintro ⟨rfl, hcovers⟩
    cases (habsent o.page hcovers).symm.trans ho
  | fault process fault result => exact .inl (hsame (fault_of_some _ ho))
  | loaded => exact .inl (hsame (faults_of_some _ ho))
  | notLoaded => exact .inl (hsame (faults_of_some _ ho))
  | stored => exact getElem_store (Nat.le_refl _) (faults_of_some _ ho) ho' hi
  | partlyStored process address data stackPointer limit faults count access _ hcount =>
    exact getElem_store (Nat.le_of_lt hcount) (faults_of_some _ ho) ho' hi
  | destroyed process released =>
    unfold remove at ho'
    split at ho'
    · cases ho'
    · cases ho.symm.trans ho'
      exact .inl rfl

end FlatMemory

namespace Machine

variable {n : Nat} {m m' m₁ : Machine n} {f frame : Frame} {o x : Owner} {record : PageRecord}

/-- The frame `f` is pinned and holds the page `o`. -/
structure Pinned (m : Machine n) (f : Frame) (o : Owner) : Prop where
  hasPin : m.frames.pool.hasPin f = true
  owner?_eq : m.frames.owner? f = some o

/-! ## Finding a frame -/

theorem SameUpToAccess.pinned (h : m.SameUpToAccess m') (hp : m.Pinned f o) : m'.Pinned f o :=
  ⟨by rw [h.pool_eq]; exact hp.hasPin, by rw [h.owner?_eq]; exact hp.owner?_eq⟩

/-- The clock does not choose a pinned frame. -/
theorem Pinned.ne_of_pickVictim (hp : m.Pinned f o) (h : m.pickVictim = (some frame, m')) :
    frame ≠ f := by
  rintro rfl
  have hunpinned := (candidate_iff.1 ((pickVictim_cases h).2 frame rfl)).2.1
  cases hunpinned.symm.trans hp.hasPin

theorem LosesFrame.pinned {after : PageRecord} (h : m.LosesFrame m' frame x after)
    (hlt : frame.index < n) (hne : frame ≠ f) (hp : m.Pinned f o) : m'.Pinned f o :=
  ⟨by rw [h.pool_eq]; exact hp.hasPin, by rw [h.owner?_eq hlt, if_neg hne]; exact hp.owner?_eq⟩

theorem Evicted.pinned (h : m.Evicted m' frame x record) (hlt : frame.index < n) (hne : frame ≠ f)
    (hp : m.Pinned f o) : m'.Pinned f o := by
  cases h with
  | discarded _ _ _ hloses => exact hloses.pinned hlt hne hp
  | swapped _ _ _ _ _ hloses => exact hloses.pinned hlt hne hp

/-- A frame that comes into hand is not the pinned one, whose page stays where it is. -/
theorem Obtained.pinned {res : Except Error Frame} (h : m.Obtained m' res) (hs : m.Sound none)
    (hp : m.Pinned f o) : m'.Pinned f o ∧ ∀ frame, res = .ok frame → frame ≠ f := by
  cases h with
  | free frame pool halloc hm' =>
    subst hm'
    have hne : frame ≠ f := by
      rintro rfl
      cases (hs.linked.owner?_of_alloc halloc).symm.trans hp.owner?_eq
    rcases Pool.alloc_cases halloc with ⟨hno, -⟩ | ⟨frame', hsome, hlt, -, hmap, -⟩
    · cases hno
    · cases hsome
      refine ⟨⟨?_, hp.owner?_eq⟩, fun g hg => ?_⟩
      · show pool.hasPin f = true
        rw [Pool.hasPin_congr hmap, Pool.hasPin_setEntry _ hlt, if_neg hne]
        exact hp.hasPin
      · cases hg; exact hne
  | evicted swept frame x record _ hpick howner _ _ hevicted =>
    have hsame := (pickVictim_cases hpick).1
    have hne := hp.ne_of_pickVictim hpick
    have hlt := (hsame.sound hs).linked.lt (((hsame.sound hs).linked.owner?_iff frame x).1 howner)
    refine ⟨hevicted.pinned hlt hne (hsame.pinned hp), fun g hg => ?_⟩
    cases hg; exact hne
  | exhausted swept frame x record _ hpick _ _ _ hrestored =>
    obtain ⟨hpin, howner⟩ := (pickVictim_cases hpick).1.pinned hp
    rw [← hrestored.frames_eq] at hpin howner
    exact ⟨⟨hpin, howner⟩, nofun⟩

/-! ## The frame in hand -/

theorem SameButHeld.pinned (h : m.SameButHeld m' frame) (hne : frame ≠ f) (hp : m.Pinned f o) :
    m'.Pinned f o :=
  ⟨by rw [h.hasPin_eq f hne]; exact hp.hasPin, by rw [h.owner?_eq f hne]; exact hp.owner?_eq⟩

theorem Freed.pinned (h : m.Freed m' frame) (hne : frame ≠ f) (hp : m.Pinned f o) :
    m'.Pinned f o :=
  ⟨by rw [h.hasPin_eq, if_neg hne]; exact hp.hasPin,
    by rw [h.owner?_eq, if_neg hne]; exact hp.owner?_eq⟩

theorem Added.pinned {new : Owner → Option PageRecord} (h : m.Added m' new) (hp : m.Pinned f o) :
    m'.Pinned f o :=
  ⟨by rw [h.frames_eq]; exact hp.hasPin, by rw [h.frames_eq]; exact hp.owner?_eq⟩

theorem Installed.pinned (h : m.Installed m' frame x record) (hne : frame ≠ f)
    (hp : m.Pinned f o) : m'.Pinned f o :=
  ⟨by rw [h.hasPin_eq, if_neg hne]; exact hp.hasPin, by rw [h.owner?_eq]; exact hp.owner?_eq⟩

/-! ## Faults and new pages -/

theorem Brought.pinned {res : Except Error Unit} (h : m.Brought m' x record res)
    (hs : m.Sound none) (hp : m.Pinned f o) : m'.Pinned f o := by
  cases h with
  | frameless e hobtained => exact (hobtained.pinned hs hp).1
  | givenBack e frame m₁ m₂ hframe hobtained hsame hfreed =>
    obtain ⟨hp₁, hne⟩ := hobtained.pinned hs hp
    have hne := hne frame rfl
    exact hfreed.pinned hne (hsame.pinned hne hp₁)
  | installed frame m₁ m₂ m₃ hobtained hclaimed hfilled hinstalled =>
    obtain ⟨hp₁, hne⟩ := hobtained.pinned hs hp
    have hne := hne frame rfl
    exact hinstalled.pinned hne (hfilled.same.pinned hne (hclaimed.same.pinned hne hp₁))

theorem Handled.pinned {process : Nat} {fault : PageFault} {res : Except Error Unit}
    (h : m.Handled m' process fault res) (hs : m.Sound none) (hp : m.Pinned f o) :
    m'.Pinned f o := by
  cases h with
  | rejected e hnot hm => subst hm; exact hp
  | resident record hr hin hm => subst hm; exact hp
  | known record res hr hout hbrought => exact hbrought.pinned hs hp
  | grown m₁ res hgrows hadded hbrought =>
    exact hbrought.pinned (hadded.sound unloaded_zero hs) (hadded.pinned hp)

theorem MappedNew.pinned {writable : Bool} {intruder : Option Bool} {res : Except Error Unit}
    (h : m.MappedNew m' x writable intruder res) (hs : m.Sound none) (hp : m.Pinned f o) :
    m'.Pinned f o := by
  cases h with
  | taken record hr hm => subst hm; exact hp
  | frameless e hr hobtained => exact (hobtained.pinned hs hp).1
  | refused frame m₁ m₂ hr hobtained hclaimed hfreed =>
    obtain ⟨hp₁, hne⟩ := hobtained.pinned hs hp
    have hne := hne frame rfl
    exact hfreed.pinned hne (hclaimed.same.pinned hne hp₁)
  | intruded frame m₁ m₂ m₃ hr hintruder hobtained hclaimed hadded hfreed =>
    obtain ⟨hp₁, hne⟩ := hobtained.pinned hs hp
    have hne := hne frame rfl
    exact hfreed.pinned hne (hadded.pinned (hclaimed.same.pinned hne hp₁))
  | placed frame m₁ m₂ hr hintruder hobtained hclaimed hinstalled =>
    obtain ⟨hp₁, hne⟩ := hobtained.pinned hs hp
    have hne := hne frame rfl
    exact hinstalled.pinned hne (hclaimed.same.pinned hne hp₁)

/-- Another process that ends takes no frame of the page's process with it. -/
theorem TornDown.pinned {process : Nat} (h : TornDown process m m') (hs : m.Sound none)
    (hne : process ≠ o.process) (hp : m.Pinned f o) : m'.Pinned f o := by
  induction h with
  | done m hempty => exact hp
  | page m m₁ m' page record hr hremoved rest ih =>
    have hother : record.status ≠ .resident f := by
      intro hstatus
      have hin := (hs.linked.owner?_iff f o).1 hp.owner?_eq
      have hremains := hs.linked.frame_inj (hstatus ▸ status?_of_record hr) hin
      exact hne (Owner.eq_iff.1 hremains).1
    refine ih (hremoved.sound hs hr) ⟨?_, ?_⟩
    · rw [hremoved.hasPin_eq, if_neg hother]
      exact hp.hasPin
    · rw [hremoved.owner?_eq, if_neg hother]
      exact hp.owner?_eq

/-! ## Requests -/

/-- Pinning a frame, or unpinning another one. -/
theorem pinned_setEntry {pinned : Bool} (hall : m.frames.pool.isAllocated frame = true)
    (hkeep : frame = f → pinned = true) (howner : m.frames.owner? f = some o)
    (hp : frame ≠ f → m.frames.pool.hasPin f = true) :
    Pinned { m with frames := { m.frames with
      pool := m.frames.pool.setEntry frame { allocated := true, pinned := pinned } } } f o := by
  refine ⟨(Pool.hasPin_setEntry _ (Pool.lt_of_isAllocated hall)).trans ?_, howner⟩
  split
  · rename_i heq; exact hkeep heq
  · rename_i hne; exact hp hne

theorem Performed.pinned {request : Request} {answer : Answer} (h : m.Performed m' request answer)
    (hs : m.Sound none) (hkeep : ¬request.LetsGo f o.process) (hp : m.Pinned f o) :
    m'.Pinned f o := by
  cases h with
  | spawn pid traits hm => subst hm; exact ⟨hp.hasPin, hp.owner?_eq⟩
  | mapNewPage process page writable intruding result hmapped => exact hmapped.pinned hs hp
  | mapSegment process segment result hmapped =>
    rcases hmapped with ⟨-, hadded⟩ | ⟨count, -, -, hadded⟩
    · exact hadded.pinned hp
    · exact hadded.pinned hp
  | fault process fault result hhandled => exact hhandled.pinned hs hp
  | load process address length stackPointer limit access hload =>
    exact (load_keeps (fun _ _ _ _ hp => ⟨hp.hasPin, hp.owner?_eq⟩)
      (fun _ _ _ _ hs hp hhandled => hhandled.pinned hs hp) hs hp hload).2
  | store process address data stackPointer limit access hstore =>
    exact (store_keeps (fun _ _ _ _ hp => ⟨hp.hasPin, hp.owner?_eq⟩)
      (fun _ _ _ _ hs hp hhandled => hhandled.pinned hs hp) hs hp hstore).2
  | destroy process released m₁ hsame htorn =>
    exact htorn.pinned (hsame.sound hs) hkeep (hsame.pinned hp)
  | pin frame hallocated hm =>
    subst hm
    exact pinned_setEntry hallocated (fun _ => rfl) hp.owner?_eq fun _ => hp.hasPin
  | unpin frame hallocated hm =>
    subst hm
    exact pinned_setEntry hallocated (fun h => absurd h hkeep) hp.owner?_eq fun _ => hp.hasPin
  | pickVictim frame hpick => exact (pickVictim_cases hpick).1.pinned hp
  | refuse process pages hm => subst hm; exact ⟨hp.hasPin, hp.owner?_eq⟩

/-- No request is answered with the pinned frame as the clock's choice. -/
theorem Performed.victim_ne {request : Request} {victim : Frame}
    (h : m.Performed m' request (.victim (some victim))) (hp : m.Pinned f o) : victim ≠ f := by
  generalize hanswer : Answer.victim (some victim) = answer at h
  cases h with
  | pickVictim frame hpick => cases hanswer; exact hp.ne_of_pickVictim hpick
  | mapNewPage _ _ _ _ result | mapSegment _ _ result | fault _ _ result =>
    cases result <;> cases hanswer
  | _ => cases hanswer

/-- Requests that do not let the frame go leave the page in it, and none of them is answered with
    the frame as the clock's choice. -/
theorem Pinned.answerAll {requests : List Request} {answers : List Answer} (hp : m.Pinned f o)
    (hs : m.Sound none) (hkeep : ∀ request ∈ requests, ¬request.LetsGo f o.process)
    (h : (Outcome.answerAll perform m requests).result = .ok (answers, m')) :
    m'.Pinned f o ∧ .victim (some f) ∉ answers := by
  induction requests generalizing m answers with
  | nil => cases h; exact ⟨hp, nofun⟩
  | cons request rest ih =>
    obtain ⟨answer, m₁, others, hrequest, hrest, rfl⟩ := Outcome.answerAll_cons_iff.1 h
    have hperformed := perform_cases hs hrequest
    obtain ⟨hp', hothers⟩ := ih (hperformed.pinned hs (hkeep request List.mem_cons_self) hp)
      (hperformed.sound hs) (fun r hr => hkeep r (List.mem_cons_of_mem _ hr)) hrest
    refine ⟨hp', fun hvictim => ?_⟩
    rcases List.mem_cons.1 hvictim with rfl | hvictim
    · exact hperformed.victim_ne hp rfl
    · exact hothers hvictim

/-- A request changes a byte of the pinned frame only by storing it to the page. -/
theorem Performed.getElem_cases {request : Request} {answer : Answer} {i : Nat}
    (h : m.Performed m' request answer) (hs : m.Sound none)
    (hkeep : ¬request.LetsGo f o.process) (hp : m.Pinned f o) (hi : i < pageSize) :
    (m'.memory.contents f)[i] = (m.memory.contents f)[i] ∨
      request.Stores o i (m'.memory.contents f)[i] := by
  have hflat : ∀ {m : Machine n}, m.Sound none → m.Pinned f o →
      m.flat o = some (m.memory.contents f) := fun hs hp =>
    flat_of_translate hs.linked ((hs.linked.translate_iff f o).2
      ((hs.linked.owner?_iff f o).1 hp.owner?_eq))
  exact (h.flat_step hs).getElem_cases (hflat hs hp) (hflat (h.sound hs) (h.pinned hs hkeep hp)) hi

/-- When every frame is in use and pinned, looking for a frame stops the machine. -/
theorem allocate_everyFramePinned {process : Nat} {page : Page} {zero : Bool} (hs : m.Sound none)
    (hfull : ∀ g : Frame, g.index < n → m.frames.pool.isAllocated g = true)
    (hpinned : ∀ g : Frame, g.index < n → m.frames.pool.hasPin g = true) :
    (m.allocate process page zero).result = .error .everyFramePinned := by
  have hnone : m.pickVictim = (none, m.pickVictim.2) := by
    cases hpick : m.pickVictim.1 with
    | none => exact Prod.ext hpick rfl
    | some frame =>
      have hcandidate := (pickVictim_cases (Prod.ext hpick rfl)).2 frame rfl
      obtain ⟨hall, hunpinned, -⟩ := candidate_iff.1 hcandidate
      cases hunpinned.symm.trans (hpinned frame (Pool.lt_of_isAllocated hall))
  obtain ⟨free, frames, halloc, -⟩ := m.frames.exists_alloc hs.linked.counted
  obtain ⟨pool, hpool, -⟩ := FrameTable.alloc_cases halloc
  rcases Pool.alloc_cases hpool with ⟨rfl, -⟩ | ⟨frame, rfl, hlt, hfree, -⟩
  · obtain rfl := FrameTable.alloc_none halloc
    refine Outcome.bind_eq_error_iff.2 (.inl (Outcome.bind_eq_error_iff.2 (.inr ⟨_, halloc, ?_⟩)))
    show m.evict.result = _
    unfold evict
    rw [hnone]
    rfl
  · cases hfree.symm.trans (hfull frame hlt)

/-! ## Runs -/

/-- The page `o` is in the frame `f`, which is pinned: all records say so, and the clock chooses
    another frame. -/
structure PinnedPage (m : Machine n) (f : Frame) (o : Owner) : Prop extends m.Pinned f o where
  lookup_eq : (m.space o.process).table.lookup o.page = some (.resident f)
  translate_eq : (m.space o.process).directory.translate o.page = some f
  victim_ne : ∀ victim swept, m.pickVictim = (some victim, swept) → victim ≠ f

theorem Pinned.pinnedPage (hp : m.Pinned f o) (hs : m.Sound none) : m.PinnedPage f o where
  toPinned := hp
  lookup_eq := (hs.linked.owner?_iff f o).1 hp.owner?_eq
  translate_eq := (hs.linked.translate_iff f o).2 ((hs.linked.owner?_iff f o).1 hp.owner?_eq)
  victim_ne _ _ hpick := hp.ne_of_pickVictim hpick

/-- At any time in a run, the frame of a page is pinned.  Until it is unpinned or the process of
    the page ends, whatever is asked of the machine, the page stays in the frame and the frame
    pinned, the clock is never answered to have chosen it, and a request changes a byte of the
    frame only if it is a store of the process to the page.  When a frame is needed then and all
    are pinned, the machine stops. -/
theorem run_pinned {config : Config} {device : Device} {requests window : List Request}
    {answers later : List Answer} (h : Run config n device requests answers m)
    (howner : m.frames.owner? f = some o)
    (hkeep : ∀ request ∈ window, ¬request.LetsGo f o.process)
    (hperform : (Outcome.answerAll perform m (.pin f :: window)).result = .ok (later, m')) :
    m'.PinnedPage f o ∧ .victim (some f) ∉ later ∧
    (∀ request answer m'', ¬request.LetsGo f o.process →
      (m'.perform request).result = .ok (answer, m'') → ∀ i (hi : i < pageSize),
        (m''.memory.contents f)[i] = (m'.memory.contents f)[i] ∨
          request.Stores o i (m''.memory.contents f)[i]) ∧
    ((∀ g : Frame, g.index < n → m'.frames.pool.isAllocated g = true) →
      (∀ g : Frame, g.index < n → m'.frames.pool.hasPin g = true) →
      ∀ process page zero,
        (m'.allocate process page zero).result = .error .everyFramePinned) := by
  obtain ⟨answer, m₁, others, hpin, hrest, rfl⟩ := Outcome.answerAll_cons_iff.1 hperform
  have hperformed := perform_cases h.sound hpin
  have hs₁ := hperformed.sound h.sound
  cases hperformed with
  | pin frame hallocated hm =>
    have hp₁ : m₁.Pinned f o := by
      rw [hm]
      exact pinned_setEntry hallocated (fun _ => rfl) howner fun hne => absurd rfl hne
    obtain ⟨hp, hvictim⟩ := hp₁.answerAll hs₁ hkeep hrest
    have hs : m'.Sound none := hs₁.answerAll hrest
    refine ⟨hp.pinnedPage hs, ?_, ?_, ?_⟩
    · rw [List.mem_cons, not_or]
      exact ⟨nofun, hvictim⟩
    · intro request answer m'' hkeep hperform i hi
      exact (perform_cases hs hperform).getElem_cases hs hkeep hp hi
    · exact fun hfull hpinned process page zero => allocate_everyFramePinned hs hfull hpinned

/-- The first process has a page in the first of two frames, which is pinned.  The second process
    maps two pages, so that one of them has to leave the other frame. -/
theorem run_pinned_twoFrames : ∃ answers later, ∃ m m' : Machine 2,
    Run {} 2 (.inMemory 2) [.spawn 0 {}, .spawn 1 {}, .mapNewPage 0 ⟨0⟩ true false,
      .store 0 1 #[7] 0 0] answers m ∧
    (Outcome.answerAll perform m [.pin ⟨0⟩, .mapNewPage 1 ⟨0⟩ true false,
      .mapNewPage 1 ⟨1⟩ true false, .pickVictim, .store 0 2 #[9] 0 0, .unpin ⟨1⟩, .load 1 0 1 0 1,
      .destroy 1]).result = .ok (later, m') ∧ m'.PinnedPage ⟨0⟩ ⟨0, ⟨0⟩⟩ := by
  obtain ⟨answers, m, h, hp⟩ := exists_run {} 2 (.inMemory 2) [.spawn 0 {}, .spawn 1 {},
    .mapNewPage 0 ⟨0⟩ true false, .store 0 1 #[7] 0 0]
    (fun m => m.frames.owner? ⟨0⟩ = some ⟨0, ⟨0⟩⟩ &&
      (Outcome.answerAll perform m [.pin ⟨0⟩, .mapNewPage 1 ⟨0⟩ true false,
        .mapNewPage 1 ⟨1⟩ true false, .pickVictim, .store 0 2 #[9] 0 0, .unpin ⟨1⟩,
        .load 1 0 1 0 1, .destroy 1]).result.toOption.any fun _ => true)
    (by decide +kernel)
  rw [Bool.and_eq_true, decide_eq_true_eq] at hp
  obtain ⟨howner, hlater⟩ := hp
  obtain ⟨⟨later, m'⟩, hperform, -⟩ := Outcome.exists_of_any hlater
  exact ⟨answers, later, m, m', h, hperform, (run_pinned h howner (by decide) hperform).1⟩

end Machine

end DemandPaging
