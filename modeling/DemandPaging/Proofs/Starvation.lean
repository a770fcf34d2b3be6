/-
  The clock does not pass a page over forever.

  A page that is left alone waits for the clock (`Waiting`) until it is evicted.  Requests for other
  pages bring the clock closer or leave it where it is, and so do accesses of other pages, with
  all the faults that they take.

  * `Request.Spares` tells which requests leave a page alone; `accessed_of_tryLoad` and
    `accessed_of_tryStore`: an access marks no page that has none of its addresses;
  * `Waiting.call`, `Waiting.perform` and `Waiting.answerAll`: through a call, a request and any
    number of requests, the page goes on waiting or leaves its frame;
  * `run_not_starved`: two turns of evictions drive out every page that is left alone.
-/
import DemandPaging.Proofs.Approach
import DemandPaging.Proofs.Attempt
import DemandPaging.Proofs.Calls
import DemandPaging.Proofs.Vacated

namespace DemandPaging

/-! ## Which pages an access concerns -/

/-- Every page that a range of addresses overlaps has an address of the range. -/
theorem exists_address_of_lt {address length i : Nat} (hi : i < pagesTouched address length) :
    ∃ k < length, Page.containing (address + k) = ⟨address / pageSize + i⟩ := by
  unfold pagesTouched at hi
  split at hi
  · cases hi
  · simp only [pageSize] at *
    refine ⟨(address / 4096 + i) * 4096 - address, by omega, congrArg Page.mk ?_⟩
    simp only [pageSize]
    omega

/-- A walk marks no page as accessed that is not among those it is to touch. -/
theorem Directory.Touches.accessed_of {write : Bool} {first count : Nat}
    {directory directory' : Directory} {fault : Option AccessFault} {page : Page}
    (h : Touches write first count directory fault directory')
    (hpage : ∀ i < count, (⟨first + i⟩ : Page) ≠ page)
    (hx : directory'.has page .accessed = true) : directory.has page .accessed = true := by
  obtain ⟨j, hj, htouched⟩ : ∃ j ≤ count, directory.Touched directory' write first j := by
    rcases h.cases with ⟨-, htouched⟩ | ⟨j, hj, -, -, -, htouched, -⟩
    · exact ⟨count, Nat.le_refl _, htouched⟩
    · exact ⟨j, Nat.le_of_lt hj, htouched⟩
  rcases (htouched.accessed_iff page).1 hx with ⟨i, hi, rfl⟩ | hbefore
  · exact absurd rfl (hpage i (by omega))
  · exact hbefore

/-- A request that leaves the page `o` and the clock alone: it does not end the process of the
    page, its addresses are in other pages, it does not run the clock by itself, and it sets up
    no process that touches its pages other than by loads and stores. -/
def Request.Spares (o : Owner) : Request → Prop
  | .spawn _ traits => traits.busy = false
  | .load process address length _ _ =>
    process = o.process → ∀ k < length, Page.containing (address + k) ≠ o.page
  | .store process address data _ _ =>
    process = o.process → ∀ k < data.size, Page.containing (address + k) ≠ o.page
  | .destroy process => process ≠ o.process
  | .pickVictim => False
  | _ => True

/-- A request that may be interrupted by faults. -/
def Request.IsAccess : Request → Prop
  | .load .. | .store .. => True
  | _ => False

theorem Request.single_or_isAccess (request : Request) : request.Single ∨ request.IsAccess := by
  cases request with
  | load | store => exact .inr trivial
  | _ => exact .inl trivial

/-- A call that an access makes which leaves the page `o` alone: an attempt, or a fault at another
    page. -/
inductive Request.Beside (o : Owner) : Request → Prop where
  | attempt (call : Request) (haccess : call.IsAccess) (hspares : call.Spares o) : Beside o call
  | fault (process : Nat) (fault : PageFault)
      (hne : ⟨process, .containing fault.address⟩ ≠ o) : Beside o (.fault process fault)

theorem Request.Makes.beside {request call : Request} {o : Owner} (h : request.Makes call)
    (haccess : request.IsAccess) (hspares : request.Spares o) : call.Beside o := by
  cases h with
  | self request hsingle => exact .attempt _ haccess hspares
  | tryLoad => exact .attempt _ trivial hspares
  | tryStore => exact .attempt _ trivial hspares
  | loadFault _ _ _ _ _ k hk =>
    exact .fault _ _ fun heq => hspares (congrArg Owner.process heq) k hk (congrArg Owner.page heq)
  | storeFault _ _ _ _ _ k hk =>
    exact .fault _ _ fun heq => hspares (congrArg Owner.process heq) k hk (congrArg Owner.page heq)

theorem Request.Beside.spares {call : Request} {o : Owner} (h : call.Beside o) :
    call.Spares o := by
  cases h with
  | attempt _ _ hspares => exact hspares
  | fault => trivial

theorem Request.Beside.ne_pin {call : Request} {o : Owner} (h : call.Beside o) (g : Frame) :
    call ≠ .pin g := by
  rintro rfl
  cases h with
  | attempt _ haccess _ => exact haccess

namespace Machine

variable {n : Nat} {m m' : Machine n} {f frame : Frame} {o : Owner} {last : Nat}

/-- An access marks no page as accessed that has none of its addresses. -/
theorem accessed_of_touches {process address length : Nat} {write : Bool} {directory : Directory}
    {fault : Option AccessFault} {memory : Memory n}
    (h : Directory.Touches write (address / pageSize) (pagesTouched address length)
      (m.space process).directory fault directory)
    (hother : process = o.process → ∀ k < length, Page.containing (address + k) ≠ o.page)
    (ho : (m.duringAccess process directory memory).flag o .accessed = true) :
    m.flag o .accessed = true := by
  rw [flag_duringAccess] at ho
  split at ho
  · rename_i hp
    have hbefore := h.accessed_of (fun i hi => ?_) ho
    · rwa [hp] at hbefore
    · obtain ⟨k, hk, hpage⟩ := exists_address_of_lt hi
      exact hpage ▸ hother hp k hk
  · exact ho

theorem accessed_of_tryLoad {process address length : Nat} {res : Except AccessFault Bytes}
    (h : (m.tryLoad process address length).result = .ok (res, m'))
    (hother : process = o.process → ∀ k < length, Page.containing (address + k) ≠ o.page)
    (ho : m'.flag o .accessed = true) : m.flag o .accessed = true := by
  obtain ⟨⟨fault, bytes, directory⟩, hload, h⟩ := Outcome.bind_eq_ok_iff.1 h
  obtain rfl : m' = m.duringAccess process directory m.memory := by
    cases fault <;> (cases h; rfl)
  exact accessed_of_touches (Directory.touches_loadPieces (cut_pieces address length) hload)
    hother ho

theorem accessed_of_tryStore {process address : Nat} {data : Bytes} {res : Except AccessFault Nat}
    (h : (m.tryStore process address data).result = .ok (res, m'))
    (hother : process = o.process → ∀ k < data.size, Page.containing (address + k) ≠ o.page)
    (ho : m'.flag o .accessed = true) : m.flag o .accessed = true := by
  obtain ⟨⟨fault, directory, memory⟩, hstore, h⟩ := Outcome.bind_eq_ok_iff.1 h
  obtain rfl : m' = m.duringAccess process directory memory := by
    cases fault <;> (cases h; rfl)
  exact accessed_of_touches (Directory.touches_storePieces (cut_pieces address data.size) hstore)
    hother ho

/-! ## Single calls -/

/-- An attempt of an access that does not touch the page. -/
theorem Waiting.duringAccess {process : Nat} {directory : Directory} {memory : Memory n}
    (hw : m.Waiting f o last)
    (htraits : directory.toDirectoryTraits = (m.space process).directory.toDirectoryTraits)
    (haccessed : (m.duringAccess process directory memory).flag o .accessed = true →
      m.flag o .accessed = true) :
    (m.duringAccess process directory memory).Waiting f o last := by
  refine hw.of_same rfl rfl rfl (fun p => ?_) rfl haccessed
  rw [traits_duringAccess]
  split
  · rename_i hp; rw [htraits, hp]
  · rfl

theorem Waiting.tryLoad {process address length : Nat} {res : Except AccessFault Bytes}
    (hw : m.Waiting f o last) (hs : m.Sound none)
    (hother : process = o.process → ∀ k < length, Page.containing (address + k) ≠ o.page)
    (h : (m.tryLoad process address length).result = .ok (res, m')) : m'.Waiting f o last := by
  have haccessed := accessed_of_tryLoad h hother
  obtain ⟨⟨directory, rfl⟩, hsame, -⟩ := tryLoad_cases h hs
  have htraits := hsame.traits_eq process
  rw [traits_duringAccess, if_pos rfl] at htraits
  exact hw.duringAccess htraits haccessed

theorem Waiting.tryStore {process address : Nat} {data : Bytes} {res : Except AccessFault Nat}
    (hw : m.Waiting f o last) (hs : m.Sound none)
    (hother : process = o.process → ∀ k < data.size, Page.containing (address + k) ≠ o.page)
    (h : (m.tryStore process address data).result = .ok (res, m')) : m'.Waiting f o last := by
  have haccessed := accessed_of_tryStore h hother
  obtain ⟨⟨directory, memory, rfl, htraits⟩, -⟩ :=
    tryStore_cases (K := 0) h hs FlatMemory.store_zero.symm
  exact hw.duringAccess htraits haccessed

/-- The end of another process leaves the page and the clock alone. -/
theorem Waiting.destroy {process : Nat} {released : Released} (hw : m.Waiting f o last)
    (hs : m.Sound none) (hne : process ≠ o.process)
    (h : (m.destroy process).result = .ok (released, m')) : m'.Waiting f o last := by
  have hvacated := vacated_of_destroy hs h
  obtain ⟨⟨m₁, hsame, htorn⟩, -⟩ := destroy_cases h hs
  refine hw.of_same ?_ ?_ hvacated.hand_eq (hsame.sameSetup.trans htorn.sameSetup).traits_eq
    (congrArg Stats.evictions hvacated.stats_eq) ?_
  · rw [hw.hasPin_eq, Bool.eq_false_iff, Ne, hvacated.hasPin_iff, hw.hasPin_eq]
    simp
  · rw [hw.owner?_eq, hvacated.owner?_iff]
    exact ⟨hw.owner?_eq, hne.symm⟩
  · intro ho
    rwa [flag, hvacated.space_eq o.process hne.symm] at ho

/-- Pinning another frame, or letting any go. -/
theorem Waiting.setEntry {pinned : Bool} (hw : m.Waiting f o last)
    (hall : m.frames.pool.isAllocated frame = true) (hpin : frame = f → pinned = false) :
    Waiting { m with frames := { m.frames with
      pool := m.frames.pool.setEntry frame { allocated := true, pinned := pinned } } } f o last := by
  refine hw.of_same ?_ rfl rfl (fun _ => rfl) rfl id
  refine (Pool.hasPin_setEntry _ (Pool.lt_of_isAllocated hall)).trans ?_
  split
  · rename_i heq
    rw [hw.hasPin_eq]
    exact hpin heq
  · rfl

/-- A single call that spares the page leaves it where it is, or makes it leave in time. -/
theorem Waiting.call {call : Request} {reply : Answer} (hw : m.Waiting f o last)
    (hs : m.Sound none) (hsingle : call.Single) (hspares : call.Spares o)
    (hpin : ∀ g, call = .pin g → m.frames.owner? g ≠ some o)
    (h : (m.perform call).result = .ok (reply, m')) (hroom : ¬reply.Exhausted) :
    m'.Waiting f o last ∨ m'.AwayBy o last := by
  have hperformed := perform_cases hs h
  cases hperformed with
  | spawn pid traits hm =>
    subst hm
    refine .inl ⟨hw.hasPin_eq, hw.owner?_eq, hw.hand_lt, fun p => ?_, ?_⟩
    · rw [space_spawn]
      split
      · exact hspares
      · exact hw.idle p
    · rw [flag_spawn]
      exact hw.due
  | mapNewPage process page writable intruding result hmapped =>
    refine hmapped.waiting hs ?_ hw
    rintro rfl
    exact hroom rfl
  | mapSegment process segment result hmapped =>
    rcases hmapped with ⟨-, hadded⟩ | ⟨count, -, -, hadded⟩
    · exact .inl (hadded.waiting hs hw)
    · exact .inl (hadded.waiting hs hw)
  | fault process fault result hhandled =>
    refine hhandled.waiting hs ?_ hw
    rintro rfl
    exact hroom rfl
  | load process address length stackPointer limit access hload =>
    obtain rfl : limit = 0 := hsingle
    obtain ⟨tried, htried⟩ := tried_of_retry hload
    exact .inl (hw.tryLoad hs hspares htried)
  | store process address data stackPointer limit access hstore =>
    obtain rfl : limit = 0 := hsingle
    obtain ⟨tried, htried⟩ := tried_of_retry hstore
    exact .inl (hw.tryStore hs hspares htried)
  | destroy process released m₁ hsame htorn =>
    obtain ⟨⟨released', m₂⟩, hdestroy, h⟩ := Outcome.bind_eq_ok_iff.1 h
    cases h
    exact .inl (hw.destroy hs hspares hdestroy)
  | pin frame hallocated hm =>
    subst hm
    refine .inl (hw.setEntry hallocated ?_)
    rintro rfl
    exact absurd hw.owner?_eq (hpin frame rfl)
  | unpin frame hallocated hm =>
    subst hm
    exact .inl (hw.setEntry hallocated fun _ => rfl)
  | pickVictim frame hpick => exact hspares.elim
  | refuse process pages hm =>
    subst hm
    refine .inl ⟨hw.hasPin_eq, hw.owner?_eq, hw.hand_lt, fun p => ?_, ?_⟩
    · rw [space_setDirectory]
      split
      · rename_i hp
        exact hp ▸ hw.idle process
      · exact hw.idle p
    · rw [flag_setDirectory]
      split
      · rename_i hp
        have hdue := hw.due
        rw [flag, ← hp] at hdue
        exact hdue
      · exact hw.due

/-! ## Requests -/

/-- While a request was carried out the page `o` left its frame, when no more than `last` pages
    had been evicted, and it is away afterwards. -/
inductive Leaves (m m' : Machine n) (request : Request) (answer : Answer) (o : Owner)
    (last : Nat) : Prop where
  | mk (between : Machine n) (hbefore : Relation.ReflTransGen (Step request answer) m between)
      (hafter : Relation.ReflTransGen (Step request answer) between m')
      (hbetween : between.AwayBy o last) (haway : m'.Away o)

/-- A page that is away stays away as long as the calls are beside it. -/
theorem Away.call {call : Request} {reply : Answer} (ha : m.Away o) (hs : m.Sound none)
    (hsingle : call.Single) (hbeside : call.Beside o)
    (h : (m.perform call).result = .ok (reply, m')) (hroom : ¬reply.Exhausted) : m'.Away o := by
  have hperformed := perform_cases hs h
  cases hbeside with
  | attempt call haccess _ =>
    cases hperformed with
    | load process address length stackPointer limit access hload =>
      exact ha.of_same (record?_load hs hsingle hload o)
    | store process address data stackPointer limit access hstore =>
      exact ha.of_same (record?_store hs hsingle hstore o)
    | _ => exact haccess.elim
  | fault process fault hne =>
    cases hperformed with
    | fault process fault result hhandled =>
      refine hhandled.away ?_ hne ha
      rintro rfl
      exact hroom rfl

/-- A page that waits goes on waiting through an access that spares it, or leaves. -/
theorem Waiting.access {request : Request} {answer : Answer} (hw : m.Waiting f o last)
    (hs : m.Sound none) (haccess : request.IsAccess) (hspares : request.Spares o)
    (hsteps : Relation.ReflTransGen (Step request answer) m m') (hroom : ¬answer.Exhausted) :
    m'.Waiting f o last ∨ m.Leaves m' request answer o last := by
  suffices hboth : m'.Sound none ∧ (m'.Waiting f o last ∨ m.Leaves m' request answer o last) from
    hboth.2
  induction hsteps with
  | refl => exact ⟨hs, .inl hw⟩
  | @tail m₁ m₂ hsteps hstep ih =>
    obtain ⟨hs₁, hcases⟩ := ih
    refine ⟨hstep.sound hs₁, ?_⟩
    obtain ⟨call, reply, hmakes, hperform, hexhausted⟩ := id hstep
    have hbeside := hmakes.beside haccess hspares
    have hroom := mt hexhausted hroom
    rcases hcases with hw₁ | ⟨between, hbefore, hafter, hbetween, haway⟩
    · refine (hw₁.call hs₁ hmakes.single hbeside.spares
        (fun g hg => absurd hg (hbeside.ne_pin g)) hperform hroom).imp_right fun hleft => ?_
      exact ⟨m₂, hsteps.tail hstep, .refl, hleft, hleft.away⟩
    · exact .inr ⟨between, hbefore, hafter.tail hstep, hbetween,
        haway.call hs₁ hmakes.single hbeside hperform hroom⟩

/-- A page that waits goes on waiting through a request that spares it, or leaves. -/
theorem Waiting.perform {request : Request} {answer : Answer} (hw : m.Waiting f o last)
    (hs : m.Sound none) (hspares : request.Spares o)
    (hpin : ∀ g, request = .pin g → m.frames.owner? g ≠ some o)
    (h : (m.perform request).result = .ok (answer, m')) (hroom : ¬answer.Exhausted) :
    m'.Waiting f o last ∨ m.Leaves m' request answer o last := by
  rcases request.single_or_isAccess with hsingle | haccess
  · refine (hw.call hs hsingle hspares hpin h hroom).imp_right fun hleft => ?_
    exact ⟨m', .single ⟨request, answer, .self request hsingle, h, id⟩, .refl, hleft, hleft.away⟩
  · exact hw.access hs haccess hspares (perform_steps hs h) hroom

/-- Whenever one of the requests pins a frame, the page `o` is not in it. -/
def NeverPins (m : Machine n) (requests : List Request) (o : Owner) : Prop :=
  ∀ first g rest answers m', requests = first ++ .pin g :: rest →
    (Outcome.answerAll perform m first).result = .ok (answers, m') → m'.frames.owner? g ≠ some o

theorem NeverPins.head {g : Frame} {rest : List Request} (h : m.NeverPins (.pin g :: rest) o) :
    m.frames.owner? g ≠ some o :=
  h [] g rest [] m rfl rfl

theorem NeverPins.tail {request : Request} {rest : List Request} {answer : Answer}
    (h : m.NeverPins (request :: rest) o)
    (hrequest : (m.perform request).result = .ok (answer, m')) : m'.NeverPins rest o := by
  rintro first g later answers m'' rfl hfirst
  refine h (request :: first) g later (answer :: answers) m'' rfl ?_
  exact Outcome.answerAll_cons_iff.2 ⟨answer, m', answers, hrequest, hfirst, rfl⟩

/-- Once enough pages were evicted, a page that waited has left. -/
theorem Waiting.answerAll {window : List Request} {later : List Answer}
    (hw : m.Waiting f o last) (hs : m.Sound none) (hspares : ∀ request ∈ window, request.Spares o)
    (hpins : m.NeverPins window o)
    (h : (Outcome.answerAll Machine.perform m window).result = .ok (later, m'))
    (hroom : ∀ answer ∈ later, ¬answer.Exhausted) (hlast : last ≤ m'.stats.evictions) :
    ∃ first request rest between answer m₁ m₂, window = first ++ request :: rest ∧
      (Outcome.answerAll Machine.perform m first).result = .ok (between, m₁) ∧
      (m₁.perform request).result = .ok (answer, m₂) ∧ m₁.Leaves m₂ request answer o last := by
  induction window generalizing m later with
  | nil =>
    cases h
    have hdue := hw.due
    omega
  | cons request window ih =>
    obtain ⟨answer, m₁, others, hrequest, hrest, rfl⟩ := Outcome.answerAll_cons_iff.1 h
    rcases hw.perform hs (hspares request List.mem_cons_self)
      (fun g hg => by subst hg; exact hpins.head) hrequest
      (hroom answer List.mem_cons_self) with hw₁ | hleaves
    · obtain ⟨first, request', rest, between, answer', m₃, m₄, rfl, hfirst, hcall, hleaves⟩ :=
        ih hw₁ ((perform_cases hs hrequest).sound hs)
          (fun r hr => hspares r (List.mem_cons_of_mem _ hr)) (hpins.tail hrequest) hrest
          fun a ha => hroom a (List.mem_cons_of_mem _ ha)
      exact ⟨request :: first, request', rest, answer :: between, answer', m₃, m₄, rfl,
        Outcome.answerAll_cons_iff.2 ⟨answer, m₁, between, hrequest, hfirst, rfl⟩, hcall, hleaves⟩
    · exact ⟨[], request, window, [], answer, m, m₁, rfl, rfl, hrequest, hleaves⟩

/-! ## Runs -/

/-- The hand is on a frame at any time. -/
theorem Run.hand_lt {config : Config} {device : Device} {requests : List Request}
    {answers : List Answer} (hpos : 0 < n) (h : Run config n device requests answers m) :
    m.frames.hand < n := by
  refine h.keeps (P := fun m => m.frames.hand < n) hpos ?_
  intro m request answer m' _ hs hhand hperformed
  rcases hperformed.setup_cases hs with hsetup | ⟨pid, traits, -, rfl⟩ | ⟨process, pages, -, rfl⟩
  · exact hsetup.hand_lt hhand
  · exact hhand
  · exact hhand

/-- The clock does not starve.  At any time in a run of processes whose pages are touched by loads
    and stores alone, a page is in a frame that is not pinned.  From then on it is not touched, it
    is not pinned, its process does not end, the clock is run only to evict pages, and swap always
    has room for them.  Then, whatever else is asked of the machine, the page leaves its frame
    before or with the eviction that makes it two for every frame, during a request after which
    it is away. -/
theorem run_not_starved {config : Config} {device : Device} {requests window : List Request}
    {answers later : List Answer} (h : Run config n device requests answers m)
    (ho : m.status? o = some (.resident f)) (hunpinned : m.frames.pool.hasPin f = false)
    (hidle : ∀ p, (m.space p).directory.busy = false)
    (hspares : ∀ request ∈ window, request.Spares o) (hpins : m.NeverPins window o)
    (hperform : (Outcome.answerAll perform m window).result = .ok (later, m'))
    (hroom : ∀ answer ∈ later, ¬answer.Exhausted)
    (hmany : m.stats.evictions + 2 * n ≤ m'.stats.evictions) :
    ∃ first request rest between answer m₁ m₂, window = first ++ request :: rest ∧
      (Outcome.answerAll perform m first).result = .ok (between, m₁) ∧
      (m₁.perform request).result = .ok (answer, m₂) ∧
      m₁.Leaves m₂ request answer o (m.stats.evictions + 2 * n) := by
  have hs := h.sound
  have hlt : f.index < n := hs.linked.lt ho
  have hhand := h.hand_lt (Nat.lt_of_le_of_lt (Nat.zero_le _) hlt)
  have hw : m.Waiting f o (m.stats.evictions + 2 * n) :=
    { hasPin_eq := hunpinned
      owner?_eq := (hs.linked.owner?_iff f o).2 ho
      hand_lt := hhand
      idle := hidle
      due := Nat.add_lt_add_left (Clock.delay_lt hhand hlt _) _ }
  exact hw.answerAll hs hspares hpins hperform hroom hmany

/-- The first process has a page in one of two frames, which it has touched.  The second process
    maps four pages and touches each at once. -/
theorem run_not_starved_twoFrames : ∃ answers later, ∃ m m' m₁ m₂ : Machine 2, ∃ request answer,
    Run {} 2 (.inMemory 5) [.spawn 0 {}, .spawn 1 {}, .mapNewPage 0 ⟨0⟩ true false,
      .mapNewPage 1 ⟨0⟩ true false, .load 0 0 1 0 0] answers m ∧
    (Outcome.answerAll perform m [.mapNewPage 1 ⟨1⟩ true false, .load 1 4096 1 0 0,
      .mapNewPage 1 ⟨2⟩ true false, .load 1 8192 1 0 0, .mapNewPage 1 ⟨3⟩ true false,
      .load 1 12288 1 0 0, .mapNewPage 1 ⟨4⟩ true false]).result = .ok (later, m') ∧
    m.flag ⟨0, ⟨0⟩⟩ .accessed = true ∧
    m₁.Leaves m₂ request answer ⟨0, ⟨0⟩⟩ (m.stats.evictions + 2 * 2) := by
  obtain ⟨answers, m, h, hp⟩ := exists_run {} 2 (.inMemory 5) [.spawn 0 {}, .spawn 1 {},
    .mapNewPage 0 ⟨0⟩ true false, .mapNewPage 1 ⟨0⟩ true false, .load 0 0 1 0 0]
    (fun m => m.status? ⟨0, ⟨0⟩⟩ == some (.resident ⟨0⟩) && !m.frames.pool.hasPin ⟨0⟩ &&
      m.flag ⟨0, ⟨0⟩⟩ .accessed && (m.spaces.spaces.toList.all fun space => !space.directory.busy) &&
      (Outcome.answerAll perform m [.mapNewPage 1 ⟨1⟩ true false, .load 1 4096 1 0 0,
        .mapNewPage 1 ⟨2⟩ true false, .load 1 8192 1 0 0, .mapNewPage 1 ⟨3⟩ true false,
        .load 1 12288 1 0 0, .mapNewPage 1 ⟨4⟩ true false]).result.toOption.any fun done =>
          m.stats.evictions + 4 == done.2.stats.evictions &&
            done.1.all fun answer => !answer.Exhausted)
    (by decide +kernel)
  simp only [Bool.and_eq_true, beq_iff_eq, Bool.not_eq_true', List.all_eq_true] at hp
  obtain ⟨⟨⟨⟨ho, hunpinned⟩, haccessed⟩, hidle⟩, hlater⟩ := hp
  obtain ⟨⟨later, m'⟩, hperform, hlater⟩ := Outcome.exists_of_any hlater
  simp only [Bool.and_eq_true, beq_iff_eq, Bool.not_eq_true', List.all_eq_true,
    decide_eq_false_iff_not] at hlater
  obtain ⟨hevictions, hroom⟩ := hlater
  have hidle : ∀ p, (m.space p).directory.busy = false :=
    forall_space (P := fun space => space.directory.busy = false) rfl hidle
  obtain ⟨first, request, rest, between, answer, m₁, m₂, -, -, -, hleaves⟩ :=
    run_not_starved h ho hunpinned hidle (by simp [Request.Spares])
      (fun first g rest answers m₁ hsplit => by
        have hmem : Request.pin g ∈ first ++ .pin g :: rest := by simp
        simp [← hsplit] at hmem) hperform hroom (Nat.le_of_eq hevictions)
  exact ⟨answers, later, m, m', m₁, m₂, request, answer, h, hperform, haccessed, hleaves⟩

end Machine

end DemandPaging
