/-
  Runs: a machine is set up and carries out requests one after the other.

  * `Machine.Run` is a run from start-up that none of its requests stopped;
  * `perform_cases` says of each request what it changes (`Performed`);
  * `Sound.answerAll_keeps`: what every request keeps while all records agree, requests one after
    the other keep, and the records go on agreeing;
  * `Run.keeps` and `Run.sound`: the same for runs; after any run, all records agree.
-/
import DemandPaging.Machine.Request
import DemandPaging.Proofs.Access
import DemandPaging.Proofs.History
import DemandPaging.Proofs.Mapping
import DemandPaging.Proofs.Teardown

namespace DemandPaging

/-- A swap device with room for `slots` pages, on a disk in memory. -/
def Device.inMemory (slots : Nat) : Device where
  name := "swap"
  kind := .swap
  size := slots * sectorsPerPage
  drive := ⟨.blank (slots * sectorsPerPage), .none, 0⟩

/-- The faults that a load took which was carried out, and the bytes that it yielded. -/
def Answer.loaded? : Answer → Option (Nat × Bytes)
  | .loaded (.done faults bytes) => some (faults, bytes)
  | _ => none

theorem Answer.loaded?_eq_some_iff {answer : Answer} {faults : Nat} {bytes : Bytes} :
    answer.loaded? = some (faults, bytes) ↔ answer = .loaded (.done faults bytes) := by
  constructor
  · intro h
    unfold loaded? at h
    split at h
    · cases h; rfl
    · cases h
  · rintro rfl
    rfl

end DemandPaging

namespace DemandPaging.Machine

variable {n : Nat} {m m' : Machine n} {config : Config} {device : Device}

/-! ## Starting up -/

/-- A machine of `n` user frames that swaps to a device. -/
def boot (config : Config) (n : Nat) (device : Device) : Outcome (Machine n) := do
  let swap ← SwapSpace.ofDevice device
  start config n swap

/-- The requests, carried out one after the other from start-up on, are answered by `answers`
    and leave the machine `m` behind. -/
def Run (config : Config) (n : Nat) (device : Device) (requests : List Request)
    (answers : List Answer) (m : Machine n) : Prop :=
  (do let machine ← boot config n device
      Outcome.answerAll perform machine requests).result = .ok (answers, m)

/-- The machine after start-up: every frame is free, every slot is free, and there are no
    processes. -/
def booted (config : Config) (n : Nat) (device : Device) : Machine n where
  config := config
  memory := .blank n
  swap := { device := device, slots := { capacity := device.size / sectorsPerPage } }
  frames := .blank n

theorem boot_eq_ok_iff : (boot config n device).result = .ok m ↔ m = booted config n device := by
  have hboot : (boot config n device).result = .ok (booted config n device) := rfl
  rw [hboot, Except.ok.injEq, eq_comm]

theorem record?_booted (x : Owner) : (booted config n device).record? x = none := by
  simp [booted, record?, space, AddressSpaces.get, AddressSpace.empty, PageTable.get?]

theorem status?_booted (x : Owner) : (booted config n device).status? x = none := by
  rw [status?, record?_booted]
  rfl

theorem translate_booted (x : Owner) : (booted config n device).translate x = none := by
  simp [booted, translate, space, AddressSpaces.get, AddressSpace.empty, Directory.translate]

theorem owner?_blank (frame : Frame) : (FrameTable.blank n).owner? frame = none := by
  unfold FrameTable.blank FrameTable.owner?
  by_cases h : frame.index < n <;> simp [h]

theorem isAllocated_blank (frame : Frame) :
    (FrameTable.blank n).pool.isAllocated frame = false := by
  unfold FrameTable.blank Pool.ofPolicy Pool.isAllocated
  by_cases h : frame.index < n <;> simp [h]

theorem hasPin_blank (frame : Frame) : (FrameTable.blank n).pool.hasPin frame = false := by
  unfold FrameTable.blank Pool.ofPolicy Pool.hasPin
  by_cases h : frame.index < n <;> simp [h]

theorem sound_booted : (booted config n device).Sound none := by
  refine ⟨⟨Pool.counted_ofPolicy _, ?_, ?_, nofun, nofun, ?_, ?_⟩,
    ⟨Slots.sound_empty _, ?_, ?_⟩, ⟨?_, ?_, ?_, ?_, ?_⟩⟩
  · intro g _
    simp [booted, FrameTable.isTracked, owner?_blank, isAllocated_blank]
  · intro g x _
    rw [status?_booted]; simp [booted, owner?_blank]
  · intro g x
    rw [translate_booted, status?_booted]; simp
  · intro x r g hr
    rw [record?_booted] at hr; cases hr
  · intro s
    simp [status?_booted]; simp [booted, Slots.isOccupied]
  · intro s x y hx
    rw [status?_booted] at hx; cases hx
  · intro x r hr
    rw [record?_booted] at hr; cases hr
  · intro x r span hr
    rw [record?_booted] at hr; cases hr
  · intro x r s origin hr
    rw [record?_booted] at hr; cases hr
  · intro x r g origin hr
    rw [record?_booted] at hr; cases hr
  · intro x r origin hr
    rw [record?_booted] at hr; cases hr

/-- What holds of every address space set up, and of empty ones, holds of every process. -/
theorem forall_space {P : AddressSpace → Prop} (hempty : P {})
    (h : ∀ space ∈ m.spaces.spaces.toList, P space) (p : Nat) : P (m.space p) := by
  unfold space AddressSpaces.get
  cases hget : m.spaces.spaces[p]? with
  | none => exact hempty
  | some space => exact h space (Array.mem_toList_iff.2 (Array.mem_of_getElem? hget))

/-! ## Single requests -/

/-- What a request changes, and how it is answered. -/
inductive Performed (m m' : Machine n) : Request → Answer → Prop where
  | spawn (pid : Nat) (traits : DirectoryTraits) (hm : m' = m.spawn pid traits) :
      Performed m m' (.spawn pid traits) (.spawned m.spaces.size)
  | mapNewPage (process : Nat) (page : Page) (writable intruding : Bool)
      (result : Except Error Unit)
      (hmapped : m.MappedNew m' ⟨process, page⟩ writable
        (if intruding then some writable else none) result) :
      Performed m m' (.mapNewPage process page writable intruding) (.ofResult result)
  | mapSegment (process : Nat) (segment : Segment) (result : Except Error Unit)
      (hmapped : result = .error .alreadyMapped ∧ (m.Added m' fun _ => none) ∨
        ∃ count, count * pageSize = segment.fileBytes + segment.zeroBytes ∧ result = .ok () ∧
          m.Added m' fun x =>
            if process = x.process then segment.records count x.page else none) :
      Performed m m' (.mapSegment process segment) (.ofResult result)
  | fault (process : Nat) (fault : PageFault) (result : Except Error Unit)
      (hhandled : m.Handled m' process fault result) :
      Performed m m' (.fault process fault) (.ofResult result)
  | load (process address length stackPointer limit : Nat) (access : UserAccess Bytes)
      (hload : (m.load limit process address length stackPointer).result = .ok (access, m')) :
      Performed m m' (.load process address length stackPointer limit) (.loaded access)
  | store (process address : Nat) (data : Bytes) (stackPointer limit : Nat)
      (access : UserAccess Nat)
      (hstore : (m.store limit process address data stackPointer).result = .ok (access, m')) :
      Performed m m' (.store process address data stackPointer limit) (.stored access)
  | destroy (process : Nat) (released : Released) (m₁ : Machine n) (hsame : m.SameUpToAccess m₁)
      (htorn : TornDown process m₁ m')
      (hslots : released.slots + m'.swap.slots.inUse = m.swap.slots.inUse) :
      Performed m m' (.destroy process) (.released released)
  | pin (frame : Frame) (hallocated : m.frames.pool.isAllocated frame = true)
      (hm : m' = { m with frames := { m.frames with
        pool := m.frames.pool.setEntry frame { allocated := true, pinned := true } } }) :
      Performed m m' (.pin frame) .done
  | unpin (frame : Frame) (hallocated : m.frames.pool.isAllocated frame = true)
      (hm : m' = { m with frames := { m.frames with
        pool := m.frames.pool.setEntry frame { allocated := true, pinned := false } } }) :
      Performed m m' (.unpin frame) .done
  | pickVictim (frame : Option Frame) (hpick : m.pickVictim = (frame, m')) :
      Performed m m' .pickVictim (.victim frame)
  | refuse (process : Nat) (pages : List Page)
      (hm : m' = m.setDirectory process
        { (m.space process).directory with refused := pages }) :
      Performed m m' (.refuse process pages) .done

theorem perform_cases {request : Request} {answer : Answer} (hs : m.Sound none)
    (h : (m.perform request).result = .ok (answer, m')) : m.Performed m' request answer := by
  cases request with
  | spawn pid traits =>
    cases h
    exact .spawn pid traits rfl
  | mapNewPage process page writable intruding =>
    obtain ⟨⟨result, m₁⟩, hmap, h⟩ := Outcome.bind_eq_ok_iff.1 h
    cases h
    exact .mapNewPage process page writable intruding result (mapNewPage_cases hmap hs)
  | mapSegment process segment =>
    obtain ⟨⟨result, m₁⟩, hmap, h⟩ := Outcome.bind_eq_ok_iff.1 h
    cases h
    exact .mapSegment process segment result (mapSegment_cases hmap)
  | fault process fault =>
    obtain ⟨⟨result, m₁⟩, hhandle, h⟩ := Outcome.bind_eq_ok_iff.1 h
    cases h
    exact .fault process fault result (handleFault_cases hhandle)
  | load process address length stackPointer limit =>
    obtain ⟨⟨access, m₁⟩, hload, h⟩ := Outcome.bind_eq_ok_iff.1 h
    cases h
    exact .load process address length stackPointer limit access hload
  | store process address data stackPointer limit =>
    obtain ⟨⟨access, m₁⟩, hstore, h⟩ := Outcome.bind_eq_ok_iff.1 h
    cases h
    exact .store process address data stackPointer limit access hstore
  | destroy process =>
    obtain ⟨⟨released, m₁⟩, hdestroy, h⟩ := Outcome.bind_eq_ok_iff.1 h
    cases h
    obtain ⟨⟨m₁, hsame, htorn⟩, hslots⟩ := destroy_cases hdestroy hs
    exact .destroy process released m₁ hsame htorn hslots
  | pin frame =>
    obtain ⟨m₁, hpin, h⟩ := Outcome.bind_eq_ok_iff.1 h
    cases h
    obtain ⟨hall, hm⟩ := pin_cases hpin
    exact .pin frame hall hm
  | unpin frame =>
    obtain ⟨m₁, hunpin, h⟩ := Outcome.bind_eq_ok_iff.1 h
    cases h
    obtain ⟨hall, hm⟩ := unpin_cases hunpin
    exact .unpin frame hall hm
  | pickVictim =>
    cases h
    exact .pickVictim _ rfl
  | refuse process pages =>
    cases h
    exact .refuse process pages rfl

theorem sound_setEntry {frame : Frame} {pinned : Bool} (hs : m.Sound none)
    (hall : m.frames.pool.isAllocated frame = true) :
    Sound { m with frames := { m.frames with
      pool := m.frames.pool.setEntry frame { allocated := true, pinned := pinned } } } none := by
  refine hs.of_views rfl rfl ?_ ?_ (fun _ => rfl) (fun _ => rfl) (fun _ => rfl)
    (fun _ _ _ => rfl)
  · exact Pool.Counted.setPinned hs.linked.counted (Pool.setPinned_of_isAllocated hall)
  · intro g
    refine (Pool.isAllocated_setEntry _ (Pool.lt_of_isAllocated hall)).trans ?_
    by_cases hg : frame = g
    · subst hg; simp [hall]
    · rw [if_neg hg]

section

variable {pid : Nat} {traits : DirectoryTraits}

theorem space_spawn (p : Nat) : (m.spawn pid traits).space p =
    if p = m.spaces.size then { pid := pid, directory := .ofTraits traits } else m.space p :=
  AddressSpaces.get_push _ _ _

/-- The process number that the next process gets stands for an empty address space. -/
theorem space_size : m.space m.spaces.size = {} := by
  simp [space, AddressSpaces.get, AddressSpaces.size, AddressSpace.empty]

theorem record?_spawn (x : Owner) : (m.spawn pid traits).record? x = m.record? x := by
  rw [record?, record?, space_spawn]
  split
  · rename_i hp; rw [hp, space_size]
  · rfl

theorem translate_spawn (x : Owner) : (m.spawn pid traits).translate x = m.translate x := by
  rw [translate, translate, space_spawn]
  split
  · rename_i hp; rw [hp, space_size]; rfl
  · rfl

theorem flag_spawn (x : Owner) (fl : Flag) : (m.spawn pid traits).flag x fl = m.flag x fl := by
  rw [flag, flag, space_spawn]
  split
  · rename_i hp; rw [hp, space_size]; rfl
  · rfl

end

theorem sound_refuse {process : Nat} {pages : List Page} (hs : m.Sound none) :
    (m.setDirectory process
      { (m.space process).directory with refused := pages }).Sound none := by
  refine hs.of_views rfl rfl hs.linked.counted (fun _ => rfl) (fun _ => rfl)
    (fun x => record?_setDirectory _) ?_ ?_
  · intro x
    rw [translate_setDirectory]
    split
    · rename_i hp; rw [hp]; rfl
    · rfl
  · intro x fl _
    rw [flag_setDirectory]
    split
    · rename_i hp; rw [hp]; rfl
    · rfl

theorem Performed.sound {request : Request} {answer : Answer}
    (h : m.Performed m' request answer) (hs : m.Sound none) : m'.Sound none := by
  cases h with
  | spawn pid traits hm =>
    subst hm
    exact hs.of_views rfl rfl hs.linked.counted (fun _ => rfl) (fun _ => rfl) record?_spawn
      translate_spawn (fun x fl _ => flag_spawn x fl)
  | mapNewPage process page writable intruding result hmapped => exact hmapped.sound hs
  | mapSegment process segment result hmapped =>
    rcases hmapped with ⟨-, hadded⟩ | ⟨count, -, -, hadded⟩
    · exact hadded.sound nofun hs
    · exact hadded.sound Segment.unloaded_records hs
  | fault process fault result hhandled => exact hhandled.sound hs
  | load process address length stackPointer limit access hload =>
    exact (load_keeps (I := fun _ => True) (fun _ _ _ _ h => h) (fun _ _ _ _ _ h _ => h) hs
      trivial hload).1
  | store process address data stackPointer limit access hstore =>
    exact (store_keeps (I := fun _ => True) (fun _ _ _ _ h => h) (fun _ _ _ _ _ h _ => h) hs
      trivial hstore).1
  | destroy process released m₁ hsame htorn => exact htorn.sound (hsame.sound hs)
  | pin frame hallocated hm => subst hm; exact sound_setEntry hs hallocated
  | unpin frame hallocated hm => subst hm; exact sound_setEntry hs hallocated
  | pickVictim frame hpick => exact (pickVictim_cases hpick).1.sound hs
  | refuse process pages hm => subst hm; exact sound_refuse hs

/-! ## Runs -/

section

variable {requests : List Request} {answers : List Answer}

/-- What every request keeps while all records agree, requests one after the other keep, and the
    records go on agreeing. -/
theorem Sound.answerAll_keeps {P : Machine n → Prop} (hs : m.Sound none) (hm : P m)
    (hstep : ∀ m request answer m', request ∈ requests → m.Sound none → P m →
      m.Performed m' request answer → P m')
    (h : (Outcome.answerAll perform m requests).result = .ok (answers, m')) :
    m'.Sound none ∧ P m' := by
  refine Outcome.answerAll_keeps (I := fun m => m.Sound none ∧ P m) ?_ ⟨hs, hm⟩ h
  rintro m request answer m' hmem ⟨hs, hm⟩ hperform
  have hperformed := perform_cases hs hperform
  exact ⟨hperformed.sound hs, hstep m request answer m' hmem hs hm hperformed⟩

/-- Requests one after the other keep the records in agreement. -/
theorem Sound.answerAll (hs : m.Sound none)
    (h : (Outcome.answerAll perform m requests).result = .ok (answers, m')) : m'.Sound none :=
  (hs.answerAll_keeps (P := fun _ => True) trivial (fun _ _ _ _ _ _ _ _ => trivial) h).1

theorem run_iff : Run config n device requests answers m ↔
    (Outcome.answerAll perform (booted config n device) requests).result = .ok (answers, m) := by
  unfold Run
  rw [Outcome.bind_eq_ok_iff]
  constructor
  · rintro ⟨m₀, hboot, h⟩
    rwa [boot_eq_ok_iff.1 hboot] at h
  · exact fun h => ⟨_, boot_eq_ok_iff.2 rfl, h⟩

/-- Requests that do not stop the machine make up a run.  Anything `p` that the machine they
    leave behind computes to is known of it. -/
theorem exists_run (config : Config) (n : Nat) (device : Device) (requests : List Request)
    (p : Machine n → Bool)
    (h : ((Outcome.answerAll perform (booted config n device) requests).result.toOption.any
      (p ·.2)) = true) :
    ∃ answers m, Run config n device requests answers m ∧ p m = true := by
  obtain ⟨⟨answers, m⟩, hperform, hp⟩ := Outcome.exists_of_any h
  exact ⟨answers, m, run_iff.2 hperform, hp⟩

/-- A run goes on with the requests that the machine it leaves carries out. -/
theorem Run.append {later : List Request} {others : List Answer}
    (h : Run config n device requests answers m)
    (hlater : (Outcome.answerAll perform m later).result = .ok (others, m')) :
    Run config n device (requests ++ later) (answers ++ others) m' :=
  run_iff.2 (Outcome.answerAll_append (run_iff.1 h) hlater)

theorem Run.snoc {request : Request} {answer : Answer}
    (h : Run config n device requests answers m)
    (hperform : (m.perform request).result = .ok (answer, m')) :
    Run config n device (requests ++ [request]) (answers ++ [answer]) m' :=
  h.append (Outcome.answerAll_cons_iff.2 ⟨answer, m', [], hperform, rfl, rfl⟩)

/-- After any run, all records agree. -/
theorem Run.sound (h : Run config n device requests answers m) : m.Sound none :=
  sound_booted.answerAll (run_iff.1 h)

/-- What holds at start-up and is kept by every request while all records agree holds after a
    run. -/
theorem Run.keeps {P : Machine n → Prop} (h : Run config n device requests answers m)
    (hstart : P (booted config n device))
    (hstep : ∀ m request answer m', request ∈ requests → m.Sound none → P m →
      m.Performed m' request answer → P m') : P m :=
  (sound_booted.answerAll_keeps hstart hstep (run_iff.1 h)).2

end

end DemandPaging.Machine
