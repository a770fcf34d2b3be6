/-
  Demand paging is transparent: the processes see a flat memory.

  * `FlatMemory.Step` says what a request does to flat memory, without frames,
    slots or evictions, and `FlatMemory.Run` chains it over requests;
  * `Step.of_stored` and `Step.of_loaded`: what stores and loads do that are carried
    out;
  * `Performed.flat_step`: every request does to the flat memory of a sound machine
    what `FlatMemory.Step` allows;
  * `run_transparent`: a run of the machine is a run of flat memory.
-/
import DemandPaging.Proofs.Steady

namespace DemandPaging

/-! ## Requests to flat memory -/

/-- What a request does to flat memory, and how it is answered.  The stack may grow while a
    process loads or stores: `faults` are the addresses at which the access faulted. -/
inductive FlatMemory.Step (config : Config) (memory : FlatMemory) :
    Request → Answer → FlatMemory → Prop where
  | spawn (pid process : Nat) (traits : DirectoryTraits)
      (hnew : ∀ page, memory ⟨process, page⟩ = none) :
      Step config memory (.spawn pid traits) (.spawned process) memory
  | newPage (process : Nat) (page : Page) (writable : Bool)
      (habsent : memory ⟨process, page⟩ = none) :
      Step config memory (.mapNewPage process page writable false) .done
        (memory.addZeros ⟨process, page⟩)
  | noPage (process : Nat) (page : Page) (writable intruding : Bool) (e : Error) :
      Step config memory (.mapNewPage process page writable intruding) (.failed e) memory
  | intruder (process : Nat) (page : Page) (writable : Bool) (e : Error)
      (habsent : memory ⟨process, page⟩ = none) :
      Step config memory (.mapNewPage process page writable true) (.failed e)
        (memory.addZeros ⟨process, page⟩)
  | segment (process : Nat) (segment : Segment)
      (hwhole : (segment.fileBytes + segment.zeroBytes) % pageSize = 0)
      (habsent : ∀ page, segment.Covers page → memory ⟨process, page⟩ = none) :
      Step config memory (.mapSegment process segment) .done (memory.addSegment process segment)
  | noSegment (process : Nat) (segment : Segment) (e : Error) :
      Step config memory (.mapSegment process segment) (.failed e) memory
  | fault (process : Nat) (fault : PageFault) (result : Except Error Unit) :
      Step config memory (.fault process fault) (.ofResult result)
        (memory.fault config process fault.stackPointer fault.address)
  | loaded (process address length stackPointer limit : Nat) (faults : List Nat) (bytes : Bytes)
      (hfaults : ∀ a ∈ faults, address ≤ a ∧ a < address + length) (hsize : bytes.size = length)
      (hbytes : ∀ i, i < length →
        (memory.faults config process stackPointer faults).byte? process (address + i) =
          bytes[i]?) :
      Step config memory (.load process address length stackPointer limit)
        (.loaded (.done faults.length bytes)) (memory.faults config process stackPointer faults)
  | notLoaded (process address length stackPointer limit : Nat) (faults : List Nat)
      (access : UserAccess Bytes) (hfaults : ∀ a ∈ faults, address ≤ a ∧ a < address + length)
      (hended : (∃ e, access = .failed faults.length e) ∨ access = .gaveUp faults.length) :
      Step config memory (.load process address length stackPointer limit) (.loaded access)
        (memory.faults config process stackPointer faults)
  | stored (process address : Nat) (data : Bytes) (stackPointer limit : Nat) (faults : List Nat)
      (hfaults : ∀ a ∈ faults, address ≤ a ∧ a < address + data.size)
      (hpages : ∀ i, i < data.size →
        ((memory.faults config process stackPointer faults).byte? process
          (address + i)).isSome = true) :
      Step config memory (.store process address data stackPointer limit)
        (.stored (.done faults.length data.size))
        ((memory.faults config process stackPointer faults).store process address data data.size)
  | partlyStored (process address : Nat) (data : Bytes) (stackPointer limit : Nat)
      (faults : List Nat) (count : Nat) (access : UserAccess Nat)
      (hfaults : ∀ a ∈ faults, address ≤ a ∧ a < address + data.size)
      (hcount : count < data.size)
      (hpages : ∀ i, i < count →
        ((memory.faults config process stackPointer faults).byte? process
          (address + i)).isSome = true)
      (hended : (∃ e, access = .failed faults.length e) ∨ access = .gaveUp faults.length) :
      Step config memory (.store process address data stackPointer limit) (.stored access)
        ((memory.faults config process stackPointer faults).store process address data count)
  | destroyed (process : Nat) (released : Released) :
      Step config memory (.destroy process) (.released released) (memory.remove process)
  | pin (frame : Frame) : Step config memory (.pin frame) .done memory
  | unpin (frame : Frame) : Step config memory (.unpin frame) .done memory
  | pickVictim (frame : Option Frame) : Step config memory .pickVictim (.victim frame) memory
  | refuse (process : Nat) (pages : List Page) :
      Step config memory (.refuse process pages) .done memory

/-- Requests to flat memory, one after the other. -/
inductive FlatMemory.Run (config : Config) :
    FlatMemory → List Request → List Answer → FlatMemory → Prop where
  | done (memory : FlatMemory) : Run config memory [] [] memory
  | step (memory next last : FlatMemory) (request : Request) (answer : Answer)
      (requests : List Request) (answers : List Answer)
      (hstep : FlatMemory.Step config memory request answer next)
      (hrest : Run config next requests answers last) :
      Run config memory (request :: requests) (answer :: answers) last

namespace FlatMemory

variable {config : Config} {memory next last : FlatMemory} {answer : Answer}
  {requests : List Request} {answers : List Answer} {pid process faults count : Nat}
  {traits : DirectoryTraits} {page : Page} {writable intruding : Bool} {data bytes found : Bytes}
  {address length stackPointer limit : Nat}

/-! ## Requests that are carried out -/

/-- A store that is carried out replaces all the bytes, some of which may be in pages that the
    stack grew by. -/
theorem Step.of_stored (h : Step config memory (.store process address data stackPointer limit)
    (.stored (.done faults count)) next) : ∃ addresses, addresses.length = faults ∧
      next = (memory.faults config process stackPointer addresses).store process address data
        data.size := by
  cases h with
  | stored _ _ _ _ _ addresses => exact ⟨addresses, rfl, rfl⟩
  | partlyStored _ _ _ _ _ addresses _ _ _ _ _ hended =>
    rcases hended with ⟨_, h⟩ | h <;> cases h

/-- A load that is carried out from pages that are there yields their bytes. -/
theorem Step.of_loaded (h : Step config memory (.load process address length stackPointer limit)
      (.loaded (.done faults bytes)) next)
    (hthere : ∀ i, i < length → (memory.byte? process (address + i)).isSome = true) :
    bytes.size = length ∧ ∀ i, i < length → bytes[i]? = memory.byte? process (address + i) := by
  cases h with
  | loaded _ _ _ _ _ addresses _ hfaults hsize hbytes =>
    exact ⟨hsize, fun i hi => (hbytes i hi).symm.trans (byte?_faults addresses (hthere i hi))⟩
  | notLoaded _ _ _ _ _ addresses _ hfaults hended =>
    rcases hended with ⟨_, h⟩ | h <;> cases h

theorem Step.loaded_eq (h : Step config memory (.load process address length stackPointer limit)
      (.loaded (.done faults bytes)) next) (hsize : found.size = length)
    (hfound : ∀ i, i < length → memory.byte? process (address + i) = found[i]?) :
    bytes = found := by
  obtain ⟨hloaded, hbytes⟩ := h.of_loaded fun i hi => by
    rw [hfound i hi, Array.getElem?_eq_getElem (by omega), Option.isSome_some]
  refine Array.ext_getElem? fun i => ?_
  by_cases hi : i < length
  · rw [hbytes i hi, hfound i hi]
  · rw [Array.getElem?_eq_none (by omega), Array.getElem?_eq_none (by omega)]

/-! ## Runs, request by request -/

theorem Run.of_nil (h : Run config memory [] answers last) : last = memory := by
  cases h with
  | done => rfl

theorem Run.of_spawn (h : Run config memory (.spawn pid traits :: requests) (answer :: answers)
    last) : Run config memory requests answers last := by
  cases h with
  | step _ _ _ _ _ _ _ hstep hrest =>
    cases hstep with
    | spawn => exact hrest

theorem Run.of_newPage (h : Run config memory (.mapNewPage process page writable intruding ::
    requests) (.done :: answers) last) :
    Run config (memory.addZeros ⟨process, page⟩) requests answers last := by
  cases h with
  | step _ _ _ _ _ _ _ hstep hrest =>
    cases hstep with
    | newPage => exact hrest

/-- The stack does not grow in the course of a store that does not fault. -/
theorem Run.of_store (h : Run config memory (.store process address data stackPointer limit ::
    requests) (.stored (.done 0 count) :: answers) last) :
    Run config (memory.store process address data data.size) requests answers last := by
  cases h with
  | step _ _ _ _ _ _ _ hstep hrest =>
    obtain ⟨addresses, hnone, rfl⟩ := hstep.of_stored
    obtain rfl := List.length_eq_zero_iff.1 hnone
    exact hrest

end FlatMemory

namespace Machine

variable {n : Nat} {m m' : Machine n} {process : Nat} {config : Config}

/-! ## Faults and segments -/

theorem Handled.flat_fault {fault : PageFault} {res : Except Error Unit}
    (h : m.Handled m' process fault res) (hs : m.Sound none) :
    m'.flat = FlatMemory.fault m.flat m.config process fault.stackPointer fault.address := by
  have hgrows : m.StackGrows process fault ↔ isUserAddress fault.address = true ∧
      m.flat ⟨process, .containing fault.address⟩ = none ∧
        m.config.isStackAccess fault.address fault.stackPointer = true := by
    rw [StackGrows, flat_eq_none]
  funext x
  obtain ⟨hzero, hsame⟩ := h.flat_eq hs x
  unfold FlatMemory.fault
  by_cases hg : m.StackGrows process fault
  · rw [if_pos (hgrows.1 hg)]
    unfold FlatMemory.addZeros
    split
    · rename_i hx; exact hzero ⟨hg, hx⟩
    · rename_i hx; exact hsame fun h => hx h.2
  · rw [if_neg fun h => hg (hgrows.2 h)]
    exact hsame fun h => hg h.1

/-- A page of a segment holds its bytes of the file, followed by zeros. -/
theorem contentsOf_segment (m : Machine n) (segment : Segment) (k : Nat) :
    m.contentsOf (segment.record k) = segment.contents k := by
  ext i hi
  have hsegment : (segment.contents k)[i] = if k * pageSize + i < segment.fileBytes then
      segment.file.getD (segment.offset + (k * pageSize + i)) 0 else 0 := by
    simp [Segment.contents]
  rw [hsegment]
  by_cases hpos : 0 < min (segment.fileBytes - k * pageSize) pageSize
  · simp only [Segment.record, Segment.recordAt, hpos, if_true, contentsOf,
      Contents.getElem_ofBytes, Bytes.readAt, Array.getD_eq_getD_getElem?, Array.getElem?_extract]
    by_cases hin : k * pageSize + i < segment.fileBytes
    · have hidx : segment.offset + k * pageSize + i = segment.offset + (k * pageSize + i) := by
        omega
      rw [if_pos hin, hidx]
      split
      · rfl
      · rename_i hout
        rw [Array.getElem?_eq_none (by omega)]
    · rw [if_neg hin, if_neg (by omega)]
      rfl
  · simp only [Segment.record, Segment.recordAt, hpos, if_false, contentsOf, Contents.getElem_zero]
    rw [if_neg (by omega)]

theorem flat_addSegment {segment : Segment} {count : Nat}
    (hcount : count * pageSize = segment.fileBytes + segment.zeroBytes)
    (h : m.Added m' fun x => if process = x.process then segment.records count x.page else none) :
    m'.flat = FlatMemory.addSegment m.flat process segment ∧
      ∀ page, segment.Covers page → m.flat ⟨process, page⟩ = none := by
  have hdiv : (segment.fileBytes + segment.zeroBytes) / pageSize = count := by
    rw [← hcount]; exact Nat.mul_div_cancel _ (by decide)
  have hcovers : ∀ page, segment.Covers page → segment.records count page =
      some (segment.record (page.number - segment.base.number)) := by
    intro page hin
    unfold Segment.Covers at hin
    rw [hdiv] at hin
    rw [Segment.records, if_pos hin]
  constructor
  · funext x
    rw [h.flat_eq, FlatMemory.addSegment]
    by_cases hp : process = x.process
    · by_cases hin : segment.Covers x.page
      · rw [if_pos hp, if_pos ⟨hp, hin⟩, hcovers _ hin]
        exact congrArg some (m.contentsOf_segment segment _)
      · have hout := hin
        unfold Segment.Covers at hout
        rw [hdiv] at hout
        rw [if_pos hp, if_neg fun h => hin h.2, Segment.records, if_neg hout]
        rfl
    · rw [if_neg hp, if_neg fun h => hp h.1]
      rfl
  · intro page hin
    exact flat_eq_none.2 (h.absent ⟨process, page⟩ _ ((if_pos rfl).trans (hcovers page hin)))

/-! ## Loads and stores -/

section

variable {limit address length stackPointer : Nat} {before : FlatMemory}

theorem faults_append (memory : FlatMemory) (faults : List Nat) (a : Nat) :
    memory.faults config process stackPointer (faults ++ [a]) =
      (memory.faults config process stackPointer faults).fault config process stackPointer a := by
  simp [FlatMemory.faults]

theorem load_flat_step {access : UserAccess Bytes}
    (h : (m.load limit process address length stackPointer).result = .ok (access, m'))
    (hs : m.Sound none) :
    FlatMemory.Step m.config m.flat (.load process address length stackPointer limit)
      (.loaded access) m'.flat := by
  -- before every attempt, the stack has grown by the faults so far
  let P : Nat → Machine n → Prop := fun k m₁ =>
    m₁.Sound none ∧ m₁.config = m.config ∧ ∃ faults : List Nat, faults.length = k ∧
      (∀ a ∈ faults, address ≤ a ∧ a < address + length) ∧
        m₁.flat = FlatMemory.faults m.flat m.config process stackPointer faults
  have hnext : ∀ k m₁ fault m₂ res m₃, P k m₁ →
      (m₁.tryLoad process address length).result = .ok (.error fault, m₂) →
      (m₂.handleFault process ⟨fault.address, fault.write, stackPointer⟩).result = .ok (res, m₃) →
      P (k + 1) m₃ := by
    rintro k m₁ fault m₂ res m₃ ⟨hs₁, hconfig, faults, rfl, hfaults, hflat⟩ htry hhandle
    obtain ⟨-, hsame, ⟨_, hres, -⟩ | ⟨i, hi, hres⟩⟩ := tryLoad_cases htry hs₁
    · cases hres
    · cases hres
      have hhandled := handleFault_cases hhandle
      have hs₂ := hsame.sound hs₁
      have hconfig₂ := hsame.config_eq.trans hconfig
      refine ⟨hhandled.sound hs₂, hhandled.sameSetup.config_eq.trans hconfig₂,
        faults ++ [address + i], by simp, ?_, ?_⟩
      · intro a ha
        rcases List.mem_append.1 ha with ha | ha
        · exact hfaults a ha
        · obtain rfl := List.mem_singleton.1 ha
          omega
      · rw [hhandled.flat_fault hs₂, hsame.flat_eq, hflat, hconfig₂, faults_append]
  refine retry_cases (P := P) (Q := fun access m' => FlatMemory.Step m.config m.flat
    (.load process address length stackPointer limit) (.loaded access) m'.flat)
    ?_ ?_ ?_ ?_ ⟨hs, rfl, [], rfl, nofun, rfl⟩ h
  · rintro k m₁ bytes m₂ ⟨hs₁, -, faults, rfl, hfaults, hflat⟩ htry
    obtain ⟨-, hsame, ⟨_, hres, hsize, hbytes⟩ | ⟨_, -, hres⟩⟩ := tryLoad_cases htry hs₁
    · cases hres
      rw [hsame.flat_eq, hflat]
      rw [hflat] at hbytes
      exact .loaded process address length stackPointer limit faults bytes hfaults hsize hbytes
    · cases hres
  · rintro k m₁ fault m₂ ⟨hs₁, -, faults, rfl, hfaults, hflat⟩ htry
    obtain ⟨-, hsame, -⟩ := tryLoad_cases htry hs₁
    rw [hsame.flat_eq, hflat]
    exact .notLoaded process address length stackPointer limit faults _ hfaults (.inr rfl)
  · rintro k m₁ fault m₂ e m₃ hP htry hhandle
    obtain ⟨-, -, faults, hk, hfaults, hflat⟩ := hnext k m₁ fault m₂ _ m₃ hP htry hhandle
    rw [hflat, ← hk]
    exact .notLoaded process address length stackPointer limit faults _ hfaults (.inl ⟨e, rfl⟩)
  · exact fun k m₁ fault m₂ m₃ => hnext k m₁ fault m₂ _ m₃

theorem store_flat_step {data : Bytes} {access : UserAccess Nat}
    (h : (m.store limit process address data stackPointer).result = .ok (access, m'))
    (hs : m.Sound none) :
    FlatMemory.Step m.config m.flat (.store process address data stackPointer limit)
      (.stored access) m'.flat := by
  -- before every attempt, the stack has grown by the faults so far, and a prefix of the data is
  -- stored: the longest that any attempt came to
  let P : Nat → Machine n → Prop := fun k m₁ =>
    m₁.Sound none ∧ m₁.config = m.config ∧ ∃ (faults : List Nat) (count : Nat),
      faults.length = k ∧ (∀ a ∈ faults, address ≤ a ∧ a < address + data.size) ∧
      m₁.flat = (FlatMemory.faults m.flat m.config process stackPointer faults).store process
        address data count ∧
      (count = 0 ∨ count < data.size) ∧
      ∀ i, i < count → ((FlatMemory.faults m.flat m.config process stackPointer faults).byte?
        process (address + i)).isSome = true
  have hnext : ∀ k m₁ fault m₂ res m₃, P k m₁ →
      (m₁.tryStore process address data).result = .ok (.error fault, m₂) →
      (m₂.handleFault process ⟨fault.address, fault.write, stackPointer⟩).result = .ok (res, m₃) →
      P (k + 1) m₃ ∧ 0 < data.size := by
    rintro k m₁ fault m₂ res m₃ ⟨hs₁, hconfig, faults, count, rfl, hfaults, hflat, hcount, hpages⟩
      htry hhandle
    obtain ⟨⟨directory, memory, hm₂, htraits⟩, hs₂, i, hflat₂, hpages₂, hend⟩ :=
      tryStore_cases htry hs₁ hflat
    rcases hend with ⟨hres, -⟩ | ⟨hres, hi⟩
    · cases hres
    · cases hres
      have hhandled := handleFault_cases hhandle
      have hconfig₂ : m₂.config = m.config := by rw [hm₂]; exact hconfig
      have hmax : ∀ j, j < max count i → ((FlatMemory.faults m.flat m.config process stackPointer
          faults).byte? process (address + j)).isSome = true := by
        intro j hj
        rcases Nat.lt_or_ge j count with hlt | hge
        · exact hpages j hlt
        · exact hpages₂ j (by omega)
      refine ⟨⟨hhandled.sound hs₂, hhandled.sameSetup.config_eq.trans hconfig₂,
        faults ++ [address + i], max count i, by simp, ?_, ?_, by omega, ?_⟩, by omega⟩
      · intro a ha
        rcases List.mem_append.1 ha with ha | ha
        · exact hfaults a ha
        · obtain rfl := List.mem_singleton.1 ha
          omega
      · rw [hhandled.flat_fault hs₂, hflat₂, hconfig₂, faults_append, FlatMemory.fault_store hmax]
      · intro j hj
        rw [faults_append]
        exact FlatMemory.isSome_byte?_fault (hmax j hj)
  refine retry_cases (P := P) (Q := fun access m' => FlatMemory.Step m.config m.flat
    (.store process address data stackPointer limit) (.stored access) m'.flat)
    ?_ ?_ ?_ ?_ ⟨hs, rfl, [], 0, rfl, nofun, FlatMemory.store_zero.symm, .inl rfl, nofun⟩ h
  · rintro k m₁ v m₂ ⟨hs₁, -, faults, count, rfl, hfaults, hflat, hcount, -⟩ htry
    obtain ⟨-, -, i, hflat₂, hpages, ⟨hres, rfl⟩ | ⟨hres, -⟩⟩ := tryStore_cases htry hs₁ hflat
    · cases hres
      rw [hflat₂, Nat.max_eq_right (by omega)]
      exact .stored process address data stackPointer limit faults hfaults hpages
    · cases hres
  · rintro k m₁ fault m₂ ⟨hs₁, -, faults, count, rfl, hfaults, hflat, hcount, hpages⟩ htry
    obtain ⟨-, -, i, hflat₂, hpages₂, ⟨hres, -⟩ | ⟨hres, hi⟩⟩ := tryStore_cases htry hs₁ hflat
    · cases hres
    · rw [hflat₂]
      refine .partlyStored process address data stackPointer limit faults _ _ hfaults (by omega)
        (fun j hj => ?_) (.inr rfl)
      rcases Nat.lt_or_ge j count with hlt | hge
      · exact hpages j hlt
      · exact hpages₂ j (by omega)
  · rintro k m₁ fault m₂ e m₃ hP htry hhandle
    obtain ⟨⟨-, -, faults, count, hk, hfaults, hflat, hcount, hpages⟩, hpos⟩ :=
      hnext k m₁ fault m₂ _ m₃ hP htry hhandle
    rw [hflat, ← hk]
    exact .partlyStored process address data stackPointer limit faults count _ hfaults (by omega)
      hpages (.inl ⟨e, rfl⟩)
  · exact fun k m₁ fault m₂ m₃ hP htry hhandle => (hnext k m₁ fault m₂ _ m₃ hP htry hhandle).1

end

/-! ## All requests -/

theorem flat_spawn {pid : Nat} {traits : DirectoryTraits} :
    (m.spawn pid traits).flat = m.flat := by
  funext x
  rw [flat, flat, record?_spawn]
  rfl

theorem flat_refuse {pages : List Page} : (m.setDirectory process
    { (m.space process).directory with refused := pages }).flat = m.flat := by
  funext x
  rw [flat, flat, record?_setDirectory]
  rfl

theorem Performed.flat_step {request : Request} {answer : Answer}
    (h : m.Performed m' request answer) (hs : m.Sound none) :
    FlatMemory.Step m.config m.flat request answer m'.flat := by
  cases h with
  | spawn pid traits hm =>
    subst hm
    rw [flat_spawn]
    refine .spawn pid _ traits fun page => flat_eq_none.2 ?_
    rw [record?, space_size]
    rfl
  | mapNewPage process page writable intruding result hmapped =>
    rcases hmapped.flat_eq hs with ⟨⟨e, rfl, -⟩, hflat⟩ | ⟨hr, hwhy, hflat⟩
    · rw [hflat]
      exact .noPage process page writable intruding e
    · have hadded : m'.flat = FlatMemory.addZeros m.flat ⟨process, page⟩ := funext hflat
      have habsent := flat_eq_none.2 hr
      rw [hadded]
      rcases hwhy with ⟨rfl, hnone⟩ | ⟨rfl, hsome⟩
      · obtain rfl : intruding = false := by simpa using hnone
        exact .newPage process page writable habsent
      · obtain rfl : intruding = true := by simpa using hsome
        exact .intruder process page writable _ habsent
  | mapSegment process segment result hmapped =>
    rcases hmapped with ⟨rfl, hadded⟩ | ⟨count, hcount, rfl, hadded⟩
    · have hflat : m'.flat = m.flat := by
        funext x
        rw [hadded.flat_eq]
        rfl
      rw [hflat]
      exact .noSegment process segment _
    · obtain ⟨hflat, habsent⟩ := flat_addSegment hcount hadded
      rw [hflat]
      exact .segment process segment (by rw [← hcount]; exact Nat.mul_mod_left _ _) habsent
  | fault process fault result hhandled =>
    rw [hhandled.flat_fault hs]
    exact .fault process fault result
  | load process address length stackPointer limit access hload => exact load_flat_step hload hs
  | store process address data stackPointer limit access hstore => exact store_flat_step hstore hs
  | destroy process released m₁ hsame htorn =>
    have hflat : m'.flat = FlatMemory.remove m.flat process := by
      funext x
      rw [htorn.flat_eq, hsame.flat_eq]
      rfl
    rw [hflat]
    exact .destroyed process released
  | pin frame hallocated hm => subst hm; exact .pin frame
  | unpin frame hallocated hm => subst hm; exact .unpin frame
  | pickVictim frame hpick =>
    rw [(pickVictim_cases hpick).1.flat_eq]
    exact .pickVictim frame
  | refuse process pages hm =>
    rw [hm, flat_refuse]
    exact .refuse process pages

theorem flat_run {requests : List Request} {answers : List Answer} (hs : m.Sound none)
    (h : (Outcome.answerAll perform m requests).result = .ok (answers, m')) :
    FlatMemory.Run m.config m.flat requests answers m'.flat := by
  induction requests generalizing m answers with
  | nil => cases h; exact .done _
  | cons request rest ih =>
    obtain ⟨answer, m₁, others, hrequest, hrest, rfl⟩ := Outcome.answerAll_cons_iff.1 h
    have hperformed := perform_cases hs hrequest
    have hrun := ih (hperformed.sound hs) hrest
    rw [hperformed.config_eq hs] at hrun
    exact .step _ _ _ request answer rest others (hperformed.flat_step hs) hrun

theorem flat_booted {device : Device} : (booted config n device).flat = FlatMemory.empty := by
  funext x
  exact flat_eq_none.2 (record?_booted x)

/-- Whatever the frames, the swap device and the processes are, a run of requests does to what
    the pages hold, and answers, what it does without paging; and so does every request after
    it.  Pages in a frame hold what the frame holds, those in swap what their slot holds, pages
    of a file their span of it followed by zeros, and pages not touched yet are zeros. -/
theorem run_transparent {device : Device} {requests : List Request} {answers : List Answer}
    (h : Run config n device requests answers m) :
    FlatMemory.Run config FlatMemory.empty requests answers m.flat ∧
      ∀ request answer m', (m.perform request).result = .ok (answer, m') →
        FlatMemory.Step config m.flat request answer m'.flat := by
  have hs := h.sound
  constructor
  · have hflat := flat_run sound_booted (run_iff.1 h)
    rwa [flat_booted] at hflat
  · intro request answer m' hperform
    have hstep := (perform_cases hs hperform).flat_step hs
    rwa [h.config_eq] at hstep

/-- With a single frame, a page that was stored to goes to swap and comes back for a load, which
    yields the bytes stored. -/
theorem run_transparent_oneFrame : ∃ m m' : Machine 1,
    Run {} 1 (.inMemory 2) [.spawn 0 {}, .mapNewPage 0 ⟨0⟩ true false, .store 0 1 #[7, 8] 0 0,
      .mapNewPage 0 ⟨1⟩ true false] [.spawned 0, .done, .stored (.done 0 2), .done] m ∧
    FlatMemory.Run {} FlatMemory.empty [.spawn 0 {}, .mapNewPage 0 ⟨0⟩ true false,
      .store 0 1 #[7, 8] 0 0, .mapNewPage 0 ⟨1⟩ true false]
      [.spawned 0, .done, .stored (.done 0 2), .done] m.flat ∧
    m.status? ⟨0, ⟨0⟩⟩ = some (.swapped ⟨0⟩) ∧
    (m.perform (.load 0 0 4 0 2)).result = .ok (.loaded (.done 1 #[0, 7, 8, 0]), m') ∧
    FlatMemory.Step {} m.flat (.load 0 0 4 0 2) (.loaded (.done 1 #[0, 7, 8, 0])) m'.flat := by
  have hruns : (Outcome.answerAll perform (booted {} 1 (.inMemory 2)) [.spawn 0 {},
      .mapNewPage 0 ⟨0⟩ true false, .store 0 1 #[7, 8] 0 0,
      .mapNewPage 0 ⟨1⟩ true false]).result.toOption.any (fun done =>
        done.1 = [.spawned 0, .done, .stored (.done 0 2), .done] ∧
        done.2.status? ⟨0, ⟨0⟩⟩ = some (.swapped ⟨0⟩) ∧
        (done.2.perform (.load 0 0 4 0 2)).result.toOption.any fun loaded =>
          (loaded.1.loaded?.map Prod.fst) = some 1) = true := by
    decide +kernel
  obtain ⟨⟨answers, m⟩, hperform, hp⟩ := Outcome.exists_of_any hruns
  obtain ⟨rfl, hswapped, hany⟩ := of_decide_eq_true hp
  obtain ⟨⟨answer, m'⟩, hload, hanswer⟩ := Outcome.exists_of_any hany
  obtain ⟨⟨_, bytes⟩, hloaded, rfl⟩ := Option.map_eq_some_iff.1 (of_decide_eq_true hanswer)
  obtain rfl := Answer.loaded?_eq_some_iff.1 hloaded
  have h := run_iff.2 hperform
  obtain ⟨hflat, hstep⟩ := run_transparent h
  have hmemory : m.flat = ((FlatMemory.empty.addZeros ⟨0, ⟨0⟩⟩).store 0 1 #[7, 8] 2).addZeros
      ⟨0, ⟨1⟩⟩ := hflat.of_spawn.of_newPage.of_store.of_newPage.of_nil
  have hsteps := hstep _ _ _ hload
  obtain rfl : bytes = #[0, 7, 8, 0] := hsteps.loaded_eq rfl fun i hi => by
    rw [hmemory, FlatMemory.byte?_addZeros, FlatMemory.byte?_store, FlatMemory.byte?_addZeros]
    decide +revert
  exact ⟨m, m', h, hflat, hswapped, hload, hsteps⟩

end Machine

end DemandPaging
