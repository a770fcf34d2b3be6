/-
  Isolation: nobody learns what a process stores, nor what is in files that only
  that process maps.

  The same requests are made of two machines, except that one process stores other
  bytes and maps files with other bytes.  Both machines take the same steps
  (`Machine.Alike`), and the pages of the other processes hold the same.

  * `Request.SameBut` and `Answer.SameBut`: what may differ between the two runs;
  * `SameBut.handleFault`, `SameBut.retry` and the other requests: each keeps the
    pages of the others the same;
  * `run_isolated`: so does every run.
-/
import DemandPaging.Proofs.Lockstep
import DemandPaging.Proofs.Transparency

namespace DemandPaging

/-! ## Requests and answers -/

/-- Two requests differ at most in the bytes that the process `secret` stores, or in those of a
    file that it maps. -/
inductive Request.SameBut (secret : Nat) : Request → Request → Prop where
  | same (request : Request) : SameBut secret request request
  | stored (address : Nat) (data data' : Bytes) (stackPointer limit : Nat)
      (hsize : data.size = data'.size) :
      SameBut secret (.store secret address data stackPointer limit)
        (.store secret address data' stackPointer limit)
  | mapped (segment segment' : Segment) (hsegment : segment.Alike segment') :
      SameBut secret (.mapSegment secret segment) (.mapSegment secret segment')

/-- Two answers to a request differ at most in the bytes that the process `secret` loads. -/
inductive Answer.SameBut (secret : Nat) : Request → Answer → Answer → Prop where
  | same (request : Request) (answer : Answer) : SameBut secret request answer answer
  | loaded (address length stackPointer limit faults : Nat) (bytes bytes' : Bytes)
      (hsize : bytes.size = bytes'.size) :
      SameBut secret (.load secret address length stackPointer limit)
        (.loaded (.done faults bytes)) (.loaded (.done faults bytes'))

/-- Two answers to each of the requests differ at most in the bytes that the process `secret`
    loads. -/
inductive Answer.AllSameBut (secret : Nat) : List Request → List Answer → List Answer → Prop where
  | nil : AllSameBut secret [] [] []
  | cons (request : Request) (answer answer' : Answer) (requests : List Request)
      (answers answers' : List Answer) (h : Answer.SameBut secret request answer answer')
      (hrest : AllSameBut secret requests answers answers') :
      AllSameBut secret (request :: requests) (answer :: answers) (answer' :: answers')

/-- Two accesses ended in the same way, with values that are related. -/
inductive UserAccess.Rel {α : Type} (R : α → α → Prop) : UserAccess α → UserAccess α → Prop where
  | done (faults : Nat) (a b : α) (h : R a b) : Rel R (.done faults a) (.done faults b)
  | failed (faults : Nat) (error : Error) : Rel R (.failed faults error) (.failed faults error)
  | gaveUp (faults : Nat) : Rel R (.gaveUp faults) (.gaveUp faults)

/-! ## Flat memory, page by page -/

namespace FlatMemory

variable {memory memory' : FlatMemory} {process : Nat} {o x : Owner}

theorem addZeros_congr (h : memory x = memory' x) : memory.addZeros o x = memory'.addZeros o x := by
  unfold addZeros
  rw [h]

theorem fault_congr (config : Config) (stackPointer address : Nat) (h : memory x = memory' x) :
    memory.fault config process stackPointer address x =
      memory'.fault config process stackPointer address x := by
  unfold fault
  by_cases ho : (⟨process, .containing address⟩ : Owner) = x
  · rw [ho, h]
    split
    · exact addZeros_congr h
    · exact h
  · -- it is not the page of the fault
    have hother : ∀ f : FlatMemory, f.addZeros ⟨process, .containing address⟩ x = f x :=
      fun f => if_neg ho
    split <;> split <;> simp only [hother, h]

theorem store_congr (address : Nat) (data : Bytes) (count : Nat) (h : memory x = memory' x) :
    memory.store process address data count x = memory'.store process address data count x := by
  unfold store
  rw [h]

theorem store_of_ne (address : Nat) (data : Bytes) (count : Nat) (h : process ≠ x.process) :
    memory.store process address data count x = memory x := by
  unfold store
  cases memory x with
  | none => rfl
  | some contents =>
    simp only [Option.map_some, Option.some.injEq]
    ext i hi
    rw [Vector.getElem_ofFn, if_neg fun hin => h hin.1]

theorem addSegment_congr (segment : Segment) (h : memory x = memory' x) :
    memory.addSegment process segment x = memory'.addSegment process segment x := by
  unfold addSegment
  rw [h]

theorem addSegment_of_ne (segment : Segment) (h : process ≠ x.process) :
    memory.addSegment process segment x = memory x :=
  if_neg fun hin => h hin.1

end FlatMemory

namespace Machine

variable {n : Nat} {m m' m₁ m₁' : Machine n} {secret process : Nat} {o x : Owner}

/-! ## Machines with one secret -/

/-- Two machines differ at most in what the pages of the process `secret` hold. -/
structure SameBut (secret : Nat) (m m' : Machine n) : Prop where
  alike : m.Alike m'
  sound : m.Sound none
  sound' : m'.Sound none
  flat_eq : ∀ x, x.process ≠ secret → m.flat x = m'.flat x

theorem Alike.record?_eq_none_iff (h : m.Alike m') (o : Owner) :
    m.record? o = none ↔ m'.record? o = none := by
  unfold record?
  rcases (h.space o.process).table.get? o.page with ⟨hr, hr'⟩ | ⟨record, record', hr, hr', -⟩
  · rw [hr, hr']
  · rw [hr, hr']
    exact ⟨nofun, nofun⟩

/-- Whether a page of zeros is new can be told from the answer and the record of the page. -/
theorem MappedNew.flat_congr {writable : Bool} {intruder : Option Bool} {res : Except Error Unit}
    (h : m.MappedNew m₁ o writable intruder res) (h' : m'.MappedNew m₁' o writable intruder res)
    (hs : m.Sound none) (hs' : m'.Sound none) (hr : m.record? o = none ↔ m'.record? o = none)
    (hx : m.flat x = m'.flat x) : m₁.flat x = m₁'.flat x := by
  rcases h.flat_eq hs with ⟨⟨e, rfl, hnot⟩, hflat⟩ | ⟨hnone, hwhy, hflat⟩ <;>
    rcases h'.flat_eq hs' with ⟨⟨e', he', hnot'⟩, hflat'⟩ | ⟨hnone', hwhy', hflat'⟩
  · rw [hflat, hflat', hx]
  · rcases hwhy' with ⟨he, -⟩ | ⟨he, -⟩
    · cases he
    · cases he
      exact absurd rfl (hnot (hr.2 hnone'))
  · rcases hwhy with ⟨rfl, -⟩ | ⟨rfl, -⟩
    · cases he'
    · cases he'
      exact absurd rfl (hnot' (hr.1 hnone))
  · rw [hflat, hflat', hx]

theorem flat_mapSegment {segment : Segment} {res : Except Error Unit}
    (h : (m.mapSegment process segment).result = .ok (res, m₁)) :
    res = .error .alreadyMapped ∧ m₁.flat = m.flat ∨
      res = .ok () ∧ m₁.flat = FlatMemory.addSegment m.flat process segment := by
  rcases mapSegment_cases h with ⟨rfl, hadded⟩ | ⟨count, hcount, rfl, hadded⟩
  · exact .inl ⟨rfl, funext fun x => hadded.flat_eq x⟩
  · exact .inr ⟨rfl, (flat_addSegment hcount hadded).1⟩

/-- The same answer, and machines that differ at most in what the pages of the process `secret`
    hold. -/
def AgreeBut {α : Type} (secret : Nat) (a b : α × Machine n) : Prop :=
  a.1 = b.1 ∧ a.2.SameBut secret b.2

namespace SameBut

theorem of_same (h : m.SameBut secret m') (halike : m₁.Alike m₁') (hs : m₁.Sound none)
    (hs' : m₁'.Sound none) (hflat : m₁.flat = m.flat) (hflat' : m₁'.flat = m'.flat) :
    m₁.SameBut secret m₁' :=
  ⟨halike, hs, hs', fun x hx => by rw [hflat, hflat', h.flat_eq x hx]⟩

theorem mapNewPage (h : m.SameBut secret m') (process : Nat) (page : Page)
    (writable intruding : Bool) :
    Outcome.Rel (AgreeBut secret) (m.mapNewPage process page writable intruding)
      (m'.mapNewPage process page writable intruding) := by
  refine (h.alike.mapNewPage process page writable intruding).imp ?_
  rintro ⟨res, m₁⟩ ⟨_, m₁'⟩ hmap hmap' ⟨rfl, halike⟩
  have hmapped := mapNewPage_cases (o := ⟨process, page⟩) hmap h.sound
  have hmapped' := mapNewPage_cases (o := ⟨process, page⟩) hmap' h.sound'
  refine ⟨rfl, halike, hmapped.sound h.sound, hmapped'.sound h.sound', fun x hx => ?_⟩
  exact hmapped.flat_congr hmapped' h.sound h.sound' (h.alike.record?_eq_none_iff _)
    (h.flat_eq x hx)

theorem mapSegment (h : m.SameBut secret m') (process : Nat) {segment segment' : Segment}
    (hsegment : segment.Alike segment') (hother : process ≠ secret → segment = segment') :
    Outcome.Rel (AgreeBut secret) (m.mapSegment process segment)
      (m'.mapSegment process segment') := by
  refine (h.alike.mapSegment process hsegment).imp ?_
  rintro ⟨res, m₁⟩ ⟨_, m₁'⟩ hmap hmap' ⟨rfl, halike⟩
  have hsound : ∀ {m m₁ : Machine n} {segment : Segment} {res : Except Error Unit},
      m.Sound none → (m.mapSegment process segment).result = .ok (res, m₁) → m₁.Sound none :=
    fun hs hmap => (Performed.mapSegment process _ _ (mapSegment_cases hmap)).sound hs
  refine ⟨rfl, halike, hsound h.sound hmap, hsound h.sound' hmap', fun x hx => ?_⟩
  rcases flat_mapSegment hmap with ⟨rfl, hflat⟩ | ⟨rfl, hflat⟩ <;>
    rcases flat_mapSegment hmap' with ⟨he, hflat'⟩ | ⟨he, hflat'⟩ <;> cases he
  · rw [hflat, hflat', h.flat_eq x hx]
  · rw [hflat, hflat']
    by_cases hp : process = secret
    · have hne : process ≠ x.process := fun e => hx (e.symm.trans hp)
      rw [FlatMemory.addSegment_of_ne _ hne, FlatMemory.addSegment_of_ne _ hne, h.flat_eq x hx]
    · rw [hother hp]
      exact FlatMemory.addSegment_congr _ (h.flat_eq x hx)

theorem handleFault (h : m.SameBut secret m') (process : Nat) (fault : PageFault) :
    Outcome.Rel (AgreeBut secret) (m.handleFault process fault)
      (m'.handleFault process fault) := by
  refine (h.alike.handleFault process fault).imp ?_
  rintro ⟨res, m₁⟩ ⟨_, m₁'⟩ hhandle hhandle' ⟨rfl, halike⟩
  have hhandled := handleFault_cases hhandle
  have hhandled' := handleFault_cases hhandle'
  refine ⟨rfl, halike, hhandled.sound h.sound, hhandled'.sound h.sound', fun x hx => ?_⟩
  rw [hhandled.flat_fault h.sound, hhandled'.flat_fault h.sound', ← h.alike.config_eq]
  exact FlatMemory.fault_congr _ _ _ (h.flat_eq x hx)

theorem destroy (h : m.SameBut secret m') (process : Nat) :
    Outcome.Rel (AgreeBut secret) (m.destroy process) (m'.destroy process) := by
  refine (h.alike.destroy process).imp ?_
  rintro ⟨released, m₁⟩ ⟨_, m₁'⟩ hdestroy hdestroy' ⟨rfl, halike⟩
  obtain ⟨⟨m₂, hsame, htorn⟩, -⟩ := destroy_cases hdestroy h.sound
  obtain ⟨⟨m₂', hsame', htorn'⟩, -⟩ := destroy_cases hdestroy' h.sound'
  refine ⟨rfl, halike, htorn.sound (hsame.sound h.sound), htorn'.sound (hsame'.sound h.sound'),
    fun x hx => ?_⟩
  rw [htorn.flat_eq, htorn'.flat_eq, hsame.flat_eq, hsame'.flat_eq, h.flat_eq x hx]

theorem pickVictim (h : m.SameBut secret m') : AgreeBut secret m.pickVictim m'.pickVictim := by
  obtain ⟨hvictim, halike⟩ := h.alike.pickVictim
  have hsame := (pickVictim_cases (m := m) rfl).1
  have hsame' := (pickVictim_cases (m := m') rfl).1
  exact ⟨hvictim, h.of_same halike (hsame.sound h.sound) (hsame'.sound h.sound') hsame.flat_eq
    hsame'.flat_eq⟩

theorem spawn (h : m.SameBut secret m') (pid : Nat) (traits : DirectoryTraits) :
    (m.spawn pid traits).SameBut secret (m'.spawn pid traits) := by
  refine h.of_same ?_ ?_ ?_ flat_spawn flat_spawn
  · exact ⟨h.alike.config_eq, h.alike.swap, h.alike.frames_eq, h.alike.stats_eq,
      h.alike.spaces.push ⟨rfl, .refl _, rfl⟩⟩
  · exact (Performed.spawn pid traits rfl).sound h.sound
  · exact (Performed.spawn pid traits rfl).sound h.sound'

theorem refuse (h : m.SameBut secret m') (process : Nat) (pages : List Page) :
    (m.setDirectory process { (m.space process).directory with refused := pages }).SameBut secret
      (m'.setDirectory process { (m'.space process).directory with refused := pages }) := by
  refine h.of_same ?_ (sound_refuse h.sound) (sound_refuse h.sound') flat_refuse flat_refuse
  rw [← (h.alike.space process).directory_eq]
  exact h.alike.setDirectory process _

theorem pin (h : m.SameBut secret m') (frame : Frame) :
    Outcome.Rel (SameBut secret) (m.pin frame) (m'.pin frame) := by
  refine (h.alike.pin frame).imp fun m₁ m₁' hpin hpin' halike => ?_
  obtain ⟨hallocated, rfl⟩ := pin_cases hpin
  obtain ⟨hallocated', rfl⟩ := pin_cases hpin'
  exact h.of_same halike (sound_setEntry h.sound hallocated) (sound_setEntry h.sound' hallocated')
    rfl rfl

theorem unpin (h : m.SameBut secret m') (frame : Frame) :
    Outcome.Rel (SameBut secret) (m.unpin frame) (m'.unpin frame) := by
  refine (h.alike.unpin frame).imp fun m₁ m₁' hunpin hunpin' halike => ?_
  obtain ⟨hallocated, rfl⟩ := unpin_cases hunpin
  obtain ⟨hallocated', rfl⟩ := unpin_cases hunpin'
  exact h.of_same halike (sound_setEntry h.sound hallocated) (sound_setEntry h.sound' hallocated')
    rfl rfl

/-! ## Loads and stores -/

theorem tryLoad (h : m.SameBut secret m') (process address length : Nat) :
    Outcome.Rel (fun a b => ExceptRel (fun bytes bytes' => bytes.size = bytes'.size ∧
        (process ≠ secret → bytes = bytes')) a.1 b.1 ∧ a.2.SameBut secret b.2)
      (m.tryLoad process address length) (m'.tryLoad process address length) := by
  refine (h.alike.tryLoad process address length).imp ?_
  rintro ⟨res, m₁⟩ ⟨res', m₁'⟩ htry htry' ⟨hres, halike⟩
  obtain ⟨-, hsame, hcases⟩ := tryLoad_cases htry h.sound
  obtain ⟨-, hsame', hcases'⟩ := tryLoad_cases htry' h.sound'
  refine ⟨?_, h.of_same halike (hsame.sound h.sound) (hsame'.sound h.sound') hsame.flat_eq
    hsame'.flat_eq⟩
  cases hres with
  | error fault => exact .error fault
  | ok bytes bytes' hsize =>
    refine .ok _ _ ⟨hsize, fun hp => ?_⟩
    obtain ⟨_, ⟨⟩, hlength, hbytes⟩ | ⟨_, -, ⟨⟩⟩ := hcases
    obtain ⟨_, ⟨⟩, hlength', hbytes'⟩ | ⟨_, -, ⟨⟩⟩ := hcases'
    refine Array.ext_getElem? fun i => ?_
    by_cases hi : i < length
    · rw [← hbytes i hi, ← hbytes' i hi, FlatMemory.byte?, FlatMemory.byte?, h.flat_eq _ hp]
    · rw [Array.getElem?_eq_none (by omega), Array.getElem?_eq_none (by omega)]

theorem tryStore (h : m.SameBut secret m') (process address : Nat) {data data' : Bytes}
    (hsize : data.size = data'.size) (hother : process ≠ secret → data = data') :
    Outcome.Rel (fun a b => ExceptRel (fun stored stored' => stored = stored') a.1 b.1 ∧
        a.2.SameBut secret b.2)
      (m.tryStore process address data) (m'.tryStore process address data') := by
  refine (h.alike.tryStore process address hsize).imp ?_
  rintro ⟨res, m₁⟩ ⟨_, m₁'⟩ htry htry' ⟨rfl, halike⟩
  obtain ⟨-, hs, k, hflat, -, hend⟩ :=
    tryStore_cases (K := 0) htry h.sound FlatMemory.store_zero.symm
  obtain ⟨-, hs', k', hflat', -, hend'⟩ :=
    tryStore_cases (K := 0) htry' h.sound' FlatMemory.store_zero.symm
  rw [Nat.zero_max] at hflat hflat'
  -- the answer tells how far the store came
  have hk : k = k' := by
    rcases hend with ⟨rfl, rfl⟩ | ⟨rfl, -⟩ <;> rcases hend' with ⟨he, hk'⟩ | ⟨he, -⟩
    · exact hsize.trans hk'.symm
    · cases he
    · cases he
    · exact Nat.add_left_cancel (AccessFault.mk.inj (Except.error.inj he)).1
  refine ⟨?_, halike, hs, hs', fun x hx => ?_⟩
  · cases res with
    | ok stored => exact .ok _ _ rfl
    | error fault => exact .error fault
  · rw [hflat, hflat', ← hk]
    by_cases hp : process = secret
    · have hne : process ≠ x.process := fun e => hx (e.symm.trans hp)
      rw [FlatMemory.store_of_ne _ _ _ hne, FlatMemory.store_of_ne _ _ _ hne, h.flat_eq x hx]
    · rw [hother hp]
      exact FlatMemory.store_congr _ _ _ (h.flat_eq x hx)

/-- Attempts that end alike make accesses that end alike. -/
theorem retry {α : Type} {R : α → α → Prop}
    {attempt attempt' : Machine n → Outcome (Except AccessFault α × Machine n)}
    (hattempt : ∀ m m', SameBut secret m m' →
      Outcome.Rel (fun a b => ExceptRel R a.1 b.1 ∧ a.2.SameBut secret b.2) (attempt m)
        (attempt' m'))
    (process stackPointer limit faults : Nat) (h : m.SameBut secret m') :
    Outcome.Rel (fun a b => UserAccess.Rel R a.1 b.1 ∧ a.2.SameBut secret b.2)
      (Machine.retry attempt process stackPointer limit faults m)
      (Machine.retry attempt' process stackPointer limit faults m') := by
  induction limit generalizing faults m m' with
  | zero =>
    unfold Machine.retry
    refine .bind (hattempt m m' h) ?_
    rintro ⟨_, m₁⟩ ⟨_, m₁'⟩ ⟨fault | ⟨value, value', hvalue⟩, h₁⟩
    · exact .pure ⟨.gaveUp faults, h₁⟩
    · exact .pure ⟨.done faults value value' hvalue, h₁⟩
  | succ limit ih =>
    unfold Machine.retry
    refine .bind (hattempt m m' h) ?_
    rintro ⟨_, m₁⟩ ⟨_, m₁'⟩ ⟨fault | ⟨value, value', hvalue⟩, h₁⟩
    · refine .bind (h₁.handleFault process _) ?_
      rintro ⟨e | _, m₂⟩ ⟨_, m₂'⟩ ⟨rfl, h₂⟩
      · exact .pure ⟨.failed (faults + 1) e, h₂⟩
      · exact ih (faults + 1) h₂
    · exact .pure ⟨.done faults value value' hvalue, h₁⟩

/-! ## Requests and runs -/

theorem perform_load (h : m.SameBut secret m') (process address length stackPointer limit : Nat) :
    Outcome.Rel (fun a b => Answer.SameBut secret (.load process address length stackPointer limit)
        a.1 b.1 ∧ a.2.SameBut secret b.2)
      (m.perform (.load process address length stackPointer limit))
      (m'.perform (.load process address length stackPointer limit)) := by
  refine .bind (retry (fun _ _ h => h.tryLoad process address length) process stackPointer limit 0
    h) ?_
  rintro ⟨access, m₁⟩ ⟨access', m₁'⟩ ⟨haccess, h₁⟩
  refine .pure ⟨?_, h₁⟩
  cases haccess with
  | done faults bytes bytes' hbytes =>
    by_cases hp : process = secret
    · subst hp
      exact .loaded address length stackPointer limit faults bytes bytes' hbytes.1
    · obtain rfl := hbytes.2 hp
      exact .same _ _
  | failed faults error => exact .same _ _
  | gaveUp faults => exact .same _ _

theorem perform_store (h : m.SameBut secret m') (process address : Nat) {data data' : Bytes}
    (hsize : data.size = data'.size) (hother : process ≠ secret → data = data')
    (stackPointer limit : Nat) :
    Outcome.Rel (AgreeBut secret) (m.perform (.store process address data stackPointer limit))
      (m'.perform (.store process address data' stackPointer limit)) := by
  refine .bind (retry (fun _ _ h => h.tryStore process address hsize hother) process stackPointer
    limit 0 h) ?_
  rintro ⟨access, m₁⟩ ⟨access', m₁'⟩ ⟨haccess, h₁⟩
  refine .pure ⟨?_, h₁⟩
  cases haccess with
  | done faults stored stored' hstored => rw [hstored]
  | failed faults error => rfl
  | gaveUp faults => rfl

theorem perform_mapSegment (h : m.SameBut secret m') (process : Nat) {segment segment' : Segment}
    (hsegment : segment.Alike segment') (hother : process ≠ secret → segment = segment') :
    Outcome.Rel (AgreeBut secret) (m.perform (.mapSegment process segment))
      (m'.perform (.mapSegment process segment')) := by
  refine .bind (h.mapSegment process hsegment hother) ?_
  rintro ⟨res, m₁⟩ ⟨_, m₁'⟩ ⟨rfl, h₁⟩
  exact .pure ⟨rfl, h₁⟩

/-- The same request, when it is no load. -/
theorem perform_same (h : m.SameBut secret m') {request : Request}
    (hload : ∀ process address length stackPointer limit,
      request ≠ .load process address length stackPointer limit) :
    Outcome.Rel (AgreeBut secret) (m.perform request) (m'.perform request) := by
  cases request with
  | spawn pid traits =>
    exact .pure ⟨congrArg Answer.spawned h.alike.spaces.size_eq, h.spawn pid traits⟩
  | mapNewPage process page writable intruding =>
    exact .bind (h.mapNewPage process page writable intruding) fun _ _ h₁ =>
      .pure ⟨congrArg Answer.ofResult h₁.1, h₁.2⟩
  | mapSegment process segment =>
    exact h.perform_mapSegment process ⟨segment.file, rfl, rfl⟩ fun _ => rfl
  | fault process fault =>
    exact .bind (h.handleFault process fault) fun _ _ h₁ =>
      .pure ⟨congrArg Answer.ofResult h₁.1, h₁.2⟩
  | load process address length stackPointer limit => exact absurd rfl (hload _ _ _ _ _)
  | store process address data stackPointer limit =>
    exact h.perform_store process address rfl (fun _ => rfl) stackPointer limit
  | destroy process =>
    exact .bind (h.destroy process) fun _ _ h₁ => .pure ⟨congrArg Answer.released h₁.1, h₁.2⟩
  | pin frame => exact .bind (h.pin frame) fun _ _ h₁ => .pure ⟨rfl, h₁⟩
  | unpin frame => exact .bind (h.unpin frame) fun _ _ h₁ => .pure ⟨rfl, h₁⟩
  | pickVictim => exact .pure ⟨congrArg Answer.victim h.pickVictim.1, h.pickVictim.2⟩
  | refuse process pages => exact .pure ⟨rfl, h.refuse process pages⟩

theorem perform {request request' : Request} (h : m.SameBut secret m')
    (hrequest : Request.SameBut secret request request') :
    Outcome.Rel (fun a b => Answer.SameBut secret request a.1 b.1 ∧ a.2.SameBut secret b.2)
      (m.perform request) (m'.perform request') := by
  have hsame : ∀ {a b : Answer × Machine n}, AgreeBut secret a b →
      Answer.SameBut secret request a.1 b.1 ∧ a.2.SameBut secret b.2 := by
    rintro ⟨answer, m₁⟩ ⟨_, m₁'⟩ ⟨rfl, h₁⟩
    exact ⟨.same _ _, h₁⟩
  cases hrequest with
  | same request =>
    cases request with
    | load process address length stackPointer limit => exact h.perform_load _ _ _ _ _
    | _ =>
      refine (h.perform_same ?_).imp fun _ _ _ _ => hsame
      exact nofun
  | stored address data data' stackPointer limit hsize =>
    exact (h.perform_store secret address hsize (absurd rfl) stackPointer limit).imp
      fun _ _ _ _ => hsame
  | mapped segment segment' hsegment =>
    exact (h.perform_mapSegment secret hsegment (absurd rfl)).imp fun _ _ _ _ => hsame

theorem answerAll {requests requests' : List Request}
    (hrequests : List.Forall₂ (Request.SameBut secret) requests requests')
    (h : m.SameBut secret m') :
    Outcome.Rel (fun a b => Answer.AllSameBut secret requests a.1 b.1 ∧ a.2.SameBut secret b.2)
      (Outcome.answerAll Machine.perform m requests)
      (Outcome.answerAll Machine.perform m' requests') := by
  induction hrequests generalizing m m' with
  | nil => exact .pure ⟨.nil, h⟩
  | @cons request request' rest rest' hrequest hrest ih =>
    refine .bind (h.perform hrequest) ?_
    rintro ⟨answer, m₁⟩ ⟨answer', m₁'⟩ ⟨hanswer, h₁⟩
    refine .bind (ih h₁) ?_
    rintro ⟨others, m₂⟩ ⟨others', m₂'⟩ ⟨hothers, h₂⟩
    exact .pure ⟨.cons request answer answer' rest others others' hanswer hothers, h₂⟩

end SameBut

variable {config : Config} {device : Device} {requests requests' : List Request}
  {answers answers' : List Answer}

/-- The requests, carried out one after the other from start-up on, end in a panic. -/
def Panics (config : Config) (n : Nat) (device : Device) (requests : List Request)
    (cause : Panic) : Prop :=
  (do let machine ← boot config n device
      Outcome.answerAll perform machine requests).result = .error cause

theorem panics_iff {cause : Panic} : Panics config n device requests cause ↔
    (Outcome.answerAll perform (booted config n device) requests).result = .error cause :=
  Iff.rfl

/-- Two runs whose requests differ at most in the bytes that one process stores, and in those of
    the files that it maps, go the same way: if one of them panics the other does, for the same
    reason.  All answers are the same, but for the bytes that this process loads.  The machines
    are alike afterwards, and the pages of all other processes hold the same. -/
theorem run_isolated (secret : Nat)
    (hrequests : List.Forall₂ (Request.SameBut secret) requests requests') :
    (∀ cause, Panics config n device requests cause ↔ Panics config n device requests' cause) ∧
    ∀ answers m answers' m', Run config n device requests answers m →
      Run config n device requests' answers' m' →
        Answer.AllSameBut secret requests answers answers' ∧ m.Alike m' ∧
          ∀ x, x.process ≠ secret → m.flat x = m'.flat x := by
  have hbooted : (booted config n device).SameBut secret (booted config n device) :=
    ⟨.refl _, sound_booted, sound_booted, fun _ _ => rfl⟩
  have hrel := hbooted.answerAll hrequests
  constructor
  · intro cause
    rw [panics_iff, panics_iff]
    exact hrel.panic_iff cause
  · intro answers m answers' m' h h'
    obtain ⟨hanswers, hm⟩ := hrel.of_ok (run_iff.1 h) (run_iff.1 h')
    exact ⟨hanswers, hm.alike, hm.flat_eq⟩

/-- The pages of two processes take turns in the only frame.  In the other run, the second process
    stores another byte and has another file. -/
theorem run_isolated_oneFrame : ∃ answers answers', ∃ m m' : Machine 1,
    Run {} 1 (.inMemory 2) [.spawn 0 {}, .spawn 1 {},
      .mapSegment 1 ⟨#[1, 2], 0, ⟨4⟩, 2, 4094, true⟩, .mapNewPage 0 ⟨0⟩ true false,
      .store 0 0 #[9] 0 0, .mapNewPage 1 ⟨0⟩ true false, .store 1 0 #[7] 0 0,
      .load 1 16384 2 0 1, .load 0 0 2 0 1] answers m ∧
    Run {} 1 (.inMemory 2) [.spawn 0 {}, .spawn 1 {},
      .mapSegment 1 ⟨#[3, 4], 0, ⟨4⟩, 2, 4094, true⟩, .mapNewPage 0 ⟨0⟩ true false,
      .store 0 0 #[9] 0 0, .mapNewPage 1 ⟨0⟩ true false, .store 1 0 #[8] 0 0,
      .load 1 16384 2 0 1, .load 0 0 2 0 1] answers' m' ∧
    m.status? ⟨1, ⟨0⟩⟩ = some (.swapped ⟨1⟩) ∧ m.Alike m' ∧
      ∀ x, x.process ≠ 1 → m.flat x = m'.flat x := by
  obtain ⟨answers, m, h, hp⟩ := exists_run {} 1 (.inMemory 2) [.spawn 0 {}, .spawn 1 {},
    .mapSegment 1 ⟨#[1, 2], 0, ⟨4⟩, 2, 4094, true⟩, .mapNewPage 0 ⟨0⟩ true false,
    .store 0 0 #[9] 0 0, .mapNewPage 1 ⟨0⟩ true false, .store 1 0 #[7] 0 0, .load 1 16384 2 0 1,
    .load 0 0 2 0 1] (fun m => m.status? ⟨1, ⟨0⟩⟩ = some (.swapped ⟨1⟩)) (by decide +kernel)
  obtain ⟨answers', m', h', -⟩ := exists_run {} 1 (.inMemory 2) [.spawn 0 {}, .spawn 1 {},
    .mapSegment 1 ⟨#[3, 4], 0, ⟨4⟩, 2, 4094, true⟩, .mapNewPage 0 ⟨0⟩ true false,
    .store 0 0 #[9] 0 0, .mapNewPage 1 ⟨0⟩ true false, .store 1 0 #[8] 0 0, .load 1 16384 2 0 1,
    .load 0 0 2 0 1] (fun _ => true) (by decide +kernel)
  have hisolated := (run_isolated 1 ?_).2 answers m answers' m' h h'
  · exact ⟨answers, answers', m, m', h, h', of_decide_eq_true hp, hisolated.2⟩
  · exact .cons (.same _) <| .cons (.same _) <| .cons (.mapped _ _ ⟨#[3, 4], rfl, rfl⟩) <|
      .cons (.same _) <| .cons (.same _) <| .cons (.same _) <| .cons (.stored _ _ _ _ _ rfl) <|
      .cons (.same _) <| .cons (.same _) .nil

end Machine

end DemandPaging
