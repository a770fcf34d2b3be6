/-
  Every access of a process ends.

  * `EndsWithin`: an access ends with at most so many faults, however many it may
    take, and panics only if the transfers of one of them overflow a count of the
    device;
  * `retry_faults`: an access that touches `count` pages, and no more than there
    are frames, takes fewer than `2 * count` faults;
  * `run_access_ends`: after any run that leaves no frame pinned, the accesses
    of a process end within the free frames and two turns of the hand;
  * `run_straddling_ends`: an access to two pages takes at most three faults.
-/
import DemandPaging.Proofs.Settling

namespace DemandPaging

/-- An access ended, after at most `bound` faults.  The last of them may have been turned
    down. -/
def UserAccess.Within {α : Type} (bound : Nat) : UserAccess α → Prop
  | .done faults _ | .failed faults _ => faults ≤ bound
  | .gaveUp _ => False

/-- Room for one more fault is left when an access is given up. -/
def UserAccess.Bounded {α : Type} (bound : Nat) : UserAccess α → Prop
  | .done faults _ | .failed faults _ => faults ≤ bound
  | .gaveUp faults => faults + 1 ≤ bound

namespace Machine

variable {n : Nat} {m m' : Machine n} {process first count : Nat} {write : Bool}
  {config : Config} {device : Device} {requests : List Request} {answers : List Answer}

/-- An access of a process ends with at most `bound` faults if its limit allows as many.  It
    panics only if before that a fault makes more transfers than the counts of the swap device
    have room for: a transfer that a count has no room for stops the machine, and it is the one
    failing transfer that results about accesses exclude. -/
def EndsWithin {α : Type} (m : Machine n) (process : Nat)
    (access : Nat → Machine n → Outcome (UserAccess α × Machine n)) (bound : Nat) : Prop :=
  ∀ limit, bound ≤ limit →
    (∃ ended m', (access limit m).result = .ok (ended, m') ∧ ended.Within bound) ∨
      ¬(access limit m).Completes ∧
        ∃ k m₁ fault, k < bound ∧ (access k m).result = .ok (.gaveUp k, m₁) ∧
          m₁.CountsOverflow (·.handleFault process fault)

theorem EndsWithin.mono {α : Type} {access : Nat → Machine n → Outcome (UserAccess α × Machine n)}
    {bound bound' : Nat} (h : m.EndsWithin process access bound) (hle : bound ≤ bound') :
    m.EndsWithin process access bound' := by
  intro limit hlimit
  rcases h limit (Nat.le_trans hle hlimit) with ⟨ended, m', hended, hwithin⟩ |
    ⟨hpanics, k, m₁, fault, hk, hgaveUp, hoverflow⟩
  · refine .inl ⟨ended, m', hended, ?_⟩
    cases ended with
    | done faults value => exact Nat.le_trans hwithin hle
    | failed faults error => exact Nat.le_trans hwithin hle
    | gaveUp faults => exact hwithin
  · exact .inr ⟨hpanics, k, m₁, fault, Nat.lt_of_lt_of_le hk hle, hgaveUp, hoverflow⟩

/-! ## Attempts and faults -/

section

variable {α : Type} {attempt : Machine n → Outcome (Except AccessFault α × Machine n)}
  {stackPointer limit faults : Nat} {access : UserAccess α}

/-- An access is given up only when it has reached its limit. -/
theorem retry_gaveUp {k : Nat}
    (h : (retry attempt process stackPointer limit faults m).result = .ok (.gaveUp k, m')) :
    k = faults + limit := by
  induction limit generalizing faults m with
  | zero =>
    unfold retry at h
    obtain ⟨⟨fault | value, m₁⟩, -, h⟩ := Outcome.bind_eq_ok_iff.1 h
    · cases h; rfl
    · cases h
  | succ limit ih =>
    unfold retry at h
    obtain ⟨⟨fault | value, m₁⟩, -, h⟩ := Outcome.bind_eq_ok_iff.1 h
    · obtain ⟨⟨error | _, m₂⟩, -, h⟩ := Outcome.bind_eq_ok_iff.1 h
      · cases h
      · rw [ih h]
        omega
    · cases h

/-- An access that touches `count` pages, in order, until it has touched them all. -/
theorem retry_faults (hcount : count ≤ n)
    (hattempt : ∀ m res m', m.Ready → (attempt m).result = .ok (res, m') →
      m.Attempted m' process first count write res ∧ m'.Ready ∧ m.SameSetup m')
    (hm : m.Ready) (hidle : ∀ p, (m.space p).directory.busy = false)
    (h : (retry attempt process stackPointer limit 0 m).result = .ok (access, m')) :
    access.Bounded (2 * count - 1) := by
  have hidle_of : ∀ {m m' : Machine n}, m.SameSetup m' →
      (∀ p, (m.space p).directory.busy = false) → ∀ p, (m'.space p).directory.busy = false :=
    fun hsame hidle p => (congrArg DirectoryTraits.busy (hsame.traits_eq p)).trans (hidle p)
  refine retry_cases (P := fun k m => m.Ready ∧ (∀ p, (m.space p).directory.busy = false) ∧
      m.Progress process first count write k) (Q := fun access _ => access.Bounded (2 * count - 1))
    ?_ ?_ ?_ ?_ ⟨hm, hidle, .start m process first count write⟩ h
  · rintro k m v m' ⟨-, -, hprogress⟩ -
    exact hprogress.faults_le
  · rintro k m fault m' ⟨hm, -, hprogress⟩ htried
    cases (hattempt m _ m' hm htried).1 with
    | stopped j hj htouched address hpage hnot => exact hprogress.faults_lt hj hnot
  · rintro k m fault m₁ e m' ⟨hm, -, hprogress⟩ htried -
    cases (hattempt m _ m₁ hm htried).1 with
    | stopped j hj htouched address hpage hnot => exact hprogress.faults_lt hj hnot
  · rintro k m fault m₁ m' ⟨hm, hidle, hprogress⟩ htried hhandled
    obtain ⟨hattempted, hm₁, hsame⟩ := hattempt m _ m₁ hm htried
    have hhandled := handleFault_cases hhandled
    have hm' := hm₁.handled hhandled
    refine ⟨hm', hidle_of hhandled.sameSetup (hidle_of hsame hidle), ?_⟩
    cases hattempted with
    | stopped j hj htouched address hpage hnot =>
      have hresolved := hhandled.resolved hm₁ (hidle_of hsame hidle)
      simp only [hpage] at hresolved
      exact hprogress.step hcount hj hnot htouched hm₁.sound.linked hm'.sound.linked
        hm₁.serviceable.hand_lt (hresolved fun hp => hnot ((htouched.permits_iff _).1 hp))

/-- An access that completes unless a count overflows, and takes no more than `bound` faults. -/
theorem endsWithin_of_bounded {bound : Nat} (hbounded : ∀ limit access m',
      (retry attempt process stackPointer limit 0 m).result = .ok (access, m') →
        access.Bounded bound)
    (hcompletes : ∀ limit, (retry attempt process stackPointer limit 0 m).Completes ∨
      ∃ k m₁ fault, k < limit ∧
        (retry attempt process stackPointer k 0 m).result = .ok (.gaveUp k, m₁) ∧
        m₁.CountsOverflow (·.handleFault process fault)) :
    m.EndsWithin process (fun limit => retry attempt process stackPointer limit 0) bound := by
  intro limit hlimit
  by_cases hended : (retry attempt process stackPointer limit 0 m).Completes
  · obtain ⟨⟨access, m'⟩, h⟩ := hended
    refine .inl ⟨access, m', h, ?_⟩
    have hwithin := hbounded limit access m' h
    cases access with
    | done faults value => exact hwithin
    | failed faults error => exact hwithin
    | gaveUp faults =>
      -- the limit is beyond the bound
      obtain rfl := retry_gaveUp h
      have : 0 + limit + 1 ≤ bound := hwithin
      omega
  · obtain ⟨k, m₁, fault, -, h, hoverflow⟩ := (hcompletes limit).resolve_left hended
    exact .inr ⟨hended, k, m₁, fault, hbounded k _ m₁ h, h, hoverflow⟩

end

theorem Ready.load_ends (hm : m.Ready) (hidle : ∀ p, (m.space p).directory.busy = false)
    {address length : Nat} (hrange : address + length ≤ wordLimit)
    (hcount : pagesTouched address length ≤ n) (stackPointer : Nat) :
    m.EndsWithin process (fun limit m => m.load limit process address length stackPointer)
      (2 * pagesTouched address length - 1) := by
  refine endsWithin_of_bounded (fun limit access m' h => ?_)
    fun limit => hm.load hrange limit stackPointer
  exact retry_faults hcount
    (fun m res m' hm htried => ⟨tryLoad_attempted htried, hm.tryLoad htried⟩) hm hidle h

theorem Ready.store_ends (hm : m.Ready) (hidle : ∀ p, (m.space p).directory.busy = false)
    {address : Nat} {data : Bytes} (hrange : address + data.size ≤ wordLimit)
    (hcount : pagesTouched address data.size ≤ n) (stackPointer : Nat) :
    m.EndsWithin process (fun limit m => m.store limit process address data stackPointer)
      (2 * pagesTouched address data.size - 1) := by
  refine endsWithin_of_bounded (fun limit access m' h => ?_)
    fun limit => hm.store hrange limit stackPointer
  exact retry_faults hcount
    (fun m res m' hm htried => ⟨tryStore_attempted htried, hm.tryStore htried⟩) hm hidle h

/-! ## Runs -/

theorem Run.ready_of_plain (hpos : 0 < n) (hmax : n ≤ maxFrameNumber + 1)
    (hdevice : device.Healthy) (h : Run config n device requests answers m)
    (hpins : ∀ frame, m.frames.pool.hasPin frame = false)
    (hplain : ∀ p, (m.space p).directory.IsPlain) : m.Ready := by
  have hsetup := h.keeps (P := fun m => device.SameAs m.swap.device ∧
      m.swap.slots.capacity = device.size / sectorsPerPage ∧ m.frames.hand < n)
    ⟨.refl device, rfl, hpos⟩ ?_
  · obtain ⟨hsame, hcapacity, hhand⟩ := hsetup
    refine ⟨h.sound, fun frame _ => hpins frame, hdevice.same hsame, ?_, fun p => ?_, hhand, hmax⟩
    · rw [hcapacity, hsame.size_eq]
    · exact congrArg DirectoryTraits.refused (hplain p)
  · rintro m request answer m' - hs ⟨hsame, hcapacity, hhand⟩ hperformed
    rcases hperformed.setup_cases hs with hsetup | ⟨pid, traits, -, rfl⟩ |
      ⟨process, pages, -, rfl⟩
    · exact ⟨hsame.trans hsetup.device_same, hsetup.capacity_eq.trans hcapacity,
        hsetup.hand_lt hhand⟩
    · exact ⟨hsame, hcapacity, hhand⟩
    · exact ⟨hsame, hcapacity, hhand⟩

/-- An attempt that succeeds ends the access without a fault. -/
theorem endsWithin_of_tried {α : Type}
    {attempt : Machine n → Outcome (Except AccessFault α × Machine n)} {value : α}
    {stackPointer : Nat} (h : (attempt m).result = .ok (.ok value, m')) (bound : Nat) :
    m.EndsWithin process (fun limit => retry attempt process stackPointer limit 0) bound := by
  intro limit _
  refine .inl ⟨.done 0 value, m', ?_, Nat.zero_le bound⟩
  show (retry attempt process stackPointer limit 0 m).result = _
  unfold retry
  exact Outcome.bind_eq_ok_iff.2 ⟨_, h, rfl⟩

theorem length_eq_zero {address length : Nat} (h : pagesTouched address length = 0) :
    length = 0 := by
  simp only [pagesTouched, pageSize] at h
  split at h <;> omega

/-- An access to no byte needs no page. -/
theorem tryLoad_zero (process address : Nat) :
    ∃ m', (m.tryLoad process address 0).result = .ok (.ok #[], m') :=
  ⟨_, rfl⟩

theorem tryStore_empty (process address : Nat) {data : Bytes} (h : data.size = 0) :
    ∃ m', (m.tryStore process address data).result = .ok (.ok 0, m') := by
  obtain rfl := Array.size_eq_zero_iff.1 h
  exact ⟨_, rfl⟩

theorem Run.load_ends (hmax : n ≤ maxFrameNumber + 1) (hdevice : device.Healthy)
    (h : Run config n device requests answers m)
    (hpins : ∀ frame, m.frames.pool.hasPin frame = false)
    (hplain : ∀ p, (m.space p).directory.IsPlain) {address length : Nat}
    (hrange : address + length ≤ wordLimit) (hcount : pagesTouched address length ≤ n)
    (process stackPointer : Nat) :
    m.EndsWithin process (fun limit m => m.load limit process address length stackPointer)
      (2 * pagesTouched address length - 1) := by
  rcases Nat.eq_zero_or_pos n with rfl | hpos
  · obtain rfl := length_eq_zero (Nat.eq_zero_of_le_zero hcount)
    obtain ⟨m', htried⟩ := tryLoad_zero (m := m) process address
    exact endsWithin_of_tried htried _
  · exact (h.ready_of_plain hpos hmax hdevice hpins hplain).load_ends
      (fun p => congrArg DirectoryTraits.busy (hplain p)) hrange hcount stackPointer

theorem Run.store_ends (hmax : n ≤ maxFrameNumber + 1) (hdevice : device.Healthy)
    (h : Run config n device requests answers m)
    (hpins : ∀ frame, m.frames.pool.hasPin frame = false)
    (hplain : ∀ p, (m.space p).directory.IsPlain) {address : Nat} {data : Bytes}
    (hrange : address + data.size ≤ wordLimit) (hcount : pagesTouched address data.size ≤ n)
    (process stackPointer : Nat) :
    m.EndsWithin process (fun limit m => m.store limit process address data stackPointer)
      (2 * pagesTouched address data.size - 1) := by
  rcases Nat.eq_zero_or_pos n with rfl | hpos
  · obtain ⟨m', htried⟩ := tryStore_empty (m := m) process address
      (length_eq_zero (Nat.eq_zero_of_le_zero hcount))
    exact endsWithin_of_tried htried _
  · exact (h.ready_of_plain hpos hmax hdevice hpins hplain).store_ends
      (fun p => congrArg DirectoryTraits.busy (hplain p)) hrange hcount stackPointer

/-- After any run that leaves no frame pinned, every load and every store that touches no more
    pages than there are frames ends within as many faults as there are free frames, and two
    more for each frame. -/
theorem run_access_ends (hmax : n ≤ maxFrameNumber + 1) (hdevice : device.Healthy)
    (h : Run config n device requests answers m)
    (hpins : ∀ frame, m.frames.pool.hasPin frame = false)
    (hplain : ∀ p, (m.space p).directory.IsPlain) (process stackPointer address : Nat) :
    (∀ length, address + length ≤ wordLimit → pagesTouched address length ≤ n →
      m.EndsWithin process (fun limit m => m.load limit process address length stackPointer)
        (n - m.frames.pool.inUse + 2 * n)) ∧
    ∀ data : Bytes, address + data.size ≤ wordLimit → pagesTouched address data.size ≤ n →
      m.EndsWithin process (fun limit m => m.store limit process address data stackPointer)
        (n - m.frames.pool.inUse + 2 * n) := by
  constructor
  · intro length hrange hcount
    exact (h.load_ends hmax hdevice hpins hplain hrange hcount process stackPointer).mono (by omega)
  · intro data hrange hcount
    exact (h.store_ends hmax hdevice hpins hplain hrange hcount process
      stackPointer).mono (by omega)

/-- Two of three frames are free, and a load from three pages takes five faults: its third page
    takes the frame of the first, whose next frame is the one of the second. -/
theorem run_access_ends_threeFrames : ∃ answers, ∃ m : Machine 3,
    Run {} 3 (.inMemory 4) [.spawn 0 {}, .spawn 1 {}, .mapNewPage 1 ⟨0⟩ true false,
      .mapNewPage 1 ⟨1⟩ true false, .mapNewPage 0 ⟨4⟩ true false,
      .mapSegment 0 ⟨#[], 0, ⟨0⟩, 0, 12288, true⟩, .destroy 1, .load 0 16384 1 0 0] answers m ∧
    ((m.load 8 0 4095 4098 0).result matches .ok (.done 5 _, _)) = true ∧
    m.EndsWithin 0 (fun limit m => m.load limit 0 4095 4098 0) (2 + 2 * 3) ∧
    m.EndsWithin 0 (fun limit m => m.store limit 0 4095 #[1, 2] 0) (2 + 2 * 3) := by
  obtain ⟨answers, m, h, hp⟩ := exists_run {} 3 (.inMemory 4) [.spawn 0 {}, .spawn 1 {},
    .mapNewPage 1 ⟨0⟩ true false, .mapNewPage 1 ⟨1⟩ true false, .mapNewPage 0 ⟨4⟩ true false,
    .mapSegment 0 ⟨#[], 0, ⟨0⟩, 0, 12288, true⟩, .destroy 1, .load 0 16384 1 0 0]
    (fun m => ((m.load 8 0 4095 4098 0).result matches .ok (.done 5 _, _)) &&
      (decide (m.frames.pool.inUse = 1) && m.spaces.spaces.toList.all fun space =>
        decide (space.directory.toDirectoryTraits = {}))) (by decide +kernel)
  simp only [Bool.and_eq_true, List.all_eq_true, decide_eq_true_eq] at hp
  obtain ⟨hfaults, hinUse, hplain⟩ := hp
  have hends := run_access_ends (by decide) (Device.healthy_inMemory (by decide)) h
    (fun frame => h.unpinned (by decide) frame nofun)
    (forall_space (P := fun space => space.directory.IsPlain) rfl hplain) 0 0 4095
  rw [hinUse] at hends
  exact ⟨answers, m, h, hfaults, hends.1 4098 (by decide) (by decide),
    hends.2 #[1, 2] (by decide) (by decide)⟩

/-- With two frames or more, a load or a store that touches at most two pages ends within three
    faults, wherever the hand is, whatever was accessed and whichever frames are free. -/
theorem run_straddling_ends (hmin : 2 ≤ n) (hmax : n ≤ maxFrameNumber + 1)
    (hdevice : device.Healthy) (h : Run config n device requests answers m)
    (hpins : ∀ frame, m.frames.pool.hasPin frame = false)
    (hplain : ∀ p, (m.space p).directory.IsPlain) (process stackPointer address : Nat) :
    (∀ length, address + length ≤ wordLimit → pagesTouched address length ≤ 2 →
      m.EndsWithin process (fun limit m => m.load limit process address length stackPointer) 3) ∧
    ∀ data : Bytes, address + data.size ≤ wordLimit → pagesTouched address data.size ≤ 2 →
      m.EndsWithin process (fun limit m => m.store limit process address data stackPointer) 3 := by
  constructor
  · intro length hrange hcount
    exact (h.load_ends hmax hdevice hpins hplain hrange (Nat.le_trans hcount hmin) process
      stackPointer).mono (by omega)
  · intro data hrange hcount
    exact (h.store_ends hmax hdevice hpins hplain hrange (Nat.le_trans hcount hmin) process
      stackPointer).mono (by omega)

/-- A load across a page boundary does take three faults when its second page takes the frame of
    the first. -/
theorem run_straddling_ends_twoFrames : ∃ answers, ∃ m : Machine 2,
    Run {} 2 (.inMemory 4) [.spawn 0 {}, .spawn 1 {}, .mapNewPage 1 ⟨0⟩ true false,
      .mapNewPage 0 ⟨4⟩ true false, .mapSegment 0 ⟨#[], 0, ⟨0⟩, 0, 8192, true⟩, .destroy 1,
      .load 0 16384 1 0 0] answers m ∧
    ((m.load 3 0 4095 2 0).result matches .ok (.done 3 _, _)) = true ∧
    m.EndsWithin 0 (fun limit m => m.load limit 0 4095 2 0) 3 ∧
    m.EndsWithin 0 (fun limit m => m.store limit 0 4095 #[1, 2] 0) 3 := by
  obtain ⟨answers, m, h, hp⟩ := exists_run {} 2 (.inMemory 4) [.spawn 0 {}, .spawn 1 {},
    .mapNewPage 1 ⟨0⟩ true false, .mapNewPage 0 ⟨4⟩ true false,
    .mapSegment 0 ⟨#[], 0, ⟨0⟩, 0, 8192, true⟩, .destroy 1, .load 0 16384 1 0 0]
    (fun m => ((m.load 3 0 4095 2 0).result matches .ok (.done 3 _, _)) &&
      m.spaces.spaces.toList.all fun space =>
        decide (space.directory.toDirectoryTraits = {})) (by decide +kernel)
  simp only [Bool.and_eq_true, List.all_eq_true, decide_eq_true_eq] at hp
  obtain ⟨hfaults, hplain⟩ := hp
  have hends := run_straddling_ends (by decide) (by decide) (Device.healthy_inMemory (by decide)) h
    (fun frame => h.unpinned (by decide) frame nofun)
    (forall_space (P := fun space => space.directory.IsPlain) rfl hplain) 0 0 4095
  exact ⟨answers, m, h, hfaults, hends.1 2 (by decide) (by decide),
    hends.2 #[1, 2] (by decide) (by decide)⟩

end Machine

end DemandPaging
