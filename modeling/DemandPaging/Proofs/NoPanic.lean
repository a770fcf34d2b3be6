/-
  No request panics, whatever came before it.

  Frames, owners, tables, directories and slots agree after every run (`Run.sound`), so that
  none of the conditions is violated that stop the machine.  What is left are the counts of the
  sectors transferred, which are 32-bit words: `CountsOverflow` says of a request that it makes
  more transfers than they have room for.

  * `Run.ready`: after a run, a machine is sound, without pins, and as serviceable as it was
    set up;
  * `retry_completes`: a user access completes if its attempts and its faults do;
  * `run_never_panics`: a request, or a fault in the course of a user access, is carried out or
    overflows a count.
-/
import DemandPaging.Proofs.Transfers

namespace DemandPaging

/-- What processes and their teardown ask for; nothing is pinned and no directory refuses a
    mapping. -/
def Request.Ordinary : Request → Prop
  | .spawn _ traits => traits.refused.isEmpty = true
  | .pin _ | .unpin _ | .refuse _ _ => False
  | _ => True

instance : DecidablePred Request.Ordinary
  | .spawn _ traits => inferInstanceAs (Decidable (traits.refused.isEmpty = true))
  | .pin _ | .unpin _ | .refuse _ _ => instDecidableFalse
  | .mapNewPage _ _ _ _ | .mapSegment _ _ | .fault _ _ | .load _ _ _ _ _ | .store _ _ _ _ _
  | .destroy _ | .pickVictim => instDecidableTrue

theorem Request.Ordinary.pinFree {request : Request} (h : request.Ordinary) :
    request.PinFree := by
  cases request <;> first | exact h.elim | trivial

/-- A disk in memory serves every transfer. -/
theorem Device.healthy_inMemory {slots : Nat} (h : slots * sectorsPerPage < sectorLimit) :
    (Device.inMemory slots).Healthy where
  writable := nofun
  size_le := by simp [Device.inMemory, Disk.size, Disk.blank]
  size_lt := h
  never_fails := nofun

/-! ## The attempts of a user access -/

/-- The pieces of an access begin within it. -/
theorem Cut.start_lt {address start stop : Nat} {pieces : List Piece} {piece : Piece}
    (hcut : Cut address stop start pieces) (h : piece ∈ pieces) : piece.start < stop := by
  induction hcut with
  | nil => cases h
  | cons start length rest hpos hstop hfits hends hrest ih =>
    rcases List.mem_cons.1 h with rfl | h
    · exact Nat.lt_of_lt_of_le (Nat.lt_add_of_pos_right hpos) hstop
    · exact ih h

namespace Directory

variable {n : Nat} {memory : Memory n} {address : Nat}

theorem completes_loadPieces {pieces : List Piece} {directory : Directory} {done : Bytes}
    (hrange : ∀ piece ∈ pieces, address + piece.start < wordLimit)
    (hin : ∀ q frame, directory.translate q = some frame → frame.index < n) :
    (loadPieces memory address pieces directory done).Completes := by
  induction pieces generalizing directory done with
  | nil => exact .pure _
  | cons piece rest ih =>
    refine .bind_of (Word.add_eq_ok_iff.2 ⟨hrange piece List.mem_cons_self, rfl⟩) ?_
    split
    · exact .pure _
    · rename_i frame directory' htouch
      obtain ⟨htranslate, -, -, hsame, -⟩ := touch_cases htouch
      refine .bind_of (Memory.get_eq_ok_iff.2 ⟨hin _ _ htranslate, rfl⟩) ?_
      refine ih (fun piece hp => hrange piece (List.mem_cons_of_mem _ hp)) fun q g hg => ?_
      exact hin q g ((hsame q).symm.trans hg)

theorem completes_storePieces {data : Bytes} {pieces : List Piece} {directory : Directory}
    (hrange : ∀ piece ∈ pieces, address + piece.start < wordLimit)
    (hin : ∀ q frame, directory.translate q = some frame → frame.index < n) :
    (storePieces address data pieces directory memory).Completes := by
  induction pieces generalizing directory memory with
  | nil => exact .pure _
  | cons piece rest ih =>
    refine .bind_of (Word.add_eq_ok_iff.2 ⟨hrange piece List.mem_cons_self, rfl⟩) ?_
    split
    · exact .pure _
    · rename_i frame directory' htouch
      obtain ⟨htranslate, -, -, hsame, -⟩ := touch_cases htouch
      refine .bind (Memory.exists_update _ (hin _ _ htranslate)) fun memory' _ => ?_
      refine ih (fun piece hp => hrange piece (List.mem_cons_of_mem _ hp)) fun q g hg => ?_
      exact hin q g ((hsame q).symm.trans hg)

end Directory

namespace Machine

variable {n : Nat} {m m' : Machine n} {process : Nat} {config : Config} {device : Device}
  {requests : List Request} {answers : List Answer}

theorem translate_lt (hl : m.Linked none) (page : Page) (frame : Frame)
    (h : (m.space process).directory.translate page = some frame) : frame.index < n :=
  hl.lt ((hl.translate_iff frame ⟨process, page⟩).1 h)

theorem completes_tryLoad {address length : Nat} (hs : m.Sound none)
    (hrange : address + length ≤ wordLimit) : (m.tryLoad process address length).Completes := by
  refine .bind (Directory.completes_loadPieces ?_ (translate_lt hs.linked)) ?_
  · intro piece hp
    have := (cut_pieces address length).start_lt hp
    omega
  · intro loaded _
    dsimp only
    split <;> exact .pure _

theorem completes_tryStore {address : Nat} {data : Bytes} (hs : m.Sound none)
    (hrange : address + data.size ≤ wordLimit) : (m.tryStore process address data).Completes := by
  refine .bind (Directory.completes_storePieces ?_ (translate_lt hs.linked)) ?_
  · intro piece hp
    have := (cut_pieces address data.size).start_lt hp
    omega
  · intro stored _
    dsimp only
    split <;> exact .pure _

/-! ## Counts -/

/-- The machine, with no transfer counted so far. -/
def uncounted (m : Machine n) : Machine n :=
  { m with swap := { m.swap with device := { m.swap.device with reads := 0, writes := 0 } } }

/-- The sectors that `f` reads or writes when it is carried out by `m` are more than the counts
    of the swap device have room for. -/
def CountsOverflow {α : Type} (m : Machine n) (f : Machine n → Outcome (α × Machine n)) : Prop :=
  ∃ a m', (f m.uncounted).result = .ok (a, m') ∧
    (sectorLimit ≤ m.swap.device.reads + m'.swap.device.reads ∨
      sectorLimit ≤ m.swap.device.writes + m'.swap.device.writes)

theorem completes_or_overflow {α : Type} (f : Machine n → Outcome (α × Machine n))
    (hcompletes : (f m.uncounted).Completes)
    (hfollows : Follows m.uncounted.swap.device m.swap.device.reads m.swap.device.writes
      (f m.uncounted) (f (moreCounted m.swap.device.reads m.swap.device.writes m.uncounted))) :
    (f m).Completes ∨ m.CountsOverflow f := by
  obtain ⟨⟨v, m'⟩, h⟩ := hcompletes
  obtain ⟨-, -, hcounted⟩ := hfollows _ h
  by_cases hreads : m.swap.device.reads + m'.swap.device.reads < sectorLimit
  · by_cases hwrites : m.swap.device.writes + m'.swap.device.writes < sectorLimit
    · exact .inl ⟨_, hcounted hreads hwrites⟩
    · exact .inr ⟨v, m', h, .inr (Nat.le_of_not_lt hwrites)⟩
  · exact .inr ⟨v, m', h, .inl (Nat.le_of_not_lt hreads)⟩

/-- A sound and serviceable machine without pinned frames. -/
structure Ready (m : Machine n) : Prop where
  sound : m.Sound none
  unpinned : m.Unpinned none
  serviceable : m.Serviceable

theorem Ready.uncounted (h : m.Ready) : m.uncounted.Ready where
  sound := h.sound.of_views rfl rfl h.sound.linked.counted (fun _ => rfl) (fun _ => rfl)
    (fun _ => rfl) (fun _ => rfl) (fun _ _ _ => rfl)
  unpinned := h.unpinned
  serviceable := h.serviceable.of_sameSetup ⟨rfl, fun _ => rfl, ⟨rfl, rfl, rfl, rfl⟩, rfl, id⟩

theorem hasRoom_uncounted : m.uncounted.HasRoom := by
  show 0 + sectorsPerPage < sectorLimit ∧ 0 + sectorsPerPage < sectorLimit
  decide

theorem Ready.perform (h : m.Ready) {request : Request} (hpages : request.Pages) :
    (m.perform request).Completes ∨ m.CountsOverflow (·.perform request) :=
  completes_or_overflow (·.perform request) (completes_perform hpages h.uncounted.sound
    h.uncounted.unpinned h.uncounted.serviceable hasRoom_uncounted) (follows_perform _ hpages)

theorem Ready.handleFault (h : m.Ready) (fault : PageFault) :
    (m.handleFault process fault).Completes ∨ m.CountsOverflow (·.handleFault process fault) :=
  completes_or_overflow (·.handleFault process fault) (completes_handleFault h.uncounted.sound
    h.uncounted.unpinned h.uncounted.serviceable hasRoom_uncounted) (follows_handleFault _ _ _)

/-! ## User accesses -/

theorem Ready.handled {fault : PageFault} {res : Except Error Unit} (h : m.Ready)
    (hhandled : m.Handled m' process fault res) : m'.Ready :=
  ⟨hhandled.sound h.sound, hhandled.unpinned h.unpinned,
    h.serviceable.of_sameSetup hhandled.sameSetup⟩

/-- An access whose attempts complete, on machines that are ready, completes as well, unless the
    transfers of one of its faults overflow a count. -/
theorem retry_completes {α : Type}
    (attempt : Machine n → Outcome (Except AccessFault α × Machine n)) (process stackPointer : Nat)
    (hattempt : ∀ m, m.Ready → (attempt m).Completes)
    (hready : ∀ m res m', m.Ready → (attempt m).result = .ok (res, m') → m'.Ready)
    (limit faults : Nat) (hm : m.Ready) :
    (retry attempt process stackPointer limit faults m).Completes ∨
      ∃ k m₁ fault, k < limit ∧
        (retry attempt process stackPointer k faults m).result = .ok (.gaveUp (faults + k), m₁) ∧
        m₁.CountsOverflow (·.handleFault process fault) := by
  induction limit generalizing faults m with
  | zero =>
    left
    unfold retry
    refine .bind (hattempt m hm) fun tried _ => ?_
    obtain ⟨fault | value, m₁⟩ := tried
    · exact .pure _
    · exact .pure _
  | succ limit ih =>
    obtain ⟨⟨tried, m₁⟩, htried⟩ := hattempt m hm
    have hm₁ := hready m tried m₁ hm htried
    cases tried with
    | ok value =>
      left
      unfold retry
      exact .bind_of htried (.pure _)
    | error fault =>
      rcases hm₁.handleFault ⟨fault.address, fault.write, stackPointer⟩ with
        ⟨⟨handled, m₂⟩, hhandled⟩ | hoverflow
      · cases handled with
        | error e =>
          left
          unfold retry
          exact .bind_of htried (.bind_of hhandled (.pure _))
        | ok _ =>
          have hm₂ := hm₁.handled (handleFault_cases hhandled)
          rcases ih (faults + 1) hm₂ with hrest | ⟨k, m₃, fault', hk, hrest, hoverflow⟩
          · left
            unfold retry
            exact .bind_of htried (.bind_of hhandled hrest)
          · refine .inr ⟨k + 1, m₃, fault', by omega, ?_, hoverflow⟩
            unfold retry
            refine Outcome.bind_eq_ok_iff.2 ⟨_, htried, Outcome.bind_eq_ok_iff.2 ⟨_, hhandled, ?_⟩⟩
            rwa [Nat.add_assoc, Nat.add_comm 1 k] at hrest
      · refine .inr ⟨0, m₁, _, Nat.succ_pos limit, ?_, hoverflow⟩
        unfold retry
        exact Outcome.bind_eq_ok_iff.2 ⟨_, htried, rfl⟩

theorem Ready.tryLoad {address length : Nat} {res : Except AccessFault Bytes} (hm : m.Ready)
    (h : (m.tryLoad process address length).result = .ok (res, m')) :
    m'.Ready ∧ m.SameSetup m' := by
  have hsame := (tryLoad_cases h hm.sound).2.1
  exact ⟨⟨hsame.sound hm.sound, hsame.unpinned hm.unpinned,
    hm.serviceable.of_sameSetup hsame.sameSetup⟩, hsame.sameSetup⟩

theorem Ready.tryStore {address : Nat} {data : Bytes} {res : Except AccessFault Nat} (hm : m.Ready)
    (h : (m.tryStore process address data).result = .ok (res, m')) :
    m'.Ready ∧ m.SameSetup m' := by
  obtain ⟨⟨directory, memory, rfl, htraits⟩, hs, -⟩ :=
    tryStore_cases (K := 0) h hm.sound FlatMemory.store_zero.symm
  have hsame : m.SameSetup (m.duringAccess process directory memory) :=
    sameSetup_duringAccess htraits
  exact ⟨⟨hs, hm.unpinned, hm.serviceable.of_sameSetup hsame⟩, hsame⟩

theorem Ready.load (h : m.Ready) {address length : Nat} (hrange : address + length ≤ wordLimit)
    (limit stackPointer : Nat) : (m.load limit process address length stackPointer).Completes ∨
      ∃ k m₁ fault, k < limit ∧
        (m.load k process address length stackPointer).result = .ok (.gaveUp k, m₁) ∧
        m₁.CountsOverflow (·.handleFault process fault) := by
  have hcases := retry_completes (fun m => m.tryLoad process address length) process
    stackPointer (fun m hm => completes_tryLoad hm.sound hrange)
    (fun m res m' hm htried => (hm.tryLoad htried).1) limit 0 h
  simp only [Nat.zero_add] at hcases
  exact hcases

theorem Ready.store (h : m.Ready) {address : Nat} {data : Bytes}
    (hrange : address + data.size ≤ wordLimit) (limit stackPointer : Nat) :
    (m.store limit process address data stackPointer).Completes ∨
      ∃ k m₁ fault, k < limit ∧
        (m.store k process address data stackPointer).result = .ok (.gaveUp k, m₁) ∧
        m₁.CountsOverflow (·.handleFault process fault) := by
  have hcases := retry_completes (fun m => m.tryStore process address data) process
    stackPointer (fun m hm => completes_tryStore hm.sound hrange)
    (fun m res m' hm htried => (hm.tryStore htried).1) limit 0 h
  simp only [Nat.zero_add] at hcases
  exact hcases

/-! ## Runs -/

theorem serviceable_booted (hpos : 1 ≤ n) (hmax : n ≤ maxFrameNumber + 1)
    (hdevice : device.Healthy) : (booted config n device).Serviceable where
  device := hdevice
  capacity_eq := rfl
  accepts p := by simp [booted, space, AddressSpaces.get, AddressSpace.empty]
  hand_lt := hpos
  le_frames := hmax

theorem Performed.serviceable {request : Request} {answer : Answer}
    (h : m.Performed m' request answer) (hordinary : request.Ordinary) (hs : m.Sound none)
    (hm : m.Serviceable) : m'.Serviceable := by
  rcases h.setup_cases hs with hsame | ⟨pid, traits, rfl, rfl⟩ | ⟨process, pages, rfl, -⟩
  · exact hm.of_sameSetup hsame
  · refine ⟨hm.device, hm.capacity_eq, fun p => ?_, hm.hand_lt, hm.le_frames⟩
    rw [space_spawn]
    split
    · exact List.isEmpty_iff.1 hordinary
    · exact hm.accepts p
  · exact hordinary.elim

theorem Run.ready (hpos : 1 ≤ n) (hmax : n ≤ maxFrameNumber + 1) (hdevice : device.Healthy)
    (h : Run config n device requests answers m)
    (hordinary : ∀ request ∈ requests, request.Ordinary) : m.Ready := by
  refine ⟨h.sound, h.unpinned fun request hmem => (hordinary request hmem).pinFree, ?_⟩
  refine h.keeps (serviceable_booted hpos hmax hdevice) ?_
  exact fun m request answer m' hmem hs hm hperformed =>
    hperformed.serviceable (hordinary request hmem) hs hm

/-- With 1 to 2^20 frames, a swap device that serves every transfer, and directories that refuse
    no mapping, no request for a page, fault or teardown panics after any run, unless the
    transfers it makes overflow a count of the device.  The same goes for the faults in the
    course of a load or a store, however many there are. -/
theorem run_never_panics (hpos : 1 ≤ n) (hmax : n ≤ maxFrameNumber + 1) (hdevice : device.Healthy)
    (h : Run config n device requests answers m)
    (hordinary : ∀ request ∈ requests, request.Ordinary) :
    (∀ request : Request, request.Pages →
      (m.perform request).Completes ∨ m.CountsOverflow (·.perform request)) ∧
    (∀ limit process address length stackPointer, address + length ≤ wordLimit →
      (m.load limit process address length stackPointer).Completes ∨
        ∃ k m₁ fault, k < limit ∧
          (m.load k process address length stackPointer).result = .ok (.gaveUp k, m₁) ∧
          m₁.CountsOverflow (·.handleFault process fault)) ∧
    ∀ limit process address data stackPointer, address + Array.size data ≤ wordLimit →
      (m.store limit process address data stackPointer).Completes ∨
        ∃ k m₁ fault, k < limit ∧
          (m.store k process address data stackPointer).result = .ok (.gaveUp k, m₁) ∧
          m₁.CountsOverflow (·.handleFault process fault) := by
  have hready := h.ready hpos hmax hdevice hordinary
  refine ⟨fun request hpages => hready.perform hpages, ?_, ?_⟩
  · exact fun limit process address length stackPointer hrange =>
      hready.load hrange limit stackPointer
  · exact fun limit process address data stackPointer hrange =>
      hready.store hrange limit stackPointer

/-- The only frame holds one page while another is in swap, which is read back next. -/
theorem run_never_panics_oneFrame : ∃ answers, ∃ m : Machine 1,
    Run {} 1 (.inMemory 2) [.spawn 0 {}, .mapNewPage 0 ⟨0⟩ true false, .store 0 1 #[7, 8] 0 0,
      .mapNewPage 0 ⟨1⟩ true false] answers m ∧
    (m.space 0).table.lookup ⟨0⟩ = some (.swapped ⟨0⟩) ∧
    ((m.perform (.fault 0 ⟨0, false, 0⟩)).Completes ∨
      m.CountsOverflow (·.perform (.fault 0 ⟨0, false, 0⟩))) ∧
    ((m.load 2 0 0 4 0).Completes ∨ ∃ k m₁ fault, k < 2 ∧
      (m.load k 0 0 4 0).result = .ok (.gaveUp k, m₁) ∧
      m₁.CountsOverflow (·.handleFault 0 fault)) := by
  obtain ⟨answers, m, h, hp⟩ := exists_run {} 1 (.inMemory 2) [.spawn 0 {},
    .mapNewPage 0 ⟨0⟩ true false, .store 0 1 #[7, 8] 0 0, .mapNewPage 0 ⟨1⟩ true false]
    (fun m => (m.space 0).table.lookup ⟨0⟩ = some (.swapped ⟨0⟩)) (by decide +kernel)
  have hnever := run_never_panics (by decide) (by decide) (Device.healthy_inMemory (by decide)) h
    (by decide)
  exact ⟨answers, m, h, of_decide_eq_true hp, hnever.1 _ trivial,
    hnever.2.1 2 0 0 4 0 (by decide)⟩

end Machine

end DemandPaging
