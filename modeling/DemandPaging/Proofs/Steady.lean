/-
  What stays as it is while pages and frames change hands.

  * `SameSetup`: the limits of the stacks, the traits of the directories, the swap
    device and the number of its slots, and that the hand is on the frames;
  * `Unpinned`: no frame is pinned, apart from the one in hand.

  Every change that a request is made of keeps both.

  * `Performed.setup_cases`: so does every request that does not concern a
    directory as such;
  * `Run.unpinned`: in a run without pins, no frame is pinned.
-/
import DemandPaging.Proofs.Run

namespace DemandPaging

namespace Machine

variable {n : Nat} {m m' m₁ : Machine n} {held : Option Frame} {frame : Frame} {o : Owner}
  {record : PageRecord} {process : Nat}

/-- Machines that are set up alike. -/
structure SameSetup (m m' : Machine n) : Prop where
  config_eq : m'.config = m.config
  traits_eq : ∀ p, (m'.space p).directory.toDirectoryTraits =
    (m.space p).directory.toDirectoryTraits
  device_same : m.swap.device.SameAs m'.swap.device
  capacity_eq : m'.swap.slots.capacity = m.swap.slots.capacity
  hand_lt : m.frames.hand < n → m'.frames.hand < n

/-- No frame is pinned, apart from the frame in hand. -/
def Unpinned (m : Machine n) (held : Option Frame) : Prop :=
  ∀ g, held ≠ some g → m.frames.pool.hasPin g = false

theorem SameSetup.refl (m : Machine n) : m.SameSetup m :=
  ⟨rfl, fun _ => rfl, .refl _, rfl, id⟩

theorem SameSetup.trans (h : m.SameSetup m₁) (h' : m₁.SameSetup m') : m.SameSetup m' where
  config_eq := h'.config_eq.trans h.config_eq
  traits_eq p := (h'.traits_eq p).trans (h.traits_eq p)
  device_same := h.device_same.trans h'.device_same
  capacity_eq := h'.capacity_eq.trans h.capacity_eq
  hand_lt := h'.hand_lt ∘ h.hand_lt

/-! ## The clock -/

theorem SameUpToAccess.sameSetup (h : m.SameUpToAccess m') : m.SameSetup m' :=
  ⟨h.config_eq, h.traits_eq, by rw [h.swap_eq]; exact .refl _, by rw [h.swap_eq], h.hand_lt⟩

theorem SameUpToAccess.unpinned (h : m.SameUpToAccess m') (hp : m.Unpinned held) :
    m'.Unpinned held := by
  intro g hg
  rw [h.pool_eq]
  exact hp g hg

/-! ## Evictions -/

theorem Evicted.sameSetup (h : m.Evicted m' frame o record) : m.SameSetup m' := by
  cases h with
  | discarded origin horigin hclean hloses hswap hstats =>
    exact ⟨hloses.config_eq, hloses.traits_eq, by rw [hswap]; exact .refl _, by rw [hswap],
      by rw [hloses.hand_eq]; exact id⟩
  | swapped slot swap hdirty hslot hwrite hloses hstats =>
    obtain ⟨slots, hslots, rfl⟩ := SwapSpace.allocate_cases hslot
    obtain ⟨-, hsame, -, hdevice, -⟩ := SwapSpace.write_cases hwrite
    exact ⟨hloses.config_eq, hloses.traits_eq, hdevice,
      by rw [hsame]; exact Slots.capacity_allocate hslots, by rw [hloses.hand_eq]; exact id⟩

theorem Evicted.unpinned (h : m.Evicted m' frame o record) (hp : m.Unpinned held) :
    m'.Unpinned held := by
  cases h with
  | discarded _ _ _ hloses =>
    intro g hg
    rw [hloses.pool_eq]
    exact hp g hg
  | swapped _ _ _ _ _ hloses =>
    intro g hg
    rw [hloses.pool_eq]
    exact hp g hg

theorem Restored.sameSetup (h : m.Restored m' frame o record) : m.SameSetup m' :=
  ⟨h.config_eq, h.traits_eq, by rw [h.swap_eq]; exact .refl _, by rw [h.swap_eq],
    by rw [h.frames_eq]; exact id⟩

theorem Restored.unpinned (h : m.Restored m' frame o record) (hp : m.Unpinned held) :
    m'.Unpinned held := by
  intro g hg
  rw [h.frames_eq]
  exact hp g hg

/-! ## The frame in hand -/

theorem Obtained.sameSetup {res : Except Error Frame} (h : m.Obtained m' res) :
    m.SameSetup m' := by
  cases h with
  | free frame pool halloc hm' => subst hm'; exact ⟨rfl, fun _ => rfl, .refl _, rfl, id⟩
  | evicted swept frame o record _ hpick _ _ _ hevicted =>
    exact (pickVictim_cases hpick).1.sameSetup.trans hevicted.sameSetup
  | exhausted swept frame o record _ hpick _ _ _ hrestored =>
    exact (pickVictim_cases hpick).1.sameSetup.trans hrestored.sameSetup

/-- A frame comes into hand without a pin. -/
theorem Obtained.unpinned {res : Except Error Frame} (h : m.Obtained m' res)
    (hp : m.Unpinned none) : m'.Unpinned none := by
  cases h with
  | free frame pool halloc hm' =>
    subst hm'
    rcases Pool.alloc_cases halloc with ⟨hno, -⟩ | ⟨frame', hsome, hlt, -, hmap, -⟩
    · cases hno
    · intro g hg
      show pool.hasPin g = false
      rw [Pool.hasPin_congr hmap, Pool.hasPin_setEntry _ hlt]
      split
      · rfl
      · exact hp g hg
  | evicted swept frame o record _ hpick _ _ _ hevicted =>
    exact hevicted.unpinned ((pickVictim_cases hpick).1.unpinned hp)
  | exhausted swept frame o record _ hpick _ _ _ hrestored =>
    exact hrestored.unpinned ((pickVictim_cases hpick).1.unpinned hp)

theorem SameButHeld.sameSetup (h : m.SameButHeld m' frame) : m.SameSetup m' :=
  ⟨h.config_eq, fun p => by rw [space, h.spaces_eq]; rfl, h.device_same, by rw [h.slots_eq],
    by rw [h.hand_eq]; exact id⟩

theorem SameButHeld.unpinned (h : m.SameButHeld m' frame)
    (hp : ∀ g, frame ≠ g → m.frames.pool.hasPin g = false) : m'.Unpinned (some frame) := by
  intro g hg
  have hne : frame ≠ g := fun e => hg (congrArg some e)
  rw [h.hasPin_eq g hne]
  exact hp g hne

theorem Freed.sameSetup (h : m.Freed m' frame) : m.SameSetup m' :=
  ⟨h.config_eq, fun p => by rw [space, h.spaces_eq]; rfl, by rw [h.swap_eq]; exact .refl _,
    by rw [h.swap_eq], by rw [h.hand_eq]; exact id⟩

theorem Freed.unpinned (h : m.Freed m' frame) (hp : m.Unpinned (some frame)) :
    m'.Unpinned none := by
  intro g _
  rw [h.hasPin_eq]
  split
  · rfl
  · rename_i hne
    exact hp g fun e => hne (Option.some.inj e)

/-! ## Pages that come and go -/

theorem Added.sameSetup {new : Owner → Option PageRecord} (h : m.Added m' new) : m.SameSetup m' :=
  ⟨h.config_eq, h.traits_eq, by rw [h.swap_eq]; exact .refl _, by rw [h.swap_eq],
    by rw [h.frames_eq]; exact id⟩

theorem Added.unpinned {new : Owner → Option PageRecord} (h : m.Added m' new)
    (hp : m.Unpinned held) : m'.Unpinned held := by
  intro g hg
  rw [h.frames_eq]
  exact hp g hg

theorem SlotLeft.capacity_eq {slots slots' : Slots} {status : PageStatus}
    (h : SlotLeft slots slots' status) : slots'.capacity = slots.capacity := by
  cases status with
  | swapped slot =>
    have hfree : (slots.free slot).result = .ok slots' := h
    rw [(Slots.free_cases hfree).2, Slots.capacity_release]
  | zero => exact congrArg _ h
  | resident frame => exact congrArg _ h
  | fileBacked span => exact congrArg _ h

theorem Installed.sameSetup (h : m.Installed m' frame o record) : m.SameSetup m' :=
  ⟨h.config_eq, h.traits_eq, by rw [h.device_eq]; exact .refl _, h.slots.capacity_eq,
    by rw [h.hand_eq]; exact id⟩

theorem Installed.unpinned (h : m.Installed m' frame o record) (hp : m.Unpinned (some frame)) :
    m'.Unpinned none := by
  intro g _
  rw [h.hasPin_eq]
  split
  · rfl
  · rename_i hne
    exact hp g fun e => hne (Option.some.inj e)

theorem TornDown.sameSetup (h : TornDown process m m') : m.SameSetup m' := by
  induction h with
  | done m hempty => exact .refl m
  | page m m₁ m' page record hr hremoved rest ih =>
    refine .trans ⟨hremoved.config_eq, hremoved.traits_eq, ?_, hremoved.slots.capacity_eq, ?_⟩ ih
    · rw [hremoved.device_eq]; exact .refl _
    · rw [hremoved.hand_eq]; exact id

theorem TornDown.unpinned (h : TornDown process m m') (hp : m.Unpinned none) :
    m'.Unpinned none := by
  induction h with
  | done m hempty => exact hp
  | page m m₁ m' page record hr hremoved rest ih =>
    refine ih fun g hg => ?_
    rw [hremoved.hasPin_eq]
    split
    · rfl
    · exact hp g hg

/-! ## Faults and new pages -/

theorem Brought.sameSetup {res : Except Error Unit} (h : m.Brought m' o record res) :
    m.SameSetup m' := by
  cases h with
  | frameless e hobtained => exact hobtained.sameSetup
  | givenBack e frame m₁ m₂ hframe hobtained hsame hfreed =>
    exact (hobtained.sameSetup.trans hsame.sameSetup).trans hfreed.sameSetup
  | installed frame m₁ m₂ m₃ hobtained hclaimed hfilled hinstalled =>
    exact ((hobtained.sameSetup.trans hclaimed.same.sameSetup).trans
      hfilled.same.sameSetup).trans hinstalled.sameSetup

theorem Brought.unpinned {res : Except Error Unit} (h : m.Brought m' o record res)
    (hp : m.Unpinned none) : m'.Unpinned none := by
  cases h with
  | frameless e hobtained => exact hobtained.unpinned hp
  | givenBack e frame m₁ m₂ hframe hobtained hsame hfreed =>
    exact hfreed.unpinned (hsame.unpinned fun g _ => hobtained.unpinned hp g nofun)
  | installed frame m₁ m₂ m₃ hobtained hclaimed hfilled hinstalled =>
    have hp₂ := hclaimed.same.unpinned fun g _ => hobtained.unpinned hp g nofun
    exact hinstalled.unpinned (hfilled.same.unpinned fun g hg =>
      hp₂ g fun e => hg (Option.some.inj e))

theorem Handled.sameSetup {fault : PageFault} {res : Except Error Unit}
    (h : m.Handled m' process fault res) : m.SameSetup m' := by
  cases h with
  | rejected e hnot hm => subst hm; exact .refl _
  | resident record hr hin hm => subst hm; exact .refl _
  | known record res hr hout hbrought => exact hbrought.sameSetup
  | grown m₁ res hgrows hadded hbrought => exact hadded.sameSetup.trans hbrought.sameSetup

theorem Handled.unpinned {fault : PageFault} {res : Except Error Unit}
    (h : m.Handled m' process fault res) (hp : m.Unpinned none) : m'.Unpinned none := by
  cases h with
  | rejected e hnot hm => subst hm; exact hp
  | resident record hr hin hm => subst hm; exact hp
  | known record res hr hout hbrought => exact hbrought.unpinned hp
  | grown m₁ res hgrows hadded hbrought => exact hbrought.unpinned (hadded.unpinned hp)

theorem MappedNew.sameSetup {writable : Bool} {intruder : Option Bool} {res : Except Error Unit}
    (h : m.MappedNew m' o writable intruder res) : m.SameSetup m' := by
  cases h with
  | taken record hr hm => subst hm; exact .refl _
  | frameless e hr hobtained => exact hobtained.sameSetup
  | refused frame m₁ m₂ hr hobtained hclaimed hfreed =>
    exact (hobtained.sameSetup.trans hclaimed.same.sameSetup).trans hfreed.sameSetup
  | intruded frame m₁ m₂ m₃ hr hintruder hobtained hclaimed hadded hfreed =>
    exact ((hobtained.sameSetup.trans hclaimed.same.sameSetup).trans hadded.sameSetup).trans
      hfreed.sameSetup
  | placed frame m₁ m₂ hr hintruder hobtained hclaimed hinstalled =>
    exact (hobtained.sameSetup.trans hclaimed.same.sameSetup).trans hinstalled.sameSetup

theorem MappedNew.unpinned {writable : Bool} {intruder : Option Bool} {res : Except Error Unit}
    (h : m.MappedNew m' o writable intruder res) (hp : m.Unpinned none) : m'.Unpinned none := by
  cases h with
  | taken record hr hm => subst hm; exact hp
  | frameless e hr hobtained => exact hobtained.unpinned hp
  | refused frame m₁ m₂ hr hobtained hclaimed hfreed =>
    exact hfreed.unpinned (hclaimed.same.unpinned fun g _ => hobtained.unpinned hp g nofun)
  | intruded frame m₁ m₂ m₃ hr hintruder hobtained hclaimed hadded hfreed =>
    exact hfreed.unpinned (hadded.unpinned
      (hclaimed.same.unpinned fun g _ => hobtained.unpinned hp g nofun))
  | placed frame m₁ m₂ hr hintruder hobtained hclaimed hinstalled =>
    exact hinstalled.unpinned (hclaimed.same.unpinned fun g _ => hobtained.unpinned hp g nofun)

/-! ## Accesses -/

theorem sameSetup_duringAccess {directory : Directory} {memory : Memory n}
    (h : directory.toDirectoryTraits = (m.space process).directory.toDirectoryTraits) :
    m.SameSetup (m.duringAccess process directory memory) := by
  refine ⟨rfl, fun p => ?_, .refl _, rfl, id⟩
  rw [traits_duringAccess]
  split
  · rename_i hp; rw [h, hp]
  · rfl

end Machine

/-! ## Requests and runs -/

/-- A request that leaves the pins alone. -/
def Request.PinFree : Request → Prop
  | .pin _ | .unpin _ => False
  | _ => True

instance : DecidablePred Request.PinFree := fun request => by
  cases request <;> unfold Request.PinFree <;> infer_instance

namespace Machine

variable {n : Nat} {m m' : Machine n} {request : Request} {answer : Answer}

/-- Apart from new processes and directories that run out of memory, requests leave the setup
    alone. -/
theorem Performed.setup_cases (h : m.Performed m' request answer) (hs : m.Sound none) :
    m.SameSetup m' ∨
      (∃ pid traits, request = .spawn pid traits ∧ m' = m.spawn pid traits) ∨
      ∃ process pages, request = .refuse process pages ∧ m' = m.setDirectory process
        { (m.space process).directory with refused := pages } := by
  cases h with
  | spawn pid traits hm => exact .inr (.inl ⟨pid, traits, rfl, hm⟩)
  | mapNewPage process page writable intruding result hmapped => exact .inl hmapped.sameSetup
  | mapSegment process segment result hmapped =>
    rcases hmapped with ⟨-, hadded⟩ | ⟨count, -, -, hadded⟩
    · exact .inl hadded.sameSetup
    · exact .inl hadded.sameSetup
  | fault process fault result hhandled => exact .inl hhandled.sameSetup
  | load process address length stackPointer limit access hload =>
    exact .inl (load_keeps
      (fun _ _ _ htraits hsame => hsame.trans (sameSetup_duringAccess htraits))
      (fun _ _ _ _ _ hsame hhandled => hsame.trans hhandled.sameSetup) hs (.refl m) hload).2
  | store process address data stackPointer limit access hstore =>
    exact .inl (store_keeps
      (fun _ _ _ htraits hsame => hsame.trans (sameSetup_duringAccess htraits))
      (fun _ _ _ _ _ hsame hhandled => hsame.trans hhandled.sameSetup) hs (.refl m) hstore).2
  | destroy process released m₁ hsame htorn => exact .inl (hsame.sameSetup.trans htorn.sameSetup)
  | pin frame hallocated hm => subst hm; exact .inl ⟨rfl, fun _ => rfl, .refl _, rfl, id⟩
  | unpin frame hallocated hm => subst hm; exact .inl ⟨rfl, fun _ => rfl, .refl _, rfl, id⟩
  | pickVictim frame hpick => exact .inl (pickVictim_cases hpick).1.sameSetup
  | refuse process pages hm => exact .inr (.inr ⟨process, pages, rfl, hm⟩)

theorem Performed.config_eq (h : m.Performed m' request answer) (hs : m.Sound none) :
    m'.config = m.config := by
  rcases h.setup_cases hs with hsame | ⟨pid, traits, -, rfl⟩ | ⟨process, pages, -, rfl⟩
  · exact hsame.config_eq
  · rfl
  · rfl

theorem Performed.unpinned (h : m.Performed m' request answer) (hfree : request.PinFree)
    (hs : m.Sound none) (hp : m.Unpinned none) : m'.Unpinned none := by
  cases h with
  | spawn pid traits hm => subst hm; exact hp
  | mapNewPage process page writable intruding result hmapped => exact hmapped.unpinned hp
  | mapSegment process segment result hmapped =>
    rcases hmapped with ⟨-, hadded⟩ | ⟨count, -, -, hadded⟩
    · exact hadded.unpinned hp
    · exact hadded.unpinned hp
  | fault process fault result hhandled => exact hhandled.unpinned hp
  | load process address length stackPointer limit access hload =>
    exact (load_keeps (fun _ _ _ _ hp => hp)
      (fun _ _ _ _ _ hp hhandled => hhandled.unpinned hp) hs hp hload).2
  | store process address data stackPointer limit access hstore =>
    exact (store_keeps (fun _ _ _ _ hp => hp)
      (fun _ _ _ _ _ hp hhandled => hhandled.unpinned hp) hs hp hstore).2
  | destroy process released m₁ hsame htorn => exact htorn.unpinned (hsame.unpinned hp)
  | pin frame hallocated hm => exact hfree.elim
  | unpin frame hallocated hm => exact hfree.elim
  | pickVictim frame hpick => exact (pickVictim_cases hpick).1.unpinned hp
  | refuse process pages hm => subst hm; exact hp

section

variable {config : Config} {device : Device} {requests : List Request} {answers : List Answer}

theorem Run.config_eq (h : Run config n device requests answers m) : m.config = config :=
  h.keeps (P := fun m => m.config = config) rfl fun _ _ _ _ _ hs hconfig hperformed =>
    (hperformed.config_eq hs).trans hconfig

/-- Without requests that pin frames, no frame is pinned between requests. -/
theorem Run.unpinned (h : Run config n device requests answers m)
    (hfree : ∀ request ∈ requests, request.PinFree) : m.Unpinned none := by
  refine h.keeps (P := fun m => m.Unpinned none) (fun g _ => hasPin_blank g) ?_
  exact fun m request answer m' hmem hs hp hperformed =>
    hperformed.unpinned (hfree request hmem) hs hp

end

end Machine

end DemandPaging
