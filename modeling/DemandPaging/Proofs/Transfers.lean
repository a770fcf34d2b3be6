/-
  The counts of the swap device play no role, as long as they do not overflow.

  `moreCounted a b` is a machine, a swap space or a device of which `a` more sectors
  read and `b` more written were counted.  `Follows d a b x y` says of a computation `x`
  that starts on the device `d`, and of `y`, the same with more counted: where `x` comes to a
  value, so does `y`, unless one of the counts reaches the limit.

  * `Follows.bind` and `Follows.step` go through a sequence from front to back;
  * `follows_perform`: requests end in the same way, however much was counted before.
-/
import DemandPaging.Proofs.Progress

namespace DemandPaging

/-- Values that hold a device. -/
class OnDevice (γ : Type) where
  /-- The device. -/
  device : γ → Device
  /-- The value with more sectors counted, read and written. -/
  moreCounted : Nat → Nat → γ → γ

export OnDevice (moreCounted)

instance : OnDevice Device where
  device d := d
  moreCounted a b d := { d with reads := a + d.reads, writes := b + d.writes }

instance : OnDevice SwapSpace where
  device swap := swap.device
  moreCounted a b swap := { swap with device := moreCounted a b swap.device }

instance {n : Nat} : OnDevice (Machine n) where
  device m := m.swap.device
  moreCounted a b m := { m with swap := moreCounted a b m.swap }

instance {σ : Type} : OnDevice (Teardown σ) where
  device state := state.swap.device
  moreCounted a b state := { state with swap := moreCounted a b state.swap }

instance {α γ : Type} [OnDevice γ] : OnDevice (α × γ) where
  device v := OnDevice.device v.2
  moreCounted a b v := (v.1, moreCounted a b v.2)

/-- A computation from the device `d` counts upwards, and with `a` and `b` more counted it ends
    in the same way if the counts have room. -/
def Follows {γ : Type} [OnDevice γ] (d : Device) (a b : Nat) (x y : Outcome γ) : Prop :=
  ∀ v, x.result = .ok v →
    d.reads ≤ (OnDevice.device v).reads ∧ d.writes ≤ (OnDevice.device v).writes ∧
      (a + (OnDevice.device v).reads < sectorLimit →
        b + (OnDevice.device v).writes < sectorLimit → y.result = .ok (moreCounted a b v))

namespace Follows

variable {α γ δ : Type} [OnDevice γ] [OnDevice δ] {d : Device} {a b : Nat}

protected theorem pure {v w : γ} (hreads : (OnDevice.device v).reads = d.reads)
    (hwrites : (OnDevice.device v).writes = d.writes) (hw : w = moreCounted a b v) :
    Follows d a b (pure v) (pure w) := by
  rintro _ ⟨⟩
  rw [hreads, hwrites, hw]
  exact ⟨Nat.le_refl _, Nat.le_refl _, fun _ _ => rfl⟩

theorem halt {cause : Panic} {y : Outcome γ} : Follows d a b (Outcome.halt cause) y :=
  nofun

/-- A step that has nothing to do with the device. -/
theorem step {x : Outcome α} {f g : α → Outcome γ}
    (h : ∀ c, x.result = .ok c → Follows d a b (f c) (g c)) :
    Follows d a b (x >>= f) (x >>= g) := by
  intro v hv
  obtain ⟨c, hc, hv⟩ := Outcome.bind_eq_ok_iff.1 hv
  obtain ⟨hreads, hwrites, hy⟩ := h c hc v hv
  exact ⟨hreads, hwrites, fun ha hb => Outcome.bind_eq_ok_iff.2 ⟨c, hc, hy ha hb⟩⟩

/-- A step on the device.  What comes after it counts upwards from there, so that the counts have
    room halfway if they have it at the end. -/
protected theorem bind {x y : Outcome γ} {f g : γ → Outcome δ} (hx : Follows d a b x y)
    (h : ∀ v, x.result = .ok v →
      Follows (OnDevice.device v) a b (f v) (g (moreCounted a b v))) :
    Follows d a b (x >>= f) (y >>= g) := by
  intro w hw
  obtain ⟨v, hv, hw⟩ := Outcome.bind_eq_ok_iff.1 hw
  obtain ⟨hreads, hwrites, hy⟩ := hx v hv
  obtain ⟨hreads', hwrites', hy'⟩ := h v hv w hw
  refine ⟨by omega, by omega, fun ha hb => ?_⟩
  exact Outcome.bind_eq_ok_iff.2 ⟨_, hy (by omega) (by omega), hy' ha hb⟩

end Follows

variable {n : Nat} {a b : Nat}

/-! ## The device -/

theorem Device.follows_read (device : Device) (sector length : Nat) : Follows device a b
    (device.read sector length) ((moreCounted a b device).read sector length) := by
  have hdrive : (moreCounted a b device).drive = device.drive := rfl
  refine .step fun _ _ => .step fun _ _ => ?_
  rw [hdrive]
  rcases device.drive.read sector length with ⟨_ | contents, drive⟩
  · exact .pure rfl rfl rfl
  · intro v hv
    obtain ⟨reads, hreads, hv⟩ := Outcome.bind_eq_ok_iff.1 hv
    obtain ⟨-, rfl⟩ := Word.add32_eq_ok_iff.1 hreads
    cases hv
    refine ⟨Nat.le_succ _, Nat.le_refl _, fun ha _ => ?_⟩
    exact Outcome.bind_eq_ok_iff.2 ⟨_, Word.add32_eq_ok_iff.2 ⟨ha, rfl⟩, rfl⟩

theorem Device.follows_writeSector (device : Device) (sector : Nat) (contents : Sector) :
    Follows device a b (device.writeSector sector contents)
      ((moreCounted a b device).writeSector sector contents) := by
  have hdrive : (moreCounted a b device).drive = device.drive := rfl
  refine .step fun _ _ => .step fun _ _ => ?_
  rw [hdrive]
  rcases device.drive.writeSector sector contents with ⟨_ | _, drive⟩
  · exact .pure rfl rfl rfl
  · intro v hv
    obtain ⟨writes, hwrites, hv⟩ := Outcome.bind_eq_ok_iff.1 hv
    obtain ⟨-, rfl⟩ := Word.add32_eq_ok_iff.1 hwrites
    cases hv
    refine ⟨Nat.le_refl _, Nat.le_succ _, fun _ hb => ?_⟩
    exact Outcome.bind_eq_ok_iff.2 ⟨_, Word.add32_eq_ok_iff.2 ⟨hb, rfl⟩, rfl⟩

/-! ## The swap space -/

namespace SwapSpace

variable (swap : SwapSpace) (slot : Slot)

theorem follows_writeSectors (device : Device) (sector : Nat) (sectors : List Sector) :
    Follows device a b (writeSectors slot device sector sectors)
      (writeSectors slot (moreCounted a b device) sector sectors) := by
  induction sectors generalizing device sector with
  | nil => exact .step fun _ _ => .pure rfl rfl rfl
  | cons contents rest ih =>
    refine .step fun next _ => .bind (device.follows_writeSector sector contents) fun v _ => ?_
    obtain ⟨_ | _, device'⟩ := v
    · exact .halt
    · exact ih device' next

theorem follows_readSectors (device : Device) (sector count : Nat) :
    Follows device a b (readSectors slot device sector count)
      (readSectors slot (moreCounted a b device) sector count) := by
  induction count generalizing device sector with
  | zero => exact .step fun _ _ => .pure rfl rfl rfl
  | succ count ih =>
    refine .step fun next _ => .bind (device.follows_read sector sectorSize) fun v _ => ?_
    obtain ⟨_ | contents, device'⟩ := v
    · exact .halt
    · exact .bind (ih device' next) fun _ _ => .pure rfl rfl rfl

theorem follows_write (contents : Contents) : Follows swap.device a b (swap.write slot contents)
    ((moreCounted a b swap).write slot contents) :=
  .step fun _ _ => .step fun first _ =>
    .bind (follows_writeSectors slot swap.device first contents.sectors) fun _ _ =>
      .pure rfl rfl rfl

theorem follows_read :
    Follows swap.device a b (swap.read slot) ((moreCounted a b swap).read slot) :=
  .step fun _ _ => .step fun first _ =>
    .bind (follows_readSectors slot swap.device first sectorsPerPage) fun _ _ => .pure rfl rfl rfl

theorem follows_allocate :
    Follows swap.device a b swap.allocate (moreCounted a b swap).allocate :=
  .step fun _ _ => .pure rfl rfl rfl

theorem follows_free :
    Follows swap.device a b (swap.free slot) ((moreCounted a b swap).free slot) :=
  .step fun _ _ => .pure rfl rfl rfl

end SwapSpace

/-! ## The machine -/

namespace Machine

variable (m : Machine n) (frame : Frame)

theorem follows_chooseEviction (record : PageRecord) (dirty : Bool) :
    Follows m.swap.device a b (m.chooseEviction record dirty)
      ((moreCounted a b m).chooseEviction record dirty) := by
  unfold chooseEviction
  split
  · exact .pure rfl rfl rfl
  · exact .bind m.swap.follows_allocate fun _ _ => .pure rfl rfl rfl

theorem follows_restoreMapping (owner : Owner) (writable accessed dirty : Bool) :
    Follows m.swap.device a b (m.restoreMapping owner frame writable accessed dirty)
      ((moreCounted a b m).restoreMapping owner frame writable accessed dirty) :=
  .step fun _ _ => .step fun _ _ => .pure rfl rfl rfl

theorem follows_saveContents (eviction : Eviction) :
    Follows m.swap.device a b (m.saveContents frame eviction)
      ((moreCounted a b m).saveContents frame eviction) := by
  cases eviction with
  | swapped slot =>
    exact .step fun contents _ => .bind (m.swap.follows_write slot contents) fun _ _ =>
      .pure rfl rfl rfl
  | discarded => exact .pure rfl rfl rfl

theorem follows_takeFrame : Follows m.swap.device a b (m.takeFrame frame)
    ((moreCounted a b m).takeFrame frame) := by
  refine .step fun victim _ => .bind (follows_chooseEviction _ _ _) fun v _ => ?_
  obtain ⟨e | eviction, m₁⟩ := v
  · exact .bind (follows_restoreMapping m₁ _ _ _ _ _) fun _ _ => .pure rfl rfl rfl
  · refine .bind (follows_saveContents m₁ frame eviction) fun m₂ _ => ?_
    refine .step fun marked _ => ?_
    cases marked with
    | error e => exact .halt
    | ok table => exact .step fun _ _ => .pure rfl rfl rfl

theorem follows_evict : Follows m.swap.device a b m.evict (moreCounted a b m).evict := by
  have hpick : (moreCounted a b m).pickVictim =
      (m.pickVictim.1, moreCounted a b m.pickVictim.2) := rfl
  have hswap : m.pickVictim.2.swap = m.swap := rfl
  unfold evict
  rw [hpick]
  generalize m.pickVictim = picked at *
  obtain ⟨_ | frame, swept⟩ := picked
  · exact .halt
  · rw [← hswap]
    exact .bind (swept.follows_takeFrame frame) fun _ _ => .pure rfl rfl rfl

theorem follows_obtainFrame :
    Follows m.swap.device a b m.obtainFrame (moreCounted a b m).obtainFrame := by
  refine .step fun free _ => ?_
  obtain ⟨_ | frame, frames⟩ := free
  · exact follows_evict { m with frames := frames }
  · exact .pure rfl rfl rfl

theorem follows_allocate (process : Nat) (page : Page) (zero : Bool) :
    Follows m.swap.device a b (m.allocate process page zero)
      ((moreCounted a b m).allocate process page zero) := by
  refine .bind m.follows_obtainFrame fun v _ => ?_
  obtain ⟨e | frame, m₁⟩ := v
  · exact .pure rfl rfl rfl
  · refine .step fun _ _ => .step fun _ _ => ?_
    cases zero with
    | true => exact .step fun _ _ => .pure rfl rfl rfl
    | false => exact .step fun _ _ => .pure rfl rfl rfl

theorem follows_free :
    Follows m.swap.device a b (m.free frame) ((moreCounted a b m).free frame) :=
  .step fun _ _ => .pure rfl rfl rfl

theorem follows_unpin :
    Follows m.swap.device a b (m.unpin frame) ((moreCounted a b m).unpin frame) :=
  .step fun _ _ => .pure rfl rfl rfl

theorem follows_fill (process : Nat) (page : Page) (record : PageRecord) :
    Follows m.swap.device a b (m.fill process page record frame)
      ((moreCounted a b m).fill process page record frame) := by
  unfold fill
  split
  · exact .pure rfl rfl rfl
  · exact .pure rfl rfl rfl
  · exact .bind (m.swap.follows_read _) fun _ _ => .step fun _ _ => .pure rfl rfl rfl
  · split
    · exact .halt
    · dsimp only
      split
      · exact .step fun _ _ => .pure rfl rfl rfl
      · exact .step fun memory _ => .bind (follows_free { m with memory := memory } frame)
          fun _ _ => .step fun _ _ => .pure rfl rfl rfl

theorem follows_leaveSource (status : PageStatus) :
    Follows m.swap.device a b (m.leaveSource status) ((moreCounted a b m).leaveSource status) := by
  cases status with
  | swapped slot => exact .bind (m.swap.follows_free slot) fun _ _ => .pure rfl rfl rfl
  | zero => exact .pure rfl rfl rfl
  | resident g => exact .pure rfl rfl rfl
  | fileBacked span => exact .pure rfl rfl rfl

theorem follows_install (process : Nat) (page : Page) (record : PageRecord) :
    Follows m.swap.device a b (m.install process page record frame)
      ((moreCounted a b m).install process page record frame) := by
  refine .step fun mapped _ => ?_
  obtain ⟨_ | _, directory⟩ := mapped
  · exact .bind (m.follows_free frame) fun _ _ => .pure rfl rfl rfl
  · refine .step fun table _ => .bind (follows_leaveSource _ _) fun m₁ _ => ?_
    exact .bind (m₁.follows_unpin frame) fun _ _ => .pure rfl rfl rfl

theorem follows_bringIn (process : Nat) (page : Page) (record : PageRecord) :
    Follows m.swap.device a b (m.bringIn process page record)
      ((moreCounted a b m).bringIn process page record) := by
  refine .bind (m.follows_allocate _ _ _) fun v _ => ?_
  obtain ⟨e | frame, m₁⟩ := v
  · exact .pure rfl rfl rfl
  · refine .bind (m₁.follows_fill frame _ _ _) fun v _ => ?_
    obtain ⟨e | _, m₂⟩ := v
    · exact .pure rfl rfl rfl
    · exact m₂.follows_install frame _ _ _

theorem follows_handleFault (process : Nat) (fault : PageFault) :
    Follows m.swap.device a b (m.handleFault process fault)
      ((moreCounted a b m).handleFault process fault) := by
  have hjudge : (moreCounted a b m).judge process fault = m.judge process fault := rfl
  unfold handleFault
  rw [hjudge]
  split
  · exact .step fun _ _ => .pure rfl rfl rfl
  · split
    · exact .pure rfl rfl rfl
    · exact m.follows_bringIn _ _ _
  · rename_i page _
    have hinsert : ((moreCounted a b m).space process).table.insertZero page true =
      (m.space process).table.insertZero page true := rfl
    rw [hinsert]
    split
    · exact .pure rfl rfl rfl
    · rename_i table _
      exact .step fun _ _ => follows_bringIn (m.setTable process table) _ _ _

theorem setDirectory_moreCounted (process : Nat) (directory : Directory) :
    (moreCounted a b m).setDirectory process directory =
      moreCounted a b (m.setDirectory process directory) := rfl

theorem setTable_moreCounted (process : Nat) (table : PageTable) :
    (moreCounted a b m).setTable process table = moreCounted a b (m.setTable process table) := rfl

theorem follows_placeNewPage (process : Nat) (page : Page) (writable : Bool)
    (intruder : Option Bool) :
    Follows m.swap.device a b (m.placeNewPage process page frame writable intruder)
      ((moreCounted a b m).placeNewPage process page frame writable intruder) := by
  refine .step fun mapped _ => ?_
  obtain ⟨_ | _, directory⟩ := mapped
  · exact .bind (m.follows_free frame) fun _ _ => .pure rfl rfl rfl
  · have hspace : (moreCounted a b m).space process = m.space process := rfl
    simp only [hspace, Bool.not_true, Bool.false_eq_true, if_false, setDirectory_moreCounted,
      setTable_moreCounted]
    generalize hplaced : (m.setDirectory process directory).setTable process _ = placed
    have hswap : placed.swap = m.swap := by rw [← hplaced]; rfl
    rw [← hswap]
    split
    · exact .bind ((placed.setDirectory process _).follows_free frame) fun _ _ =>
        .pure rfl rfl rfl
    · exact .bind ((placed.setTable process _).follows_unpin frame) fun _ _ => .pure rfl rfl rfl

theorem follows_mapNewPage (process : Nat) (page : Page) (writable intruding : Bool) :
    Follows m.swap.device a b (m.mapNewPage process page writable intruding)
      ((moreCounted a b m).mapNewPage process page writable intruding) := by
  have hcontains : ((moreCounted a b m).space process).table.contains page =
    (m.space process).table.contains page := rfl
  unfold mapNewPage mapNewPageAgainst
  rw [hcontains]
  split
  · exact .pure rfl rfl rfl
  · refine .bind (m.follows_allocate _ _ _) fun v _ => ?_
    obtain ⟨e | frame, m₁⟩ := v
    · exact .pure rfl rfl rfl
    · exact m₁.follows_placeNewPage frame _ _ _ _

theorem follows_giveBackAll (state : Teardown (FrameTable n)) (pages : List (Page × PageRecord)) :
    Follows state.swap.device a b (Teardown.giveBackAll FrameTable.release pages state)
      (Teardown.giveBackAll FrameTable.release pages (moreCounted a b state)) := by
  induction pages generalizing state with
  | nil => exact .pure rfl rfl rfl
  | cons entry rest ih =>
    obtain ⟨page, status, writable, dirty, origin⟩ := entry
    refine .bind ?_ fun state' _ => ih state'
    cases status with
    | resident frame => exact .step fun _ _ => .pure rfl rfl rfl
    | swapped slot => exact .bind (state.swap.follows_free slot) fun _ _ => .pure rfl rfl rfl
    | zero => exact .pure rfl rfl rfl
    | fileBacked span => exact .pure rfl rfl rfl

theorem follows_destroy (process : Nat) :
    Follows m.swap.device a b (m.destroy process) ((moreCounted a b m).destroy process) := by
  refine .bind (.bind (follows_giveBackAll
    ⟨{}, {}, (m.space process).directory, m.swap, m.frames⟩ _) fun _ _ => .pure rfl rfl rfl)
    fun v _ => ?_
  exact .step fun _ _ => .pure rfl rfl rfl

theorem follows_perform {request : Request} (hpages : request.Pages) :
    Follows m.swap.device a b (m.perform request) ((moreCounted a b m).perform request) := by
  cases request with
  | mapNewPage process page writable intruding =>
    exact .bind (m.follows_mapNewPage _ _ _ _) fun _ _ => .pure rfl rfl rfl
  | fault process fault => exact .bind (m.follows_handleFault _ _) fun _ _ => .pure rfl rfl rfl
  | destroy process => exact .bind (m.follows_destroy _) fun _ _ => .pure rfl rfl rfl
  | _ => exact hpages.elim

end Machine

end DemandPaging
