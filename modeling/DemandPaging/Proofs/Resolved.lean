/-
  What a fault that was handled does to the frames.

  * `Resolved`: the page that faulted is in a frame, which was free, or which the
    clock took from another page;
  * `Handled.resolved`: so it is after every handled fault for a page that did
    not permit the access.
-/
import DemandPaging.Proofs.Attempt
import DemandPaging.Proofs.NoPanic
import DemandPaging.Proofs.Sweep

namespace DemandPaging.Machine

variable {n : Nat} {m m' m₁ : Machine n} {frame : Frame} {o x : Owner} {record : PageRecord}
  {write : Bool} {process : Nat}

/-- The page `o`, which was in no frame, was brought into one. -/
structure FrameFor (m m' : Machine n) (o : Owner) (frame : Frame) (write : Bool) : Prop where
  lt : frame.index < n
  absent : ∀ g, m.frames.owner? g ≠ some o
  owner?_eq : ∀ g, m'.frames.owner? g = if frame = g then some o else m.frames.owner? g
  writable : write = true → m'.flag o .writable = true
  writable_eq : ∀ x, o ≠ x → m'.flag x .writable = m.flag x .writable

/-- How the page `o` got a frame: there was a free one, or the clock took one that it came to
    after it had passed `count` others. -/
inductive Resolved (m m' : Machine n) (o : Owner) (write : Bool) : Prop where
  | free (frame : Frame) (h : m.FrameFor m' o frame write)
      (hfree : m.frames.owner? frame = none) : Resolved m m' o write
  | taken (count : Nat) (h : m.FrameFor m' o ⟨(m.frames.hand + count) % n⟩ write)
      (hswept : m.Swept m' count) (howned : ∀ g < n, ∃ x, m.frames.owner? ⟨g⟩ = some x)
      (haccessed : ∀ x, m'.flag x .accessed = true → o ≠ x ∧ m.flag x .accessed = true) :
      Resolved m m' o write

/-- A page is in a frame if and only if it is mapped to it. -/
theorem Linked.permits_iff (hl : m.Linked none) : m.Permits o write ↔
    (∃ g, m.frames.owner? g = some o) ∧ (write = true → m.flag o .writable = true) := by
  have hmapped : ∀ g, m.translate o = some g ↔ m.frames.owner? g = some o :=
    fun g => (hl.translate_iff g o).trans (hl.owner?_iff g o).symm
  simp only [Permits, hmapped]

/-- The page `o` was put into the frame in hand.  It is there as if never accessed. -/
structure PutIn (m m' : Machine n) (o : Owner) (frame : Frame) (writable : Bool) : Prop where
  lt : frame.index < n
  owner?_eq : ∀ g, m'.frames.owner? g = if frame = g then some o else m.frames.owner? g
  hand_eq : m'.frames.hand = m.frames.hand
  writable_eq : ∀ x, m'.flag x .writable = if o = x then writable else m.flag x .writable
  accessed_eq : ∀ x, m'.flag x .accessed = if o = x then false else m.flag x .accessed

theorem putIn_of_installed {m₂ m₃ : Machine n} {zero : Bool}
    (hclaimed : m₁.Claimed m₂ frame o zero) (hfilled : m₂.Filled m₃ frame record)
    (hinstalled : m₃.Installed m' frame o record) : m₁.PutIn m' o frame record.writable := by
  refine ⟨hclaimed.lt, fun g => ?_, ?_, fun x => ?_, fun x => ?_⟩
  · rw [hinstalled.owner?_eq]
    split
    · rename_i hg
      rw [← hg, hfilled.owner?_self, hclaimed.owner?_self]
    · rename_i hg
      rw [hfilled.same.owner?_eq g hg, hclaimed.same.owner?_eq g hg]
  · rw [hinstalled.hand_eq, hfilled.same.hand_eq, hclaimed.same.hand_eq]
  · rw [hinstalled.writable_eq, hfilled.same.flag_eq, hclaimed.same.flag_eq]
  · rw [hinstalled.accessed_eq, hfilled.same.flag_eq, hclaimed.same.flag_eq]

/-- The frame in hand is the one that the clock took from another page. -/
theorem PutIn.resolved {swept : Machine n} {v : Owner} {r : PageRecord} {writable : Bool}
    (h : m₁.PutIn m' o frame writable) (hwritable : write = true → writable = true) (hm : m.Ready)
    (hidle : ∀ p, (m.space p).directory.busy = false)
    (habsent : ∀ g, m.frames.owner? g ≠ some o)
    (hfull : m.frames.alloc.result = .ok (none, m.frames))
    (hpick : m.pickVictim = (some frame, swept)) (hevicted : swept.Evicted m₁ frame v r) :
    m.Resolved m' o write := by
  have hs := hm.sound
  have hallocated := fun (g : Frame) (hlt : g.index < n) =>
    FrameTable.isAllocated_of_none hs.linked.counted hfull hlt
  obtain ⟨count, hchosen, hswept⟩ := exists_swept hs hm.unpinned hidle hm.serviceable.hand_lt
    hallocated
  have hsame := (pickVictim_cases hpick).1
  rw [hpick] at hchosen hswept
  obtain rfl : frame = ⟨(m.frames.hand + count) % n⟩ := Option.some.inj hchosen
  obtain ⟨after, hloses, -⟩ := hevicted.loses
  have haccessed : ∀ x, m'.flag x .accessed =
      if o = x then false else swept.flag x .accessed := by
    intro x
    rw [h.accessed_eq, hloses.flag_eq x _ (by decide)]
  refine .taken count ⟨h.lt, habsent, fun g => ?_, fun hw => ?_, fun x hx => ?_⟩
    ⟨hswept.le, ?_, fun i hi => ?_, hswept.taken⟩ (fun g hg => ?_) fun x hx => ?_
  · rw [h.owner?_eq]
    split
    · rfl
    · rename_i hg
      rw [hloses.owner?_eq h.lt, if_neg hg, hsame.owner?_eq]
  · rw [h.writable_eq, if_pos rfl, hwritable hw]
  · rw [h.writable_eq, if_neg hx, hloses.flag_eq x _ (by decide), hsame.flag_eq x _ (by decide)]
  · rw [h.hand_eq, hloses.hand_eq]
    exact hswept.hand_eq
  · obtain ⟨x, hx, hset, hclear⟩ := hswept.passed i hi
    refine ⟨x, hx, hset, ?_⟩
    rw [haccessed]
    split
    · rfl
    · exact hclear
  · have htracked := (hs.linked.isTracked_iff ⟨g⟩).1 (hallocated ⟨g⟩ hg)
    exact Option.isSome_iff_exists.1 htracked
  · rw [haccessed] at hx
    split at hx
    · cases hx
    · rename_i hne
      exact ⟨hne, accessed_of_pickVictim hpick hx⟩

theorem Brought.resolved (h : m.Brought m' o record (.ok ())) (hm : m.Ready)
    (hidle : ∀ p, (m.space p).directory.busy = false) (hr : m.record? o = some record)
    (hout : record.status.isResident = false) (hwritable : write = true → record.writable = true) :
    m.Resolved m' o write := by
  have hlinked := hm.sound.linked
  have habsent : ∀ g, m.frames.owner? g ≠ some o := fun g hg =>
    status?_ne_resident hr hout g ((hlinked.owner?_iff g o).1 hg)
  cases h with
  | installed frame m₁ m₂ m₃ hobtained hclaimed hfilled hinstalled =>
    have hput := putIn_of_installed hclaimed hfilled hinstalled
    cases hobtained with
    | free frame pool halloc hm₁ =>
      subst hm₁
      refine .free frame ⟨hput.lt, habsent, hput.owner?_eq, fun hw => ?_, fun x hx => ?_⟩
        (hlinked.owner?_of_alloc halloc)
      · rw [hput.writable_eq, if_pos rfl, hwritable hw]
      · rw [hput.writable_eq, if_neg hx]
        rfl
    | evicted swept frame v r hfull hpick hvictim hrecord hstatus hevicted =>
      exact hput.resolved hwritable hm hidle habsent hfull hpick hevicted

/-- A new record does not change how a page gets its frame. -/
theorem Resolved.of_setTable {table : PageTable}
    (h : (m.setTable process table).Resolved m' o write) : m.Resolved m' o write := by
  have hframe : ∀ {frame}, (m.setTable process table).FrameFor m' o frame write →
      m.FrameFor m' o frame write := fun h =>
    ⟨h.lt, h.absent, h.owner?_eq, h.writable, fun x hx =>
      (h.writable_eq x hx).trans (flag_setTable table)⟩
  cases h with
  | free frame h hfree => exact .free frame (hframe h) hfree
  | taken count h hswept howned haccessed =>
    refine .taken count (hframe h) ⟨hswept.le, hswept.hand_eq, fun i hi => ?_, fun hlt x hx => ?_⟩
      howned fun x hx => ?_
    · obtain ⟨x, hx, hset, hclear⟩ := hswept.passed i hi
      exact ⟨x, hx, (flag_setTable table).symm.trans hset, hclear⟩
    · exact (flag_setTable table).symm.trans (hswept.taken hlt x hx)
    · obtain ⟨hne, hset⟩ := haccessed x hx
      exact ⟨hne, (flag_setTable table).symm.trans hset⟩

theorem Handled.resolved {fault : PageFault} (h : m.Handled m' process fault (.ok ()))
    (hm : m.Ready) (hidle : ∀ p, (m.space p).directory.busy = false)
    (hnot : ¬m.Permits ⟨process, .containing fault.address⟩ fault.write) :
    m.Resolved m' ⟨process, .containing fault.address⟩ fault.write := by
  cases h with
  | resident record hr hin hm' hwritable =>
    -- a page in a frame permits what its record permits
    exfalso
    refine hnot (hm.sound.linked.permits_iff.2 ?_)
    obtain ⟨g, hstatus⟩ := PageStatus.exists_of_isResident hin
    refine ⟨⟨g, (hm.sound.linked.owner?_iff g _).2 (hstatus ▸ status?_of_record hr)⟩,
      fun hw => ?_⟩
    rw [hm.sound.linked.writable_eq _ record g hr hstatus, hwritable hw]
  | known record res hr hout hbrought hwritable =>
    exact hbrought.resolved hm hidle hr hout hwritable
  | grown m₁ res hgrows hadded hbrought hm₁ =>
    subst hm₁
    refine Resolved.of_setTable (hbrought.resolved ⟨hadded.sound unloaded_zero hm.sound,
      hadded.unpinned hm.unpinned, hm.serviceable.of_sameSetup hadded.sameSetup⟩ (fun p => ?_)
      hadded.record?_self rfl fun _ => rfl)
    exact (congrArg DirectoryTraits.busy (hadded.traits_eq p)).trans (hidle p)

end DemandPaging.Machine
