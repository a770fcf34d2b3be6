/-
  What a request for a new page leaves behind when it fails on the way.

  After the frame was got, three things can go wrong or right: there may be no memory for the
  mapping, someone else may have added the page, and otherwise the page is in its frame.

  * `Unwound`: everything that was taken for the page is given back;
  * `NewPage`: how the request ends, by what the directory answers and the intruder does;
  * `Sound.newPage`: it ends like that on every machine whose records agree, and
    `run_newPage`: after any run.
-/
import DemandPaging.Proofs.OneEviction
import DemandPaging.Proofs.Progress

namespace DemandPaging.Machine

variable {n : Nat} {m m' m₁ : Machine n} {frame : Frame} {o : Owner} {writable : Bool}
  {intruder : Option Bool}

/-- Beside `o`, every page holds what it held, and one at most was evicted. -/
structure SparesOthers (m m' : Machine n) (o : Owner) : Prop where
  evicted : m.AtMostOneEvicted m' o
  flat_eq : ∀ x, x ≠ o → m'.flat x = m.flat x

/-- What was taken for the page `o` is given back: the page is not mapped, and the frame is
    free. -/
structure Unwound (m m' : Machine n) (o : Owner) (frame : Frame) : Prop where
  translate_eq : m'.translate o = none
  isAllocated_eq : m'.frames.pool.isAllocated frame = false
  hasPin_eq : m'.frames.pool.hasPin frame = false
  owner?_eq : m'.frames.owner? frame = none
  others : m.SparesOthers m' o

/-- The page `o` is a page of zeros in `frame`, which is its own and not pinned. -/
structure Placed (m m' : Machine n) (o : Owner) (frame : Frame) (writable : Bool) : Prop where
  record?_eq : m'.record? o = some { status := .resident frame, writable := writable }
  isAllocated_eq : m'.frames.pool.isAllocated frame = true
  hasPin_eq : m'.frames.pool.hasPin frame = false
  owner?_eq : m'.frames.owner? frame = some o
  contents_eq : m'.memory.contents frame = .zero
  translate_eq : m'.translate o = some frame
  writable_eq : m'.flag o .writable = writable
  others : m.SparesOthers m' o

/-- How a request for the new page `o` ends for which `frame` was got, when the directory answers
    `mapped` to the mapping. -/
inductive NewPage (m m' : Machine n) (o : Owner) (frame : Frame) (writable : Bool)
    (intruder : Option Bool) (mapped : Bool) : Except Error Unit → Prop where
  | refused (hmapped : mapped = false) (hr : m'.record? o = none) (hback : m.Unwound m' o frame) :
      NewPage m m' o frame writable intruder mapped (.error .outOfMemory)
  | intruded (added : Bool) (hmapped : mapped = true) (hintruder : intruder = some added)
      (hr : m'.record? o = some { status := .zero, writable := added })
      (hback : m.Unwound m' o frame) :
      NewPage m m' o frame writable intruder mapped (.error .alreadyMapped)
  | placed (hmapped : mapped = true) (hintruder : intruder = none)
      (hplaced : m.Placed m' o frame writable) :
      NewPage m m' o frame writable intruder mapped (.ok ())

/-! ## Failures -/

theorem MappedNew.sparesOthers {res : Except Error Unit}
    (h : m.MappedNew m' o writable intruder res) (hs : m.Sound none) : m.SparesOthers m' o where
  evicted := h.atMostOneEvicted hs
  flat_eq x hx := by
    rcases h.flat_eq hs with ⟨-, hflat⟩ | ⟨-, -, hflat⟩
    · rw [hflat]
    · rw [hflat, if_neg (Ne.symm hx)]

/-- The frame goes back to the pool as the last thing that a failed request does. -/
theorem Freed.unwound {e : Error} (hfreed : m₁.Freed m' frame) (hs : m.Sound none)
    (h : m.MappedNew m' o writable intruder (.error e))
    (hout : ∀ g, m'.status? o ≠ some (.resident g)) : m.Unwound m' o frame where
  translate_eq := (h.sound hs).linked.translate_eq_none hout
  isAllocated_eq := by rw [hfreed.isAllocated_eq, if_pos rfl]
  hasPin_eq := by rw [hfreed.hasPin_eq, if_pos rfl]
  owner?_eq := by rw [hfreed.owner?_eq, if_pos rfl]
  others := h.sparesOthers hs

/-! ## The request as a whole -/

variable {mapped : Bool} {directory : Directory}

theorem mapNewPageAgainst_of_absent (hr : m.record? o = none) :
    m.mapNewPageAgainst o.process o.page writable intruder = (do
      let (allocated, machine) ← m.allocate o.process o.page true
      match allocated with
      | .error e => return (.error e, machine)
      | .ok frame => machine.placeNewPage o.process o.page frame writable intruder) := by
  have habsent : ¬(m.space o.process).table.contains o.page = true :=
    fun htaken => Option.isSome_iff_ne_none.1 htaken hr
  exact if_neg habsent

/-- Placing the page in the frame that was got for it. -/
theorem newPage_of_placeNewPage {m₂ : Machine n} {res : Except Error Unit} (hs : m.Sound none)
    (hr : m.record? o = none) (hobtained : m.Obtained m₁ (.ok frame))
    (hclaimed : m₁.Claimed m₂ frame o true)
    (hmap : ((m₂.space o.process).directory.map o.page frame writable).result =
      .ok (mapped, directory))
    (hplace : (m₂.placeNewPage o.process o.page frame writable intruder).result = .ok (res, m')) :
    m.NewPage m' o frame writable intruder mapped res := by
  have hs₂ := hclaimed.same.sound (hobtained.sound hs)
  have hr₂ : m₂.record? o = none := by
    rw [hclaimed.same.record?_eq, hobtained.record?_of_none hr]
  obtain ⟨_, _, hmap', hcases⟩ := placeNewPage_cases hplace hs₂.linked hr₂
  cases hmap.symm.trans hmap'
  rcases hcases with ⟨hmapped, rfl, hfreed⟩ |
    ⟨added, hmapped, rfl, hintruder, m₃, hadded, hfreed⟩ | ⟨hmapped, rfl, hintruder, hinstalled⟩
  · have hr' : m'.record? o = none := by rw [hfreed.record?_eq, hr₂]
    have hnew : m.MappedNew m' o writable intruder (.error .outOfMemory) :=
      .refused frame m₁ m₂ hr hobtained hclaimed hfreed
    refine .refused hmapped hr' (hfreed.unwound hs hnew fun g => ?_)
    rw [status?_eq_none hr']
    exact nofun
  · have hr' : m'.record? o = some { status := .zero, writable := added } := by
      rw [hfreed.record?_eq, hadded.record?_self]
    have hnew : m.MappedNew m' o writable intruder (.error .alreadyMapped) :=
      .intruded frame m₁ m₂ m₃ hr hintruder hobtained hclaimed hadded hfreed
    refine .intruded added hmapped hintruder hr' (hfreed.unwound hs hnew fun g => ?_)
    rw [status?_of_record hr']
    exact nofun
  · have hnew : m.MappedNew m' o writable intruder (.ok ()) :=
      .placed frame m₁ m₂ hr hintruder hobtained hclaimed hinstalled
    refine .placed hmapped hintruder ⟨?_, ?_, ?_, ?_, ?_, ?_, ?_, hnew.sparesOthers hs⟩
    · rw [hinstalled.record?_eq, if_pos rfl]
    · rw [hinstalled.isAllocated_eq]
      exact hs₂.linked.held_allocated frame rfl
    · rw [hinstalled.hasPin_eq, if_pos rfl]
    · rw [hinstalled.owner?_eq, hclaimed.owner?_self]
    · rw [hinstalled.memory_eq, hclaimed.contents_self]
      rfl
    · rw [hinstalled.translate_eq, if_pos rfl]
    · rw [hinstalled.writable_eq, if_pos rfl]

/-- With a frame at hand and an answer of the directory, the request ends, whatever the intruder
    does. -/
theorem Sound.newPage (hs : m.Sound none) (hr : m.record? o = none)
    (hallocate : (m.allocate o.process o.page true).result = .ok (.ok frame, m₁))
    (hmap : ((m₁.space o.process).directory.map o.page frame writable).result =
      .ok (mapped, directory)) :
    ∃ res m', (m.mapNewPageAgainst o.process o.page writable intruder).result = .ok (res, m') ∧
      m.NewPage m' o frame writable intruder mapped res := by
  rcases allocate_cases hallocate with ⟨_, he, -⟩ | ⟨_, m₀, he, hframe, hclaimed⟩ <;> cases he
  have hobtained := obtainFrame_cases hframe
  have hcompletes : (m₁.placeNewPage o.process o.page frame writable intruder).Completes :=
    completes_placeNewPage (hclaimed.same.sound (hobtained.sound hs)) hclaimed.owner?_self
      (.of_eq hmap)
  obtain ⟨⟨res, m'⟩, hplace⟩ := hcompletes
  refine ⟨res, m', ?_, newPage_of_placeNewPage hs hr hobtained hclaimed hmap hplace⟩
  rw [mapNewPageAgainst_of_absent hr]
  exact Outcome.bind_eq_ok_iff.2 ⟨_, hallocate, hplace⟩

variable {config : Config} {device : Device} {requests : List Request} {answers : List Answer}

/-- A request for a new page, with or without an intruder who adds the page as soon as it is
    mapped.  If the page is taken, nothing changes at all.  If no frame can be got, the request
    fails as the search for a frame did.  Otherwise a failure gives everything back, and the entry
    that the intruder added stays as it is. -/
theorem run_newPage (h : Run config n device requests answers m) (o : Owner) (writable : Bool)
    (intruder : Option Bool) :
    (m.record? o ≠ none →
      (m.mapNewPageAgainst o.process o.page writable intruder).result =
        .ok (.error .alreadyMapped, m)) ∧
    (m.record? o = none →
      (∀ cause, (m.allocate o.process o.page true).result = .error cause →
        (m.mapNewPageAgainst o.process o.page writable intruder).result = .error cause) ∧
      (∀ e m', (m.allocate o.process o.page true).result = .ok (.error e, m') →
        e = .swapExhausted ∧
          (m.mapNewPageAgainst o.process o.page writable intruder).result = .ok (.error e, m')) ∧
      ∀ frame m₁ mapped directory,
        (m.allocate o.process o.page true).result = .ok (.ok frame, m₁) →
        ((m₁.space o.process).directory.map o.page frame writable).result =
          .ok (mapped, directory) →
        ∃ res m',
          (m.mapNewPageAgainst o.process o.page writable intruder).result = .ok (res, m') ∧
            m.NewPage m' o frame writable intruder mapped res) := by
  constructor
  · intro hr
    have hcontains : (m.space o.process).table.contains o.page = true :=
      Option.isSome_iff_ne_none.2 hr
    rw [mapNewPageAgainst, if_pos hcontains]
    rfl
  · intro hr
    refine ⟨fun cause hpanic => ?_, fun e m' hfail => ?_, fun _ _ _ _ => h.sound.newPage hr⟩
    · rw [mapNewPageAgainst_of_absent hr]
      exact Outcome.bind_eq_error_iff.2 (.inl hpanic)
    · rw [mapNewPageAgainst_of_absent hr]
      rcases allocate_cases hfail with ⟨_, he, hobtained⟩ | ⟨_, _, he, -⟩ <;> cases he
      exact ⟨hobtained.eq_exhausted, Outcome.bind_eq_ok_iff.2 ⟨_, hfail, rfl⟩⟩

/-- The only frame holds a page when its process asks for a page that an intruder adds, and for
    one that the directory refuses. -/
theorem run_newPage_oneFrame : ∃ answers, ∃ m m₁ m₂ : Machine 1,
    Run {} 1 (.inMemory 2) [.spawn 0 { refused := [⟨2⟩] }, .mapNewPage 0 ⟨0⟩ true false]
      answers m ∧
    m.record? ⟨0, ⟨1⟩⟩ = none ∧
    m.NewPage m₁ ⟨0, ⟨1⟩⟩ ⟨0⟩ true (some false) true (.error .alreadyMapped) ∧
    m.NewPage m₂ ⟨0, ⟨2⟩⟩ ⟨0⟩ true none false (.error .outOfMemory) := by
  obtain ⟨answers, m, h, hp⟩ := exists_run {} 1 (.inMemory 2)
    [.spawn 0 { refused := [⟨2⟩] }, .mapNewPage 0 ⟨0⟩ true false]
    (fun m => [⟨1⟩, ⟨2⟩].all fun page => m.record? ⟨0, page⟩ = none ∧
      (m.allocate 0 page true).result.toOption.any fun got => got.1.toOption = some ⟨0⟩ ∧
        ((got.2.space 0).directory.map page ⟨0⟩ true).result.toOption.any
          (·.1 == (page == ⟨1⟩))) (by decide +kernel)
  have hasked : ∀ page ∈ [(⟨1⟩ : Page), ⟨2⟩], m.record? ⟨0, page⟩ = none ∧
      ∃ m₁ directory, (m.allocate 0 page true).result = .ok (.ok ⟨0⟩, m₁) ∧
        ((m₁.space 0).directory.map page ⟨0⟩ true).result = .ok (page == ⟨1⟩, directory) := by
    intro page hpage
    obtain ⟨hr, hany⟩ := of_decide_eq_true (List.all_eq_true.1 hp page hpage)
    obtain ⟨⟨frame, m₁⟩, hallocate, hany⟩ := Outcome.exists_of_any hany
    obtain ⟨hframe, hany⟩ := of_decide_eq_true hany
    obtain ⟨⟨mapped, directory⟩, hmap, hmapped⟩ := Outcome.exists_of_any hany
    cases frame with
    | error e => cases hframe
    | ok frame =>
      cases hframe
      exact ⟨hr, m₁, directory, hallocate, beq_iff_eq.1 hmapped ▸ hmap⟩
  obtain ⟨hr₁, _, _, hallocate₁, hmap₁⟩ := hasked ⟨1⟩ (by decide)
  obtain ⟨hr₂, _, _, hallocate₂, hmap₂⟩ := hasked ⟨2⟩ (by decide)
  obtain ⟨res₁, m₁, -, hnew₁⟩ := ((run_newPage h ⟨0, ⟨1⟩⟩ true (some false)).2 hr₁).2.2 _ _ _ _
    hallocate₁ hmap₁
  obtain ⟨res₂, m₂, -, hnew₂⟩ := ((run_newPage h ⟨0, ⟨2⟩⟩ true none).2 hr₂).2.2 _ _ _ _
    hallocate₂ hmap₂
  obtain rfl : res₁ = .error .alreadyMapped := by
    cases hnew₁ with
    | refused hmapped => cases hmapped
    | intruded => rfl
    | placed hmapped hintruder => cases hintruder
  obtain rfl : res₂ = .error .outOfMemory := by
    cases hnew₂ with
    | refused => rfl
    | intruded added hmapped => cases hmapped
    | placed hmapped => cases hmapped
  exact ⟨answers, m, m₁, m₂, h, hr₁, hnew₁, hnew₂⟩

end DemandPaging.Machine
