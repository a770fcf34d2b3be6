/-
  Stacks stay in their region, however often they grow.

  The limit of a stack is tested on the address of a fault, while the page that is added starts
  below it; and a page is added to a stack only once, as it stays until its process ends.

  * `StackPage`: what a page is like that was just added to a stack;
  * `Performed.entered`: in a single call, a page gets its first record because it is asked for,
    or because a stack grows to it;
  * `GrownAt.region` and `GrownAt.place_le`: all pages added to stacks lie in the region of the
    stack, and none is added twice;
  * `run_growth`: so that a stack has no more pages than there is room for.
-/
import Mathlib.Data.Finset.Card
import Mathlib.Order.Interval.Finset.Nat
import DemandPaging.Proofs.Lifecycle
import DemandPaging.Proofs.Steady

namespace DemandPaging

/-- A request that asks for the page `o`, alone or as part of a segment. -/
def Request.Maps (o : Owner) : Request → Prop
  | .mapNewPage process page _ _ => process = o.process ∧ page = o.page
  | .mapSegment process _ => process = o.process
  | _ => False

/-- Nothing is asked for by the calls of a request that does not ask for it itself. -/
theorem Request.Makes.maps {request call : Request} {o : Owner} (h : request.Makes call)
    (hmaps : call.Maps o) : request.Maps o := by
  cases h with
  | self => exact hmaps
  | _ => cases hmaps

/-- A page lies in the region reserved for the stack, which ends where user memory ends. -/
def Config.InStack (config : Config) (page : Page) : Prop :=
  pageRoundDown (kernelBase - config.stackSize) ≤ page.base ∧ page.base < kernelBase

theorem pageRoundDown_mono {a b : Nat} (h : a ≤ b) : pageRoundDown a ≤ pageRoundDown b := by
  simp only [pageRoundDown, pageOffset, pageSize]
  omega

/-- The numbers of the pages in the region of the stack. -/
theorem Config.InStack.number {config : Config} {page : Page} (h : config.InStack page) :
    (kernelBase - config.stackSize) / pageSize ≤ page.number ∧
      page.number < kernelBase / pageSize := by
  obtain ⟨hlower, hupper⟩ := h
  simp only [pageRoundDown, pageOffset, Page.base, pageSize, kernelBase] at *
  omega

namespace Machine

variable {n : Nat} {m m' : Machine n} {o x : Owner} {record : PageRecord} {config : Config}
  {device : Device} {requests : List Request} {answers : List Answer}

/-- The page `x` with the given record was just added to a stack: it may be written to, comes from
    no file, holds zeros and lies in the region of the stack. -/
structure StackPage (m : Machine n) (x : Owner) (record : PageRecord) : Prop where
  writable : record.writable = true
  origin_eq : record.origin = none
  flat_eq : m.flat x = some .zero
  region : m.config.InStack x.page

/-! ## Single calls -/

theorem StackGrows.inStack {process : Nat} {fault : PageFault} (h : m.StackGrows process fault) :
    m.config.InStack (.containing fault.address) := by
  obtain ⟨huser, -, hstack⟩ := h
  rw [isUserAddress, decide_eq_true_eq] at huser
  rw [Config.isStackAccess, Bool.and_eq_true, decide_eq_true_eq] at hstack
  rw [Config.InStack, Page.base_containing]
  exact ⟨pageRoundDown_mono hstack.1, Nat.lt_of_le_of_lt (Nat.sub_le _ _) huser⟩

/-- A stack grows to a page that was not there, and a fault adds no other. -/
theorem Handled.entered {process : Nat} {fault : PageFault} {res : Except Error Unit}
    (h : m.Handled m' process fault res) (hs : m.Sound none) (hx : m.record? x = none)
    (hx' : m'.record? x = some record) :
    ⟨process, .containing fault.address⟩ = x ∧ m'.StackPage x record := by
  obtain ⟨hzero, hsame⟩ := h.flat_eq hs x
  by_cases hgrown : m.StackGrows process fault ∧ ⟨process, .containing fault.address⟩ = x
  · have hflat := hzero hgrown
    have hregion := hgrown.1.inStack
    rw [← h.sameSetup.config_eq] at hregion
    obtain ⟨hgrows, rfl⟩ := hgrown
    cases h with
    | rejected e hnot hm => exact absurd hgrows hnot
    | resident r hr hin hm => cases hx.symm.trans hr
    | known r res hr hout hbrought => cases hx.symm.trans hr
    | grown m₁ res _ hadded hbrought =>
      obtain ⟨after, hafter, hfollows⟩ :=
        hbrought.livesOn hadded.record?_self rfl hadded.record?_self
      obtain rfl : after = record := Option.some.inj (hafter.symm.trans hx')
      exact ⟨rfl, hfollows.writable_eq, hfollows.origin_eq, hflat, hregion⟩
  · have hflat := hsame hgrown
    rw [flat_of_record hx', flat_eq_none.2 hx] at hflat
    cases hflat

/-- A request for a page adds no other. -/
theorem MappedNew.eq_of_entered {writable : Bool} {intruder : Option Bool} {res : Except Error Unit}
    (h : m.MappedNew m' o writable intruder res) (hs : m.Sound none) (hx : m.record? x = none)
    (hx' : m'.record? x = some record) : o = x := by
  have hnone := flat_eq_none.2 hx
  rcases h.flat_eq hs with ⟨-, hflat⟩ | ⟨-, -, hflat⟩
  · rw [← hflat, flat_of_record hx'] at hnone
    cases hnone
  · by_contra hne
    have hsame := hflat x
    rw [if_neg hne, flat_of_record hx', hnone] at hsame
    cases hsame

/-- A page gets its first record because it is asked for, or by a fault, because a stack grows to
    it. -/
theorem Performed.entered {call : Request} {answer : Answer} (h : m.Performed m' call answer)
    (hs : m.Sound none) (hsingle : call.Single) (hx : m.record? x = none)
    (hx' : m'.record? x = some record) :
    call.Maps x ∨ ∃ fault, call = .fault x.process fault ∧
      x.page = .containing fault.address ∧ m'.StackPage x record := by
  have hentered : m'.record? x = m.record? x → False := by
    intro hsame
    cases hx.symm.trans (hsame.symm.trans hx')
  cases h with
  | spawn pid traits hm => subst hm; exact (hentered (record?_spawn x)).elim
  | mapNewPage process page writable intruding result hmapped =>
    obtain rfl := hmapped.eq_of_entered hs hx hx'
    exact .inl ⟨rfl, rfl⟩
  | mapSegment process segment result hmapped =>
    refine .inl ?_
    by_contra hne
    have hne : process ≠ x.process := hne
    rcases hmapped with ⟨-, hadded⟩ | ⟨count, -, -, hadded⟩
    · exact hentered ((hadded.record?_eq x).trans (Option.none_or ..))
    · refine hentered ((hadded.record?_eq x).trans ?_)
      rw [if_neg hne, Option.none_or]
  | fault process fault result hhandled =>
    obtain ⟨rfl, hstack⟩ := hhandled.entered hs hx hx'
    exact .inr ⟨fault, rfl, rfl, hstack⟩
  | load process address length stackPointer limit access hload =>
    exact (hentered (record?_load hs hsingle hload x)).elim
  | store process address data stackPointer limit access hstore =>
    exact (hentered (record?_store hs hsingle hstore x)).elim
  | destroy process released m₁ hsame htorn =>
    have hflat := htorn.flat_eq x
    rw [flat_of_record hx', hsame.flat_eq, flat_eq_none.2 hx, ite_self] at hflat
    cases hflat
  | pin frame hallocated hm => subst hm; exact (hentered rfl).elim
  | unpin frame hallocated hm => subst hm; exact (hentered rfl).elim
  | pickVictim frame hpick => exact (hentered ((pickVictim_cases hpick).1.record?_eq x)).elim
  | refuse process pages hm => subst hm; exact (hentered (record?_setDirectory _)).elim

/-! ## Runs -/

/-- The request at the given place of a run adds the page `o` to a stack: the page was not there
    and is not asked for.  The process does not end in the rest of the run. -/
inductive GrownAt (config : Config) (n : Nat) (device : Device) (requests : List Request)
    (place : Nat) (o : Owner) : Prop where
  | mk (first rest : List Request) (request : Request) (answers : List Answer) (answer : Answer)
      (m m' : Machine n) (record : PageRecord) (hsplit : requests = first ++ request :: rest)
      (hplace : first.length = place) (hrun : Run config n device first answers m)
      (hperform : (m.perform request).result = .ok (answer, m')) (hmaps : ¬request.Maps o)
      (habsent : m.record? o = none) (hadded : m'.record? o = some record)
      (hkeep : .destroy o.process ∉ rest)

/-- A page that is added to a stack lies in its region. -/
theorem GrownAt.region {place : Nat} (h : GrownAt config n device requests place o) :
    config.InStack o.page := by
  obtain ⟨first, rest, request, answers, answer, m, m', record, -, -, hrun, hperform, hmaps,
    habsent, hadded, -⟩ := h
  have hkept : m'.config = config ∧ (m'.record? o = none ∨ config.InStack o.page) := by
    refine perform_keeps
      (I := fun m => m.config = config ∧ (m.record? o = none ∨ config.InStack o.page)) ?_
      hrun.sound ⟨hrun.config_eq, .inl habsent⟩ hperform
    rintro m call reply m' hs hmakes ⟨hconfig, hregion⟩ hcall
    have hperformed := perform_cases hs hcall
    have hconfig' := (hperformed.config_eq hs).trans hconfig
    refine ⟨hconfig', ?_⟩
    rcases hregion with hnone | hregion
    · cases hr : m'.record? o with
      | none => exact .inl rfl
      | some record =>
        rcases hperformed.entered hs hmakes.single hnone hr with hasked | ⟨fault, -, -, hstack⟩
        · exact absurd (hmakes.maps hasked) hmaps
        · exact .inr (hconfig' ▸ hstack.region)
    · exact .inr hregion
  rcases hkept.2 with hnone | hregion
  · cases hnone.symm.trans hadded
  · exact hregion

/-- No page is added to a stack once more as long as its process lives. -/
theorem GrownAt.place_le {place place' : Nat} (h : GrownAt config n device requests place o)
    (h' : GrownAt config n device requests place' o) : place' ≤ place := by
  obtain ⟨first, rest, request, answers, answer, m, m₁, record, hsplit, rfl, hrun, hperform, -, -,
    hadded, hkeep⟩ := h
  obtain ⟨first', rest', request', answers', -, m', -, -, hsplit', rfl, hrun', -, -, habsent,
    -, -⟩ := h'
  by_contra hlt
  rw [hsplit] at hsplit'
  -- the second of the two runs goes on from where the page was added
  obtain ⟨window, hfirst, hrest⟩ : ∃ window, first' = first ++ request :: window ∧
      rest = window ++ request' :: rest' := by
    rcases List.append_eq_append_iff.1 hsplit' with ⟨window, rfl, hrest⟩ | ⟨window, rfl, hrest⟩
    · cases window with
      | nil => simp at hlt
      | cons r window => cases hrest; exact ⟨window, rfl, rfl⟩
    · simp at hlt
  subst hfirst hrest
  obtain ⟨m₂, hfirst, hlater⟩ := Outcome.answerAll_take (run_iff.1 hrun') first.length
  rw [List.take_left] at hfirst
  rw [List.drop_left] at hlater
  cases (run_iff.1 hrun).symm.trans hfirst
  obtain ⟨answer₁, m₃, answers₁, hrequest, hwindow, -⟩ := Outcome.answerAll_cons_iff.1 hlater
  cases hperform.symm.trans hrequest
  have hs : m₁.Sound none := (perform_cases hrun.sound hperform).sound hrun.sound
  obtain ⟨after, hlived⟩ :=
    exists_lived hs hadded (fun hmem => hkeep (List.mem_append_left _ hmem)) hwindow
  cases habsent.symm.trans hlived.record?_eq

/-- In any run, whatever faults there are, a page gets its first record in a call that asks for it,
    or by a fault of its process that its stack grows to.  That page may be written to, comes from
    no file, holds zeros, and lies in the region reserved for the stack, below the kernel.  While a
    process lives, no more pages are added to its stack than it takes to hold the largest stack
    there may be. -/
theorem run_growth (h : Run config n device requests answers m) :
    (∀ call answer m' x record, call.Single → (m.perform call).result = .ok (answer, m') →
      m.record? x = none → m'.record? x = some record →
        call.Maps x ∨ ∃ fault, call = .fault x.process fault ∧
          x.page = .containing fault.address ∧ record.writable = true ∧ record.origin = none ∧
          m'.flat x = some .zero ∧ pageRoundDown (kernelBase - config.stackSize) ≤ x.page.base ∧
          x.page.base < kernelBase) ∧
    ∀ process (grown : Finset (Nat × Page)),
      (∀ e ∈ grown, GrownAt config n device requests e.1 ⟨process, e.2⟩) →
        grown.card ≤ (config.stackSize + pageSize - 1) / pageSize := by
  constructor
  · intro call answer m' x record hsingle hperform hx hx'
    have hperformed := perform_cases h.sound hperform
    have hconfig := (hperformed.config_eq h.sound).trans h.config_eq
    rcases hperformed.entered h.sound hsingle hx hx' with hmaps | ⟨fault, hcall, hpage, hstack⟩
    · exact .inl hmaps
    · obtain ⟨hwritable, horigin, hflat, hregion⟩ := hstack
      rw [hconfig] at hregion
      exact .inr ⟨fault, hcall, hpage, hwritable, horigin, hflat, hregion⟩
  · intro process grown hgrown
    have hcard : grown.card ≤ (Finset.Ico ((kernelBase - config.stackSize) / pageSize)
        (kernelBase / pageSize)).card := by
      refine Finset.card_le_card_of_injOn (fun e => e.2.number) ?_ ?_
      · intro e he
        exact Finset.mem_Ico.2 (hgrown e he).region.number
      · rintro ⟨place, page⟩ he ⟨place', page'⟩ he' hnumber
        obtain rfl : page = page' := Page.ext hnumber
        have hfirst : GrownAt config n device requests place ⟨process, page⟩ := hgrown _ he
        have hsecond : GrownAt config n device requests place' ⟨process, page⟩ := hgrown _ he'
        exact Prod.ext (Nat.le_antisymm (hsecond.place_le hfirst) (hfirst.place_le hsecond)) rfl
    rw [Nat.card_Ico] at hcard
    simp only [kernelBase, pageSize] at *
    omega

/-- A push two pages below the kernel, by a process that may have 5000 bytes of stack.  The page
    starts below the limit of the stack. -/
theorem run_growth_twoPages : ∃ answers, ∃ m m' : Machine 1, ∃ record,
    Run { stackSize := 5000 } 1 (.inMemory 1) [.spawn 0 {}] answers m ∧
    (m.perform (.fault 0 ⟨0x7fffeffc, true, 0x7fffeffc⟩)).result = .ok (.done, m') ∧
    m'.record? ⟨0, ⟨0x7fffe⟩⟩ = some record ∧ record.writable = true ∧
    m'.flat ⟨0, ⟨0x7fffe⟩⟩ = some .zero ∧
    GrownAt { stackSize := 5000 } 1 (.inMemory 1)
      [.spawn 0 {}, .fault 0 ⟨0x7fffeffc, true, 0x7fffeffc⟩] 1 ⟨0, ⟨0x7fffe⟩⟩ ∧
    ∀ grown : Finset (Nat × Page), (∀ e ∈ grown, GrownAt { stackSize := 5000 } 1 (.inMemory 1)
      [.spawn 0 {}, .fault 0 ⟨0x7fffeffc, true, 0x7fffeffc⟩] e.1 ⟨0, e.2⟩) → grown.card ≤ 2 := by
  obtain ⟨answers, m, h, hp⟩ := exists_run { stackSize := 5000 } 1 (.inMemory 1) [.spawn 0 {}]
    (fun m => (m.record? ⟨0, ⟨0x7fffe⟩⟩).isNone &&
      match (m.perform (.fault 0 ⟨0x7fffeffc, true, 0x7fffeffc⟩)).result with
      | .ok (.done, m') => (m'.record? ⟨0, ⟨0x7fffe⟩⟩).isSome
      | _ => false) (by decide +kernel)
  obtain ⟨_, _, hboth, -⟩ := exists_run { stackSize := 5000 } 1 (.inMemory 1)
    [.spawn 0 {}, .fault 0 ⟨0x7fffeffc, true, 0x7fffeffc⟩] (fun _ => true) (by decide +kernel)
  rw [Bool.and_eq_true, Option.isNone_iff_eq_none] at hp
  obtain ⟨habsent, hp⟩ := hp
  split at hp
  · rename_i m' hperform
    obtain ⟨record, hr⟩ := Option.isSome_iff_exists.1 hp
    have hgrown : GrownAt { stackSize := 5000 } 1 (.inMemory 1)
        [.spawn 0 {}, .fault 0 ⟨0x7fffeffc, true, 0x7fffeffc⟩] 1 ⟨0, ⟨0x7fffe⟩⟩ :=
      .mk [.spawn 0 {}] [] _ answers .done m m' record rfl rfl h hperform id habsent hr (by simp)
    rcases (run_growth h).1 (.fault 0 ⟨0x7fffeffc, true, 0x7fffeffc⟩) .done m'
      ⟨0, ⟨0x7fffe⟩⟩ record trivial hperform habsent hr with
      hmaps | ⟨fault, -, -, hwritable, -, hflat, -⟩
    · cases hmaps
    · exact ⟨answers, m, m', record, h, hperform, hr, hwritable, hflat, hgrown,
        (run_growth hboth).2 0⟩
  · cases hp

end Machine

end DemandPaging
