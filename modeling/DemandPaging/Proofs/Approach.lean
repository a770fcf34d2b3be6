/-
  The clock on its way to a frame.

  From anywhere the hand comes to a frame in less than a turn.  If the page there was accessed, the
  hand makes it count as not accessed, and takes the frame the next time that it comes by.  What is
  left of this way gets shorter with every eviction of another page, and nothing makes it longer
  as long as the page is not touched.

  * `Clock.delay` measures the way, and `Clock.pick_approaches`: a sweep takes the frame or makes
    the way shorter;
  * `Waiting`: a page is in a frame, and few evictions are left until it is taken;
    `Obtained.waiting`: getting a frame takes this page, or uses up one of them;
  * `Takes` says of a fault or a new page what it does besides, which does not matter to a page
    that waits (`Takes.waiting`) or is away (`Takes.away`).
-/
import DemandPaging.Proofs.OneEviction
import DemandPaging.Proofs.Sweep

namespace DemandPaging

namespace Clock

variable {σ : Type} {n hand frame : Nat} {candidate : Nat → Bool} {test : Nat → σ → Bool × σ}

/-- The number of frames that the hand passes before it comes to a frame. -/
def distance (n hand frame : Nat) : Nat :=
  if hand ≤ frame then frame - hand else frame + n - hand

/-- The number of frames that the hand passes at most before it takes a frame: it goes round once
    more if the page in the frame was accessed. -/
def delay (n hand frame : Nat) (accessed : Bool) : Nat :=
  distance n hand frame + if accessed then n else 0

theorem delay_lt (hhand : hand < n) (hframe : frame < n) (accessed : Bool) :
    delay n hand frame accessed < 2 * n := by
  unfold delay distance
  split <;> split <;> omega

theorem delay_mono {accessed accessed' : Bool} (h : accessed' = true → accessed = true) :
    delay n hand frame accessed' ≤ delay n hand frame accessed := by
  cases accessed' with
  | false => exact Nat.add_le_add_left (Nat.zero_le _) _
  | true => rw [h rfl]

/-- Passing another frame brings the hand closer. -/
theorem delay_next (hhand : hand < n) (hframe : frame < n) (hne : hand ≠ frame)
    (accessed : Bool) : delay n ((hand + 1) % n) frame accessed < delay n hand frame accessed := by
  refine Nat.add_lt_add_right ?_ _
  unfold distance
  rcases Nat.lt_or_ge (hand + 1) n with hlt | hge
  · rw [Nat.mod_eq_of_lt hlt]
    split <;> split <;> omega
  · obtain rfl : n = hand + 1 := by omega
    rw [Nat.mod_self]
    split <;> split <;> omega

/-- Passing the frame itself costs a turn less than it did before. -/
theorem delay_passed (hframe : frame < n) :
    delay n ((frame + 1) % n) frame false < delay n frame frame true := by
  have hnext : (frame + 1) % n < n := Nat.mod_lt _ (Nat.lt_of_le_of_lt (Nat.zero_le _) hframe)
  unfold delay distance
  split <;> simp <;> omega

section

variable {bit : Nat → σ → Bool} {P : σ → Prop}

/-- A sweep that is long enough takes the frame, or ends closer to it than it began. -/
theorem sweep_approaches (hbits : Independent test bit P) (hc : candidate frame = true)
    (hframe : frame < n) {steps : Nat} {passed : Option Nat} {s : σ} (hhand : hand < n) (hs : P s)
    (hsteps : delay n hand frame (bit frame s) < steps) :
    (sweep n candidate test steps hand passed s).victim = some frame ∨
      delay n (sweep n candidate test steps hand passed s).hand frame
        (bit frame (sweep n candidate test steps hand passed s).state) <
          delay n hand frame (bit frame s) := by
  induction steps generalizing hand passed s with
  | zero => cases hsteps
  | succ steps ih =>
    have hnext : (hand + 1) % n < n := Nat.mod_lt _ (Nat.lt_of_le_of_lt (Nat.zero_le _) hframe)
    simp only [sweep]
    split
    · have hanswer := hbits.answer hand s hs
      have hkept := hbits.keeps hand s hs
      have hbit := hbits.bit_iff hand s frame hs
      rcases htest : test hand s with ⟨answer, s'⟩
      rw [htest] at hanswer hkept hbit
      dsimp only at hanswer hkept hbit
      by_cases hne : hand = frame
      · subst hne
        cases answer with
        | true =>
          have hclear : bit hand s' = false := by
            rw [Bool.eq_false_iff]
            exact fun h => (hbit.1 h).1 rfl
          have hless : delay n ((hand + 1) % n) hand (bit hand s') <
              delay n hand hand (bit hand s) := by
            rw [hclear, ← hanswer]
            exact delay_passed hframe
          exact (ih hnext hkept (by omega)).imp_right fun h => Nat.lt_trans h hless
        | false => exact .inl rfl
      · have hsame : bit frame s' = bit frame s := by
          rw [Bool.eq_iff_iff, hbit]
          simp [hne]
        have hless := delay_next hhand hframe hne (bit frame s')
        rw [hsame] at hless
        cases answer with
        | true =>
          rw [← hsame] at hless hsteps ⊢
          exact (ih hnext hkept (by omega)).imp_right fun h => Nat.lt_trans h hless
        | false =>
          right
          show delay n ((hand + 1) % n) frame (bit frame s') < _
          rwa [hsame]
    · rename_i hnot
      have hne : hand ≠ frame := by
        rintro rfl
        exact hnot hc
      have hless := delay_next hhand hframe hne (bit frame s)
      exact (ih hnext hs (by omega)).imp_right fun h => Nat.lt_trans h hless

theorem pick_approaches (hbits : Independent test bit P) (hc : candidate frame = true)
    (hframe : frame < n) (hhand : hand < n) {s : σ} (hs : P s) :
    (pick n candidate test hand s).victim = some frame ∨
      delay n (pick n candidate test hand s).hand frame
        (bit frame (pick n candidate test hand s).state) < delay n hand frame (bit frame s) :=
  sweep_approaches hbits hc hframe hhand hs (delay_lt hhand hframe _)

end

end Clock

namespace Machine

variable {n : Nat} {m m' m₁ : Machine n} {f frame : Frame} {o x : Owner} {record : PageRecord}
  {last : Nat}

/-! ## Waiting to be taken -/

/-- The page `o` is in the frame `f`, which the clock may take and will have taken by the time
    that `last` pages were evicted. -/
structure Waiting (m : Machine n) (f : Frame) (o : Owner) (last : Nat) : Prop where
  hasPin_eq : m.frames.pool.hasPin f = false
  owner?_eq : m.frames.owner? f = some o
  hand_lt : m.frames.hand < n
  idle : ∀ p, (m.space p).directory.busy = false
  due : m.stats.evictions + Clock.delay n m.frames.hand f.index (m.flag o .accessed) < last

/-- The page `o` has a record, and is in no frame. -/
def Away (m : Machine n) (o : Owner) : Prop :=
  ∃ record, m.record? o = some record ∧ record.status.isResident = false

/-- The page `o` is away, and no more than `last` pages were evicted. -/
structure AwayBy (m : Machine n) (o : Owner) (last : Nat) : Prop where
  away : m.Away o
  evictions_le : m.stats.evictions ≤ last

theorem Away.of_same (h : m.Away o) (hrecord : m'.record? o = m.record? o) : m'.Away o := by
  obtain ⟨record, hr, hout⟩ := h
  exact ⟨record, hrecord.trans hr, hout⟩

theorem Waiting.of_same (hw : m.Waiting f o last)
    (hpin : m'.frames.pool.hasPin f = m.frames.pool.hasPin f)
    (howner : m'.frames.owner? f = m.frames.owner? f) (hhand : m'.frames.hand = m.frames.hand)
    (htraits : ∀ p, (m'.space p).directory.toDirectoryTraits =
      (m.space p).directory.toDirectoryTraits)
    (hevictions : m'.stats.evictions = m.stats.evictions)
    (haccessed : m'.flag o .accessed = true → m.flag o .accessed = true) :
    m'.Waiting f o last where
  hasPin_eq := hpin.trans hw.hasPin_eq
  owner?_eq := howner.trans hw.owner?_eq
  hand_lt := hhand ▸ hw.hand_lt
  idle p := (congrArg DirectoryTraits.busy (htraits p)).trans (hw.idle p)
  due := by
    rw [hevictions, hhand]
    exact Nat.lt_of_le_of_lt (Nat.add_le_add_left (Clock.delay_mono haccessed) _) hw.due

/-- A page that waits is in its frame. -/
theorem Waiting.status?_eq (hw : m.Waiting f o last) (hs : m.Sound none) :
    m.status? o = some (.resident f) :=
  (hs.linked.owner?_iff f o).1 hw.owner?_eq

theorem Waiting.ne_of_record (hw : m.Waiting f o last) (hs : m.Sound none)
    (hx : ∀ g, m.status? x ≠ some (.resident g)) : x ≠ o := by
  rintro rfl
  exact hx f (hw.status?_eq hs)

/-! ## Evictions -/

/-- The clock takes the frame, or comes closer to it. -/
theorem Waiting.delay_lt (hw : m.Waiting f o last) (hs : m.Sound none)
    (h : m.pickVictim = (some frame, m')) (hne : frame ≠ f) :
    Clock.delay n m'.frames.hand f.index (m'.flag o .accessed) <
      Clock.delay n m.frames.hand f.index (m.flag o .accessed) := by
  have hallocated := hs.linked.allocated (hw.status?_eq hs)
  have hcandidate : m.frames.isCandidate ⟨f.index⟩ = true :=
    candidate_iff.2 ⟨hallocated, hw.hasPin_eq, (hs.linked.isTracked_iff f).1 hallocated⟩
  have htouched : ∀ spaces : AddressSpaces, m.frames.touched f.index spaces =
      (spaces.get o.process).directory.has o.page .accessed := by
    intro spaces
    simp only [FrameTable.touched, hw.owner?_eq]
  have happroach := @Clock.pick_approaches _ n _ f.index (fun frame => m.frames.isCandidate ⟨frame⟩)
    _ _ _ (independent_accessTest (fun _ _ _ => hs.linked.frame_eq) hw.idle) hcandidate
    (Pool.lt_of_isAllocated hallocated) hw.hand_lt _
    fun p => ⟨rfl, rfl, fun _ => rfl, fun _ _ _ => rfl⟩
  simp only [htouched] at happroach
  simp only [pickVictim, FrameTable.pickVictim, Prod.mk.injEq] at h
  obtain ⟨hvictim, rfl⟩ := h
  rcases happroach with htaken | hless
  · rw [htaken] at hvictim
    cases hvictim
    exact absurd rfl hne
  · exact hless

/-- When a frame is got, a page that waits leaves its frame, or waits for fewer evictions. -/
theorem Obtained.waiting (h : m.Obtained m' (.ok frame)) (hs : m.Sound none)
    (hw : m.Waiting f o last) : frame ≠ f ∧ m'.Waiting f o last ∨ m'.AwayBy o last := by
  cases h with
  | free frame pool halloc hm' =>
    subst hm'
    have hne : frame ≠ f := by
      rintro rfl
      cases (hs.linked.owner?_of_alloc halloc).symm.trans hw.owner?_eq
    refine .inl ⟨hne, hw.of_same ?_ rfl rfl (fun _ => rfl) rfl id⟩
    rcases Pool.alloc_cases halloc with ⟨hno, -⟩ | ⟨frame', hsome, hlt, -, hmap, -⟩
    · cases hno
    · cases hsome
      show pool.hasPin f = _
      rw [Pool.hasPin_congr hmap, Pool.hasPin_setEntry _ hlt, if_neg hne]
  | evicted swept frame x record _ hpick howner hr hstatus hevicted =>
    have hsame := (pickVictim_cases hpick).1
    have hlt := (hsame.sound hs).linked.lt (hstatus ▸ status?_of_record hr)
    have hevictions : m'.stats.evictions = m.stats.evictions + 1 := by
      rw [hevicted.evictions_eq, hsame.stats_eq]
    obtain ⟨after, hloses, hout⟩ := hevicted.loses
    have hdue := hw.due
    by_cases hne : frame = f
    · subst hne
      have hx : x = o := by
        rw [hsame.owner?_eq, hw.owner?_eq] at howner
        exact (Option.some.inj howner).symm
      subst hx
      refine .inr ⟨⟨after, ?_, hout⟩, by omega⟩
      rw [hloses.record?_eq, if_pos rfl]
    · have hless := hw.delay_lt hs hpick hne
      refine .inl ⟨hne, ?_, ?_, ?_, fun p => ?_, ?_⟩
      · rw [hloses.pool_eq, hsame.pool_eq, hw.hasPin_eq]
      · rw [hloses.owner?_eq hlt, if_neg hne, hsame.owner?_eq, hw.owner?_eq]
      · rw [hloses.hand_eq]
        exact hsame.hand_lt hw.hand_lt
      · have htraits := (hloses.traits_eq p).trans (hsame.traits_eq p)
        exact (congrArg DirectoryTraits.busy htraits).trans (hw.idle p)
      · rw [hevictions, hloses.hand_eq, hloses.flag_eq o _ (by decide)]
        omega

/-- A page that is away stays away when a frame is got. -/
theorem Obtained.away (h : m.Obtained m' (.ok frame)) (ha : m.Away o) : m'.Away o := by
  cases h with
  | free frame pool halloc hm' => subst hm'; exact ha
  | evicted swept frame x record _ hpick howner hr hstatus hevicted =>
    obtain ⟨after, hloses, hout⟩ := hevicted.loses
    have ha := ha.of_same ((pickVictim_cases hpick).1.record?_eq o)
    unfold Away
    rw [hloses.record?_eq]
    split
    · exact ⟨after, rfl, hout⟩
    · exact ha

/-! ## The frame in hand and the page that comes in -/

/-- Two machines in which the clock stands alike, and that agree on all frames but `frame` and
    all pages but `x`. -/
structure SameBeside (m m' : Machine n) (frame : Frame) (x : Owner) : Prop where
  hand_eq : m'.frames.hand = m.frames.hand
  evictions_eq : m'.stats.evictions = m.stats.evictions
  traits_eq : ∀ p, (m'.space p).directory.toDirectoryTraits =
    (m.space p).directory.toDirectoryTraits
  hasPin_eq : ∀ g, frame ≠ g → m'.frames.pool.hasPin g = m.frames.pool.hasPin g
  owner?_eq : ∀ g, frame ≠ g → m'.frames.owner? g = m.frames.owner? g
  record?_eq : ∀ o, x ≠ o → m'.record? o = m.record? o
  accessed_eq : ∀ o, x ≠ o → m'.flag o .accessed = m.flag o .accessed

theorem SameBeside.trans (h : m.SameBeside m₁ frame x) (h' : m₁.SameBeside m' frame x) :
    m.SameBeside m' frame x where
  hand_eq := h'.hand_eq.trans h.hand_eq
  evictions_eq := h'.evictions_eq.trans h.evictions_eq
  traits_eq p := (h'.traits_eq p).trans (h.traits_eq p)
  hasPin_eq g hg := (h'.hasPin_eq g hg).trans (h.hasPin_eq g hg)
  owner?_eq g hg := (h'.owner?_eq g hg).trans (h.owner?_eq g hg)
  record?_eq o ho := (h'.record?_eq o ho).trans (h.record?_eq o ho)
  accessed_eq o ho := (h'.accessed_eq o ho).trans (h.accessed_eq o ho)

theorem SameButHeld.sameBeside (h : m.SameButHeld m' frame) : m.SameBeside m' frame x where
  hand_eq := h.hand_eq
  evictions_eq := congrArg Stats.evictions h.stats_eq
  traits_eq p := by rw [space, h.spaces_eq]; rfl
  hasPin_eq := h.hasPin_eq
  owner?_eq := h.owner?_eq
  record?_eq o _ := h.record?_eq o
  accessed_eq o _ := h.flag_eq o .accessed

theorem Freed.sameBeside (h : m.Freed m' frame) : m.SameBeside m' frame x where
  hand_eq := h.hand_eq
  evictions_eq := congrArg Stats.evictions h.stats_eq
  traits_eq p := by rw [space, h.spaces_eq]; rfl
  hasPin_eq g hg := by rw [h.hasPin_eq, if_neg hg]
  owner?_eq g hg := by rw [h.owner?_eq, if_neg hg]
  record?_eq o _ := h.record?_eq o
  accessed_eq o _ := h.flag_eq o .accessed

theorem Added.sameBeside {new : Owner → Option PageRecord} (h : m.Added m' new)
    (hnew : ∀ o, x ≠ o → new o = none) : m.SameBeside m' frame x where
  hand_eq := by rw [h.frames_eq]
  evictions_eq := congrArg Stats.evictions h.stats_eq
  traits_eq := h.traits_eq
  hasPin_eq g _ := by rw [h.frames_eq]
  owner?_eq g _ := by rw [h.frames_eq]
  record?_eq o ho := by rw [h.record?_eq, hnew o ho, Option.none_or]
  accessed_eq o ho := h.flag_eq o .accessed (hnew o ho)

theorem Installed.sameBeside (h : m.Installed m' frame x record) : m.SameBeside m' frame x where
  hand_eq := h.hand_eq
  evictions_eq := by rw [h.stats_eq, Stats.evictions_countArrival]
  traits_eq := h.traits_eq
  hasPin_eq g hg := by rw [h.hasPin_eq, if_neg hg]
  owner?_eq g _ := h.owner?_eq g
  record?_eq o ho := by rw [h.record?_eq, if_neg ho]
  accessed_eq o ho := by rw [h.accessed_eq, if_neg ho]

/-- A frame was got for the page `x`, and nothing else was changed but the two. -/
inductive Takes (m m' : Machine n) (x : Owner) : Prop where
  | mk (frame : Frame) (m₁ : Machine n) (hobtained : m.Obtained m₁ (.ok frame))
      (hbeside : m₁.SameBeside m' frame x)

theorem Takes.waiting (h : m.Takes m' x) (hs : m.Sound none) (hx : x ≠ o)
    (hw : m.Waiting f o last) : m'.Waiting f o last ∨ m'.AwayBy o last := by
  obtain ⟨frame, m₁, hobtained, hbeside⟩ := h
  rcases hobtained.waiting hs hw with ⟨hne, hw₁⟩ | ⟨haway, hle⟩
  · refine .inl (hw₁.of_same (hbeside.hasPin_eq f hne) (hbeside.owner?_eq f hne) hbeside.hand_eq
      hbeside.traits_eq hbeside.evictions_eq ?_)
    rw [hbeside.accessed_eq o hx]
    exact id
  · refine .inr ⟨haway.of_same (hbeside.record?_eq o hx), ?_⟩
    rw [hbeside.evictions_eq]
    exact hle

theorem Takes.away (h : m.Takes m' x) (hx : x ≠ o) (ha : m.Away o) : m'.Away o := by
  obtain ⟨frame, m₁, hobtained, hbeside⟩ := h
  exact (hobtained.away ha).of_same (hbeside.record?_eq o hx)

/-! ## Faults and new pages -/

theorem Brought.takes {res : Except Error Unit} (h : m.Brought m' x record res)
    (hroom : res ≠ .error .swapExhausted) : m.Takes m' x := by
  cases h with
  | frameless e hobtained => exact absurd (congrArg Except.error hobtained.eq_exhausted) hroom
  | givenBack e frame m₁ m₂ hframe hobtained hsame hfreed =>
    exact .mk frame m₁ hobtained (hsame.sameBeside.trans hfreed.sameBeside)
  | installed frame m₁ m₂ m₃ hobtained hclaimed hfilled hinstalled =>
    exact .mk frame m₁ hobtained
      ((hclaimed.same.sameBeside.trans hfilled.same.sameBeside).trans hinstalled.sameBeside)

theorem MappedNew.takes {writable : Bool} {intruder : Option Bool} {res : Except Error Unit}
    (h : m.MappedNew m' x writable intruder res) (hroom : res ≠ .error .swapExhausted) :
    m' = m ∨ m.record? x = none ∧ m.Takes m' x := by
  cases h with
  | taken record hr hm => exact .inl hm
  | frameless e hr hobtained =>
    exact absurd (congrArg Except.error hobtained.eq_exhausted) hroom
  | refused frame m₁ m₂ hr hobtained hclaimed hfreed =>
    exact .inr ⟨hr, frame, m₁, hobtained, hclaimed.same.sameBeside.trans hfreed.sameBeside⟩
  | intruded frame m₁ m₂ m₃ hr hintruder hobtained hclaimed hadded hfreed =>
    exact .inr ⟨hr, frame, m₁, hobtained, (hclaimed.same.sameBeside.trans
      (hadded.sameBeside fun o ho => if_neg ho)).trans hfreed.sameBeside⟩
  | placed frame m₁ m₂ hr hintruder hobtained hclaimed hinstalled =>
    exact .inr ⟨hr, frame, m₁, hobtained, hclaimed.same.sameBeside.trans hinstalled.sameBeside⟩

theorem Added.waiting {new : Owner → Option PageRecord} (h : m.Added m' new) (hs : m.Sound none)
    (hw : m.Waiting f o last) : m'.Waiting f o last := by
  have hnew : new o = none := by
    cases hnew : new o with
    | none => rfl
    | some r =>
      have hnone := status?_eq_none (h.absent o r hnew)
      cases hnone.symm.trans (hw.status?_eq hs)
  refine hw.of_same (by rw [h.frames_eq]) (by rw [h.frames_eq]) (by rw [h.frames_eq]) h.traits_eq
    (congrArg Stats.evictions h.stats_eq) ?_
  rw [h.flag_eq o .accessed hnew]
  exact id

theorem Handled.waiting {process : Nat} {fault : PageFault} {res : Except Error Unit}
    (h : m.Handled m' process fault res) (hs : m.Sound none) (hroom : res ≠ .error .swapExhausted)
    (hw : m.Waiting f o last) : m'.Waiting f o last ∨ m'.AwayBy o last := by
  cases h with
  | rejected e hnot hm => subst hm; exact .inl hw
  | resident record hr hin hm => subst hm; exact .inl hw
  | known record res hr hout hbrought =>
    have hne := hw.ne_of_record hs (status?_ne_resident hr hout)
    exact (hbrought.takes hroom).waiting hs hne hw
  | grown m₁ res hgrows hadded hbrought =>
    have hs₁ := hadded.sound unloaded_zero hs
    have hw₁ := hadded.waiting hs hw
    have hne := hw₁.ne_of_record hs₁ (status?_ne_resident hadded.record?_self rfl)
    exact (hbrought.takes hroom).waiting hs₁ hne hw₁

/-- A fault brings in no other page than the one it is at. -/
theorem Handled.away {process : Nat} {fault : PageFault} {res : Except Error Unit}
    (h : m.Handled m' process fault res) (hroom : res ≠ .error .swapExhausted)
    (hne : ⟨process, .containing fault.address⟩ ≠ o) (ha : m.Away o) : m'.Away o := by
  cases h with
  | rejected e hnot hm => subst hm; exact ha
  | resident record hr hin hm => subst hm; exact ha
  | known record res hr hout hbrought => exact (hbrought.takes hroom).away hne ha
  | grown m₁ res hgrows hadded hbrought =>
    refine (hbrought.takes hroom).away hne (ha.of_same ?_)
    rw [hadded.record?_eq, if_neg hne, Option.none_or]

theorem MappedNew.waiting {writable : Bool} {intruder : Option Bool} {res : Except Error Unit}
    (h : m.MappedNew m' x writable intruder res) (hs : m.Sound none)
    (hroom : res ≠ .error .swapExhausted) (hw : m.Waiting f o last) :
    m'.Waiting f o last ∨ m'.AwayBy o last := by
  rcases h.takes hroom with rfl | ⟨hr, htakes⟩
  · exact .inl hw
  · refine htakes.waiting hs (hw.ne_of_record hs fun g => ?_) hw
    rw [status?_eq_none hr]
    exact nofun

end Machine

end DemandPaging
