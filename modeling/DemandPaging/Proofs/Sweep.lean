/-
  Where the clock stops when every access test asks for a bit of its own.

  Such a bit is the accessed bit of the page in a frame, which the test clears.
  The hand passes the candidates whose pages were accessed and takes the next one;
  after a whole turn it takes the candidate that it came to first.

  * `Clock.pick_of_independent`: the clock over independent bits, and
    `Clock.exists_passed` where every frame is a candidate;
  * `Machine.independent_accessTest`: frames that hold different pages have bits of
    their own;
  * `Machine.exists_swept`: the clock when every frame holds a page.
-/
import Mathlib.Data.List.TakeWhile
import DemandPaging.Proofs.Rotation
import DemandPaging.Proofs.Steady

namespace DemandPaging

namespace Clock

variable {σ : Type} {n : Nat} {candidate : Nat → Bool} {test : Nat → σ → Bool × σ}

/-- Every access test answers a bit of its frame, and clears that bit alone. -/
structure Independent (test : Nat → σ → Bool × σ) (bit : Nat → σ → Bool) (P : σ → Prop) :
    Prop where
  answer : ∀ frame s, P s → (test frame s).1 = bit frame s
  keeps : ∀ frame s, P s → P (test frame s).2
  unset : ∀ frame s, P s → bit frame s = false → (test frame s).2 = s
  bit_iff : ∀ frame s g, P s → (bit g (test frame s).2 = true ↔ frame ≠ g ∧ bit g s = true)

/-- Make the tests on all of the given frames, whatever they answer. -/
def passAll (test : Nat → σ → Bool × σ) (frames : List Nat) (state : σ) : σ :=
  frames.foldl (fun s frame => (test frame s).2) state

/-- The hand passed `count` frames, whose bits were set and are now clear, and chose the next
    one. -/
structure Passed (n hand count : Nat) (bit : Nat → σ → Bool) (s : σ) (stop : Stop σ) : Prop where
  le : count ≤ n
  set : ∀ i < count, bit ((hand + i) % n) s = true
  unset : count < n → bit ((hand + count) % n) s = false
  victim_eq : stop.victim = some ((hand + count) % n)
  hand_eq : stop.hand = (hand + count + 1) % n
  bit_iff : ∀ g, bit g stop.state = true ↔ (∀ i < count, (hand + i) % n ≠ g) ∧ bit g s = true

section

variable {bit : Nat → σ → Bool} {P : σ → Prop} {hand : Nat} {frames : List Nat} {s : σ}

theorem passAll_keeps (hbits : Independent test bit P) (hs : P s) : P (passAll test frames s) := by
  induction frames generalizing s with
  | nil => exact hs
  | cons c rest ih => exact ih (hbits.keeps c s hs)

theorem bit_passAll (hbits : Independent test bit P) (hs : P s) (g : Nat) :
    bit g (passAll test frames s) = true ↔ g ∉ frames ∧ bit g s = true := by
  induction frames generalizing s with
  | nil => simp [passAll]
  | cons c rest ih =>
    have hrest := ih (hbits.keeps c s hs)
    rw [hbits.bit_iff c s g hs] at hrest
    rw [List.mem_cons, not_or, and_assoc, ← ne_eq, ne_comm, and_left_comm]
    exact hrest

/-- The tests on frames whose bits are set clear these bits and go on with the other frames. -/
theorem chase_append (hbits : Independent test bit P) (hs : P s) (hframes : frames.Nodup)
    (hset : ∀ c ∈ frames, bit c s = true) (rest : List Nat) :
    chase test (frames ++ rest) s = chase test rest (passAll test frames s) := by
  induction frames generalizing s with
  | nil => rfl
  | cons c cs ih =>
    obtain ⟨hc, hcs⟩ := List.nodup_cons.1 hframes
    have htest : test c s = (true, (test c s).2) :=
      Prod.ext ((hbits.answer c s hs).trans (hset c List.mem_cons_self)) rfl
    rw [List.cons_append, chase, htest]
    refine ih (hbits.keeps c s hs) hcs fun g hg => (hbits.bit_iff c s g hs).2 ⟨?_, ?_⟩
    · rintro rfl
      exact hc hg
    · exact hset g (List.mem_cons_of_mem c hg)

/-- The tests on frames of which the first has its bit clear end there. -/
theorem chase_cons (hbits : Independent test bit P) (hs : P s) {c : Nat}
    (hclear : bit c s = false) (rest : List Nat) : chase test (c :: rest) s = (some c, s) := by
  have htest : test c s = (false, s) :=
    Prod.ext ((hbits.answer c s hs).trans hclear) (hbits.unset c s hs hclear)
  rw [chase, htest]

/-- Made twice on the same frames, the tests end on the first frame whose bit is clear.  If there
    is none, all bits are clear the second time, and they end on the first frame. -/
theorem chase_twice (hbits : Independent test bit P) (hs : P s) (hframes : frames.Nodup) :
    chase test (frames ++ frames) s =
      ((frames.find? fun c => !bit c s).or frames.head?,
        passAll test (frames.takeWhile fun c => bit c s) s) := by
  cases hfind : frames.find? fun c => !bit c s with
  | some c =>
    obtain ⟨hc, passed, rest, rfl, hpassed⟩ := List.find?_eq_some_iff_append.1 hfind
    have hclear : bit c s = false := by simpa using hc
    have hset : ∀ g ∈ passed, bit g s = true := by simpa using hpassed
    have hstill : bit c (passAll test passed s) = false := by
      rw [Bool.eq_false_iff, Ne, bit_passAll hbits hs, hclear]
      exact fun h => nomatch h.2
    rw [List.takeWhile_append_of_pos hset, List.takeWhile_cons_of_neg (by simp [hclear]),
      List.append_nil, List.append_assoc,
      chase_append hbits hs (List.nodup_append.1 hframes).1 hset, List.cons_append,
      chase_cons hbits (passAll_keeps hbits hs) hstill, Option.some_or]
  | none =>
    have hset : ∀ c ∈ frames, bit c s = true := by simpa using hfind
    rw [List.takeWhile_eq_self_iff.2 hset, chase_append hbits hs hframes hset, Option.none_or]
    cases frames with
    | nil => rfl
    | cons c rest =>
      have hclear : bit c (passAll test (c :: rest) s) = false := by
        rw [Bool.eq_false_iff, Ne, bit_passAll hbits hs]
        exact fun h => h.1 List.mem_cons_self
      rw [chase_cons hbits (passAll_keeps hbits hs) hclear, List.head?_cons]

/-- The clock over independent bits: it takes the first candidate whose bit is clear, and if there
    is none the first candidate.  The bits of those before it, or of all, are cleared. -/
theorem pick_of_independent (hbits : Independent test bit P) (hs : P s)
    (hhand : hand < n ∨ n = 0) :
    pick n candidate test hand s =
      let frames := candidatesFrom n candidate hand
      let victim := (frames.find? fun c => !bit c s).or frames.head?
      ⟨victim, victim.elim hand fun c => (c + 1) % n,
        passAll test (frames.takeWhile fun c => bit c s) s⟩ := by
  rw [pick_eq hhand]
  dsimp only
  rw [chase_twice hbits hs nodup_candidatesFrom]
  dsimp only
  rw [Option.or_assoc, Option.or_self]

/-- A sweep over candidates only, each with a bit of its own: it ends at the first frame whose
    bit is clear, and after a whole turn at the frame that it began with. -/
theorem exists_passed (hbits : Independent test bit P) (hall : ∀ i < n, candidate i = true)
    (hs : P s) (hhand : hand < n) :
    ∃ count, Passed n hand count bit s (pick n candidate test hand s) := by
  have hcandidates : candidatesFrom n candidate hand = visits n hand n := by
    rw [candidatesFrom, visits_turn, List.filter_eq_self]
    intro c hc
    exact hall c (List.mem_range.1 (List.mem_rotate.1 hc))
  have hlength : (visits n hand n).length = n := by simp [visits]
  have hget : ∀ i < n, (visits n hand n)[i]? = some ((hand + i) % n) := by
    intro i hi
    simp [visits, hi]
  -- the first frame whose bit is clear
  obtain ⟨count, hcount⟩ : ∃ k, ((visits n hand n).findIdx fun c => !bit c s) = k := ⟨_, rfl⟩
  have hle : count ≤ n := by
    have hidx : ((visits n hand n).findIdx fun c => !bit c s) ≤ (visits n hand n).length :=
      List.findIdx_le_length
    omega
  have hfind : count < n →
      ((visits n hand n).find? fun c => !bit c s) = some ((hand + count) % n) := by
    intro hlt
    rw [List.find?_eq_getElem?_findIdx, hcount, hget count hlt]
  have hvictim : ((visits n hand n).find? fun c => !bit c s).or (visits n hand n).head? =
      some ((hand + count) % n) := by
    rcases Nat.lt_or_eq_of_le hle with hlt | rfl
    · rw [hfind hlt, Option.some_or]
    · rw [List.find?_eq_getElem?_findIdx, hcount, List.getElem?_eq_none (Nat.le_of_eq hlength),
        Option.none_or, List.head?_eq_getElem?, hget 0 (Nat.lt_of_le_of_lt (Nat.zero_le _) hhand),
        Nat.add_mod_right, Nat.add_zero]
  have hpassed : (visits n hand n).takeWhile (fun c => bit c s) = visits n hand count := by
    rw [List.takeWhile_eq_take_findIdx_not, hcount, visits, visits, ← List.map_take,
      List.take_range, Nat.min_eq_left hle]
  refine ⟨count, hle, fun i hi => ?_, fun hlt => ?_, ?_, ?_, fun g => ?_⟩
  · have hmem : (hand + i) % n ∈ visits n hand count := mem_visits.2 ⟨i, hi, rfl⟩
    rw [← hpassed] at hmem
    exact List.mem_takeWhile_imp (p := fun c => bit c s) hmem
  · simpa using List.find?_some (hfind hlt)
  · rw [pick_of_independent hbits hs (.inl hhand), hcandidates]
    exact hvictim
  · rw [pick_of_independent hbits hs (.inl hhand), hcandidates]
    dsimp only
    rw [hvictim, Option.elim_some, Nat.mod_add_mod]
  · rw [pick_of_independent hbits hs (.inl hhand), hcandidates]
    dsimp only
    rw [hpassed, bit_passAll hbits hs, mem_visits]
    simp

end

end Clock

/-! ## The frames of a machine -/

variable {n : Nat}

/-- Whether the page in a frame was accessed. -/
def FrameTable.touched (table : FrameTable n) (frame : Nat) (spaces : AddressSpaces) : Bool :=
  match table.owner? ⟨frame⟩ with
  | some owner => (spaces.get owner.process).directory.has owner.page .accessed
  | none => false

namespace Machine

variable {m : Machine n}

/-- When no two frames hold the same page, each has an accessed bit of its own. -/
theorem independent_accessTest
    (howners : ∀ f g o, m.frames.owner? f = some o → m.frames.owner? g = some o → f = g)
    (hidle : ∀ p, (m.space p).directory.busy = false) :
    Clock.Independent m.frames.accessTest m.frames.touched m.spaces.SameUpToAccess := by
  have haccessed : ∀ (spaces : AddressSpaces) (o : Owner), m.spaces.SameUpToAccess spaces →
      (spaces.get o.process).directory.isAccessed o.page =
        (spaces.get o.process).directory.has o.page .accessed := by
    intro spaces o hsame
    have hbusy : (spaces.get o.process).directory.busy = false :=
      (congrArg DirectoryTraits.busy (hsame o.process).2.1).trans (hidle o.process)
    rw [Directory.isAccessed, hbusy, if_neg (by decide)]
  constructor
  · intro frame spaces hsame
    unfold FrameTable.accessTest FrameTable.touched
    cases m.frames.owner? ⟨frame⟩ with
    | none => rfl
    | some o =>
      simp only [haccessed spaces o hsame]
      split
      · rename_i hset; rw [hset]
      · rename_i hclear; rw [Bool.not_eq_true] at hclear; rw [hclear]
  · intro frame spaces hsame
    exact m.frames.accessTest_same frame hsame
  · intro frame spaces hsame hclear
    unfold FrameTable.accessTest FrameTable.touched at *
    cases howner : m.frames.owner? ⟨frame⟩ with
    | none => rfl
    | some o =>
      simp only [howner] at hclear
      simp only [haccessed spaces o hsame, hclear, Bool.false_eq_true, if_false]
  · intro frame spaces g hsame
    unfold FrameTable.accessTest
    cases howner : m.frames.owner? ⟨frame⟩ with
    | none =>
      refine ⟨fun h => ⟨?_, h⟩, fun h => h.2⟩
      rintro rfl
      simp only [FrameTable.touched, howner] at h
      cases h
    | some o =>
      simp only [haccessed spaces o hsame]
      split
      · rename_i hset
        have hentry : ((spaces.get o.process).directory.entries.get? o.page).isSome = true := by
          unfold Directory.has at hset
          split at hset
          · rename_i hsome; rw [hsome]; rfl
          · cases hset
        unfold FrameTable.touched
        cases hg : m.frames.owner? ⟨g⟩ with
        | none => simp
        | some x =>
          have hframe : frame = g ↔ o = x := by
            constructor
            · rintro rfl
              exact Option.some.inj (howner.symm.trans hg)
            · rintro rfl
              exact congrArg Frame.index (howners _ _ _ howner hg)
          dsimp only
          rw [Ne, hframe, Owner.eq_iff, AddressSpaces.get_set]
          split
          · rename_i hp
            rw [Directory.setAccessed, Directory.has_set_of_some hentry]
            by_cases hq : o.page = x.page <;> simp [hp, hq]
          · rename_i hp
            simp [hp]
      · rename_i hclear
        refine ⟨fun h => ⟨?_, h⟩, fun h => h.2⟩
        rintro rfl
        simp only [FrameTable.touched, howner] at h
        exact hclear h

/-- The hand passed `count` frames, whose pages were accessed, and took the next one. -/
structure Swept (m m' : Machine n) (count : Nat) : Prop where
  le : count ≤ n
  hand_eq : m'.frames.hand = (m.frames.hand + count + 1) % n
  passed : ∀ i < count, ∃ o, m.frames.owner? ⟨(m.frames.hand + i) % n⟩ = some o ∧
    m.flag o .accessed = true ∧ m'.flag o .accessed = false
  taken : count < n → ∀ o, m.frames.owner? ⟨(m.frames.hand + count) % n⟩ = some o →
    m.flag o .accessed = false

theorem exists_swept (hs : m.Sound none) (hp : m.Unpinned none)
    (hidle : ∀ p, (m.space p).directory.busy = false) (hhand : m.frames.hand < n)
    (hfull : ∀ g : Frame, g.index < n → m.frames.pool.isAllocated g = true) :
    ∃ count, m.pickVictim.1 = some ⟨(m.frames.hand + count) % n⟩ ∧
      m.Swept m.pickVictim.2 count := by
  have hall : ∀ i < n, m.frames.isCandidate ⟨i⟩ = true := by
    intro i hi
    have hallocated := hfull ⟨i⟩ hi
    exact candidate_iff.2 ⟨hallocated, hp _ nofun, (hs.linked.isTracked_iff _).1 hallocated⟩
  obtain ⟨count, hpassed⟩ := Clock.exists_passed
    (independent_accessTest (fun _ _ _ => hs.linked.frame_eq) hidle) hall
    (fun p => ⟨rfl, rfl, fun _ => rfl, fun _ _ _ => rfl⟩) hhand
  refine ⟨count, congrArg (Option.map Frame.mk) hpassed.victim_eq, hpassed.le, hpassed.hand_eq,
    fun i hi => ?_, fun hlt o ho => ?_⟩
  · have hset := hpassed.set i hi
    have hclear := hpassed.bit_iff ((m.frames.hand + i) % n)
    unfold FrameTable.touched at hset hclear
    cases howner : m.frames.owner? ⟨(m.frames.hand + i) % n⟩ with
    | none =>
      rw [howner] at hset
      cases hset
    | some o =>
      rw [howner] at hset hclear
      refine ⟨o, rfl, hset, ?_⟩
      rw [Bool.eq_false_iff]
      exact fun h => (hclear.1 h).1 i hi rfl
  · have hunset := hpassed.unset hlt
    unfold FrameTable.touched at hunset
    rw [ho] at hunset
    exact hunset

end Machine

end DemandPaging
