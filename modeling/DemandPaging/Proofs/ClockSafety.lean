/-
  The clock is safe whatever the access tests answer.

  Pages may be touched again behind the hand at any time.  Here every test may answer as it likes,
  as long as it leaves the table alone.

  * `Clock.checkedSweep` is the sweep with every array access and every remainder checked, and
    `Clock.exists_checkedSweep`: no check ever fails;
  * `FrameTable.picks`: the victims of calls one after the other;
  * `FrameTable.pickVictim_safe`: the clock ends, with a candidate if there is one; when every test
    answers that the page was accessed, the candidates take turns.
-/
import DemandPaging.Proofs.Rotation

namespace DemandPaging

variable {σ : Type} {n : Nat} {test : Nat → σ → Bool × σ}

/-! ## Checks that never fail -/

namespace Clock

variable {candidate : Nat → Bool}

/-- The sweep, with the frames that it examines.  There is none where it would look at a frame
    beyond the last, or take a remainder by zero. -/
def checkedSweep (n : Nat) (candidate : Nat → Bool) (test : Nat → σ → Bool × σ) :
    (steps hand : Nat) → (passed : Option Nat) → σ → Option (Stop σ × List Nat)
  | 0, hand, none, state => some (⟨none, hand, state⟩, [])
  | 0, _, some frame, state =>
    if n = 0 then none else some (⟨some frame, (frame + 1) % n, state⟩, [])
  | steps + 1, hand, passed, state =>
    if n = 0 ∨ n ≤ hand then none
    else
      let next := (hand + 1) % n
      if candidate hand then
        match test hand state with
        | (true, state) =>
          (checkedSweep n candidate test steps next (passed.or (some hand)) state).map
            fun done => (done.1, hand :: done.2)
        | (false, state) => some (⟨some hand, next, state⟩, [hand])
      else
        (checkedSweep n candidate test steps next passed state).map
          fun done => (done.1, hand :: done.2)

/-- No check fails, and the frames examined are the next ones in order. -/
theorem exists_checkedSweep {hand : Nat} (hhand : hand < n) (steps : Nat) (passed : Option Nat)
    (state : σ) : ∃ examined, checkedSweep n candidate test steps hand passed state =
      some (sweep n candidate test steps hand passed state, examined) ∧
        examined <+: visits n hand steps := by
  have hpos : n ≠ 0 := by omega
  induction steps generalizing hand passed state with
  | zero =>
    refine ⟨[], ?_, List.nil_prefix⟩
    cases passed with
    | none => rfl
    | some frame => rw [checkedSweep, if_neg hpos, sweep]
  | succ steps ih =>
    have hin : ¬(n = 0 ∨ n ≤ hand) := by omega
    have hnext : (hand + 1) % n < n := Nat.mod_lt _ (by omega)
    rw [checkedSweep, if_neg hin, sweep, visits_succ hhand]
    dsimp only
    split
    · rcases test hand state with ⟨_ | _, state'⟩
      · exact ⟨[hand], rfl, (List.prefix_cons_inj _).2 List.nil_prefix⟩
      · obtain ⟨examined, hsweep, hprefix⟩ := ih hnext (passed.or (some hand)) state'
        refine ⟨hand :: examined, ?_, (List.prefix_cons_inj _).2 hprefix⟩
        dsimp only
        rw [hsweep, Option.map_some]
    · obtain ⟨examined, hsweep, hprefix⟩ := ih hnext passed state
      refine ⟨hand :: examined, ?_, (List.prefix_cons_inj _).2 hprefix⟩
      rw [hsweep, Option.map_some]

/-- Tests that all answer yes end on no frame. -/
theorem chase_eq_none {frames : List Nat} {state : σ}
    (h : ∀ c ∈ frames, ∀ s, (test c s).1 = true) : (chase test frames state).1 = none := by
  induction frames generalizing state with
  | nil => rfl
  | cons c rest ih =>
    have htest : test c state = (true, (test c state).2) :=
      Prod.ext (h c List.mem_cons_self state) rfl
    rw [chase, htest]
    exact ih fun d hd => h d (List.mem_cons_of_mem c hd)

end Clock

/-! ## Victims -/

namespace FrameTable

variable {table : FrameTable n} {state : σ} {frame : Frame}

/-- The hand is on a frame, if there is one. -/
def HandInPlace (table : FrameTable n) : Prop :=
  table.hand < n ∨ n = 0 ∧ table.hand = 0

/-- Every test of a candidate answers that its page was accessed. -/
def AlwaysAccessed (table : FrameTable n) (test : Nat → σ → Bool × σ) : Prop :=
  ∀ frame s, table.isCandidate frame = true → (test frame.index s).1 = true

/-- Run the clock with all checks: what comes of it, and the frames examined. -/
def checkedPick (table : FrameTable n) (test : Nat → σ → Bool × σ) (state : σ) :
    Option ((Option Frame × FrameTable n × σ) × List Nat) :=
  (Clock.checkedSweep n (fun frame => table.isCandidate ⟨frame⟩) test (2 * n) table.hand none
    state).map fun done =>
      ((done.1.victim.map Frame.mk, { table with hand := done.1.hand }, done.1.state), done.2)

/-- The victims of `count` calls, each on the table that the one before left behind. -/
def picks (test : Nat → σ → Bool × σ) : (count : Nat) → FrameTable n → σ → List (Option Frame)
  | 0, _, _ => []
  | count + 1, table, state =>
    let picked := table.pickVictim test state
    picked.1 :: picks test count picked.2.1 picked.2.2

theorem exists_checkedPick (hhand : table.HandInPlace) (state : σ) :
    ∃ examined, table.checkedPick test state = some (table.pickVictim test state, examined) ∧
      examined.length ≤ 2 * n := by
  rcases hhand with hhand | ⟨rfl, -⟩
  · obtain ⟨examined, hsweep, hprefix⟩ : ∃ examined, Clock.checkedSweep n
        (fun frame => table.isCandidate ⟨frame⟩) test (2 * n) table.hand none state =
          some (_, examined) ∧ examined <+: _ :=
      Clock.exists_checkedSweep hhand (2 * n) none state
    refine ⟨examined, ?_, ?_⟩
    · rw [checkedPick, hsweep]
      rfl
    · have := hprefix.length_le
      simpa [Clock.visits] using this
  · exact ⟨[], rfl, Nat.le_refl _⟩

theorem HandInPlace.lt_or (h : table.HandInPlace) : table.hand < n ∨ n = 0 :=
  h.imp_right And.left

theorem mem_candidates_of_pickVictim (hhand : table.HandInPlace)
    (h : (table.pickVictim test state).1 = some frame) : frame ∈ table.candidates := by
  rw [pickVictim_eq hhand.lt_or] at h
  rcases Option.or_eq_some_iff.1 h with h | ⟨-, h⟩
  · obtain ⟨i, hi, rfl⟩ := Option.map_eq_some_iff.1 h
    have hin := Clock.mem_of_chase hi
    rw [List.mem_append, or_self] at hin
    exact List.mem_map_of_mem hin
  · exact List.mem_of_head? h

theorem pickVictim_eq_none_iff (hhand : table.HandInPlace) :
    (table.pickVictim test state).1 = none ↔ table.candidates = [] := by
  constructor
  · intro h
    rw [pickVictim_eq hhand.lt_or] at h
    exact List.head?_eq_none_iff.1 (Option.or_eq_none_iff.1 h).2
  · intro h
    rw [Option.eq_none_iff_forall_ne_some]
    intro frame hframe
    have hin := mem_candidates_of_pickVictim hhand hframe
    rw [h] at hin
    cases hin

/-- Of the table, the clock moves the hand alone: it puts it behind the victim. -/
theorem pickVictim_table (hhand : table.HandInPlace) :
    (table.pickVictim test state).2.1 = { table with
      hand := (table.pickVictim test state).1.elim table.hand
        fun frame => (frame.index + 1) % n } := by
  rw [pickVictim_eq hhand.lt_or]

theorem isCandidate_pickVictim (hhand : table.HandInPlace) :
    (table.pickVictim test state).2.1.isCandidate = table.isCandidate := by
  rw [pickVictim_table hhand]
  rfl

theorem handInPlace_pickVictim (hhand : table.HandInPlace) :
    (table.pickVictim test state).2.1.HandInPlace := by
  rw [pickVictim_table hhand]
  cases hvictim : (table.pickVictim test state).1 with
  | none => exact hhand
  | some frame =>
    have hlt := lt_of_isCandidate (mem_candidates.1 (mem_candidates_of_pickVictim hhand hvictim))
    exact .inl (Nat.mod_lt _ (Nat.lt_of_le_of_lt (Nat.zero_le _) hlt))

/-! ## Pages that are always touched again -/

theorem AlwaysAccessed.pickVictim (hbusy : table.AlwaysAccessed test)
    (hhand : table.HandInPlace) : (table.pickVictim test state).2.1.AlwaysAccessed test :=
  fun frame s hc => hbusy frame s (isCandidate_pickVictim hhand ▸ hc)

/-- Wherever the hand is, the candidates are the same. -/
theorem candidates_perm (table : FrameTable n) (hand : Nat) :
    ({ table with hand := hand } : FrameTable n).candidates.Perm table.candidates :=
  (List.perm_ext_iff_of_nodup nodup_candidates nodup_candidates).2 fun frame => by
    rw [mem_candidates, mem_candidates]
    rfl

/-- With the hand behind the first candidate, that one comes last. -/
theorem candidates_next {rest : List Frame} (h : table.candidates = frame :: rest) :
    ({ table with hand := (frame.index + 1) % n } : FrameTable n).candidates = rest ++ [frame] := by
  obtain ⟨c, order, horder, rfl, rfl⟩ := List.map_eq_cons_iff.1 h
  refine (congrArg (List.map Frame.mk) (Clock.candidatesFrom_next horder)).trans ?_
  rw [List.map_append]
  rfl

theorem pickVictim_of_busy (hbusy : table.AlwaysAccessed test) (hhand : table.HandInPlace) :
    (table.pickVictim test state).1 = table.candidates.head? := by
  have hnone : (Clock.chase test (Clock.candidatesFrom n (fun frame => table.isCandidate ⟨frame⟩)
      table.hand ++ Clock.candidatesFrom n (fun frame => table.isCandidate ⟨frame⟩) table.hand)
      state).1 = none := by
    refine Clock.chase_eq_none fun c hc s => ?_
    rw [List.mem_append, or_self, Clock.mem_candidatesFrom] at hc
    exact hbusy ⟨c⟩ s hc.2
  rw [pickVictim_eq hhand.lt_or]
  dsimp only
  rw [hnone, Option.map_none, Option.none_or]

/-- The first calls take the candidates in order. -/
theorem picks_of_busy (hbusy : table.AlwaysAccessed test) (hhand : table.HandInPlace)
    {count : Nat} (hcount : count ≤ table.candidates.length) :
    table.picks test count state = (table.candidates.take count).map some := by
  induction count generalizing table state with
  | zero => rfl
  | succ count ih =>
    cases hcandidates : table.candidates with
    | nil =>
      rw [hcandidates] at hcount
      cases hcount
    | cons frame rest =>
      have hvictim : (table.pickVictim test state).1 = some frame := by
        rw [pickVictim_of_busy hbusy hhand, hcandidates, List.head?_cons]
      have hnext : (table.pickVictim test state).2.1.candidates = rest ++ [frame] := by
        rw [pickVictim_table hhand, hvictim]
        exact candidates_next hcandidates
      have hle : count ≤ rest.length := by
        rw [hcandidates, List.length_cons] at hcount
        omega
      have hrest : picks test count (table.pickVictim test state).2.1
          (table.pickVictim test state).2.2 = _ :=
        ih (hbusy.pickVictim hhand) (handInPlace_pickVictim hhand)
          (by rw [hnext, List.length_append]; omega)
      rw [hnext, List.take_append_of_le_length hle] at hrest
      rw [picks, hvictim, hrest, List.take_succ_cons, List.map_cons]

/-- Whenever there are as many calls as candidates, each candidate is taken once. -/
theorem drop_picks_of_busy (hbusy : table.AlwaysAccessed test) (hhand : table.HandInPlace)
    (before : Nat) : ∃ frames : List Frame,
    (table.picks test (before + table.candidates.length) state).drop before =
      frames.map some ∧ frames.Perm table.candidates := by
  induction before generalizing table state with
  | zero =>
    refine ⟨table.candidates, ?_, .refl _⟩
    rw [Nat.zero_add, List.drop_zero, picks_of_busy hbusy hhand (Nat.le_refl _), List.take_length]
  | succ before ih =>
    have hperm : (table.pickVictim test state).2.1.candidates.Perm table.candidates := by
      rw [pickVictim_table hhand]
      exact candidates_perm table _
    obtain ⟨frames, hdrop, hframes⟩ : ∃ frames : List Frame,
        (picks test _ (table.pickVictim test state).2.1 (table.pickVictim test state).2.2).drop
          before = _ ∧ _ :=
      ih (hbusy.pickVictim hhand) (handInPlace_pickVictim hhand)
    rw [hperm.length_eq] at hdrop
    refine ⟨frames, ?_, hframes.trans hperm⟩
    rw [Nat.add_right_comm, picks, List.drop_succ_cons, hdrop]

/-- With any tests that leave the table alone, the clock ends within two turns, without a check
    that fails.  It chooses a frame that is in use, tracked and not pinned if there is one, and
    moves nothing but the hand, to behind that frame.  If every test answers that the page was
    accessed, the victim is the first candidate from the hand on, and in as many calls as there
    are candidates, each of them is taken once. -/
theorem pickVictim_safe (table : FrameTable n) (test : Nat → σ → Bool × σ) (state : σ)
    (hhand : table.HandInPlace) :
    (∃ examined, table.checkedPick test state = some (table.pickVictim test state, examined) ∧
      examined.length ≤ 2 * n) ∧
    ((table.pickVictim test state).1.isSome ↔ ∃ frame, table.pool.isAllocated frame = true ∧
      table.isTracked frame = true ∧ table.pool.hasPin frame = false) ∧
    (∀ frame, (table.pickVictim test state).1 = some frame →
      table.pool.isAllocated frame = true ∧ table.isTracked frame = true ∧
        table.pool.hasPin frame = false) ∧
    (table.pickVictim test state).2.1 = { table with
      hand := (table.pickVictim test state).1.elim table.hand
        fun frame => (frame.index + 1) % n } ∧
    (table.AlwaysAccessed test →
      (table.pickVictim test state).1 = table.candidates.head? ∧
      ∀ before, ∃ frames : List Frame,
        (table.picks test (before + table.candidates.length) state).drop before =
          frames.map some ∧ frames.Nodup ∧ ∀ frame, frame ∈ frames ↔ frame ∈ table.candidates) := by
  have hcandidate : ∀ frame, frame ∈ table.candidates ↔ table.pool.isAllocated frame = true ∧
      table.isTracked frame = true ∧ table.pool.hasPin frame = false := by
    intro frame
    rw [mem_candidates, isCandidate]
    simp [and_assoc, and_comm]
  refine ⟨exists_checkedPick hhand state, ?_, fun frame hframe => ?_, pickVictim_table hhand,
    fun hbusy => ⟨pickVictim_of_busy hbusy hhand, fun before => ?_⟩⟩
  · rw [Option.isSome_iff_ne_none, Ne, pickVictim_eq_none_iff hhand,
      List.eq_nil_iff_forall_not_mem, not_forall_not]
    exact exists_congr hcandidate
  · exact (hcandidate frame).1 (mem_candidates_of_pickVictim hhand hframe)
  · obtain ⟨frames, hdrop, hperm⟩ := drop_picks_of_busy hbusy hhand before
    exact ⟨frames, hdrop, hperm.nodup_iff.2 nodup_candidates, fun frame => hperm.mem_iff⟩

/-- Of three frames in use the second is pinned, and the hand is on the third.  The tests count
    themselves and always answer yes. -/
theorem pickVictim_safe_threeFrames : ∃ table : FrameTable 3, table.HandInPlace ∧
    table.candidates = [⟨2⟩, ⟨0⟩] ∧
    (table.pickVictim (fun _ count => (true, count + 1)) 0).1 = some ⟨2⟩ ∧
    ∀ before, ∃ frames : List Frame,
      (table.picks (fun _ count => (true, count + 1)) (before + 2) 0).drop before =
        frames.map some ∧ frames.Nodup := by
  obtain ⟨table, hhand, hcandidates⟩ : ∃ table : FrameTable 3, table.HandInPlace ∧
      table.candidates = [⟨2⟩, ⟨0⟩] := by
    refine ⟨{
      pool := ⟨#v[⟨true, false⟩, ⟨true, true⟩, ⟨true, false⟩], {}, 3⟩
      owners := #v[some ⟨0, ⟨0⟩⟩, some ⟨0, ⟨1⟩⟩, some ⟨0, ⟨2⟩⟩]
      hand := 2 }, .inl (by decide), by decide⟩
  obtain ⟨-, -, -, -, hbusy⟩ :=
    pickVictim_safe table (fun _ (count : Nat) => (true, count + 1)) 0 hhand
  obtain ⟨hvictim, hpicks⟩ := hbusy fun _ _ _ => rfl
  rw [hcandidates] at hvictim hpicks
  refine ⟨table, hhand, hcandidates, hvictim, fun before => ?_⟩
  obtain ⟨frames, hdrop, hnodup, -⟩ := hpicks before
  exact ⟨frames, hdrop, hnodup⟩

end FrameTable

end DemandPaging
