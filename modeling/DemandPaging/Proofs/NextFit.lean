/-
  Next fit spreads the frames it hands out.

  The search goes round the frames.  It begins just past the frame that was handed out last, and
  ends at the first free frame; a request that hands out nothing does not move it.  So it comes to
  every other frame before it comes to the same one again.

  * `searchStart` is where the search begins, told from the answers so far;
    `Run.position_eq`: the policy begins there;
  * `Pool.FirstFree` is the first free frame from a place on, and `alloc_firstFree` says that it is
    the one handed out;
  * `ComesBefore`: going round, one frame comes before another; `ComesBefore.next` is what one
    allocation makes of it, and `exists_allocated_between` what a run does;
  * `run_nextFit`: all this after any run.
-/
import DemandPaging.Proofs.PoolRun
import DemandPaging.Proofs.Clock

namespace DemandPaging

/-- The frame that an answer hands out, if it does. -/
def PoolAnswer.frame? : PoolAnswer → Option Frame
  | allocated frame => frame
  | _ => none

/-- The frame handed out last. -/
def lastHandedOut? (answers : List PoolAnswer) : Option Frame :=
  answers.reverse.findSome? PoolAnswer.frame?

/-- Where the search for a free frame among `n` begins: just past the frame handed out last, and
    at frame zero if none was. -/
def searchStart (n : Nat) (answers : List PoolAnswer) : Nat :=
  (lastHandedOut? answers).elim 0 fun frame => (frame.index + 1) % n

theorem lastHandedOut?_concat (answers : List PoolAnswer) (answer : PoolAnswer) :
    lastHandedOut? (answers ++ [answer]) = answer.frame?.or (lastHandedOut? answers) := by
  rw [lastHandedOut?, List.reverse_concat, List.findSome?_cons, lastHandedOut?]
  cases answer.frame? <;> rfl

theorem lastHandedOut?_cons (answer : PoolAnswer) (answers : List PoolAnswer) :
    lastHandedOut? (answer :: answers) = (lastHandedOut? answers).or answer.frame? := by
  rw [lastHandedOut?, List.reverse_cons, List.findSome?_append, lastHandedOut?,
    List.findSome?_singleton]

/-! ## The order of the search -/

/-- Going round `n` frames from `position` on, the frame `other` comes before `frame`. -/
def ComesBefore (n position other frame : Nat) : Prop :=
  ∃ i j, i < j ∧ j < n ∧ (position + i) % n = other ∧ (position + j) % n = frame

/-- Just past a frame, all others come before it. -/
theorem comesBefore_of_ne {n other frame : Nat} (hother : other < n) (hframe : frame < n)
    (hne : other ≠ frame) : ComesBefore n ((frame + 1) % n) other frame := by
  have hpos : 0 < n := Nat.lt_of_le_of_lt (Nat.zero_le _) hframe
  have hturn : ((frame + 1) % n + (n - 1)) % n = frame := by
    rw [Nat.mod_add_mod, show frame + 1 + (n - 1) = frame + n by omega, Nat.add_mod_right,
      Nat.mod_eq_of_lt hframe]
  obtain ⟨i, hi, hplace⟩ := Clock.exists_rotate (Nat.mod_lt (frame + 1) hpos) hother
  refine ⟨i, n - 1, ?_, by omega, hplace, hturn⟩
  have hlast : i ≠ n - 1 := fun e => hne (by rw [← hplace, e, hturn])
  omega

section

variable {n position other frame k : Nat}

/-- A search that does not go past `other` does not come to `frame`. -/
theorem ComesBefore.ne (h : ComesBefore n position other frame) (hk : k < n)
    (hskipped : ∀ j < k, (position + j) % n ≠ other) : (position + k) % n ≠ frame := by
  obtain ⟨i, j, hij, hj, hother, hframe⟩ := h
  intro hplace
  have := Clock.rotate_inj hk hj (hplace.trans hframe.symm)
  exact hskipped i (by omega) hother

/-- If a search ends before it comes to `other`, the next one comes to `other` before `frame`. -/
theorem ComesBefore.next (h : ComesBefore n position other frame)
    (hskipped : ∀ j < k, (position + j) % n ≠ other) (hne : (position + k) % n ≠ other) :
    ComesBefore n (((position + k) % n + 1) % n) other frame := by
  obtain ⟨i, j, hij, hj, hother, hframe⟩ := h
  have hki : k < i := by
    rcases Nat.lt_trichotomy k i with hlt | rfl | hgt
    · exact hlt
    · exact absurd hother hne
    · exact absurd hother (hskipped i hgt)
  have hshift (m : Nat) (hm : k < m) :
      (((position + k) % n + 1) % n + (m - k - 1)) % n = (position + m) % n := by
    rw [Nat.mod_add_mod, Nat.add_assoc, Nat.mod_add_mod]
    congr 1
    omega
  refine ⟨i - k - 1, j - k - 1, by omega, by omega, ?_, ?_⟩
  · rw [hshift i hki, hother]
  · rw [hshift j (by omega), hframe]

end

theorem NextFit.order_eq_map {policy : NextFit} {n : Nat} (h : policy.position < n) :
    policy.order n = (List.range n).map fun k => (policy.position + k) % n := by
  rw [order, Nat.min_eq_left (Nat.le_of_lt h)]
  apply List.ext_getElem
  · simp only [List.length_append, List.length_range', List.length_range, List.length_map]
    omega
  · intro k hk _
    simp only [List.length_append, List.length_range', List.length_range] at hk
    rw [List.getElem_map, List.getElem_range, List.getElem_append]
    split
    · rename_i hlt
      rw [List.length_range'] at hlt
      rw [List.getElem_range', Nat.one_mul, Nat.mod_eq_of_lt (by omega)]
    · rename_i hge
      rw [List.length_range'] at hge
      rw [List.getElem_range, List.length_range', Nat.mod_eq_sub_mod (by omega),
        Nat.mod_eq_of_lt (by omega)]
      omega

namespace Pool

variable {n : Nat} {pool pool' : Pool NextFit n} {frame other : Frame} {request : PoolRequest}
  {requests : List PoolRequest} {answer : PoolAnswer} {answers : List PoolAnswer}

/-- The first free frame, going round from `start` on. -/
def FirstFree (pool : Pool NextFit n) (start : Nat) (frame : Frame) : Prop :=
  ∃ k < n, frame.index = (start + k) % n ∧ pool.isAllocated frame = false ∧
    ∀ j < k, pool.isAllocated ⟨(start + j) % n⟩ = true

/-- What handing out a frame does: it is the first free one from the policy's position on, it
    becomes allocated, and the position moves just past it. -/
theorem alloc_firstFree (hposition : pool.policy.position < n ∨ n = 0)
    (h : pool.alloc.result = .ok (some frame, pool')) :
    pool.FirstFree pool.policy.position frame ∧ pool'.isAllocated frame = true ∧
      pool'.policy.position = (frame.index + 1) % n := by
  rcases alloc_find h with ⟨hnone, -⟩ | ⟨index, hsome, hfind, rfl⟩
  · cases hnone
  cases hsome
  have hfree := isFreeAt_toArray.1 (List.find?_some hfind)
  have hposition : pool.policy.position < n := by omega
  rw [NextFit.order_eq_map hposition, List.find?_map, Option.map_eq_some_iff] at hfind
  obtain ⟨k, hk, rfl⟩ := hfind
  rw [List.find?_range_eq_some] at hk
  obtain ⟨-, hk, hskipped⟩ := hk
  refine ⟨⟨k, List.mem_range.1 hk, rfl, hfree.2, fun j hj => ?_⟩, ?_, rfl⟩
  · have hnot := hskipped j hj
    have hlt : (pool.policy.position + j) % n < n := Nat.mod_lt _ (by omega)
    rw [Bool.not_eq_true', ← Bool.not_eq_true, Function.comp_apply, isFreeAt_toArray] at hnot
    simpa [hlt] using hnot
  · exact (isAllocated_setEntry _ hfree.1).trans (if_pos rfl)

/-! ## Where the search begins -/

/-- Only a request that hands out a frame moves the policy. -/
theorem Performed.policy_eq (h : pool.Performed pool' request answer) :
    pool'.policy = answer.frame?.elim pool.policy fun frame => ⟨(frame.index + 1) % n⟩ := by
  cases h with
  | allocated res h =>
    rcases alloc_find h with ⟨rfl, rfl⟩ | ⟨index, rfl, -, rfl⟩
    · rfl
    · rfl
  | freed frame h =>
    simp only [dealloc, Outcome.bind_eq_ok_iff, Outcome.result_pure, Except.ok.injEq] at h
    obtain ⟨_, -, _, -, rfl⟩ := h
    rfl
  | pinSet frame pinned h =>
    obtain ⟨-, rfl⟩ := setPinned_cases h
    rfl

theorem policy_of_answerAll
    (h : (Outcome.answerAll perform pool requests).result = .ok (answers, pool')) :
    pool'.policy =
      (lastHandedOut? answers).elim pool.policy fun frame => ⟨(frame.index + 1) % n⟩ := by
  induction requests generalizing pool answers with
  | nil => cases h; rfl
  | cons request rest ih =>
    obtain ⟨answer, next, others, hrequest, hrest, rfl⟩ := Outcome.answerAll_cons_iff.1 h
    rw [ih hrest, (perform_cases hrequest).policy_eq, lastHandedOut?_cons]
    cases lastHandedOut? others <;> rfl

theorem Run.position_eq (h : Run n requests answers pool) :
    pool.policy.position = searchStart n answers := by
  rw [policy_of_answerAll h, searchStart]
  cases lastHandedOut? answers <;> rfl

/-- The policy begins at a frame of the pool, if there is one. -/
def InRange (pool : Pool NextFit n) : Prop :=
  pool.policy.position < n ∨ n = 0

theorem Performed.inRange (h : pool.Performed pool' request answer) (hpool : pool.InRange) :
    pool'.InRange := by
  rw [InRange, h.policy_eq]
  cases answer.frame? with
  | none => exact hpool
  | some frame =>
    rcases Nat.eq_zero_or_pos n with hzero | hpos
    · exact .inr hzero
    · exact .inl (Nat.mod_lt _ hpos)

/-! ## Between two allocations of a frame -/

/-- While `other` is free and comes before `frame`, `frame` is not handed out, and `other` still
    comes before it unless it was handed out itself. -/
theorem Performed.comesBefore (h : pool.Performed pool' request answer) (hpool : pool.InRange)
    (hfree : pool.isAllocated other = false)
    (hbefore : ComesBefore n pool.policy.position other.index frame.index) :
    answer ≠ .allocated (some frame) ∧ (pool'.isAllocated other = true ∨
      ComesBefore n pool'.policy.position other.index frame.index) := by
  have hpolicy := h.policy_eq
  cases h with
  | allocated res h =>
    cases res with
    | none =>
      rw [hpolicy]
      exact ⟨nofun, .inr hbefore⟩
    | some found =>
      obtain ⟨⟨k, hk, hplace, -, hall⟩, hallocated, hposition⟩ := alloc_firstFree hpool h
      have hskipped : ∀ j < k, (pool.policy.position + j) % n ≠ other.index := by
        intro j hj e
        have htaken := hall j hj
        rw [e] at htaken
        exact Bool.false_ne_true (hfree.symm.trans htaken)
      refine ⟨fun e => ?_, ?_⟩
      · cases e
        exact hbefore.ne hk hskipped hplace.symm
      · by_cases hfound : found = other
        · exact .inl (hfound ▸ hallocated)
        · rw [hposition, hplace]
          exact .inr (hbefore.next hskipped fun e => hfound (Frame.index_inj.1 (hplace.trans e)))
  | freed frame h =>
    rw [hpolicy]
    exact ⟨nofun, .inr hbefore⟩
  | pinSet frame pinned h =>
    rw [hpolicy]
    exact ⟨nofun, .inr hbefore⟩

/-- If the search comes to `other` before `frame`, then `other` is allocated at some time before
    `frame` is handed out. -/
theorem exists_allocated_before {j : Nat}
    (h : (Outcome.answerAll perform pool requests).result = .ok (answers, pool'))
    (hpool : pool.InRange) (hbefore : pool.isAllocated other = true ∨
      ComesBefore n pool.policy.position other.index frame.index)
    (hj : answers[j]? = some (.allocated (some frame))) :
    ∃ k ≤ j, ∃ between, (Outcome.answerAll perform pool (requests.take k)).result =
      .ok (answers.take k, between) ∧ between.isAllocated other = true := by
  induction requests generalizing pool answers j with
  | nil => cases h; cases hj
  | cons request rest ih =>
    obtain ⟨answer, next, others, hrequest, hrest, rfl⟩ := Outcome.answerAll_cons_iff.1 h
    have hperformed := perform_cases hrequest
    cases hnow : pool.isAllocated other with
    | true => exact ⟨0, Nat.zero_le j, pool, rfl, hnow⟩
    | false =>
      have hbefore := hbefore.resolve_left (Bool.not_eq_true _ ▸ hnow)
      obtain ⟨hanswer, hnext⟩ := hperformed.comesBefore hpool hnow hbefore
      cases j with
      | zero => exact absurd (Option.some.inj hj) hanswer
      | succ j =>
        obtain ⟨k, hk, between, htake, hallocated⟩ :=
          ih hrest (hperformed.inRange hpool) hnext hj
        exact ⟨k + 1, Nat.succ_le_succ hk, between,
          Outcome.answerAll_cons_iff.2 ⟨answer, next, _, hrequest, htake, rfl⟩, hallocated⟩

theorem inRange_ofPolicy (n : Nat) : (ofPolicy ({} : NextFit) n).InRange :=
  (Nat.eq_zero_or_pos n).symm

theorem Run.inRange (h : Run n requests answers pool) : pool.InRange :=
  Outcome.answerAll_keeps
    (fun _ _ _ _ _ hpool hrequest => (perform_cases hrequest).inRange hpool) (inRange_ofPolicy n) h

theorem lt_of_mem_answers
    (h : (Outcome.answerAll perform pool requests).result = .ok (answers, pool'))
    (hmem : .allocated (some frame) ∈ answers) : frame.index < n := by
  induction requests generalizing pool answers with
  | nil => cases h; cases hmem
  | cons request rest ih =>
    obtain ⟨answer, next, others, hrequest, hrest, rfl⟩ := Outcome.answerAll_cons_iff.1 h
    rcases List.mem_cons.1 hmem with rfl | hmem
    · cases perform_cases hrequest with
      | allocated _ halloc =>
        rcases alloc_cases halloc with ⟨hnone, -⟩ | ⟨_, hsome, hlt, -⟩
        · cases hnone
        · cases hsome
          exact hlt
    · exact ih hrest hmem

theorem Run.exists_allocated_between (h : Run n requests answers pool) {i j : Nat} (hij : i < j)
    (hi : answers[i]? = some (.allocated (some frame)))
    (hj : answers[j]? = some (.allocated (some frame))) (hother : other.index < n)
    (hne : other ≠ frame) :
    ∃ k between, i < k ∧ k ≤ j ∧ Run n (requests.take k) (answers.take k) between ∧
      between.isAllocated other = true := by
  obtain ⟨after, hbegin, hrest⟩ := Outcome.answerAll_take h (i + 1)
  have hlast : lastHandedOut? (answers.take (i + 1)) = some frame := by
    rw [List.take_add_one, hi, Option.toList_some, lastHandedOut?_concat]
    rfl
  have hposition : after.policy.position = (frame.index + 1) % n := by
    rw [Run.position_eq hbegin, searchStart, hlast]
    rfl
  have hframe := lt_of_mem_answers h (List.mem_of_getElem? hi)
  have hbefore : ComesBefore n after.policy.position other.index frame.index :=
    hposition ▸ comesBefore_of_ne hother hframe fun e => hne (Frame.index_inj.1 e)
  have hlater : (answers.drop (i + 1))[j - (i + 1)]? = some (.allocated (some frame)) := by
    rw [List.getElem?_drop, Nat.add_sub_cancel' hij]
    exact hj
  obtain ⟨k, hk, between, htake, hallocated⟩ :=
    exists_allocated_before hrest (Run.inRange hbegin) (.inr hbefore) hlater
  refine ⟨i + 1 + k, between, by omega, by omega, ?_, hallocated⟩
  have hrun := Outcome.answerAll_append hbegin htake
  rwa [← List.take_add, ← List.take_add] at hrun

/-- After any run, the search for a free frame begins just past the frame handed out last, at frame
    zero if there is none, and only a request that hands out a frame moves it.  The frame handed
    out is the first free one from there on.  Between two times that a frame is handed out, every
    other frame is allocated at some time. -/
theorem run_nextFit (h : Run n requests answers pool) :
    pool.policy.position = searchStart n answers ∧
      (∀ request answer pool', (pool.perform request).result = .ok (answer, pool') →
        answer.frame? = none → pool'.policy = pool.policy) ∧
      (∀ frame pool', pool.alloc.result = .ok (some frame, pool') →
        pool.FirstFree (searchStart n answers) frame) ∧
      ∀ (i j : Nat) (frame other : Frame), i < j →
        answers[i]? = some (.allocated (some frame)) →
        answers[j]? = some (.allocated (some frame)) → other.index < n → other ≠ frame →
        ∃ k between, i < k ∧ k ≤ j ∧ Run n (requests.take k) (answers.take k) between ∧
          between.isAllocated other = true := by
  refine ⟨h.position_eq, fun request answer pool' hrequest hnone => ?_,
    fun frame pool' halloc => ?_, fun i j frame other hij hi hj hother hne =>
      h.exists_allocated_between hij hi hj hother hne⟩
  · rw [(perform_cases hrequest).policy_eq, hnone]
    rfl
  · rw [← h.position_eq]
    exact (alloc_firstFree h.inRange halloc).1

/-- One frame at a time is in use, and still all three take their turn. -/
theorem run_nextFit_threeFrames : ∃ answers pool,
    Run 3 [.alloc, .dealloc ⟨0⟩, .alloc, .dealloc ⟨1⟩, .alloc, .dealloc ⟨2⟩, .alloc] answers pool ∧
    answers[0]? = some (.allocated (some ⟨0⟩)) ∧ answers[6]? = some (.allocated (some ⟨0⟩)) ∧
    pool.policy.position = searchStart 3 answers ∧ ∃ k between, 0 < k ∧ k ≤ 6 ∧
      Run 3 ([.alloc, .dealloc ⟨0⟩, .alloc, .dealloc ⟨1⟩, .alloc, .dealloc ⟨2⟩, .alloc].take k)
        (answers.take k) between ∧ between.isAllocated ⟨2⟩ = true := by
  have hruns : (Outcome.answerAll perform (ofPolicy ({} : NextFit) 3)
      [.alloc, .dealloc ⟨0⟩, .alloc, .dealloc ⟨1⟩, .alloc, .dealloc ⟨2⟩,
        .alloc]).result.toOption.any (fun (answers, _) =>
          answers[0]? = some (.allocated (some ⟨0⟩)) &&
            answers[6]? = some (.allocated (some ⟨0⟩))) = true := by
    decide +kernel
  obtain ⟨⟨answers, pool⟩, h, hp⟩ := Outcome.exists_of_any hruns
  simp only [Bool.and_eq_true, decide_eq_true_eq] at hp
  obtain ⟨hposition, -, -, hbetween⟩ := run_nextFit h
  exact ⟨answers, pool, h, hp.1, hp.2, hposition,
    hbetween 0 6 ⟨0⟩ ⟨2⟩ (by decide) hp.1 hp.2 (by decide) (by decide)⟩

end Pool

end DemandPaging
