/-
  The order in which the slots of a swap space are handed out, told from what was asked and
  answered before.

  A slot that was released and not handed out since waits.  The slot that is handed out next is
  the one that was released last among those that wait; if none waits, it is the lowest that was
  never handed out.

  * `SwapHistory` is what was asked and answered; `HandedOut`, `Waiting`, `WaitsBehind` and
    `LowestNew` are read off it without the records of the slots;
  * `Slots.Follows`: the records say the same as a history; `Performed.follows` and
    `Run.follows`: a request, and so a run of them, keeps this;
  * `Follows.next?_cases`: which slot the records have next, in terms of the history;
  * `run_slots`: what the records are, and what the next request comes to, after any run.
-/
import DemandPaging.Proofs.SwapRun

namespace DemandPaging

theorem Slot.index_inj {slot other : Slot} : slot.index = other.index ↔ slot = other := by
  cases slot
  cases other
  simp

/-- The requests made of a swap space, in order, each with its answer. -/
abbrev SwapHistory : Type := List (SwapRequest × SwapAnswer)

namespace SwapHistory

variable {history after : SwapHistory} {event : SwapRequest × SwapAnswer} {slot other : Slot}
  {newer newer' : List Slot}

/-- A slot is handed out. -/
def handOut (slot : Slot) : SwapRequest × SwapAnswer :=
  (.allocate, .allocated (.ok slot))

/-- A slot is released. -/
def release (slot : Slot) : SwapRequest × SwapAnswer :=
  (.free slot, .freed)

/-- A slot was handed out, be it once or more often. -/
def HandedOut (history : SwapHistory) (slot : Slot) : Prop :=
  handOut slot ∈ history

/-- A slot was released and not handed out since. -/
def Waiting (history : SwapHistory) (slot : Slot) : Prop :=
  ∃ after, release slot :: after <:+ history ∧ ¬HandedOut after slot

/-- A slot waits, and of the slots that were released after it only those in `newer` still
    wait. -/
def WaitsBehind (history : SwapHistory) (newer : List Slot) (slot : Slot) : Prop :=
  ∃ after, release slot :: after <:+ history ∧ ¬HandedOut after slot ∧
    ∀ other, Waiting after other → other ∈ newer

/-- A slot was never handed out, and it is the lowest of them. -/
def LowestNew (history : SwapHistory) (slot : Slot) : Prop :=
  ¬HandedOut history slot ∧ ∀ other : Slot, other.index < slot.index → HandedOut history other

/-- How often a slot was handed out. -/
def handOuts (history : SwapHistory) : Nat :=
  history.countP fun
    | (_, .allocated (.ok _)) => true
    | _ => false

/-- How often a slot was released. -/
def releases (history : SwapHistory) : Nat :=
  history.countP fun
    | (_, .freed) => true
    | _ => false

/-! ## One more request -/

theorem cons_suffix_concat_iff {α : Type} {a e : α} {l k : List α} :
    a :: l <:+ k ++ [e] ↔ l = [] ∧ a = e ∨ ∃ l', l = l' ++ [e] ∧ a :: l' <:+ k := by
  rw [List.suffix_concat_iff]
  constructor
  · rintro (hnil | ⟨t, ht, hsuffix⟩)
    · cases hnil
    · cases t with
      | nil =>
        cases ht
        exact .inl ⟨rfl, rfl⟩
      | cons b t =>
        cases ht
        exact .inr ⟨t, rfl, hsuffix⟩
  · rintro (⟨rfl, rfl⟩ | ⟨l', rfl, hsuffix⟩)
    · exact .inr ⟨[], rfl, List.nil_suffix⟩
    · exact .inr ⟨a :: l', rfl, hsuffix⟩

theorem handedOut_concat :
    HandedOut (history ++ [event]) slot ↔ HandedOut history slot ∨ event = handOut slot := by
  rw [HandedOut, HandedOut, List.mem_append, List.mem_singleton, eq_comm (a := event)]

theorem waiting_concat :
    Waiting (history ++ [event]) slot ↔
      event = release slot ∨ Waiting history slot ∧ event ≠ handOut slot := by
  simp only [Waiting, cons_suffix_concat_iff]
  constructor
  · rintro ⟨_, ⟨rfl, rfl⟩ | ⟨after, rfl, hsuffix⟩, hnot⟩
    · exact .inl rfl
    · rw [handedOut_concat, not_or] at hnot
      exact .inr ⟨⟨after, hsuffix, hnot.1⟩, hnot.2⟩
  · rintro (rfl | ⟨⟨after, hsuffix, hnot⟩, hevent⟩)
    · exact ⟨[], .inl ⟨rfl, rfl⟩, List.not_mem_nil⟩
    · exact ⟨after ++ [event], .inr ⟨after, rfl, hsuffix⟩, by
        rw [handedOut_concat, not_or]
        exact ⟨hnot, hevent⟩⟩

theorem waitsBehind_release : WaitsBehind (history ++ [release slot]) [] slot :=
  ⟨[], cons_suffix_concat_iff.2 (.inl ⟨rfl, rfl⟩), List.not_mem_nil, by
    rintro other ⟨after, hsuffix, -⟩
    cases List.suffix_nil.1 hsuffix⟩

/-- A slot that is not handed out goes on waiting.  The slots before it in the line change as the
    request makes them. -/
theorem WaitsBehind.concat (h : WaitsBehind history newer slot) (hslot : event ≠ handOut slot)
    (hrelease : ∀ other, event = release other → other ∈ newer')
    (hnewer : ∀ other ∈ newer, event ≠ handOut other → other ∈ newer') :
    WaitsBehind (history ++ [event]) newer' slot := by
  obtain ⟨after, hsuffix, hnot, hline⟩ := h
  refine ⟨after ++ [event], cons_suffix_concat_iff.2 (.inr ⟨after, rfl, hsuffix⟩), ?_, ?_⟩
  · rw [handedOut_concat, not_or]
    exact ⟨hnot, hslot⟩
  · intro other hother
    rcases waiting_concat.1 hother with hevent | ⟨hwaits, hevent⟩
    · exact hrelease other hevent
    · exact hnewer other (hline other hwaits) hevent

theorem handOut_inj : handOut slot = handOut other ↔ slot = other := by
  simp [handOut]

theorem release_inj : release slot = release other ↔ slot = other := by
  simp [release]

theorem handOut_ne_release : handOut slot ≠ release other := by
  simp [handOut, release]

theorem handOuts_concat :
    handOuts (history ++ [event]) = handOuts history + handOuts [event] :=
  List.countP_append

theorem releases_concat :
    releases (history ++ [event]) = releases history + releases [event] :=
  List.countP_append

theorem ne_handOut (h : handOuts [event] = 0) : event ≠ handOut slot := by
  rintro rfl
  cases h

theorem ne_release (h : releases [event] = 0) : event ≠ release slot := by
  rintro rfl
  cases h

end SwapHistory

/-! ## What the records say -/

namespace Slots

open SwapHistory

variable {slots slots' : Slots} {history : SwapHistory} {event : SwapRequest × SwapAnswer}
  {slot : Slot}

/-- The records of the slots say the same as a history. -/
structure Follows (slots : Slots) (history : SwapHistory) : Prop where
  sound : slots.Sound
  handedOut_iff : ∀ slot, history.HandedOut slot ↔ slot.index < slots.fresh
  waiting_iff : ∀ slot, history.Waiting slot ↔ slot ∈ slots.released
  waitsBehind : ∀ newer slot older, slots.released = newer ++ slot :: older →
    history.WaitsBehind newer slot
  inUse_eq : slots.inUse + history.releases = history.handOuts

theorem follows_empty (capacity : Nat) : Follows { capacity := capacity } [] := by
  refine ⟨sound_empty capacity, fun slot => ?_, fun slot => ?_, fun newer slot older h => ?_, rfl⟩
  · simp [HandedOut]
  · simp [Waiting]
  · simp at h

/-- A request that neither hands out nor releases a slot does not matter. -/
theorem Follows.quiet (h : slots.Follows history) (hhandOut : handOuts [event] = 0)
    (hrelease : releases [event] = 0) : slots.Follows (history ++ [event]) := by
  refine ⟨h.sound, fun slot => ?_, fun slot => ?_, fun newer slot older hreleased => ?_, ?_⟩
  · rw [handedOut_concat, ← h.handedOut_iff]
    exact or_iff_left (ne_handOut hhandOut)
  · rw [waiting_concat, ← h.waiting_iff]
    simp [ne_handOut hhandOut, ne_release hrelease]
  · exact (h.waitsBehind newer slot older hreleased).concat (ne_handOut hhandOut)
      (fun other hother => absurd hother (ne_release hrelease)) fun other hother _ => hother
  · rw [handOuts_concat, releases_concat, hhandOut, hrelease]
    exact h.inUse_eq

/-- The slot that the records have next is the one that was released last among those that wait;
    if none waits, it is the lowest that was never handed out. -/
theorem Follows.next?_cases (h : slots.Follows history) {rest : Slots}
    (hnext : slots.next? = some (slot, rest)) :
    history.WaitsBehind [] slot ∧ rest.fresh = slots.fresh ∧
        slots.released = slot :: rest.released ∨
      (∀ other, ¬history.Waiting other) ∧ history.LowestNew slot ∧ slot.index = slots.fresh ∧
        rest.fresh = slots.fresh + 1 ∧ slots.released = [] ∧ rest.released = [] := by
  unfold next? at hnext
  split at hnext
  · rename_i head released hreleased
    cases hnext
    exact .inl ⟨h.waitsBehind [] _ _ hreleased, rfl, hreleased⟩
  · rename_i hreleased
    split at hnext
    · cases hnext
      refine .inr ⟨fun other hother => ?_, ⟨fun hold => ?_, fun other hother => ?_⟩, rfl, rfl,
        hreleased, hreleased⟩
      · rw [h.waiting_iff, hreleased] at hother
        cases hother
      · exact Nat.lt_irrefl _ ((h.handedOut_iff _).1 hold)
      · exact (h.handedOut_iff other).2 hother
    · cases hnext

theorem Follows.handOut (h : slots.Follows history)
    (hallocate : slots.allocate.result = .ok (.ok slot, slots')) :
    slots'.Follows (history ++ [SwapHistory.handOut slot]) := by
  have hsound := h.sound.allocate hallocate
  have hinUse := inUse_allocate hallocate
  rcases allocate_next hallocate with ⟨hno, -⟩ | ⟨_, rest, hnext, hres, hnew, rfl⟩
  · cases hno
  cases hres
  refine ⟨hsound, fun other => ?_, fun other => ?_, fun newer other older hsplit => ?_, ?_⟩
  · rw [handedOut_concat, h.handedOut_iff, handOut_inj]
    rcases h.next?_cases hnext with ⟨-, hfresh, hreleased⟩ | ⟨-, -, hslot, hfresh, -⟩
    · have hold : slot.index < slots.fresh :=
        (h.sound.lt_fresh_iff slot).2 (.inr (hreleased ▸ List.mem_cons_self))
      simp only [fresh_occupy, hfresh]
      exact ⟨fun ho => ho.elim id fun e => e ▸ hold, .inl⟩
    · have heq : slot = other ↔ other.index = slots.fresh := by
        rw [← hslot, ← Slot.index_inj, eq_comm]
      simp only [fresh_occupy, hfresh, heq]
      omega
  · rw [waiting_concat, h.waiting_iff, ne_eq, handOut_inj, or_iff_right handOut_ne_release]
    rcases h.next?_cases hnext with ⟨-, -, hreleased⟩ | ⟨-, -, -, -, hreleased, hrest⟩
    · have hnodup := h.sound.released_nodup
      rw [hreleased, List.nodup_cons] at hnodup
      rw [hreleased, List.mem_cons]
      constructor
      · rintro ⟨rfl | hother, hne⟩
        · exact absurd rfl hne
        · exact hother
      · exact fun hother => ⟨.inr hother, fun e => hnodup.1 (e ▸ hother)⟩
    · simp [hreleased, hrest]
  · rcases h.next?_cases hnext with ⟨-, -, hreleased⟩ | ⟨-, -, -, -, -, hrest⟩
    · -- what waits behind the slot that is handed out moves up by one
      have hsplit : rest.released = newer ++ other :: older := hsplit
      have hnodup := h.sound.released_nodup
      rw [hreleased, hsplit, List.nodup_cons] at hnodup
      have hbehind := h.waitsBehind (slot :: newer) other older (by rw [hreleased, hsplit]; rfl)
      refine hbehind.concat (fun e => hnodup.1 ?_) (fun x hx => absurd hx handOut_ne_release)
        fun x hx hne => ?_
      · rw [handOut_inj.1 e]
        exact List.mem_append_right _ List.mem_cons_self
      · exact (List.mem_cons.1 hx).resolve_left fun e => hne (e ▸ rfl)
    · simp [hrest] at hsplit
  · have hbefore := h.inUse_eq
    rw [handOuts_concat, releases_concat, hinUse]
    change slots.inUse + 1 + (releases history + 0) = handOuts history + 1
    omega

theorem Follows.release (h : slots.Follows history)
    (hfree : (slots.free slot).result = .ok slots') :
    slots'.Follows (history ++ [SwapHistory.release slot]) := by
  have hsound := h.sound.free hfree
  have hinUse := inUse_free hfree
  obtain ⟨-, rfl⟩ := free_cases hfree
  refine ⟨hsound, fun other => ?_, fun other => ?_, fun newer other older hsplit => ?_, ?_⟩
  · rw [handedOut_concat, fresh_release, ← h.handedOut_iff]
    exact or_iff_left handOut_ne_release.symm
  · rw [waiting_concat, h.waiting_iff, released_release, List.mem_cons, release_inj,
      eq_comm (a := other)]
    simp [handOut_ne_release.symm]
  · rcases List.cons_eq_append_iff.1 hsplit with ⟨rfl, hhead⟩ | ⟨newer, rfl, hrest⟩
    · cases hhead
      exact waitsBehind_release
    · refine (h.waitsBehind newer other older hrest).concat handOut_ne_release.symm
        (fun x hx => ?_) fun x hx _ => List.mem_cons_of_mem _ hx
      rw [release_inj.1 hx]
      exact List.mem_cons_self
  · have hbefore := h.inUse_eq
    rw [handOuts_concat, releases_concat]
    change _ + (releases history + 1) = handOuts history + 0
    omega

/-- All slots are occupied. -/
def Full (slots : Slots) : Prop :=
  ∀ slot : Slot, slot.index < slots.capacity → slots.isOccupied slot = true

/-- A slot is occupied if it was handed out and is not among the released ones. -/
theorem Sound.isOccupied_eq_true_iff (h : slots.Sound) :
    slots.isOccupied slot = true ↔ slot.index < slots.fresh ∧ slot ∉ slots.released := by
  rw [isOccupied_iff, h.lt_fresh_iff]
  constructor
  · exact fun hocc => ⟨.inl hocc, h.not_released slot hocc⟩
  · exact fun hor => hor.1.resolve_right hor.2

/-- Each occupied slot counts once. -/
theorem Sound.inUse_eq_countP (h : slots.Sound) :
    slots.inUse = (List.range slots.capacity).countP fun i => slots.isOccupied ⟨i⟩ := by
  have hnodup : (slots.occupied.map Slot.index).Nodup :=
    List.Pairwise.map Slot.index (fun _ _ hne e => hne (Slot.index_inj.1 e)) slots.occupied_nodup
  rw [inUse, ← List.length_map Slot.index, List.countP_eq_length_filter]
  refine ((List.perm_ext_iff_of_nodup hnodup (List.nodup_range.filter _)).2 fun i => ?_).length_eq
  simp only [List.mem_map, List.mem_filter, List.mem_range, isOccupied_iff]
  constructor
  · rintro ⟨slot, hslot, rfl⟩
    exact ⟨h.lt_capacity (isOccupied_iff.2 hslot), hslot⟩
  · exact fun hi => ⟨⟨i⟩, hi.2, rfl⟩

/-- Reserving a slot does not stop the machine.  It is turned down when all slots are occupied, and
    else answered with a slot that is not. -/
theorem Follows.allocate_cases (h : slots.Follows history) :
    ∃ res slots', slots.allocate.result = .ok (res, slots') ∧
      (slots.Full ∧ res = .error .swapExhausted ∨
        ¬slots.Full ∧ ∃ slot, res = .ok slot ∧ slot.index < slots.capacity ∧
          slots.isOccupied slot = false ∧ (history.WaitsBehind [] slot ∨
            (∀ other, ¬history.Waiting other) ∧ history.LowestNew slot)) := by
  obtain ⟨res, slots', hallocate⟩ := h.sound.exists_allocate
  refine ⟨res, slots', hallocate, ?_⟩
  rcases allocate_next hallocate with ⟨hres, hnone, -⟩ | ⟨slot, rest, hnext, rfl, hfree, rfl⟩
  · exact .inl ⟨fun slot hslot => h.sound.isOccupied_of_full hnone hslot, hres⟩
  · obtain ⟨hocc, hcapacity⟩ := next?_same hnext
    have hfree : slots.isOccupied slot = false := isOccupied_eq_false_iff.2 (hocc ▸ hfree)
    have hlt : slot.index < slots.capacity :=
      hcapacity ▸ (h.sound.allocate hallocate).lt_capacity (isOccupied_iff.2 List.mem_cons_self)
    refine .inr ⟨fun hfull => Bool.false_ne_true (hfree.symm.trans (hfull slot hlt)), slot, rfl,
      hlt, hfree, ?_⟩
    rcases h.next?_cases hnext with ⟨hline, -⟩ | ⟨hnone, hnew, -⟩
    · exact .inl hline
    · exact .inr ⟨hnone, hnew⟩

theorem free_completes_iff : (slots.free slot).Completes ↔
    slot.index < slots.capacity ∧ slots.isOccupied slot = true := by
  simp only [Outcome.Completes, free, requireInBounds, Outcome.bind_eq_ok_iff,
    Outcome.require_result_iff, Outcome.result_pure]
  constructor
  · rintro ⟨_, _, hlt, _, hocc, -⟩
    exact ⟨hlt, hocc⟩
  · rintro ⟨hlt, hocc⟩
    exact ⟨_, (), hlt, (), hocc, rfl⟩

end Slots

/-! ## Runs -/

namespace SwapSpace

open SwapHistory

variable {swap swap' : SwapSpace} {device : Device} {request : SwapRequest}
  {requests : List SwapRequest} {answer : SwapAnswer} {answers : List SwapAnswer}
  {history : SwapHistory}

theorem Performed.follows (h : swap.Performed swap' request answer)
    (hf : swap.slots.Follows history) : swap'.slots.Follows (history ++ [(request, answer)]) := by
  cases h with
  | allocated res h =>
    obtain ⟨slots, hslots, rfl⟩ := allocate_cases h
    cases res with
    | ok slot => exact hf.handOut hslots
    | error e =>
      rcases Slots.allocate_next hslots with ⟨-, -, rfl⟩ | ⟨_, _, _, hok, -⟩
      · exact hf.quiet rfl rfl
      · cases hok
  | freed slot h =>
    obtain ⟨slots, hslots, rfl⟩ := free_cases h
    exact hf.release hslots
  | written slot contents h =>
    obtain ⟨-, hslots, -⟩ := write_cases h
    rw [hslots]
    exact hf.quiet rfl rfl
  | read slot contents h =>
    obtain ⟨-, -, hslots, -⟩ := read_cases h
    rw [hslots]
    exact hf.quiet rfl rfl

theorem Performed.capacity_eq (h : swap.Performed swap' request answer) :
    swap'.capacity = swap.capacity := by
  cases h with
  | allocated res h =>
    obtain ⟨slots, hslots, rfl⟩ := allocate_cases h
    exact Slots.capacity_allocate hslots
  | freed slot h =>
    obtain ⟨slots, hslots, rfl⟩ := free_cases h
    obtain ⟨-, rfl⟩ := Slots.free_cases hslots
    rfl
  | written slot contents h =>
    obtain ⟨-, hslots, -⟩ := write_cases h
    rw [capacity, hslots, capacity]
  | read slot contents h =>
    obtain ⟨-, -, hslots, -⟩ := read_cases h
    rw [capacity, hslots, capacity]

/-- Releasing a slot stops the machine unless the slot is one of those there are and occupied. -/
theorem free_eq_error_iff {slot : Slot} : (∃ cause, (swap.free slot).result = .error cause) ↔
    swap.capacity ≤ slot.index ∨ swap.slots.isOccupied slot = false := by
  have hcompletes : (swap.free slot).Completes ↔ (swap.slots.free slot).Completes := by
    simp only [Outcome.Completes, free, Outcome.bind_eq_ok_iff]
    constructor
    · rintro ⟨_, slots, hslots, -⟩
      exact ⟨slots, hslots⟩
    · rintro ⟨slots, hslots⟩
      exact ⟨_, slots, hslots, rfl⟩
  rw [← Outcome.Completes.not_iff, hcompletes, Slots.free_completes_iff, ← Nat.not_lt,
    ← Bool.not_eq_true]
  exact Decidable.not_and_iff_not_or_not

theorem Run.follows (h : Run device requests answers swap) :
    swap.slots.Follows (requests.zip answers) := by
  refine ((Outcome.runs_zip (run_iff.1 h)).facts
    (P := fun before swap => swap.slots.Follows before) (Q := fun _ _ _ => True)
    (fun before swap request answer next hbefore hrequest => ?_) (Slots.follows_empty _)).1
  exact ⟨(perform_cases hrequest).follows hbefore, trivial⟩

theorem Run.capacity_eq (h : Run device requests answers swap) :
    swap.capacity = device.size / sectorsPerPage :=
  Outcome.answerAll_keeps (I := fun s => s.capacity = device.size / sectorsPerPage)
    (fun _ _ _ _ _ hs hrequest => (perform_cases hrequest).capacity_eq.trans hs) rfl (run_iff.1 h)

/-- After any run, the slots released and those in use fit together as the records say, and as
    what was asked and answered says.  A slot is reserved as long as there is one that is not
    occupied: the one released last, or the lowest that was never handed out.  A slot can be
    released exactly if it is occupied. -/
theorem run_slots (h : Run device requests answers swap) :
    swap.capacity = device.size / sectorsPerPage ∧ swap.slots.fresh ≤ swap.capacity ∧
      swap.slots.released.Nodup ∧
      (∀ slot ∈ swap.slots.released, slot.index < swap.slots.fresh) ∧
      (∀ slot, swap.slots.isOccupied slot = true ↔
        slot.index < swap.slots.fresh ∧ slot ∉ swap.slots.released) ∧
      (∀ slot, swap.slots.isOccupied slot = true ↔
        HandedOut (requests.zip answers) slot ∧ ¬Waiting (requests.zip answers) slot) ∧
      (∃ res swap', swap.allocate.result = .ok (res, swap') ∧
        (swap.slots.Full ∧ res = .error .swapExhausted ∨
          ¬swap.slots.Full ∧ ∃ slot, res = .ok slot ∧ slot.index < swap.capacity ∧
            swap.slots.isOccupied slot = false ∧
            (WaitsBehind (requests.zip answers) [] slot ∨
              (∀ other, ¬Waiting (requests.zip answers) other) ∧
                LowestNew (requests.zip answers) slot))) ∧
      swap.slots.inUse + releases (requests.zip answers) = handOuts (requests.zip answers) ∧
      (swap.slots.inUse = (List.range swap.capacity).countP fun i => swap.slots.isOccupied ⟨i⟩) ∧
      ∀ slot, (∃ cause, (swap.free slot).result = .error cause) ↔
        swap.capacity ≤ slot.index ∨ swap.slots.isOccupied slot = false := by
  have hf := h.follows
  refine ⟨h.capacity_eq, hf.sound.fresh_le, hf.sound.released_nodup,
    fun slot hslot => (hf.sound.lt_fresh_iff slot).2 (.inr hslot),
    fun slot => hf.sound.isOccupied_eq_true_iff, fun slot => ?_, ?_, hf.inUse_eq,
    hf.sound.inUse_eq_countP, fun slot => free_eq_error_iff⟩
  · rw [hf.handedOut_iff, hf.waiting_iff]
    exact hf.sound.isOccupied_eq_true_iff
  · obtain ⟨res, slots, hslots, hcases⟩ := hf.allocate_cases
    exact ⟨res, { swap with slots := slots }, Outcome.bind_eq_ok_iff.2 ⟨_, hslots, rfl⟩, hcases⟩

/-- Two slots were released; the one released last is handed out next. -/
theorem run_slots_threeSlots : ∃ answers swap swap',
    Run (.inMemory 3) [.allocate, .allocate, .free ⟨1⟩, .free ⟨0⟩] answers swap ∧
    swap.allocate.result = .ok (.ok ⟨0⟩, swap') ∧ swap.slots.isOccupied ⟨0⟩ = false ∧
    (WaitsBehind (List.zip [.allocate, .allocate, .free ⟨1⟩, .free ⟨0⟩] answers) [] ⟨0⟩ ∨
      (∀ other, ¬Waiting (List.zip [.allocate, .allocate, .free ⟨1⟩, .free ⟨0⟩] answers) other) ∧
        LowestNew (List.zip [.allocate, .allocate, .free ⟨1⟩, .free ⟨0⟩] answers) ⟨0⟩) := by
  have hruns : (Outcome.answerAll perform { device := .inMemory 3, slots := { capacity := 3 } }
      [.allocate, .allocate, .free ⟨1⟩, .free ⟨0⟩]).result.toOption.any (fun run =>
        run.2.allocate.result.toOption.any fun next =>
          next.1.toOption.any fun slot => slot = ⟨0⟩) = true := by
    decide +kernel
  obtain ⟨⟨answers, swap⟩, h, hp⟩ := Outcome.exists_of_any hruns
  obtain ⟨-, -, -, -, -, -, ⟨res, swap', hallocate, hcases⟩, -⟩ := run_slots (run_iff.2 h)
  rw [hallocate] at hp
  rcases hcases with ⟨-, rfl⟩ | ⟨-, slot, rfl, -, hfree, horder⟩
  · cases hp
  · obtain rfl : slot = ⟨0⟩ := by simpa [Except.toOption] using hp
    exact ⟨answers, swap, swap', run_iff.2 h, hallocate, hfree, horder⟩

end SwapSpace

end DemandPaging
