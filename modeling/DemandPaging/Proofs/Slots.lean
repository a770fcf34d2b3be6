/-
  The slots of the swap space: which are occupied after which operation.

  `Slots.Sound` says how the three parts of the records fit together: the slots
  below `fresh` are those that are occupied and those that were released, no
  slot is both, and none is listed as released twice.

  * `Sound.allocate` and `Sound.free`: both operations keep this;
  * `Sound.exists_allocate`: reserving a slot never stops the machine;
  * `Sound.isOccupied_of_full`: a slot is refused only when all are occupied;
  * `isOccupied_free`: a released slot, and no other, becomes free.
-/
import DemandPaging.Swap.Slots
import DemandPaging.Proofs.Outcome

namespace DemandPaging.Slots

/-- The records of the slots fit together. -/
structure Sound (slots : Slots) : Prop where
  released_nodup : slots.released.Nodup
  lt_fresh_iff : ∀ slot : Slot,
    slot.index < slots.fresh ↔ slot ∈ slots.occupied ∨ slot ∈ slots.released
  not_released : ∀ slot ∈ slots.occupied, slot ∉ slots.released
  fresh_le : slots.fresh ≤ slots.capacity

variable {slots slots' : Slots} {slot s : Slot}

theorem isOccupied_iff : slots.isOccupied slot = true ↔ slot ∈ slots.occupied := by
  simp [isOccupied]

theorem isOccupied_eq_false_iff : slots.isOccupied slot = false ↔ slot ∉ slots.occupied := by
  simp [isOccupied]

theorem sound_empty (capacity : Nat) : Sound { capacity := capacity } :=
  ⟨.nil, by simp, by simp, Nat.zero_le _⟩

theorem Sound.lt_capacity (h : slots.Sound) (ho : slots.isOccupied slot = true) :
    slot.index < slots.capacity :=
  Nat.lt_of_lt_of_le ((h.lt_fresh_iff slot).2 (.inl (isOccupied_iff.1 ho))) h.fresh_le

/-! ## Reserving a slot -/

theorem next?_same {rest : Slots} (h : slots.next? = some (slot, rest)) :
    rest.occupied = slots.occupied ∧ rest.capacity = slots.capacity := by
  unfold next? at h
  split at h
  · cases h
    exact ⟨rfl, rfl⟩
  · split at h
    · cases h
      exact ⟨rfl, rfl⟩
    · cases h

/-- A slot that is handed out is the next one, and becomes occupied. -/
theorem allocate_next {res : Except Error Slot} (h : slots.allocate.result = .ok (res, slots')) :
    res = .error .swapExhausted ∧ slots.next? = none ∧ slots' = slots ∨
      ∃ slot rest, slots.next? = some (slot, rest) ∧ res = .ok slot ∧
        ∃ hfree : slot ∉ rest.occupied, slots' = rest.occupy slot hfree := by
  unfold allocate at h
  split at h
  · rename_i hnext
    simp only [Outcome.result_log_bind, Outcome.result_pure, Except.ok.injEq,
      Prod.mk.injEq] at h
    exact .inl ⟨h.1.symm, hnext, h.2.symm⟩
  · rename_i slot rest hnext
    split at h
    · cases h
    · rename_i hfree
      cases h
      exact .inr ⟨slot, rest, hnext, rfl, hfree, rfl⟩

theorem allocate_cases {res : Except Error Slot} (h : slots.allocate.result = .ok (res, slots')) :
    res = .error .swapExhausted ∧ slots' = slots ∨
      ∃ slot, res = .ok slot ∧ slots.isOccupied slot = false ∧
        slots'.occupied = slot :: slots.occupied := by
  rcases allocate_next h with ⟨hres, -, hsame⟩ | ⟨slot, rest, hnext, hres, hfree, rfl⟩
  · exact .inl ⟨hres, hsame⟩
  · have hocc := (next?_same hnext).1
    exact .inr ⟨slot, hres, isOccupied_eq_false_iff.2 (hocc ▸ hfree),
      by rw [occupied_occupy, hocc]⟩

/-- A slot that is handed out is one more in use. -/
theorem inUse_allocate (h : slots.allocate.result = .ok (.ok slot, slots')) :
    slots'.inUse = slots.inUse + 1 := by
  rcases allocate_cases h with ⟨hno, -⟩ | ⟨s, -, -, hocc⟩
  · cases hno
  · rw [inUse, hocc, List.length_cons, inUse]

theorem capacity_allocate {res : Except Error Slot}
    (h : slots.allocate.result = .ok (res, slots')) : slots'.capacity = slots.capacity := by
  rcases allocate_next h with ⟨-, -, rfl⟩ | ⟨slot, rest, hnext, -, -, rfl⟩
  · rfl
  · exact (next?_same hnext).2

/-- The slot that is handed out next is free, and what is left is sound with it. -/
theorem Sound.next (h : slots.Sound) {rest : Slots} (hnext : slots.next? = some (slot, rest)) :
    ∃ hfree : slot ∉ rest.occupied, (rest.occupy slot hfree).Sound := by
  unfold next? at hnext
  split at hnext
  · rename_i head released hrel
    simp only [Option.some.injEq, Prod.mk.injEq] at hnext
    obtain ⟨rfl, rfl⟩ := hnext
    have hnd := h.released_nodup
    rw [hrel, List.nodup_cons] at hnd
    have hnot : head ∉ slots.occupied := fun hmem =>
      h.not_released head hmem (by rw [hrel]; exact List.mem_cons_self)
    refine ⟨hnot, hnd.2, ?_, ?_, h.fresh_le⟩
    · intro x
      have := h.lt_fresh_iff x
      rw [hrel, List.mem_cons] at this
      rw [fresh_occupy, occupied_occupy, released_occupy, this, List.mem_cons, or_assoc,
        or_left_comm]
    · intro x hx
      rcases List.mem_cons.1 hx with rfl | hx
      · exact hnd.1
      · have := h.not_released x hx
        rw [hrel, List.mem_cons, not_or] at this
        exact this.2
  · rename_i hrel
    split at hnext
    · rename_i hlt
      simp only [Option.some.injEq, Prod.mk.injEq] at hnext
      obtain ⟨rfl, rfl⟩ := hnext
      have hnot : (⟨slots.fresh⟩ : Slot) ∉ slots.occupied := fun hmem =>
        Nat.lt_irrefl _ ((h.lt_fresh_iff ⟨slots.fresh⟩).2 (.inl hmem))
      refine ⟨hnot, h.released_nodup, ?_, ?_, hlt⟩
      · intro x
        have hx := h.lt_fresh_iff x
        simp only [hrel, List.not_mem_nil, or_false] at hx
        have heq : x = ⟨slots.fresh⟩ ↔ x.index = slots.fresh := by cases x; simp
        simp only [fresh_occupy, occupied_occupy, released_occupy, List.mem_cons, heq, hrel,
          List.not_mem_nil, or_false, ← hx]
        omega
      · intro x _
        simp [hrel]
    · cases hnext

theorem Sound.allocate (hs : slots.Sound) {res : Except Error Slot}
    (h : slots.allocate.result = .ok (res, slots')) : slots'.Sound := by
  rcases allocate_next h with ⟨-, -, rfl⟩ | ⟨slot, rest, hnext, -, -, rfl⟩
  · exact hs
  · exact (hs.next hnext).2

theorem Sound.exists_allocate (hs : slots.Sound) :
    ∃ res slots', slots.allocate.result = .ok (res, slots') := by
  unfold Slots.allocate
  split
  · exact ⟨_, _, rfl⟩
  · rename_i slot rest hnext
    obtain ⟨hfree, -⟩ := hs.next hnext
    exact ⟨.ok slot, rest.occupy slot hfree, by rw [dif_neg hfree]; rfl⟩

/-- When no slot can be handed out, all are occupied. -/
theorem Sound.isOccupied_of_full (hs : slots.Sound) (hfull : slots.next? = none)
    (hlt : slot.index < slots.capacity) : slots.isOccupied slot = true := by
  unfold next? at hfull
  split at hfull
  · cases hfull
  · rename_i hreleased
    split at hfull
    · cases hfull
    · rename_i hfresh
      rcases (hs.lt_fresh_iff slot).1 (by omega) with hocc | hrel
      · exact isOccupied_iff.2 hocc
      · rw [hreleased] at hrel
        cases hrel

/-! ## Releasing a slot -/

theorem requireOccupied_iff {u : Unit} : (slots.requireOccupied slot).result = .ok u ↔
    slot.index < slots.capacity ∧ slots.isOccupied slot = true := by
  simp [requireOccupied, requireInBounds, Outcome.bind_eq_ok_iff, Outcome.require_result_iff]

theorem free_cases (h : (slots.free slot).result = .ok slots') :
    slots.isOccupied slot = true ∧ slots' = slots.release slot := by
  simp only [free, requireInBounds, Outcome.bind_eq_ok_iff, Outcome.require_result_iff,
    Outcome.result_pure, Except.ok.injEq] at h
  obtain ⟨_, -, _, hocc, rfl⟩ := h
  exact ⟨hocc, rfl⟩

/-- A slot that is released is one less in use. -/
theorem inUse_free (h : (slots.free slot).result = .ok slots') :
    slots'.inUse + 1 = slots.inUse := by
  obtain ⟨hocc, rfl⟩ := free_cases h
  have hmem := isOccupied_iff.1 hocc
  have hpos := List.length_pos_of_mem hmem
  rw [inUse, inUse, occupied_release, List.length_erase_of_mem hmem]
  omega

theorem Sound.exists_free (hs : slots.Sound) (ho : slots.isOccupied slot = true) :
    ∃ slots', (slots.free slot).result = .ok slots' := by
  simp only [Slots.free, requireInBounds, Outcome.bind_eq_ok_iff, Outcome.require_result_iff]
  exact ⟨_, (), hs.lt_capacity ho, (), ho, rfl⟩

theorem Sound.free (hs : slots.Sound) (h : (slots.free slot).result = .ok slots') :
    slots'.Sound := by
  obtain ⟨hocc, rfl⟩ := free_cases h
  have hmem := isOccupied_iff.1 hocc
  have herase : ∀ x, x ∈ (slots.release slot).occupied ↔ x ≠ slot ∧ x ∈ slots.occupied :=
    fun x => slots.occupied_nodup.mem_erase_iff
  refine ⟨List.nodup_cons.2 ⟨hs.not_released slot hmem, hs.released_nodup⟩, ?_, ?_, hs.fresh_le⟩
  · intro x
    rw [herase, fresh_release, released_release, hs.lt_fresh_iff, List.mem_cons]
    by_cases hx : x = slot
    · subst hx; simp [hmem]
    · simp [hx]
  · intro x hx
    obtain ⟨hne, hx⟩ := (herase x).1 hx
    rw [released_release, List.mem_cons, not_or]
    exact ⟨hne, hs.not_released x hx⟩

theorem isOccupied_free (h : (slots.free slot).result = .ok slots') :
    slots'.isOccupied s = if slot = s then false else slots.isOccupied s := by
  obtain ⟨-, rfl⟩ := free_cases h
  rw [Bool.eq_iff_iff, isOccupied_iff, occupied_release, slots.occupied_nodup.mem_erase_iff]
  by_cases hx : slot = s
  · simp [hx]
  · simp [hx, Ne.symm hx, isOccupied_iff]

end DemandPaging.Slots
