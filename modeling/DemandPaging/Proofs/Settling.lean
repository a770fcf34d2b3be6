/-
  How many faults an access can take.

  An access touches its pages in order, again and again, and each fault brings
  in the first page that is missing.  The pages before it were touched just now,
  and as long as the clock finds a page that was not touched it takes none of
  them: with each fault the access comes at least one page further.

  Only when every page in a frame was touched can the clock take a page of the
  access, and this happens once.  Afterwards the pages that count as accessed
  are pages of the access, and so are the pages in the frames behind the hand, so
  that the hand comes to a page of no use to the access before it has made its
  turn.

  * `Settled`: the state of the frames after such a turn, with `Settled.step`;
  * `Progress`: how far an access of `count` pages has come, with `Progress.step`
    and the bound `Progress.faults_le`, which is less than `2 * count`.
-/
import DemandPaging.Proofs.Resolved
import Mathlib.Data.Finset.Card

namespace DemandPaging.Machine

variable {n : Nat} {m m' m₁ : Machine n} {process first count j : Nat} {write : Bool} {o x : Owner}
  {frame : Frame}

/-! ## Faults and the pages of the access -/

theorem FrameFor.permits_self (h : m.FrameFor m' o frame write) (hl' : m'.Linked none) :
    m'.Permits o write :=
  hl'.permits_iff.2 ⟨⟨frame, by rw [h.owner?_eq, if_pos rfl]⟩, h.writable⟩

/-- A page stays in its frame unless the frame is taken. -/
theorem FrameFor.permits (h : m.FrameFor m' o frame write) (hl : m.Linked none)
    (hl' : m'.Linked none) (hx : m.Permits x write) (hne : m.frames.owner? frame ≠ some x) :
    m'.Permits x write := by
  obtain ⟨⟨g, hg⟩, hw⟩ := hl.permits_iff.1 hx
  have hox : o ≠ x := by
    rintro rfl
    exact h.absent g hg
  refine hl'.permits_iff.2 ⟨⟨g, ?_⟩, fun hwrite => ?_⟩
  · rw [h.owner?_eq, if_neg]
    · exact hg
    · rintro rfl
      exact hne hg
  · rw [h.writable_eq x hox]
    exact hw hwrite

/-- Among the frames, one holds no page of the access, as long as a page of it is missing. -/
theorem exists_other (hl : m.Linked none) (hcount : count ≤ n) (hj : j < count)
    (habsent : ∀ g, m.frames.owner? g ≠ some (accessPage process first j)) (h : Nat) :
    ∃ e < n, ∀ a < count, m.frames.owner? ⟨(h + e) % n⟩ ≠ some (accessPage process first a) := by
  by_contra hall
  have hall : ∀ e < n, ∃ a < count,
      m.frames.owner? ⟨(h + e) % n⟩ = some (accessPage process first a) := by
    intro e he
    by_contra hno
    exact hall ⟨e, he, fun a ha hp => hno ⟨a, ha, hp⟩⟩
  choose! place hlt hplace using hall
  -- the frames would hold different pages of the access, none of them the missing one
  have hmaps : ∀ e ∈ Finset.range n, place e ∈ (Finset.range count).erase j := by
    intro e he
    have he := Finset.mem_range.1 he
    refine Finset.mem_erase.2 ⟨?_, Finset.mem_range.2 (hlt e he)⟩
    intro hej
    exact habsent _ (hej ▸ hplace e he)
  have hinj : Set.InjOn place (Finset.range n) := by
    intro e he e' he' heq
    have he := Finset.mem_range.1 he
    have he' := Finset.mem_range.1 he'
    have hframe := hl.frame_eq (hplace e he) (heq ▸ hplace e' he')
    exact Clock.rotate_inj he he' (congrArg Frame.index hframe)
  have hcard := Finset.card_le_card_of_injOn place hmaps hinj
  rw [Finset.card_range, Finset.card_erase_of_mem (Finset.mem_range.2 hj), Finset.card_range]
    at hcard
  omega

/-! ## After a whole turn of the hand -/

/-- The clock made a whole turn for the page at place `j`, which is in frame `h`.  Since then it
    has come to the frames behind `h`, `d` of them, and they hold pages of the access.  No other
    pages count as accessed. -/
structure Settled (m : Machine n) (process first count : Nat) (write : Bool) (j h d : Nat) :
    Prop where
  lt : j < count
  frame_lt : h < n
  turn_lt : d < n
  hand_eq : m.frames.hand = (h + 1 + d) % n
  owned : ∀ g < n, ∃ o, m.frames.owner? ⟨g⟩ = some o
  owner_eq : m.frames.owner? ⟨h⟩ = some (accessPage process first j)
  permits : m.Permits (accessPage process first j) write
  passed : ∀ e < d, ∃ a < count,
    m.frames.owner? ⟨(h + 1 + e) % n⟩ = some (accessPage process first a)
  accessed : ∀ g o, m.frames.owner? g = some o → m.flag o .accessed = true →
    ∃ a < count, o = accessPage process first a

namespace Settled

variable {h d c i : Nat}

/-- The frames that the hand has come to since, and those that it passes now, hold pages of the
    access. -/
theorem holds (hs : m.Settled process first count write j h d) (hswept : m.Swept m' c) {e : Nat}
    (he : e < d + c + 1) :
    ∃ a < count, m.frames.owner? ⟨(h + e) % n⟩ = some (accessPage process first a) := by
  rcases Nat.eq_zero_or_pos e with rfl | hpos
  · refine ⟨j, hs.lt, ?_⟩
    rw [Nat.add_zero, Nat.mod_eq_of_lt hs.frame_lt]
    exact hs.owner_eq
  · rcases Nat.lt_or_ge e (d + 1) with hlt | hge
    · have hpassed := hs.passed (e - 1) (by omega)
      rwa [show h + 1 + (e - 1) = h + e by omega] at hpassed
    · obtain ⟨o, ho, hset, -⟩ := hswept.passed (e - 1 - d) (by omega)
      rw [hs.hand_eq, Nat.mod_add_mod, show h + 1 + d + (e - 1 - d) = h + e by omega] at ho
      obtain ⟨a, ha, rfl⟩ := hs.accessed _ o ho hset
      exact ⟨a, ha, ho⟩

/-- The hand does not finish its turn as long as a page of the access is missing. -/
theorem turn_lt_of_swept (hs : m.Settled process first count write j h d) (hl : m.Linked none)
    (hswept : m.Swept m' c) (hcount : count ≤ n) (hi : i < count)
    (habsent : ∀ g, m.frames.owner? g ≠ some (accessPage process first i)) : d + c + 1 < n := by
  obtain ⟨e, he, hother⟩ := exists_other hl hcount hi habsent h
  by_contra hle
  obtain ⟨a, ha, howner⟩ := hs.holds hswept (show e < d + c + 1 by omega)
  exact hother a ha howner

/-- The clock takes a frame for a page of the access, and does not come to the frame that it
    took first. -/
theorem step (hs : m.Settled process first count write j h d) (hl : m.Linked none)
    (hl' : m'.Linked none) (hcount : count ≤ n) (hi : i < count)
    (hframe : m.FrameFor m' (accessPage process first i) ⟨(m.frames.hand + c) % n⟩ write)
    (hswept : m.Swept m' c)
    (haccessed : ∀ x, m'.flag x .accessed = true →
      accessPage process first i ≠ x ∧ m.flag x .accessed = true) :
    m'.Settled process first count write j h (d + c + 1) := by
  have hturn := hs.turn_lt_of_swept hl hswept hcount hi hframe.absent
  have htaken : (m.frames.hand + c) % n = (h + (d + c + 1)) % n := by
    rw [hs.hand_eq, Nat.mod_add_mod, show h + 1 + d + c = h + (d + c + 1) by omega]
  have hkept : ∀ e < d + c + 1,
      m'.frames.owner? ⟨(h + e) % n⟩ = m.frames.owner? ⟨(h + e) % n⟩ := by
    intro e he
    rw [hframe.owner?_eq, if_neg]
    rw [htaken, Frame.mk.injEq]
    intro hsame
    have := Clock.rotate_inj hturn (by omega) hsame
    omega
  have hfirst : m'.frames.owner? ⟨h⟩ = some (accessPage process first j) := by
    have hzero := hkept 0 (by omega)
    rw [Nat.add_zero, Nat.mod_eq_of_lt hs.frame_lt] at hzero
    rw [hzero, hs.owner_eq]
  constructor
  · exact hs.lt
  · exact hs.frame_lt
  · exact hturn
  · rw [hswept.hand_eq, hs.hand_eq, Nat.add_assoc, Nat.mod_add_mod]
    exact congrArg (· % n) (by omega)
  · intro g hg
    rw [hframe.owner?_eq]
    split
    · exact ⟨_, rfl⟩
    · exact hs.owned g hg
  · exact hfirst
  · refine hframe.permits hl hl' hs.permits fun hgone => ?_
    rw [hframe.owner?_eq] at hfirst
    split at hfirst
    · exact hframe.absent _ (hs.owner_eq.trans hfirst.symm)
    · rename_i hne
      exact hne (hl.frame_eq hgone hs.owner_eq)
  · intro e he
    rw [show h + 1 + e = h + (e + 1) by omega]
    rcases Nat.lt_or_ge (e + 1) (d + c + 1) with hlt | hge
    · rw [hkept _ hlt]
      exact hs.holds hswept hlt
    · refine ⟨i, hi, ?_⟩
      rw [hframe.owner?_eq, if_pos]
      rw [htaken, show e + 1 = d + c + 1 by omega]
  · intro g o ho hset
    obtain ⟨hne, hset⟩ := haccessed o hset
    rw [hframe.owner?_eq] at ho
    split at ho
    · exact absurd (Option.some.inj ho) hne
    · exact hs.accessed g o ho hset

/-- An attempt marks pages of the access alone. -/
theorem touched (hs : m.Settled process first count write j h d)
    (ht : m.Touched m₁ process first write i) (hi : i < count) :
    m₁.Settled process first count write j h d := by
  refine ⟨hs.lt, hs.frame_lt, hs.turn_lt, ?_, ?_, ?_, (ht.permits_iff _).2 hs.permits, ?_, ?_⟩
  · rw [ht.frames_eq]; exact hs.hand_eq
  · rw [ht.frames_eq]; exact hs.owned
  · rw [ht.frames_eq]; exact hs.owner_eq
  · rw [ht.frames_eq]; exact hs.passed
  · intro g o ho hset
    rw [ht.frames_eq] at ho
    rcases (ht.accessed_iff o).1 hset with ⟨a, ha, rfl⟩ | hset
    · exact ⟨a, by omega, rfl⟩
    · exact hs.accessed g o ho hset

/-- The clock makes a whole turn. -/
theorem of_turn (hi : i < count) (hl : m.Linked none) (hl' : m'.Linked none)
    (hhand : m.frames.hand < n)
    (hframe : m.FrameFor m' (accessPage process first i) ⟨(m.frames.hand + n) % n⟩ write)
    (hswept : m.Swept m' n) (howned : ∀ g < n, ∃ o, m.frames.owner? ⟨g⟩ = some o) :
    m'.Settled process first count write i m.frames.hand 0 := by
  have hpos : 0 < n := Nat.lt_of_le_of_lt (Nat.zero_le _) hhand
  have hsame : (m.frames.hand + n) % n = m.frames.hand := by
    rw [Nat.add_mod_right, Nat.mod_eq_of_lt hhand]
  refine ⟨hi, hhand, hpos, ?_, ?_, ?_, hframe.permits_self hl', fun e he => by omega, ?_⟩
  · rw [hswept.hand_eq, Nat.add_assoc, Nat.add_comm n 1, ← Nat.add_assoc, Nat.add_mod_right,
      Nat.add_zero]
  · intro g hg
    rw [hframe.owner?_eq]
    split
    · exact ⟨_, rfl⟩
    · exact howned g hg
  · rw [hframe.owner?_eq, if_pos (by rw [hsame])]
  · -- every page that kept its frame was passed, and lost its mark
    intro g o ho hset
    rw [hframe.owner?_eq] at ho
    split at ho
    · exact ⟨i, hi, (Option.some.inj ho).symm⟩
    · obtain ⟨e, he, hrotate⟩ :=
        Clock.exists_rotate hhand (hl.lt ((hl.owner?_iff g o).1 ho))
      obtain ⟨x, hx, -, hclear⟩ := hswept.passed e he
      rw [hrotate, ho] at hx
      cases hx
      rw [hset] at hclear
      cases hclear

end Settled

/-! ## How far an access has come -/

/-- What is known of an access to `count` pages after `faults` handled faults: the first `i` pages
    permit it, and either no page was lost so far, or the clock made a whole turn for the page at
    place `j`. -/
inductive Progress (m : Machine n) (process first count : Nat) (write : Bool) (faults : Nat) :
    Prop where
  | climbing (i : Nat) (hi : i ≤ count)
      (hpermits : ∀ a < i, m.Permits (accessPage process first a) write) (hfaults : faults ≤ i) :
      Progress m process first count write faults
  | settling (i j h d : Nat) (hi : i ≤ count)
      (hpermits : ∀ a < i, m.Permits (accessPage process first a) write)
      (hsettled : m.Settled process first count write j h d) (hfaults : faults ≤ j + 1 + i)
      (hturned : j < i → faults ≤ j + i) : Progress m process first count write faults

namespace Progress

variable {faults i : Nat}

/-- The pages that are known to permit the access end where it stops, at the latest. -/
theorem le_of_not_permits {b : Nat}
    (hpermits : ∀ a < b, m.Permits (accessPage process first a) write)
    (hnot : ¬m.Permits (accessPage process first i) write) : b ≤ i := by
  by_contra hgt
  exact hnot (hpermits i (by omega))

theorem start (m : Machine n) (process first count : Nat) (write : Bool) :
    m.Progress process first count write 0 :=
  .climbing 0 (Nat.zero_le _) (fun a ha => by omega) (Nat.le_refl 0)

theorem faults_le (h : m.Progress process first count write faults) : faults ≤ 2 * count - 1 := by
  cases h with
  | climbing i hi hpermits hfaults => omega
  | settling i j h d hi hpermits hsettled hfaults hturned =>
    have hj := hsettled.lt
    rcases Nat.lt_or_ge j i with hlt | hge
    · have := hturned hlt
      omega
    · omega

/-- An access that faults has at least one more fault to go. -/
theorem faults_lt (h : m.Progress process first count write faults) (hi : i < count)
    (hnot : ¬m.Permits (accessPage process first i) write) : faults + 1 ≤ 2 * count - 1 := by
  cases h with
  | climbing b hb hpermits hfaults =>
    have hle := le_of_not_permits hpermits hnot
    omega
  | settling b j h d hb hpermits hsettled hfaults hturned =>
    have hle := le_of_not_permits hpermits hnot
    have hne : i ≠ j := by
      rintro rfl
      exact hnot hsettled.permits
    have hj := hsettled.lt
    rcases Nat.lt_or_ge j b with hlt | hge
    · have := hturned hlt
      omega
    · omega

/-- The pages that were touched just now stay where they are while the clock finds a page that
    was not. -/
theorem permits_of_touched {c : Nat} (ht : m.Touched m₁ process first write i)
    (hl : m₁.Linked none) (hl' : m'.Linked none)
    (hframe : m₁.FrameFor m' (accessPage process first i) ⟨(m₁.frames.hand + c) % n⟩ write)
    (hswept : m₁.Swept m' c) (hlt : c < n) :
    ∀ a < i + 1, m'.Permits (accessPage process first a) write := by
  intro a ha
  rcases Nat.lt_succ_iff_lt_or_eq.1 ha with ha | rfl
  · refine hframe.permits hl hl' ((ht.permits_iff _).2 (ht.permits a ha)) fun hgone => ?_
    have hclear := hswept.taken hlt _ hgone
    rw [(ht.accessed_iff _).2 (.inl ⟨a, ha, rfl⟩)] at hclear
    cases hclear
  · exact hframe.permits_self hl'

/-- An attempt that stops at place `i`, and the fault handled for the page there. -/
theorem step (h : m.Progress process first count write faults) (hcount : count ≤ n)
    (hi : i < count) (hnot : ¬m.Permits (accessPage process first i) write)
    (ht : m.Touched m₁ process first write i) (hl : m₁.Linked none) (hl' : m'.Linked none)
    (hhand : m₁.frames.hand < n)
    (hresolved : m₁.Resolved m' (accessPage process first i) write) :
    m'.Progress process first count write (faults + 1) := by
  cases h with
  | climbing b hb hpermits hfaults =>
    have hle := le_of_not_permits hpermits hnot
    cases hresolved with
    | free frame hframe hfree =>
      refine .climbing (i + 1) hi (fun a ha => ?_) (by omega)
      rcases Nat.lt_succ_iff_lt_or_eq.1 ha with ha | rfl
      · refine hframe.permits hl hl' ((ht.permits_iff _).2 (ht.permits a ha)) ?_
        rw [hfree]
        exact nofun
      · exact hframe.permits_self hl'
    | taken c hframe hswept howned haccessed =>
      rcases Nat.lt_or_ge c n with hlt | hge
      · exact .climbing (i + 1) hi (permits_of_touched ht hl hl' hframe hswept hlt) (by omega)
      · obtain rfl : c = n := Nat.le_antisymm hswept.le hge
        exact .settling 0 i _ 0 (Nat.zero_le _) (fun a ha => by omega)
          (.of_turn hi hl hl' hhand hframe hswept howned) (by omega) (by omega)
  | settling b j h d hb hpermits hsettled hfaults hturned =>
    have hle := le_of_not_permits hpermits hnot
    have hne : i ≠ j := by
      rintro rfl
      exact hnot hsettled.permits
    have hsettled := hsettled.touched ht hi
    cases hresolved with
    | free frame hframe hfree =>
      obtain ⟨o, ho⟩ := hsettled.owned frame.index hframe.lt
      cases hfree.symm.trans ho
    | taken c hframe hswept howned haccessed =>
      have hturn := hsettled.turn_lt_of_swept hl hswept hcount hi hframe.absent
      refine .settling (i + 1) j h (d + c + 1) hi
        (permits_of_touched ht hl hl' hframe hswept (by omega))
        (hsettled.step hl hl' hcount hi hframe hswept haccessed) (by omega) fun hlt => ?_
      rcases Nat.lt_or_ge j b with hlt' | hge
      · have := hturned hlt'
        omega
      · omega

end Progress

end DemandPaging.Machine
