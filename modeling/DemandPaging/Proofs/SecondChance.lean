/-
  The clock is second chance, exactly.

  As long as frames hold different pages and no page is touched behind the hand, the clock
  chooses the first candidate, from the hand on, whose page was not accessed.  If there is none,
  it chooses the first candidate.  The pages that it passed count as not accessed from then on.

  * `Machine.secondChance` computes the victim and the frames passed from the candidates in
    order;
  * `AddressSpaces.AccessCleared` says that some accessed bits were cleared and nothing else was
    changed;
  * `Machine.pickVictim_secondChance`: this is all that the clock does.
-/
import DemandPaging.Proofs.Run
import DemandPaging.Proofs.Sweep

namespace DemandPaging

/-! ## Clearing accessed bits -/

namespace AddressSpaces

variable {a b c : AddressSpaces} {pages pages' : Owner → Prop}

/-- The entry of a page in the directory of its process. -/
def mapping? (all : AddressSpaces) (o : Owner) : Option DirectoryEntry :=
  (all.get o.process).directory.entries.get? o.page

/-- The accessed bits of the given pages were cleared, and nothing else was changed. -/
structure AccessCleared (a b : AddressSpaces) (pages : Owner → Prop) : Prop where
  size_eq : b.size = a.size
  pid_eq : ∀ p, (b.get p).pid = (a.get p).pid
  table_eq : ∀ p, (b.get p).table = (a.get p).table
  traits_eq : ∀ p, (b.get p).directory.toDirectoryTraits = (a.get p).directory.toDirectoryTraits
  cleared : ∀ o, pages o → b.mapping? o = (a.mapping? o).map fun entry => entry.set .accessed false
  kept : ∀ o, ¬pages o → b.mapping? o = a.mapping? o

namespace AccessCleared

theorem refl (a : AddressSpaces) (hnone : ∀ o, ¬pages o) : a.AccessCleared a pages :=
  ⟨rfl, fun _ => rfl, fun _ => rfl, fun _ => rfl, fun o ho => absurd ho (hnone o), fun _ _ => rfl⟩

theorem trans (h : a.AccessCleared b pages) (h' : b.AccessCleared c pages') :
    a.AccessCleared c fun o => pages o ∨ pages' o where
  size_eq := h'.size_eq.trans h.size_eq
  pid_eq p := (h'.pid_eq p).trans (h.pid_eq p)
  table_eq p := (h'.table_eq p).trans (h.table_eq p)
  traits_eq p := (h'.traits_eq p).trans (h.traits_eq p)
  cleared o ho := by
    by_cases hpages : pages o
    · by_cases hpages' : pages' o
      · rw [h'.cleared o hpages', h.cleared o hpages, Option.map_map]
        congr 1
        funext entry
        exact entry.set_set .accessed false
      · rw [h'.kept o hpages', h.cleared o hpages]
    · rw [h'.cleared o (ho.resolve_left hpages), h.kept o hpages]
  kept o ho := by
    rw [h'.kept o fun hpages' => ho (.inr hpages'), h.kept o fun hpages => ho (.inl hpages)]

theorem congr (h : a.AccessCleared b pages) (hpages : ∀ o, pages o ↔ pages' o) :
    a.AccessCleared b pages' where
  size_eq := h.size_eq
  pid_eq := h.pid_eq
  table_eq := h.table_eq
  traits_eq := h.traits_eq
  cleared o ho := h.cleared o ((hpages o).2 ho)
  kept o ho := h.kept o fun hin => ho ((hpages o).1 hin)

end AccessCleared

theorem lt_size_of_mapping? {o : Owner} {entry : DirectoryEntry} (h : a.mapping? o = some entry) :
    o.process < a.size := by
  by_contra hge
  have hempty : a.spaces[o.process]? = none := Array.getElem?_eq_none (Nat.le_of_not_lt hge)
  rw [mapping?, get, hempty] at h
  cases h

theorem accessCleared_set {o : Owner} {entry : DirectoryEntry} (h : a.mapping? o = some entry) :
    a.AccessCleared (a.set o.process { a.get o.process with
      directory := (a.get o.process).directory.setAccessed o.page false }) (· = o) where
  size_eq := by
    rw [size_set]
    exact Nat.max_eq_left (lt_size_of_mapping? h)
  pid_eq p := by rw [get_set]; split <;> simp_all
  table_eq p := by rw [get_set]; split <;> simp_all
  traits_eq p := by
    rw [get_set]
    split
    · rename_i hp
      subst hp
      rfl
    · rfl
  cleared x hx := by
    subst hx
    rw [mapping?, get_set_self, Directory.setAccessed, Directory.get?_set, if_pos rfl]
    rfl
  kept x hx := by
    rw [mapping?, mapping?, get_set]
    split
    · rename_i hp
      have hq : o.page ≠ x.page := fun hq => hx (Owner.eq_iff.2 ⟨hp.symm, hq.symm⟩)
      rw [Directory.setAccessed, Directory.get?_set, if_neg hq, hp]
    · rfl

end AddressSpaces

variable {n : Nat} {table : FrameTable n} {spaces : AddressSpaces}

/-- The test of a frame clears the accessed bit of the page in it, if it was set. -/
theorem accessCleared_accessTest (frame : Nat)
    (hidle : ∀ p, (spaces.get p).directory.busy = false) :
    spaces.AccessCleared (table.accessTest frame spaces).2
      fun o => table.owner? ⟨frame⟩ = some o := by
  unfold FrameTable.accessTest
  cases howner : table.owner? ⟨frame⟩ with
  | none => exact .refl spaces nofun
  | some o =>
    have haccessed : (spaces.get o.process).directory.isAccessed o.page =
        (spaces.mapping? o).any fun entry => entry.has .accessed := by
      rw [Directory.isAccessed, hidle, if_neg (by decide), Directory.has, AddressSpaces.mapping?]
      cases (spaces.get o.process).directory.entries.get? o.page <;> rfl
    simp only [haccessed]
    split
    · rename_i hset
      obtain ⟨entry, hentry, -⟩ := (Option.any_eq_true _ _).1 hset
      refine (AddressSpaces.accessCleared_set hentry).congr fun x => ?_
      rw [Option.some.injEq, eq_comm]
    · rename_i hclear
      refine ⟨rfl, fun _ => rfl, fun _ => rfl, fun _ => rfl, fun x hx => ?_, fun _ _ => rfl⟩
      cases hx
      cases hentry : spaces.mapping? o with
      | none => rfl
      | some entry =>
        have hnot : entry.has .accessed = false := by simpa [hentry] using hclear
        rw [Option.map_some, DirectoryEntry.set_of_has hnot]

/-- The tests of some frames clear the accessed bits of the pages in them. -/
theorem accessCleared_passAll (frames : List Nat)
    (hidle : ∀ p, (spaces.get p).directory.busy = false) :
    spaces.AccessCleared (Clock.passAll table.accessTest frames spaces)
      fun o => ∃ frame ∈ frames, table.owner? ⟨frame⟩ = some o := by
  induction frames generalizing spaces with
  | nil => exact .refl spaces nofun
  | cons c rest ih =>
    have hfirst : spaces.AccessCleared (table.accessTest c spaces).2 _ :=
      accessCleared_accessTest c hidle
    have hrest : (table.accessTest c spaces).2.AccessCleared _ _ :=
      ih fun p => (congrArg DirectoryTraits.busy (hfirst.traits_eq p)).trans (hidle p)
    refine (hfirst.trans hrest).congr fun o => ?_
    simp

/-! ## The victim -/

namespace Machine

/-- Whether the page in a frame was accessed. -/
def touched (m : Machine n) (frame : Frame) : Bool :=
  m.frames.touched frame.index m.spaces

/-- The victim by second chance, and the frames that are passed: the victim is the first candidate
    whose page was not accessed, and if there is none, all candidates are passed and it is the
    first of them. -/
def secondChance (m : Machine n) : Option Frame × List Frame :=
  let candidates := m.frames.candidates
  match candidates.find? fun frame => !m.touched frame with
  | some frame => (some frame, candidates.takeWhile m.touched)
  | none => (candidates.head?, candidates)

theorem secondChance_eq (m : Machine n) :
    m.secondChance = ((m.frames.candidates.find? fun frame => !m.touched frame).or
      m.frames.candidates.head?, m.frames.candidates.takeWhile m.touched) := by
  unfold secondChance
  dsimp only
  cases hfind : m.frames.candidates.find? fun frame => !m.touched frame with
  | some frame => rfl
  | none =>
    have hset : ∀ frame ∈ m.frames.candidates, m.touched frame = true := by simpa using hfind
    rw [List.takeWhile_eq_self_iff.2 hset]
    rfl

/-- On a machine in any state, the clock chooses its victim by second chance.  It clears the
    accessed bits of the pages that it passes, stops behind the victim, and does nothing else. -/
theorem pickVictim_secondChance (m : Machine n) (hhand : m.frames.hand < n)
    (howners : ∀ f g o, m.frames.owner? f = some o → m.frames.owner? g = some o → f = g)
    (hidle : ∀ p, (m.space p).directory.busy = false) :
    (m.secondChance.1 = none ↔ m.frames.candidates = []) ∧
    ∃ spaces, m.pickVictim = (m.secondChance.1, { m with
        frames := { m.frames with
          hand := m.secondChance.1.elim m.frames.hand fun frame => (frame.index + 1) % n }
        spaces := spaces }) ∧
      m.spaces.AccessCleared spaces fun o =>
        ∃ frame ∈ m.secondChance.2, m.frames.owner? frame = some o := by
  have hpick : Clock.pick n (fun frame => m.frames.isCandidate ⟨frame⟩) m.frames.accessTest
      m.frames.hand m.spaces = _ :=
    Clock.pick_of_independent (independent_accessTest howners hidle)
      (fun p => ⟨rfl, rfl, fun _ => rfl, fun _ _ _ => rfl⟩) (.inl hhand)
  have hcandidates : m.frames.candidates = (Clock.candidatesFrom n
      (fun frame => m.frames.isCandidate ⟨frame⟩) m.frames.hand).map Frame.mk := rfl
  generalize Clock.candidatesFrom n (fun frame => m.frames.isCandidate ⟨frame⟩) m.frames.hand =
    order at hpick hcandidates
  have hvictim : ((m.frames.candidates.find? fun frame => !m.touched frame).or
      m.frames.candidates.head?) =
        ((order.find? fun c => !m.frames.touched c m.spaces).or order.head?).map Frame.mk := by
    rw [hcandidates, List.find?_map, List.head?_map, Option.map_or]
    rfl
  have hpassed : m.frames.candidates.takeWhile m.touched =
      (order.takeWhile fun c => m.frames.touched c m.spaces).map Frame.mk := by
    rw [hcandidates, List.takeWhile_map]
    rfl
  rw [secondChance_eq]
  constructor
  · rw [Option.or_eq_none_iff, List.head?_eq_none_iff]
    refine ⟨fun h => h.2, fun h => ⟨?_, h⟩⟩
    rw [h, List.find?_nil]
  · refine ⟨Clock.passAll m.frames.accessTest
      (order.takeWhile fun c => m.frames.touched c m.spaces) m.spaces, ?_,
      (accessCleared_passAll _ hidle).congr fun o => ?_⟩
    · rw [hvictim]
      unfold pickVictim FrameTable.pickVictim
      rw [hpick]
      dsimp only
      generalize Option.or _ _ = victim
      cases victim <;> rfl
    · rw [hpassed]
      simp

/-- Of three frames the second is pinned, and the page in the first was accessed. -/
theorem pickVictim_secondChance_threeFrames : ∃ answers, ∃ m : Machine 3, ∃ spaces,
    Run {} 3 (.inMemory 2) [.spawn 0 {}, .mapNewPage 0 ⟨0⟩ true false,
      .mapNewPage 0 ⟨1⟩ true false, .mapNewPage 0 ⟨2⟩ true false, .load 0 0 1 0 0, .pin ⟨1⟩]
      answers m ∧
    m.secondChance = (some ⟨2⟩, [⟨0⟩]) ∧
    m.pickVictim =
      (some ⟨2⟩, { m with frames := { m.frames with hand := 0 }, spaces := spaces }) ∧
    m.spaces.AccessCleared spaces fun o =>
      ∃ frame ∈ [(⟨0⟩ : Frame)], m.frames.owner? frame = some o := by
  obtain ⟨answers, m, h, hp⟩ := exists_run {} 3 (.inMemory 2) [.spawn 0 {},
    .mapNewPage 0 ⟨0⟩ true false, .mapNewPage 0 ⟨1⟩ true false, .mapNewPage 0 ⟨2⟩ true false,
    .load 0 0 1 0 0, .pin ⟨1⟩]
    (fun m => m.secondChance = (some ⟨2⟩, [⟨0⟩]) ∧ m.frames.hand < 3 ∧
      m.spaces.spaces.toList.all fun space => !space.directory.busy) (by decide +kernel)
  obtain ⟨hchance, hhand, hidle⟩ := of_decide_eq_true hp
  simp only [List.all_eq_true, Bool.not_eq_true'] at hidle
  obtain ⟨-, spaces, hpick, hcleared⟩ := pickVictim_secondChance m hhand
    (fun _ _ _ => h.sound.linked.frame_eq)
    (forall_space (P := fun space => space.directory.busy = false) rfl hidle)
  rw [hchance] at hpick hcleared
  exact ⟨answers, m, spaces, h, hchance, hpick, hcleared⟩

end Machine

end DemandPaging
