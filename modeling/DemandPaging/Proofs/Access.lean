/-
  Loads and stores: what a user access changes, and what it sees.

  * `Written`: a piece of a store, which replaces bytes of one page and marks it
    dirty; `Written.sound` and `Written.flat_eq`;
  * `tryLoad_cases` and `tryStore_cases`: an access that goes through reads or
    replaces exactly its range of the flat memory, one that faults a prefix of it;
  * `retry_cases`: what every attempt and every handled fault keeps holds when an
    access has ended; `retry_keeps` says the same of a sound machine, and
    `load_keeps` and `store_keeps` say it of the two accesses.
-/
import DemandPaging.Machine.UserAccess
import DemandPaging.Proofs.Fault
import DemandPaging.Proofs.FlatMemory

namespace DemandPaging.Machine

variable {n : Nat} {m m' : Machine n} {frame : Frame} {o x : Owner} {process : Nat}
  {directory directory' : Directory} {memory memory' : Memory n}

/-! ## One piece of a store -/

/-- Some bytes of the page `o`, which is mapped to `frame`, were replaced. -/
structure Written (m m' : Machine n) (o : Owner) (frame : Frame) (f : Contents → Contents) :
    Prop where
  config_eq : m'.config = m.config
  swap_eq : m'.swap = m.swap
  stats_eq : m'.stats = m.stats
  frames_eq : m'.frames = m.frames
  record?_eq : ∀ x, m'.record? x = m.record? x
  traits_eq : ∀ p, (m'.space p).directory.toDirectoryTraits =
    (m.space p).directory.toDirectoryTraits
  mapped : m.translate o = some frame
  translate_eq : ∀ x, m'.translate x = m.translate x
  writable_eq : ∀ x, m'.flag x .writable = m.flag x .writable
  dirty_eq : ∀ x, m'.flag x .dirty = if o = x then true else m.flag x .dirty
  contents_eq : ∀ g, m'.memory.contents g =
    if frame = g then f (m.memory.contents frame) else m.memory.contents g

namespace Written

variable {f : Contents → Contents}

theorem status?_eq (h : m.Written m' o frame f) (x : Owner) : m'.status? x = m.status? x := by
  rw [status?, status?, h.record?_eq]

theorem status?_self (h : m.Written m' o frame f) (hl : m.Linked none) :
    m.status? o = some (.resident frame) :=
  (hl.translate_iff frame o).1 h.mapped

theorem sound (h : m.Written m' o frame f) (hs : m.Sound none) : m'.Sound none := by
  have ho := h.status?_self hs.linked
  constructor
  · refine hs.linked.of_same (by rw [h.frames_eq]; exact hs.linked.counted)
      (fun g => by rw [h.frames_eq]) (fun g _ => by rw [h.frames_eq])
      (fun x g => by rw [h.status?_eq]) h.translate_eq ?_
    intro x r g hr hst
    rw [h.record?_eq] at hr
    rw [h.writable_eq]
    exact hs.linked.writable_eq x r g hr hst
  · exact hs.slots.of_same (by rw [h.swap_eq]) fun x s => by rw [h.status?_eq]
  · refine hs.files.of_same h.record?_eq ?_
    intro x r g hr hst hflag
    rw [h.dirty_eq] at hflag
    -- the page written is dirty now, and no other page is in its frame
    split at hflag
    · cases hflag
    · rename_i hne
      refine ⟨hflag, ?_⟩
      rw [h.contents_eq, if_neg]
      rintro rfl
      exact hne (hs.linked.frame_inj ho (hst ▸ status?_of_record hr))

theorem flat_eq (h : m.Written m' o frame f) (hs : m.Sound none) (x : Owner) :
    m'.flat x = if o = x then (m.flat x).map f else m.flat x := by
  have ho := h.status?_self hs.linked
  rw [flat, flat, h.record?_eq]
  cases hr : m.record? x with
  | none => simp
  | some r =>
    have hpage : ∀ s, m'.swap.page s = m.swap.page s := fun s => by rw [h.swap_eq]
    simp only [Option.map_some]
    split
    · rename_i hx
      subst hx
      have hst : r.status = .resident frame := by
        rw [status?_of_record hr] at ho
        exact Option.some.inj ho
      simp only [contentsOf, hst, h.contents_eq, if_true]
    · rename_i hne
      refine congrArg some (contentsOf_congr (fun g hg => ?_) (fun s _ => hpage s))
      rw [h.contents_eq, if_neg]
      rintro rfl
      exact hne (hs.linked.frame_inj ho (hg ▸ status?_of_record hr))

end Written

/-! ## The machine during an access -/

/-- The machine while a process is accessing its memory. -/
def duringAccess (m : Machine n) (process : Nat) (directory : Directory) (memory : Memory n) :
    Machine n :=
  { m.setDirectory process directory with memory := memory }

theorem record?_duringAccess :
    (m.duringAccess process directory memory).record? x = m.record? x :=
  record?_setDirectory directory

theorem translate_duringAccess : (m.duringAccess process directory memory).translate x =
    if process = x.process then directory.translate x.page else m.translate x :=
  translate_setDirectory directory

theorem flag_duringAccess {fl : Flag} : (m.duringAccess process directory memory).flag x fl =
    if process = x.process then directory.has x.page fl else m.flag x fl :=
  flag_setDirectory directory

theorem table_duringAccess (p : Nat) :
    ((m.duringAccess process directory memory).space p).table = (m.space p).table :=
  table_setDirectory directory p

theorem traits_duringAccess (p : Nat) :
    ((m.duringAccess process directory memory).space p).directory.toDirectoryTraits =
      if process = p then directory.toDirectoryTraits
      else (m.space p).directory.toDirectoryTraits := by
  show ((m.setDirectory process directory).space p).directory.toDirectoryTraits = _
  rw [space_setDirectory]
  split <;> rfl

theorem same_of_touch (m : Machine n) (process : Nat) (memory : Memory n) {address : Nat}
    (h : directory.touch address false = .ok (frame, directory')) :
    (m.duringAccess process directory memory).SameUpToAccess
      (m.duringAccess process directory' memory) := by
  obtain ⟨-, -, htraits, htranslate, hhas⟩ := Directory.touch_cases h
  refine ⟨rfl, rfl, rfl, rfl, rfl, rfl, id, ?_, ?_, ?_, ?_⟩
  · intro p
    rw [table_duringAccess, table_duringAccess]
  · intro p
    rw [traits_duringAccess, traits_duringAccess, htraits]
  · intro x
    rw [translate_duringAccess, translate_duringAccess, htranslate]
  · intro x fl hfl
    rw [flag_duringAccess, flag_duringAccess, hhas]
    split
    · rw [if_neg fun h => hfl h.2]
      split
      · rename_i hd; rw [hd.2, Bool.or_false]
      · rfl
    · rfl

theorem written_of_touch (m : Machine n) (process : Nat) {address : Nat} {f : Contents → Contents}
    (h : directory.touch address true = .ok (frame, directory'))
    (hupdate : (memory.update frame f).result = .ok memory') :
    (m.duringAccess process directory memory).Written (m.duringAccess process directory' memory')
      ⟨process, .containing address⟩ frame f := by
  obtain ⟨hmapped, -, htraits, htranslate, hhas⟩ := Directory.touch_cases h
  obtain ⟨-, hcontents⟩ := Memory.update_cases hupdate
  refine ⟨rfl, rfl, rfl, rfl, ?_, ?_, ?_, ?_, ?_, ?_, hcontents⟩
  · intro x
    rw [record?_duringAccess, record?_duringAccess]
  · intro p
    rw [traits_duringAccess, traits_duringAccess, htraits]
  · rw [translate_duringAccess, if_pos rfl, hmapped]
  · intro x
    rw [translate_duringAccess, translate_duringAccess, htranslate]
  · intro x
    simp only [flag_duringAccess, hhas, reduceCtorEq, and_false, if_false]
  · intro x
    simp only [flag_duringAccess, hhas, reduceCtorEq, and_false, if_false, and_true, Bool.or_true]
    by_cases hp : process = x.process <;> by_cases hq : Page.containing address = x.page <;>
      simp [Owner.eq_iff, hp, hq]

/-! ## Attempts -/

theorem flat_of_translate {held : Option Frame} (hl : m.Linked held)
    (h : m.translate o = some frame) : m.flat o = some (m.memory.contents frame) := by
  obtain ⟨r, hr, hst⟩ := status?_eq_some.1 ((hl.translate_iff frame o).1 h)
  rw [flat_of_record hr, contentsOf, hst]

theorem byte?_of_translate {held : Option Frame} (hl : m.Linked held) {address j : Nat}
    (h : m.translate ⟨process, .containing address⟩ = some frame)
    (hj : pageOffset address + j < pageSize) :
    FlatMemory.byte? m.flat process (address + j) =
      some (m.memory.contents frame)[(⟨pageOffset address + j, hj⟩ : Fin pageSize)] := by
  obtain ⟨hpage, hoffset⟩ := Page.containing_add address hj
  simp only [FlatMemory.byte?, hpage, flat_of_translate hl h, Option.map_some, hoffset,
    Fin.getElem_fin]

theorem loadPieces_cases (m : Machine n) (process : Nat) {address start stop : Nat}
    {pieces : List Piece} {done : Bytes} {loaded : Directory.Loaded}
    (hcut : Cut address stop start pieces)
    (h : (Directory.loadPieces memory address pieces directory done).result = .ok loaded)
    (hs : (m.duringAccess process directory memory).Sound none)
    (hsize : done.size = start)
    (hdone : ∀ i, i < start →
      FlatMemory.byte? (m.duringAccess process directory memory).flat process (address + i) =
        done[i]?) :
    (m.duringAccess process directory memory).SameUpToAccess
        (m.duringAccess process loaded.directory memory) ∧
      (loaded.fault = none ∧ loaded.bytes.size = stop ∧
          (∀ i, i < stop →
            FlatMemory.byte? (m.duringAccess process directory memory).flat process (address + i) =
              loaded.bytes[i]?) ∨
        ∃ k, k < stop ∧ loaded.fault = some ⟨address + k, false⟩) := by
  induction hcut generalizing directory done with
  | nil =>
    cases h
    exact ⟨.refl _, .inl ⟨rfl, hsize, hdone⟩⟩
  | cons start length rest hpos hstop hfits hends hrest ih =>
    simp only [Directory.loadPieces, Outcome.bind_eq_ok_iff, Word.add_eq_ok_iff] at h
    obtain ⟨_, ⟨-, rfl⟩, h⟩ := h
    split at h
    · rename_i fault htouch
      cases h
      obtain ⟨rfl, -⟩ := Directory.touch_error htouch
      exact ⟨.refl _, .inr ⟨start, by omega, rfl⟩⟩
    · rename_i frame directory' htouch
      obtain ⟨contents, hget, h⟩ := Outcome.bind_eq_ok_iff.1 h
      obtain ⟨-, rfl⟩ := Memory.get_eq_ok_iff.1 hget
      have hsame := m.same_of_touch process memory htouch
      have hmapped : (m.duringAccess process directory memory).translate
          ⟨process, .containing (address + start)⟩ = some frame := by
        rw [translate_duringAccess, if_pos rfl]
        exact (Directory.touch_cases htouch).1
      have hmore : ∀ i, i < start + length →
          FlatMemory.byte? (m.duringAccess process directory' memory).flat process
            (address + i) = (done ++ (memory.contents frame).slice
              (pageOffset (address + start)) length)[i]? := by
        intro i hi
        rw [hsame.flat_eq]
        rcases Nat.lt_or_ge i start with hlt | hge
        · rw [hdone i hlt, Array.getElem?_append_left (by omega)]
        · have hj : pageOffset (address + start) + (i - start) < pageSize := by omega
          have hbyte := byte?_of_translate hs.linked hmapped hj
          rw [show address + start + (i - start) = address + i by omega] at hbyte
          rw [hbyte, Array.getElem?_append_right (by omega), hsize,
            Contents.getElem?_slice hfits (by omega)]
          rfl
      obtain ⟨hlast, hcases⟩ := ih h (hsame.sound hs)
        (by rw [Array.size_append, Contents.size_slice hfits, hsize]) hmore
      rw [hsame.flat_eq] at hcases
      exact ⟨hsame.trans hlast, hcases⟩

/-- A piece of a store makes the prefix stored longer, if it was not as long already. -/
theorem Written.flat_store {address start length K : Nat} {data : Bytes} {before : FlatMemory}
    (h : m.Written m' ⟨process, .containing (address + start)⟩ frame fun contents =>
      contents.overwrite (pageOffset (address + start)) (data.extract start (start + length)))
    (hs : m.Sound none) (hfits : pageOffset (address + start) + length ≤ pageSize)
    (hdata : start + length ≤ data.size)
    (hbefore : m.flat = before.store process address data (max K start)) :
    m'.flat = before.store process address data (max K (start + length)) := by
  funext x
  rw [h.flat_eq hs, hbefore]
  unfold FlatMemory.store
  cases before x with
  | none => simp
  | some contents =>
    have hbase := Page.base_add_pageOffset (address + start)
    simp only [Option.map_some]
    split
    · rename_i hx
      subst hx
      refine congrArg some ?_
      ext i hi
      have hsize : (data.extract start (start + length)).size = length := by
        rw [Array.size_extract]; omega
      rw [Contents.getElem_overwrite]
      simp only [Vector.getElem_ofFn, hsize, true_and]
      generalize (Page.containing (address + start)).base = base at *
      by_cases hin : pageOffset (address + start) ≤ i ∧ i - pageOffset (address + start) < length
      · have hidx : base + i - address = start + (i - pageOffset (address + start)) := by omega
        rw [dif_pos hin, if_pos (by omega), hidx, Array.getElem_extract,
          Array.getD_eq_getD_getElem?, Array.getElem?_eq_getElem (by omega), Option.getD_some]
      · rw [dif_neg hin]
        by_cases hmax : address ≤ base + i ∧ base + i < address + max K start
        · rw [if_pos hmax, if_pos (by omega)]
        · rw [if_neg hmax, if_neg (by omega)]
    · rename_i hne
      refine congrArg some ?_
      ext i hi
      simp only [Vector.getElem_ofFn]
      by_cases hp : process = x.process
      · -- the bytes of the piece are all in another page
        have hout : ¬(address + start ≤ x.page.base + i ∧
            x.page.base + i < address + start + length) := by
          rintro ⟨hle, hlt⟩
          refine hne (Owner.eq_iff.2 ⟨hp, ?_⟩)
          obtain ⟨hpage, -⟩ := Page.containing_add (address + start)
            (show _ + (x.page.base + i - (address + start)) < pageSize by omega)
          rw [Nat.add_sub_cancel' hle, Page.containing_base_add _ hi] at hpage
          exact hpage.symm
        by_cases hmax : address ≤ x.page.base + i ∧ x.page.base + i < address + max K start
        · rw [if_pos ⟨hp, hmax⟩, if_pos ⟨hp, by omega⟩]
        · rw [if_neg fun h => hmax h.2, if_neg fun h => hmax (by omega)]
      · rw [if_neg fun h => hp h.1, if_neg fun h => hp h.1]

theorem storePieces_cases (m : Machine n) (process : Nat) {address start K : Nat}
    {pieces : List Piece} {data : Bytes} {before : FlatMemory} {stored : Directory.Stored n}
    (hcut : Cut address data.size start pieces)
    (h : (Directory.storePieces address data pieces directory memory).result = .ok stored)
    (hs : (m.duringAccess process directory memory).Sound none)
    (hbefore : (m.duringAccess process directory memory).flat =
      before.store process address data (max K start))
    (hpages : ∀ i, i < start → (before.byte? process (address + i)).isSome = true) :
    (m.duringAccess process stored.directory stored.memory).Sound none ∧
      stored.directory.toDirectoryTraits = directory.toDirectoryTraits ∧
      ∃ k, (m.duringAccess process stored.directory stored.memory).flat =
          before.store process address data (max K k) ∧
        (∀ i, i < k → (before.byte? process (address + i)).isSome = true) ∧
        (stored.fault = none ∧ k = data.size ∨
          stored.fault = some ⟨address + k, true⟩ ∧ k < data.size) := by
  induction hcut generalizing directory memory with
  | nil =>
    cases h
    exact ⟨hs, rfl, data.size, hbefore, hpages, .inl ⟨rfl, rfl⟩⟩
  | cons start length rest hpos hstop hfits hends hrest ih =>
    simp only [Directory.storePieces, Outcome.bind_eq_ok_iff, Word.add_eq_ok_iff] at h
    obtain ⟨_, ⟨-, rfl⟩, h⟩ := h
    split at h
    · rename_i fault htouch
      cases h
      obtain ⟨rfl, -⟩ := Directory.touch_error htouch
      exact ⟨hs, rfl, start, hbefore, hpages, .inr ⟨rfl, by omega⟩⟩
    · rename_i frame directory' htouch
      obtain ⟨memory', hupdate, h⟩ := Outcome.bind_eq_ok_iff.1 h
      have hwritten := m.written_of_touch process htouch hupdate
      have hmore : ∀ i, i < start + length →
          (before.byte? process (address + i)).isSome = true := by
        intro i hi
        rcases Nat.lt_or_ge i start with hlt | hge
        · exact hpages i hlt
        · have hj : pageOffset (address + start) + (i - start) < pageSize := by omega
          have hbyte := byte?_of_translate hs.linked hwritten.mapped hj
          rw [show address + start + (i - start) = address + i by omega, hbefore] at hbyte
          rw [← FlatMemory.isSome_byte?_store, hbyte]
          rfl
      obtain ⟨hsound, htraits, hcases⟩ := ih h (hwritten.sound hs)
        (hwritten.flat_store hs hfits hstop hbefore) hmore
      exact ⟨hsound, htraits.trans (Directory.touch_cases htouch).2.2.1, hcases⟩

/-- Without an access there is nothing to do. -/
theorem duringAccess_same (m : Machine n) (process : Nat) :
    m.SameUpToAccess (m.duringAccess process (m.space process).directory m.memory) := by
  refine ⟨rfl, rfl, rfl, rfl, rfl, rfl, id, ?_, ?_, ?_, ?_⟩
  · intro p
    rw [table_duringAccess]
  · intro p
    rw [traits_duringAccess]
    split
    · rename_i hp; rw [hp]
    · rfl
  · intro x
    rw [translate_duringAccess]
    split
    · rename_i hp; rw [hp]; rfl
    · rfl
  · intro x fl _
    rw [flag_duringAccess]
    split
    · rename_i hp; rw [hp]; rfl
    · rfl

theorem tryLoad_cases {address length : Nat} {res : Except AccessFault Bytes}
    (h : (m.tryLoad process address length).result = .ok (res, m')) (hs : m.Sound none) :
    (∃ directory, m' = m.duringAccess process directory m.memory) ∧ m.SameUpToAccess m' ∧
      ((∃ bytes, res = .ok bytes ∧ bytes.size = length ∧
          ∀ i, i < length → FlatMemory.byte? m.flat process (address + i) = bytes[i]?) ∨
        ∃ k, k < length ∧ res = .error ⟨address + k, false⟩) := by
  obtain ⟨loaded, hload, h⟩ := Outcome.bind_eq_ok_iff.1 h
  have hsame := m.duringAccess_same process
  obtain ⟨hsame', hcases⟩ := m.loadPieces_cases process (cut_pieces address length) hload
    (hsame.sound hs) rfl (fun i hi => by omega)
  have hsame' := hsame.trans hsame'
  rw [hsame.flat_eq] at hcases
  rcases hcases with ⟨hfault, hsize, hbytes⟩ | ⟨k, hk, hfault⟩
  · simp only [hfault] at h
    cases h
    exact ⟨⟨loaded.directory, rfl⟩, hsame', .inl ⟨loaded.bytes, rfl, hsize, hbytes⟩⟩
  · simp only [hfault] at h
    cases h
    exact ⟨⟨loaded.directory, rfl⟩, hsame', .inr ⟨k, hk, rfl⟩⟩

theorem tryStore_cases {address K : Nat} {data : Bytes} {before : FlatMemory}
    {res : Except AccessFault Nat}
    (h : (m.tryStore process address data).result = .ok (res, m')) (hs : m.Sound none)
    (hbefore : m.flat = before.store process address data K) :
    (∃ directory memory, m' = m.duringAccess process directory memory ∧
        directory.toDirectoryTraits = (m.space process).directory.toDirectoryTraits) ∧
      m'.Sound none ∧ ∃ k, m'.flat = before.store process address data (max K k) ∧
        (∀ i, i < k → (before.byte? process (address + i)).isSome = true) ∧
        (res = .ok data.size ∧ k = data.size ∨
          res = .error ⟨address + k, true⟩ ∧ k < data.size) := by
  obtain ⟨stored, hstore, h⟩ := Outcome.bind_eq_ok_iff.1 h
  have hsame := m.duringAccess_same process
  have hstart : (m.duringAccess process (m.space process).directory m.memory).flat =
      before.store process address data (max K 0) := by
    rw [hsame.flat_eq, hbefore, Nat.max_eq_left (Nat.zero_le K)]
  obtain ⟨hsound, htraits, k, hflat, hpages, hcases⟩ := m.storePieces_cases process
    (cut_pieces address data.size) hstore (hsame.sound hs) hstart (fun i hi => by omega)
  rcases hcases with ⟨hfault, hk⟩ | ⟨hfault, hk⟩
  · simp only [hfault] at h
    cases h
    exact ⟨⟨_, _, rfl, htraits⟩, hsound, k, hflat, hpages, .inl ⟨rfl, hk⟩⟩
  · simp only [hfault] at h
    cases h
    exact ⟨⟨_, _, rfl, htraits⟩, hsound, k, hflat, hpages, .inr ⟨rfl, hk⟩⟩

/-! ## Attempts and faults in turn -/

/-- What holds before every attempt decides what holds when the access has ended. -/
theorem retry_cases {α : Type} {attempt : Machine n → Outcome (Except AccessFault α × Machine n)}
    {stackPointer limit faults : Nat} {P : Nat → Machine n → Prop}
    {Q : UserAccess α → Machine n → Prop} {access : UserAccess α}
    (hdone : ∀ k m v m', P k m → (attempt m).result = .ok (.ok v, m') → Q (.done k v) m')
    (hgaveUp : ∀ k m fault m', P k m → (attempt m).result = .ok (.error fault, m') →
      Q (.gaveUp k) m')
    (hfailed : ∀ k m fault m₁ e m', P k m → (attempt m).result = .ok (.error fault, m₁) →
      (m₁.handleFault process ⟨fault.address, fault.write, stackPointer⟩).result =
        .ok (.error e, m') → Q (.failed (k + 1) e) m')
    (hretry : ∀ k m fault m₁ m', P k m → (attempt m).result = .ok (.error fault, m₁) →
      (m₁.handleFault process ⟨fault.address, fault.write, stackPointer⟩).result =
        .ok (.ok (), m') → P (k + 1) m')
    (hm : P faults m)
    (h : (retry attempt process stackPointer limit faults m).result = .ok (access, m')) :
    Q access m' := by
  induction limit generalizing faults m with
  | zero =>
    unfold retry at h
    obtain ⟨⟨tried, m₁⟩, htried, h⟩ := Outcome.bind_eq_ok_iff.1 h
    cases tried with
    | ok value => cases h; exact hdone faults m value _ hm htried
    | error fault => cases h; exact hgaveUp faults m fault _ hm htried
  | succ limit ih =>
    unfold retry at h
    obtain ⟨⟨tried, m₁⟩, htried, h⟩ := Outcome.bind_eq_ok_iff.1 h
    cases tried with
    | ok value => cases h; exact hdone faults m value _ hm htried
    | error fault =>
      obtain ⟨⟨handled, m₂⟩, hhandled, h⟩ := Outcome.bind_eq_ok_iff.1 h
      cases handled with
      | error e => cases h; exact hfailed faults m fault m₁ e _ hm htried hhandled
      | ok _ => exact ih (hretry faults m fault m₁ m₂ hm htried hhandled) h

section

variable {I : Machine n → Prop}

/-- What attempts keep, and faults keep, attempts and faults in turn keep. -/
theorem retry_keeps {α : Type} {attempt : Machine n → Outcome (Except AccessFault α × Machine n)}
    {stackPointer limit faults : Nat} {access : UserAccess α}
    (hattempt : ∀ m res m', m.Sound none ∧ I m → (attempt m).result = .ok (res, m') →
      m'.Sound none ∧ I m')
    (hfault : ∀ m m' fault res, m.Sound none → I m → Handled m m' process fault res → I m')
    (hs : m.Sound none) (hm : I m)
    (h : (retry attempt process stackPointer limit faults m).result = .ok (access, m')) :
    m'.Sound none ∧ I m' := by
  have hnext : ∀ m fault m₁ res m', m.Sound none ∧ I m →
      (attempt m).result = .ok (.error fault, m₁) →
      (m₁.handleFault process ⟨fault.address, fault.write, stackPointer⟩).result = .ok (res, m') →
      m'.Sound none ∧ I m' := by
    intro m fault m₁ res m' hm htry hhandle
    obtain ⟨hs₁, hm₁⟩ := hattempt m _ m₁ hm htry
    have hhandled := handleFault_cases hhandle
    exact ⟨hhandled.sound hs₁, hfault m₁ m' _ _ hs₁ hm₁ hhandled⟩
  refine retry_cases (P := fun _ m => m.Sound none ∧ I m) (Q := fun _ m => m.Sound none ∧ I m)
    ?_ ?_ ?_ ?_ ⟨hs, hm⟩ h
  · exact fun k m v m' hm h => hattempt m _ m' hm h
  · exact fun k m fault m' hm h => hattempt m _ m' hm h
  · exact fun k m fault m₁ e m' hm h h' => hnext m fault m₁ _ m' hm h h'
  · exact fun k m fault m₁ m' hm h h' => hnext m fault m₁ _ m' hm h h'

/-- Loads keep machines sound, and keep whatever else survives the pieces of an access and
    survives faults. -/
theorem load_keeps {limit address length stackPointer : Nat} {access : UserAccess Bytes}
    (haccess : ∀ m directory memory,
      directory.toDirectoryTraits = (m.space process).directory.toDirectoryTraits → I m →
        I (m.duringAccess process directory memory))
    (hfault : ∀ m m' fault res, m.Sound none → I m → Handled m m' process fault res → I m')
    (hs : m.Sound none) (hm : I m)
    (h : (m.load limit process address length stackPointer).result = .ok (access, m')) :
    m'.Sound none ∧ I m' := by
  have hattempt : ∀ (m : Machine n) res m', m.Sound none ∧ I m →
      (m.tryLoad process address length).result = .ok (res, m') → m'.Sound none ∧ I m' := by
    rintro m res m' ⟨hs, hm⟩ h
    obtain ⟨⟨directory, rfl⟩, hsame, -⟩ := tryLoad_cases h hs
    have htraits := hsame.traits_eq process
    rw [traits_duringAccess, if_pos rfl] at htraits
    exact ⟨hsame.sound hs, haccess m directory m.memory htraits hm⟩
  exact retry_keeps hattempt hfault hs hm h

/-- So do stores. -/
theorem store_keeps {limit address stackPointer : Nat} {data : Bytes} {access : UserAccess Nat}
    (haccess : ∀ m directory memory,
      directory.toDirectoryTraits = (m.space process).directory.toDirectoryTraits → I m →
        I (m.duringAccess process directory memory))
    (hfault : ∀ m m' fault res, m.Sound none → I m → Handled m m' process fault res → I m')
    (hs : m.Sound none) (hm : I m)
    (h : (m.store limit process address data stackPointer).result = .ok (access, m')) :
    m'.Sound none ∧ I m' := by
  have hattempt : ∀ (m : Machine n) res m', m.Sound none ∧ I m →
      (m.tryStore process address data).result = .ok (res, m') → m'.Sound none ∧ I m' := by
    rintro m res m' ⟨hs, hm⟩ h
    obtain ⟨⟨directory, memory, rfl, htraits⟩, hs', -⟩ :=
      tryStore_cases (K := 0) h hs FlatMemory.store_zero.symm
    exact ⟨hs', haccess m directory memory htraits hm⟩
  exact retry_keeps hattempt hfault hs hm h

end

end DemandPaging.Machine
