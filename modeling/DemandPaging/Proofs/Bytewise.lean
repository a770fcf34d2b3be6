/-
  Loads and stores are one-byte loads and stores in turn.

  How an access is cut into pieces does not show.  So an access does what one-byte accesses to its
  addresses do, from the lowest on, up to the first that faults.

  * `loadEach` and `storeEach` are the one-byte accesses in turn;
  * `loadPieces_walk` and `storePieces_walk`: whole accesses are walks, and so are one-byte
    accesses in turn (`loadEach_walk`, `storeEach_walk`);
  * `access_bytewise`: both do the same, and what that is.
-/
import DemandPaging.Proofs.Copies

namespace DemandPaging.Directory

variable {n : Nat} {directory last : Directory} {address start length count : Nat}
  {memory memory' : Memory n} {data bytes : Bytes}

/-! ## Whole accesses, and one-byte accesses in turn -/

/-- Loads of one byte each from `count` addresses in turn, up to the first that faults. -/
def loadEach (memory : Memory n) : (address count : Nat) → Directory → Bytes → Outcome Loaded
  | _, 0, directory, done => return ⟨none, done, directory⟩
  | address, count + 1, directory, done => do
    let one ← directory.load memory address 1
    match one.fault with
    | some fault => return ⟨some fault, done ++ one.bytes, one.directory⟩
    | none => loadEach memory (address + 1) count one.directory (done ++ one.bytes)

/-- Stores of one byte each from `address` on in turn, up to the first that faults. -/
def storeEach : (address : Nat) → List UInt8 → Directory → Memory n → Outcome (Stored n)
  | _, [], directory, memory => return ⟨none, directory, memory⟩
  | address, byte :: rest, directory, memory => do
    let one ← directory.store memory address #[byte]
    match one.fault with
    | some fault => return ⟨some fault, one.directory, one.memory⟩
    | none => storeEach (address + 1) rest one.directory one.memory

/-- The buffer of a load, which was given to it with other bytes. -/
def Loaded.fill (loaded : Loaded) (buffer : Bytes) : Bytes :=
  loaded.bytes ++ buffer.extract loaded.bytes.size

theorem Reads.fill {loaded : Loaded} {done : Nat} {buffer : Bytes}
    (h : directory.Reads memory address done loaded.bytes) (hle : done ≤ buffer.size) :
    (loaded.fill buffer).size = buffer.size ∧ ∀ i : Nat, (loaded.fill buffer)[i]? =
      if i < done then (directory.cell? (address + i)).map memory.byte else buffer[i]? := by
  refine ⟨?_, fun i => ?_⟩
  · rw [Loaded.fill, Array.size_append, Array.size_extract, h.size_eq, Nat.min_self]
    omega
  · rw [Loaded.fill, Array.getElem?_append, h.size_eq]
    by_cases hi : i < done
    · rw [if_pos hi, if_pos hi, h.getElem?_eq i hi]
    · rw [if_neg hi, if_neg hi, Array.getElem?_extract, Nat.min_self]
      split
      · rw [Nat.add_sub_cancel' (Nat.le_of_not_lt hi)]
      · rw [Array.getElem?_eq_none (by omega)]

theorem Inside.mark (h : directory.Inside n) (page : Page) (write : Bool) :
    (directory.mark page write).Inside n :=
  fun q frame hframe => h q frame (translate_mark q ▸ hframe)

/-- A piece of a load either faults or copies its bytes. -/
theorem loadPieces_cons (memory : Memory n) (bytes : Bytes) (length : Nat) (rest : List Piece)
    (hinside : directory.Inside n) (hword : address + start < wordLimit) :
    (∃ frame, directory.Permits (.containing (address + start)) false ∧
        directory.translate (.containing (address + start)) = some frame ∧
        loadPieces memory address (⟨start, length⟩ :: rest) directory bytes =
          loadPieces memory address rest
            (directory.mark (.containing (address + start)) false)
            (bytes ++ (memory.contents frame).slice (pageOffset (address + start)) length)) ∨
      ¬directory.Permits (.containing (address + start)) false ∧
        loadPieces memory address (⟨start, length⟩ :: rest) directory bytes =
          pure ⟨some ⟨address + start, false⟩, bytes, directory⟩ := by
  have hadd : Word.add address start = pure (address + start) := if_pos hword
  by_cases hpermits : directory.Permits (.containing (address + start)) false
  · obtain ⟨frame, hframe, htouch⟩ := touch_of_permits hpermits
    refine .inl ⟨frame, hpermits, hframe, ?_⟩
    rw [loadPieces, hadd]
    simp only [Outcome.pure_bind, htouch, Memory.get_of_lt (hinside _ _ hframe)]
  · refine .inr ⟨hpermits, ?_⟩
    rw [loadPieces, hadd]
    simp only [Outcome.pure_bind, touch_of_not_permits hpermits]

/-- A piece of a store either faults or copies its bytes. -/
theorem storePieces_cons (memory : Memory n) (data : Bytes) (length : Nat) (rest : List Piece)
    (hinside : directory.Inside n) (hword : address + start < wordLimit) :
    (∃ frame memory₁, directory.Permits (.containing (address + start)) true ∧
        directory.translate (.containing (address + start)) = some frame ∧
        StoresPiece address data frame start length memory memory₁ ∧
        storePieces address data (⟨start, length⟩ :: rest) directory memory =
          storePieces address data rest
            (directory.mark (.containing (address + start)) true) memory₁) ∨
      ¬directory.Permits (.containing (address + start)) true ∧
        storePieces address data (⟨start, length⟩ :: rest) directory memory =
          pure ⟨some ⟨address + start, true⟩, directory, memory⟩ := by
  have hadd : Word.add address start = pure (address + start) := if_pos hword
  by_cases hpermits : directory.Permits (.containing (address + start)) true
  · obtain ⟨frame, hframe, htouch⟩ := touch_of_permits hpermits
    obtain ⟨memory₁, hupdate⟩ := memory.exists_update_eq (fun contents =>
      contents.overwrite (pageOffset (address + start)) (data.extract start (start + length)))
      (hinside _ _ hframe)
    refine .inl ⟨frame, memory₁, hpermits, hframe, hupdate, ?_⟩
    rw [storePieces, hadd]
    simp only [Outcome.pure_bind, htouch, hupdate]
  · refine .inr ⟨hpermits, ?_⟩
    rw [storePieces, hadd]
    simp only [Outcome.pure_bind, touch_of_not_permits hpermits]

theorem loadPieces_walk (memory : Memory n) (bytes : Bytes) {stop : Nat} {pieces : List Piece}
    (hcut : Cut address stop start pieces) (hinside : directory.Inside n)
    (hend : address + stop ≤ wordLimit) :
    ∃ loaded : Loaded, loadPieces memory address pieces directory bytes = pure loaded ∧
      Walk false address stop (LoadsPiece memory address) start directory bytes
        loaded.fault loaded.directory loaded.bytes := by
  induction hcut generalizing directory bytes with
  | nil => exact ⟨_, rfl, .done directory bytes⟩
  | cons start length rest hpos hstop hfits hends hrest ih =>
    rcases loadPieces_cons memory bytes length rest hinside
      (show address + start < wordLimit by omega) with
      ⟨frame, hpermits, hframe, hpieces⟩ | ⟨hrefused, hpieces⟩
    · obtain ⟨loaded, hlast, hwalk⟩ := ih
        (bytes ++ (memory.contents frame).slice (pageOffset (address + start)) length)
        (hinside.mark _ _)
      exact ⟨loaded, hpieces.trans hlast, .piece start length directory frame _ _ _ _ _ hpos hstop
        hfits hpermits hframe rfl hwalk⟩
    · exact ⟨_, hpieces, .fault start directory bytes (by omega) hrefused⟩

theorem storePieces_walk (memory : Memory n) (data : Bytes) {stop : Nat} {pieces : List Piece}
    (hcut : Cut address stop start pieces) (hinside : directory.Inside n)
    (hend : address + stop ≤ wordLimit) :
    ∃ stored : Stored n, storePieces address data pieces directory memory = pure stored ∧
      Walk true address stop (StoresPiece address data) start directory memory
        stored.fault stored.directory stored.memory := by
  induction hcut generalizing directory memory with
  | nil => exact ⟨_, rfl, .done directory memory⟩
  | cons start length rest hpos hstop hfits hends hrest ih =>
    rcases storePieces_cons memory data length rest hinside
      (show address + start < wordLimit by omega) with
      ⟨frame, memory₁, hpermits, hframe, hcopy, hpieces⟩ | ⟨hrefused, hpieces⟩
    · obtain ⟨stored, hlast, hwalk⟩ := ih memory₁ (hinside.mark _ _)
      exact ⟨stored, hpieces.trans hlast, .piece start length directory frame _ _ _ _ _ hpos hstop
        hfits hpermits hframe hcopy hwalk⟩
    · exact ⟨_, hpieces, .fault start directory memory (by omega) hrefused⟩

/-- An access to one byte is one piece. -/
theorem pieces_one (address : Nat) : pieces address 1 = [⟨0, 1⟩] := by
  have hoffset := pageOffset_lt address
  have hlength : min (pageSize - pageOffset (address + 0)) (0 + 1) = 1 := by
    rw [Nat.add_zero]; omega
  rw [pieces, piecesFrom, hlength, piecesFrom]

theorem load_one (memory : Memory n) (hinside : directory.Inside n)
    (hword : address < wordLimit) :
    (∃ frame, directory.Permits (.containing address) false ∧
        directory.translate (.containing address) = some frame ∧
        directory.load memory address 1 =
          pure ⟨none, (memory.contents frame).slice (pageOffset address) 1,
            directory.mark (.containing address) false⟩) ∨
      ¬directory.Permits (.containing address) false ∧
        directory.load memory address 1 = pure ⟨some ⟨address, false⟩, #[], directory⟩ := by
  have hcases := loadPieces_cons memory #[] 1 [] hinside
    (show address + 0 < wordLimit from hword)
  rw [load, pieces_one]
  refine hcases.imp_left ?_
  rintro ⟨frame, hpermits, hframe, hone⟩
  exact ⟨frame, hpermits, hframe, by rw [hone, Array.empty_append]; rfl⟩

theorem store_one (memory : Memory n) (byte : UInt8) (hinside : directory.Inside n)
    (hword : address < wordLimit) :
    (∃ frame memory₁, directory.Permits (.containing address) true ∧
        directory.translate (.containing address) = some frame ∧
        (memory.update frame fun contents => contents.overwrite (pageOffset address) #[byte]) =
          pure memory₁ ∧
        directory.store memory address #[byte] =
          pure ⟨none, directory.mark (.containing address) true, memory₁⟩) ∨
      ¬directory.Permits (.containing address) true ∧
        directory.store memory address #[byte] =
          pure ⟨some ⟨address, true⟩, directory, memory⟩ := by
  have hcases := storePieces_cons memory #[byte] 1 [] hinside
    (show address + 0 < wordLimit from hword)
  rw [store, show pieces address (#[byte] : Bytes).size = [⟨0, 1⟩] from pieces_one address]
  refine hcases.imp_left ?_
  rintro ⟨frame, memory₁, hpermits, hframe, hcopy, hone⟩
  exact ⟨frame, memory₁, hpermits, hframe, hcopy, hone⟩

theorem loadEach_walk (memory : Memory n) (bytes : Bytes) (hinside : directory.Inside n)
    (hend : address + (start + count) ≤ wordLimit) :
    ∃ loaded : Loaded, loadEach memory (address + start) count directory bytes = pure loaded ∧
      Walk false address (start + count) (LoadsPiece memory address) start directory bytes
        loaded.fault loaded.directory loaded.bytes := by
  induction count generalizing start directory bytes with
  | zero => exact ⟨_, rfl, .done directory bytes⟩
  | succ count ih =>
    rw [loadEach]
    rcases load_one memory hinside (show address + start < wordLimit by omega) with
      ⟨frame, hpermits, hframe, hone⟩ | ⟨hrefused, hone⟩
    · have hdone : start + 1 + count = start + (count + 1) := by omega
      obtain ⟨loaded, hrest, hwalk⟩ := ih
        (bytes ++ (memory.contents frame).slice (pageOffset (address + start)) 1)
        (hinside.mark (.containing (address + start)) false) (hdone ▸ hend)
      rw [hdone] at hwalk
      rw [hone]
      exact ⟨loaded, hrest, .piece start 1 directory frame bytes _ _ _ _ (by omega) (by omega)
        (pageOffset_lt _) hpermits hframe rfl hwalk⟩
    · rw [hone]
      exact ⟨_, rfl, .fault start directory bytes (by omega) hrefused⟩

theorem storeEach_walk (memory : Memory n) {rest : List UInt8} (hinside : directory.Inside n)
    (hrest : data.toList.drop start = rest) (hend : address + data.size ≤ wordLimit)
    (hle : start ≤ data.size) :
    ∃ stored : Stored n, storeEach (address + start) rest directory memory = pure stored ∧
      Walk true address data.size (StoresPiece address data) start directory memory
        stored.fault stored.directory stored.memory := by
  have hlength : (data.toList.drop start).length = data.size - start := by
    rw [List.length_drop, Array.length_toList]
  rw [hrest] at hlength
  induction rest generalizing start directory memory with
  | nil =>
    obtain rfl : start = data.size := by
      rw [List.length_nil] at hlength
      omega
    exact ⟨_, rfl, .done directory memory⟩
  | cons byte rest ih =>
    rw [List.length_cons] at hlength
    have hbyte : data.extract start (start + 1) = #[byte] := by
      apply Array.ext'
      rw [Array.toList_extract, List.extract_eq_take_drop, hrest, Nat.add_sub_cancel_left]
      rfl
    have hnext : data.toList.drop (start + 1) = rest := by
      rw [List.drop_add_one_eq_tail_drop, hrest, List.tail_cons]
    rw [storeEach]
    rcases store_one memory byte hinside
      (show address + start < wordLimit by omega) with
      ⟨frame, memory₁, hpermits, hframe, hcopy, hone⟩ | ⟨hrefused, hone⟩
    · obtain ⟨stored, hdone, hwalk⟩ := ih memory₁
        (hinside.mark (.containing (address + start)) true) hnext (by omega) (by omega)
      rw [hone]
      rw [← hbyte] at hcopy
      exact ⟨stored, hdone, .piece start 1 directory frame memory _ _ _ _ (by omega) (by omega)
        (pageOffset_lt _) hpermits hframe hcopy hwalk⟩
    · rw [hone]
      exact ⟨_, rfl, .fault start directory memory (by omega) hrefused⟩

theorem Walk.reads {fault : Option AccessFault}
    (h : Walk false address length (LoadsPiece memory address) 0 directory #[] fault last bytes) :
    ∃ done, directory.Reaches address length false done fault last ∧
      directory.Reads memory address done bytes :=
  h.reaches (Nat.zero_le _) (.zero directory address false)
    (fun i hi => absurd hi (Nat.not_lt_zero i))
    (fun _ _ _ _ _ hframe hfits _ hpiece hbefore => hbefore.step hframe hfits hpiece) .zero

theorem Walk.writes {fault : Option AccessFault}
    (h : Walk true address data.size (StoresPiece address data) 0 directory memory fault last
      memory') :
    ∃ done, directory.Reaches address data.size true done fault last ∧
      directory.Writes memory address data done memory' :=
  h.reaches (Nat.zero_le _) (.zero directory address true)
    (fun i hi => absurd hi (Nat.not_lt_zero i))
    (fun _ _ _ _ _ hframe hfits hle hpiece hbefore => hbefore.step hframe hfits hle hpiece) .zero

/-- A load reads the bytes of its range one by one. -/
theorem load_reads (memory : Memory n) (hinside : directory.Inside n)
    (hend : address + length ≤ wordLimit) :
    ∃ (loaded : Loaded) (done : Nat), directory.load memory address length = pure loaded ∧
      loadEach memory address length directory #[] = pure loaded ∧
      directory.Reaches address length false done loaded.fault loaded.directory ∧
      directory.Reads memory address done loaded.bytes := by
  obtain ⟨⟨fault, bytes, last⟩, hwhole, hwalk⟩ := loadPieces_walk memory #[]
    (cut_pieces address length) hinside hend
  rw [← Nat.zero_add length] at hend
  obtain ⟨⟨fault', bytes', last'⟩, heach, hwalk'⟩ := loadEach_walk memory #[] hinside hend
  rw [Nat.zero_add] at hwalk'
  obtain ⟨done, hreaches, hreads⟩ := hwalk.reads
  obtain ⟨done', hreaches', hreads'⟩ := hwalk'.reads
  obtain ⟨rfl, rfl, rfl⟩ := hreaches.unique hreaches'
  obtain rfl := hreads.eq hreads'
  exact ⟨_, done, hwhole, heach, hreaches, hreads⟩

/-- A store replaces the bytes of its range one by one. -/
theorem store_writes (memory : Memory n) (hinside : directory.Inside n)
    (hend : address + data.size ≤ wordLimit) :
    ∃ (stored : Stored n) (done : Nat), directory.store memory address data = pure stored ∧
      storeEach address data.toList directory memory = pure stored ∧
      directory.Reaches address data.size true done stored.fault stored.directory ∧
      directory.Writes memory address data done stored.memory := by
  obtain ⟨⟨fault, last, memory₁⟩, hwhole, hwalk⟩ :=
    storePieces_walk memory data (cut_pieces address data.size) hinside hend
  obtain ⟨⟨fault', last', memory₂⟩, heach, hwalk'⟩ := storeEach_walk memory hinside
    (List.drop_zero (l := data.toList)) hend (Nat.zero_le _)
  obtain ⟨done, hreaches, hwrites⟩ := hwalk.writes
  obtain ⟨done', hreaches', hwrites'⟩ := hwalk'.writes
  obtain ⟨rfl, rfl, rfl⟩ := hreaches.unique hreaches'
  obtain rfl := hwrites.eq hwrites'
  exact ⟨_, done, hwhole, heach, hreaches, hwrites⟩

/-- Loads and stores come to the same as one-byte accesses in turn, up to the first that faults.
    They go through if every page that their range overlaps permits it, and otherwise fault at the
    lowest address whose page does not.  The bytes below it are copied and their pages marked;
    nothing else changes. -/
theorem access_bytewise (memory : Memory n) (address : Nat) (hinside : directory.Inside n) :
    (∀ length, address + length ≤ wordLimit → ∃ (loaded : Loaded) (done : Nat),
      directory.load memory address length = pure loaded ∧
      loadEach memory address length directory #[] = pure loaded ∧
      directory.Reaches address length false done loaded.fault loaded.directory ∧
      (loaded.fault = none ↔
        ∀ page : Page, page.Overlaps address length → directory.Permits page false) ∧
      (∀ buffer : Bytes, buffer.size = length → (loaded.fill buffer).size = length ∧
        ∀ i : Nat, (loaded.fill buffer)[i]? =
          if i < done then (directory.cell? (address + i)).map memory.byte else buffer[i]?) ∧
      (∀ page flag, loaded.directory.has page flag =
        if page.Overlaps address done ∧ flag = .accessed then true else directory.has page flag) ∧
      ∀ page, loaded.directory.translate page = directory.translate page) ∧
    ∀ data : Bytes, address + data.size ≤ wordLimit → ∃ (stored : Stored n) (done : Nat),
      directory.store memory address data = pure stored ∧
      storeEach address data.toList directory memory = pure stored ∧
      directory.Reaches address data.size true done stored.fault stored.directory ∧
      (stored.fault = none ↔
        ∀ page : Page, page.Overlaps address data.size → directory.Permits page true) ∧
      directory.Writes memory address data done stored.memory ∧
      (∀ page flag, stored.directory.has page flag =
        if page.Overlaps address done ∧ (flag = .accessed ∨ flag = .dirty) then true
        else directory.has page flag) ∧
      ∀ page, stored.directory.translate page = directory.translate page := by
  constructor
  · intro length hend
    obtain ⟨loaded, done, hload, heach, hreaches, hreads⟩ :=
      load_reads memory hinside hend
    refine ⟨loaded, done, hload, heach, hreaches, hreaches.fault_eq_none_iff,
      fun buffer hsize => ?_, fun page flag => ?_, hreaches.marked.translate_eq⟩
    · exact hsize ▸ hreads.fill (hsize ▸ hreaches.done_le)
    · simpa using hreaches.has_eq page flag
  · intro data hend
    obtain ⟨stored, done, hstore, heach, hreaches, hwrites⟩ :=
      store_writes memory hinside hend
    refine ⟨stored, done, hstore, heach, hreaches, hreaches.fault_eq_none_iff, hwrites,
      fun page flag => ?_, hreaches.marked.translate_eq⟩
    simpa using hreaches.has_eq page flag

/-- Pages 4 and 5 share frame 0; only page 4 may be written. -/
def sharedFrame : Directory :=
  ((ofTraits {}).setEntry ⟨4⟩ ⟨7#32⟩).setEntry ⟨5⟩ ⟨5#32⟩

/-- A load of the last byte of page 4 and the first of page 5 goes through.  A store faults at
    page 5, with one byte copied: the first byte of the frame, where the second one would have
    gone, is as it was. -/
theorem access_bytewise_sharedFrame : sharedFrame.Inside 1 ∧ 20479 + 2 ≤ wordLimit ∧
    (∃ loaded, sharedFrame.load (.blank 1) 20479 2 = pure loaded ∧ loaded.fault = none) ∧
    ∃ stored : Stored 1, sharedFrame.store (.blank 1) 20479 #[1, 2] = pure stored ∧
      storeEach 20479 [1, 2] sharedFrame (.blank 1) = pure stored ∧
      stored.fault = some ⟨20480, true⟩ ∧
      stored.memory.byte ⟨⟨0⟩, 4095⟩ = 1 ∧ stored.memory.byte ⟨⟨0⟩, 0⟩ = 0 ∧
      stored.directory.has ⟨4⟩ .dirty = true ∧ stored.directory.has ⟨5⟩ .accessed = false := by
  have hinside : sharedFrame.Inside 1 := by
    intro page frame hframe
    rw [sharedFrame, translate_setEntry (by decide), translate_setEntry (by decide)] at hframe
    split at hframe
    · cases hframe
      decide
    · split at hframe
      · cases hframe
        decide
      · cases hframe
  have hend : 20479 + 2 ≤ wordLimit := by decide
  obtain ⟨hloads, hstores⟩ := access_bytewise (.blank 1) 20479 hinside
  obtain ⟨loaded, -, hload, -, -, hgoes, -⟩ := hloads 2 hend
  obtain ⟨stored, done, hstore, heach, hreaches, -, hwrites, hhas, -⟩ := hstores #[1, 2] hend
  have hboth : ∀ page : Page, page.Overlaps 20479 2 → sharedFrame.Permits page false := by
    rintro page ⟨i, hi, rfl⟩
    rcases (by omega : i = 0 ∨ i = 1) with rfl | rfl <;> exact ⟨⟨⟨0⟩, by decide⟩, nofun⟩
  obtain rfl : done = 1 := by
    have hle : done ≤ 2 := hreaches.done_le
    have hfirst : done ≠ 0 := by
      rintro rfl
      exact hreaches.refused (by decide) ⟨⟨⟨0⟩, by decide⟩, fun _ => by decide⟩
    have hsecond : done ≠ 2 := by
      rintro rfl
      exact absurd ((hreaches.permits 1 (by decide)).2 rfl) (by decide)
    omega
  refine ⟨hinside, hend, ⟨loaded, hload, hgoes.2 hboth⟩, stored, hstore, heach,
    hreaches.fault_eq, ?_, ?_, ?_, ?_⟩
  · have hcopied := hwrites.copied 0 ⟨⟨0⟩, 4095⟩ (by decide) (by decide) (fun j _ _ => by omega)
    exact (Option.some.inj hcopied).symm
  · have hother (i : Nat) (hi : i < 1) : sharedFrame.cell? (20479 + i) ≠ some ⟨⟨0⟩, 0⟩ := by
      obtain rfl := Nat.lt_one_iff.1 hi
      decide
    rw [hwrites.kept ⟨⟨0⟩, 0⟩ hother]
    decide
  · rw [hhas]
    decide
  · rw [hhas]
    decide

end DemandPaging.Directory
