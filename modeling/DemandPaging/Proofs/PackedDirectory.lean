/-
  Page directories without the packing: maps from pages to records.

  A directory keeps the frame of a page and all its flags in one word and changes the word flag by
  flag.  Read apart, the words are records that change as one expects, whatever is asked of the
  directory in which order; and all that can be asked of the directory can be told from them.

  * `Mapping` is one record and `Mappings` a directory of them: what requests change
    (`Mappings.after`) and answer (`Mappings.Answers`), and how far an access comes, byte by byte
    (`Mappings.access`);
  * `after_of_not_concerns` and `target_after`: what a request leaves as it is;
  * `Directory.decode` reads the words apart, and `shows_decode` tells all questions by them;
  * `access_of_reaches`: an access marks the records of the bytes that it reaches, however it is
    cut; `reaches_of_pieces` says how far it reaches, if it is answered at all;
  * `decode_perform`: what a request does to the words, it does to the records; and `run_packs` says
    so of any requests.
-/
import Mathlib.Data.Set.Card
import DemandPaging.Proofs.Counting
import DemandPaging.Proofs.History
import DemandPaging.Proofs.Walk

namespace DemandPaging

/-! ## Directories of records -/

/-- What is asked of a directory, and of the memory that it maps pages to. -/
inductive DirectoryRequest where
  | map (page : Page) (frame : Frame) (writable : Bool)
  | clear (page : Page)
  | setAccessed (page : Page) (on : Bool)
  | setDirty (page : Page) (on : Bool)
  | load (address length : Nat)
  | store (address : Nat) (data : Bytes)

/-- What a directory answers. -/
inductive DirectoryAnswer where
  /-- Whether there was memory for the mapping. -/
  | mapped (done : Bool)
  | updated
  /-- How a load ended, and the bytes loaded. -/
  | loaded (fault : Option AccessFault) (bytes : Bytes)
  /-- How a store ended. -/
  | stored (fault : Option AccessFault)

/-- The requests made of a directory, in order, each with its answer. -/
abbrev DirectoryHistory : Type := List (DirectoryRequest × DirectoryAnswer)

/-- A page is one that a request names, or one that an access has a byte in. -/
def DirectoryRequest.Concerns (page : Page) : DirectoryRequest → Prop
  | .map q _ _ | .clear q | .setAccessed q _ | .setDirty q _ => q = page
  | .load address length => page.Overlaps address length
  | .store address data => page.Overlaps address data.size

/-- What is known of a page that was mapped. -/
structure Mapping where
  frame : Frame
  writable : Bool
  present : Bool
  accessed : Bool
  dirty : Bool

/-- The records of the pages that were mapped. -/
abbrev Mappings : Type := Page → Option Mapping

namespace Mappings

variable {mappings : Mappings} {page q : Page}

/-- No page was mapped. -/
def empty : Mappings :=
  fun _ => none

/-- A page gets a new record. -/
def map (mappings : Mappings) (page : Page) (frame : Frame) (writable : Bool) : Mappings :=
  fun q => if page = q then
    some { frame, writable, present := true, accessed := false, dirty := false }
  else mappings q

/-- The record of a page changes, if it has one. -/
def modify (mappings : Mappings) (page : Page) (f : Mapping → Mapping) : Mappings :=
  fun q => if page = q then (mappings q).map f else mappings q

/-- A byte of a page is loaded or stored. -/
def touch (mappings : Mappings) (page : Page) (write : Bool) : Mappings :=
  mappings.modify page fun mapping =>
    { mapping with accessed := true, dirty := mapping.dirty || write }

/-- A page lets its bytes be loaded, or stored. -/
def permits (mappings : Mappings) (page : Page) (write : Bool) : Bool :=
  (mappings page).any fun mapping => mapping.present && (!write || mapping.writable)

/-- Bytes are loaded or stored one after the other, up to the first that faults. -/
def access (write : Bool) : (length address : Nat) → Mappings → Mappings × Option AccessFault
  | 0, _, mappings => (mappings, none)
  | length + 1, address, mappings =>
    if mappings.permits (.containing address) write then
      access write length (address + 1) (mappings.touch (.containing address) write)
    else (mappings, some ⟨address, write⟩)

/-- The records after a request. -/
def after (mappings : Mappings) : DirectoryRequest → Mappings
  | .map page frame writable => mappings.map page frame writable
  | .clear page => mappings.modify page fun mapping => { mapping with present := false }
  | .setAccessed page on => mappings.modify page fun mapping => { mapping with accessed := on }
  | .setDirty page on => mappings.modify page fun mapping => { mapping with dirty := on }
  | .load address length => (access false length address mappings).1
  | .store address data => (access true data.size address mappings).1

/-- The answer to a request. -/
def Answers (mappings : Mappings) : DirectoryRequest → DirectoryAnswer → Prop
  | .map _ _ _, answer => answer = .mapped true
  | .clear _, answer | .setAccessed _ _, answer | .setDirty _ _, answer => answer = .updated
  | .load address length, answer =>
    ∃ bytes, answer = .loaded (access false length address mappings).2 bytes
  | .store address data, answer => answer = .stored (access true data.size address mappings).2

/-- The records after the requests of a history. -/
def ofHistory (history : DirectoryHistory) : Mappings :=
  history.foldl (fun mappings call => mappings.after call.1) empty

/-- The frame of a page, if it is present. -/
def translate (mappings : Mappings) (page : Page) : Option Frame :=
  (mappings page).bind fun mapping => if mapping.present then some mapping.frame else none

/-- A page is present and may be written. -/
def isWritable (mappings : Mappings) (page : Page) : Bool :=
  (mappings page).any fun mapping => mapping.present && mapping.writable

/-- The number of pages that are present. -/
noncomputable def mappedPages (mappings : Mappings) : Nat :=
  {page | (mappings page).any Mapping.present = true}.ncard

/-! ## What a request leaves as it is -/

theorem modify_of_ne (f : Mapping → Mapping) (h : page ≠ q) : mappings.modify page f q = mappings q :=
  if_neg h

/-- An access changes no record but those of the pages that it has a byte in. -/
theorem access_of_not_overlaps {write : Bool} {length address : Nat}
    (h : ¬page.Overlaps address length) :
    (access write length address mappings).1 page = mappings page := by
  induction length generalizing address mappings with
  | zero => rfl
  | succ length ih =>
    rw [Page.overlaps_succ, not_or] at h
    rw [access]
    split
    · rw [ih h.2, touch, modify_of_ne _ h.1]
    · rfl

theorem after_of_not_concerns {request : DirectoryRequest} (h : ¬request.Concerns page) :
    mappings.after request page = mappings page := by
  cases request with
  | map q frame writable => exact if_neg h
  | clear q => exact modify_of_ne _ h
  | setAccessed q on => exact modify_of_ne _ h
  | setDirty q on => exact modify_of_ne _ h
  | load address length => exact access_of_not_overlaps h
  | store address data => exact access_of_not_overlaps h

/-- What mapping a page alone decides: its frame, and whether it may be written. -/
def target (mappings : Mappings) (page : Page) : Option (Frame × Bool) :=
  (mappings page).map fun mapping => (mapping.frame, mapping.writable)

theorem target_modify {f : Mapping → Mapping}
    (hf : ∀ mapping, (f mapping).frame = mapping.frame ∧ (f mapping).writable = mapping.writable) :
    (mappings.modify q f).target page = mappings.target page := by
  unfold target modify
  split
  · rw [Option.map_map]
    refine congrArg (fun g => (mappings page).map g) (funext fun mapping => ?_)
    exact Prod.ext (hf mapping).1 (hf mapping).2
  · rfl

theorem target_access {write : Bool} {length address : Nat} :
    (access write length address mappings).1.target page = mappings.target page := by
  induction length generalizing address mappings with
  | zero => rfl
  | succ length ih =>
    rw [access]
    split
    · exact ih.trans (target_modify fun _ => ⟨rfl, rfl⟩)
    · rfl

theorem target_after {request : DirectoryRequest}
    (h : ∀ frame writable, request ≠ .map page frame writable) :
    (mappings.after request).target page = mappings.target page := by
  cases request with
  | map q frame writable =>
    have hne : q ≠ page := fun hpage => h frame writable (hpage ▸ rfl)
    rw [target, after, map, if_neg hne, target]
  | clear q => exact target_modify fun _ => ⟨rfl, rfl⟩
  | setAccessed q on => exact target_modify fun _ => ⟨rfl, rfl⟩
  | setDirty q on => exact target_modify fun _ => ⟨rfl, rfl⟩
  | load address length => exact target_access
  | store address data => exact target_access

/-- A page gets a record by being mapped, and keeps it. -/
theorem isSome_after {request : DirectoryRequest} :
    (mappings.after request page).isSome ↔
      (mappings page).isSome ∨ ∃ frame writable, request = .map page frame writable := by
  by_cases hmap : ∃ frame writable, request = .map page frame writable
  · obtain ⟨frame, writable, rfl⟩ := hmap
    simp [after, map]
  · have htarget : (mappings.after request).target page = mappings.target page :=
      target_after fun frame writable h => hmap ⟨frame, writable, h⟩
    replace htarget := congrArg Option.isSome htarget
    rw [target, target, Option.isSome_map, Option.isSome_map] at htarget
    rw [htarget, or_iff_left hmap]

theorem ofHistory_concat (history : DirectoryHistory) (request : DirectoryRequest)
    (answer : DirectoryAnswer) :
    ofHistory (history ++ [(request, answer)]) = (ofHistory history).after request := by
  rw [ofHistory, List.foldl_concat, ofHistory]

theorem isSome_ofHistory (history : DirectoryHistory) : (ofHistory history page).isSome ↔
    ∃ frame writable, .map page frame writable ∈ history.map Prod.fst := by
  induction history using List.reverseRecOn with
  | nil => simp [ofHistory, empty]
  | append_singleton history call ih =>
    rw [ofHistory_concat, isSome_after, ih]
    simp only [List.map_append, List.map_cons, List.map_nil, List.mem_append, List.mem_singleton,
      exists_or, eq_comm]

end Mappings

/-! ## Reading the words apart -/

/-- What the word of an entry says. -/
def DirectoryEntry.decode (entry : DirectoryEntry) : Mapping where
  frame := entry.frame
  writable := entry.has .writable
  present := entry.has .present
  accessed := entry.has .accessed
  dirty := entry.has .dirty

namespace DirectoryEntry

variable {entry : DirectoryEntry}

theorem decode_setPresent (on : Bool) :
    (entry.set .present on).decode = { entry.decode with present := on } := by
  simp [decode, has_set, frame_set]

theorem decode_setAccessed (on : Bool) :
    (entry.set .accessed on).decode = { entry.decode with accessed := on } := by
  simp [decode, has_set, frame_set]

theorem decode_setDirty (on : Bool) :
    (entry.set .dirty on).decode = { entry.decode with dirty := on } := by
  simp [decode, has_set, frame_set]

theorem decode_mark (write : Bool) : (entry.mark write).decode =
    { entry.decode with accessed := true, dirty := entry.has .dirty || write } := by
  rw [mark, decode_setDirty, decode_setAccessed]

theorem Fresh.decode_eq {frame : Frame} {writable dirty : Bool}
    (h : entry.Fresh frame writable dirty) :
    entry.decode = { frame, writable, present := true, accessed := false, dirty } := by
  rw [decode, h.frame_eq, h.writable_eq, h.present, h.accessed, h.dirty_eq]

end DirectoryEntry

namespace Directory

variable {n : Nat} {directory directory' last next : Directory} {memory memory' : Memory n}
  {page : Page} {write : Bool} {address start length count done : Nat} {fault : Option AccessFault}

/-- The records that the words of a directory stand for. -/
def decode (directory : Directory) : Mappings :=
  fun page => (directory.entries.get? page).map DirectoryEntry.decode

theorem decode_modify {f : DirectoryEntry → DirectoryEntry} {g : Mapping → Mapping}
    (h : ∀ entry : DirectoryEntry, (f entry).decode = g entry.decode) :
    decode { directory with entries := directory.entries.modify page f } =
      directory.decode.modify page g := by
  funext q
  rw [decode, PageMap.get?_modify, Mappings.modify, decode]
  split
  · rw [Option.map_map, Option.map_map]
    exact congrArg (fun k => (directory.entries.get? q).map k) (funext h)
  · rfl

theorem decode_setEntry {entry : DirectoryEntry} {frame : Frame} {writable : Bool}
    (h : entry.Fresh frame writable false) :
    (directory.setEntry page entry).decode = directory.decode.map page frame writable := by
  funext q
  rw [decode, setEntry, PageMap.get?_insert, Mappings.map, decode]
  split
  · rw [Option.map_some, h.decode_eq]
  · rfl

/-- A directory answers all questions by its records. -/
structure Shows (directory : Directory) (mappings : Mappings) : Prop where
  translate_eq : ∀ page, directory.translate page = mappings.translate page
  isWritable_eq : ∀ page, directory.isWritable page = mappings.isWritable page
  isAccessed_eq : ∀ page, directory.isAccessed page = (mappings page).any Mapping.accessed
  isDirty_eq : ∀ page, directory.isDirty page = (mappings page).any Mapping.dirty
  mappedPages_eq : directory.mappedPages = mappings.mappedPages

theorem mappedPages_decode : directory.mappedPages = directory.decode.mappedPages := by
  let pages := (directory.entries.toList.filter fun e => e.2.has .present).map Prod.fst
  have hnodup : pages.Nodup := directory.entries.nodup_pages fun entry => entry.has .present
  have hpresent : {page | (directory.decode page).any Mapping.present = true} =
      (pages.toFinset : Set Page) := by
    ext page
    rw [Finset.mem_coe, List.mem_toFinset,
      PageMap.mem_pages (p := fun entry : DirectoryEntry => entry.has .present)]
    show (directory.decode page).any Mapping.present = true ↔ _
    rw [decode]
    cases directory.entries.get? page <;> simp [DirectoryEntry.decode]
  rw [Mappings.mappedPages, hpresent, Set.ncard_coe_finset, List.toFinset_card_of_nodup hnodup,
    List.length_map, mappedPages, PageMap.count, List.countP_eq_length_filter]

theorem shows_decode (hplain : directory.IsPlain) : directory.Shows directory.decode where
  translate_eq page := by
    unfold translate Mappings.translate decode
    cases directory.entries.get? page <;> rfl
  isWritable_eq page := by
    unfold isWritable Mappings.isWritable decode has
    cases directory.entries.get? page <;> rfl
  isAccessed_eq page := by
    have hbusy : directory.busy = false := by rw [hplain]
    unfold isAccessed decode has
    rw [hbusy]
    cases directory.entries.get? page <;> rfl
  isDirty_eq page := by
    unfold isDirty decode has
    cases directory.entries.get? page <;> rfl
  mappedPages_eq := mappedPages_decode

/-! ## Accesses -/

theorem decode_mark : (directory.mark page write).decode = directory.decode.touch page write :=
  decode_modify fun _ => DirectoryEntry.decode_mark write

theorem permits_iff_decode :
    directory.Permits page write ↔ directory.decode.permits page write = true := by
  unfold Permits translate has Mappings.permits decode
  cases directory.entries.get? page with
  | none => simp
  | some entry => cases write <;> simp [DirectoryEntry.decode]

/-- An access that comes beyond its first byte goes on from the second as if it began there. -/
theorem Reaches.tail {length : Nat}
    (h : directory.Reaches address (length + 1) write (done + 1) fault last) :
    (directory.mark (.containing address) write).Reaches (address + 1) length write done fault
      last := by
  have hone : directory.Marked (directory.mark (.containing address) write) address 1 write := by
    simpa using (Marked.zero directory address write).step Nat.one_pos (pageOffset_lt address)
  have hshift : ∀ i, address + 1 + i = address + (i + 1) := fun i => by omega
  -- Byte `i` of the rest is byte `i + 1` of the whole, and a mark moves no page.
  obtain ⟨hle, hpermits, hrefused, hfault, hmarked⟩ := h
  refine ⟨by omega, fun i hi => ?_, fun hlt => ?_, ?_, hmarked.traits_eq, fun page => ?_⟩
  · rw [hone.permits_iff, hshift]
    exact hpermits _ (by omega)
  · rw [hone.permits_iff, hshift]
    exact hrefused (by omega)
  · rw [hfault, hshift]
    simp only [Nat.add_lt_add_iff_right]
  · rw [hmarked.get?_eq, hone.get?_eq]
    by_cases hfirst : .containing address = page <;>
      by_cases hrest : page.Overlaps (address + 1) done <;>
        simp [Page.overlaps_succ, Page.not_overlaps_zero, hfirst, hrest, Function.comp_def]

/-- An access marks the records of the bytes that it reaches and faults where it ends. -/
theorem access_of_reaches {length : Nat}
    (h : directory.Reaches address length write done fault last) :
    Mappings.access write length address directory.decode = (last.decode, fault) := by
  induction length generalizing address directory done with
  | zero =>
    obtain rfl : done = 0 := Nat.le_zero.1 h.done_le
    rw [h.marked.eq (.zero directory address write), h.fault_eq]
    rfl
  | succ length ih =>
    rw [Mappings.access]
    by_cases hpermits : directory.Permits (.containing address) write
    · cases done with
      | zero => exact absurd hpermits (h.refused (Nat.succ_pos _))
      | succ done => rw [if_pos (permits_iff_decode.1 hpermits), ← decode_mark, ih h.tail]
    · cases done with
      | zero =>
        rw [if_neg (mt permits_iff_decode.2 hpermits), h.fault_eq, if_pos (Nat.succ_pos _),
          h.marked.eq (.zero directory address write)]
        rfl
      | succ done => exact absurd (h.permits 0 (Nat.succ_pos _)) hpermits

section

variable {σ ρ : Type} (run : List Piece → Directory → σ → Outcome ρ)
  (ending : ρ → Option AccessFault × Directory) {s : σ} {r : ρ}
  (hnil : ∀ directory s r, (run [] directory s).result = .ok r → ending r = (none, directory))
  (hcons : ∀ start length rest directory s r,
    (run (⟨start, length⟩ :: rest) directory s).result = .ok r →
      (directory.Permits (.containing (address + start)) write ∧ ∃ s',
        (run rest (directory.mark (.containing (address + start)) write) s').result = .ok r) ∨
      ¬directory.Permits (.containing (address + start)) write ∧
        ending r = (some ⟨address + start, write⟩, directory))
include hnil hcons

/-- Pieces that either go on from a marked page or end with a fault make a walk. -/
theorem walk_of_pieces {stop : Nat} {pieces : List Piece} (hcut : Cut address stop start pieces)
    (h : (run pieces directory s).result = .ok r) :
    Walk write address stop (fun _ _ _ (_ _ : Unit) => True) start directory ()
      (ending r).1 (ending r).2 () := by
  induction hcut generalizing directory s with
  | nil =>
    rw [hnil _ _ _ h]
    exact .done directory ()
  | cons start length rest hpos hstop hfits hends hrest ih =>
    rcases hcons _ _ _ _ _ _ h with ⟨hpermits, s', hlast⟩ | ⟨hrefused, hending⟩
    · obtain ⟨frame, hframe⟩ := hpermits.1
      exact .piece start length directory frame () () () _ _ hpos hstop hfits hpermits hframe
        trivial (ih hlast)
    · rw [hending]
      exact .fault start directory () (by omega) hrefused

/-- So they reach as far as the pages permit. -/
theorem reaches_of_pieces {length : Nat}
    (h : (run (pieces address length) directory s).result = .ok r) :
    ∃ done, directory.Reaches address length write done (ending r).1 (ending r).2 := by
  have hwalk := walk_of_pieces run ending hnil hcons (cut_pieces address length) h
  obtain ⟨done, hreaches, -⟩ := hwalk.reaches (P := fun _ _ => True) (Nat.zero_le _)
    (.zero directory address write) nofun (fun _ _ _ _ _ _ _ _ _ _ => trivial) trivial
  exact ⟨done, hreaches⟩

end

/-- How far a load comes that is answered; memory may lack frames that it does not reach. -/
theorem exists_reaches_load {length : Nat} {loaded : Loaded}
    (h : (directory.load memory address length).result = .ok loaded) :
    ∃ done, directory.Reaches address length false done loaded.fault loaded.directory := by
  refine reaches_of_pieces (loadPieces memory address)
    (fun loaded => (loaded.fault, loaded.directory)) ?_ ?_ h
  · intro directory bytes loaded h
    cases h
    rfl
  · intro start length rest directory bytes loaded h
    obtain ⟨target, htarget, h⟩ := Outcome.bind_eq_ok_iff.1 h
    obtain ⟨-, rfl⟩ := Word.add_eq_ok_iff.1 htarget
    by_cases hpermits : directory.Permits (.containing (address + start)) false
    · obtain ⟨frame, -, htouch⟩ := touch_of_permits hpermits
      simp only [htouch] at h
      obtain ⟨contents, -, h⟩ := Outcome.bind_eq_ok_iff.1 h
      exact .inl ⟨hpermits, _, h⟩
    · simp only [touch_of_not_permits hpermits] at h
      cases h
      exact .inr ⟨hpermits, rfl⟩

/-- How far a store comes that is answered. -/
theorem exists_reaches_store {data : Bytes} {stored : Stored n}
    (h : (directory.store memory address data).result = .ok stored) :
    ∃ done, directory.Reaches address data.size true done stored.fault stored.directory := by
  refine reaches_of_pieces (storePieces address data)
    (fun stored : Stored n => (stored.fault, stored.directory)) ?_ ?_ h
  · intro directory memory stored h
    cases h
    rfl
  · intro start length rest directory memory stored h
    obtain ⟨target, htarget, h⟩ := Outcome.bind_eq_ok_iff.1 h
    obtain ⟨-, rfl⟩ := Word.add_eq_ok_iff.1 htarget
    by_cases hpermits : directory.Permits (.containing (address + start)) true
    · obtain ⟨frame, -, htouch⟩ := touch_of_permits hpermits
      simp only [htouch] at h
      obtain ⟨memory₁, -, h⟩ := Outcome.bind_eq_ok_iff.1 h
      exact .inl ⟨hpermits, _, h⟩
    · simp only [touch_of_not_permits hpermits] at h
      cases h
      exact .inr ⟨hpermits, rfl⟩

/-! ## Any requests -/

/-- Carry out a request. -/
def perform (s : Directory × Memory n) :
    DirectoryRequest → Outcome (DirectoryAnswer × Directory × Memory n)
  | .map page frame writable => do
    let (done, directory) ← s.1.map page frame writable
    return (.mapped done, directory, s.2)
  | .clear page => return (.updated, s.1.clear page, s.2)
  | .setAccessed page on => return (.updated, s.1.setAccessed page on, s.2)
  | .setDirty page on => return (.updated, s.1.setDirty page on, s.2)
  | .load address length => do
    let loaded ← s.1.load s.2 address length
    return (.loaded loaded.fault loaded.bytes, loaded.directory, s.2)
  | .store address data => do
    let stored ← s.1.store s.2 address data
    return (.stored stored.fault, stored.directory, stored.memory)

variable {request : DirectoryRequest} {answer : DirectoryAnswer} {history : DirectoryHistory}

/-- What a request does to the words, it does to the records. -/
theorem decode_perform (hplain : directory.IsPlain)
    (h : (perform (directory, memory) request).result = .ok (answer, next, memory')) :
    next.IsPlain ∧ next.decode = directory.decode.after request ∧
      directory.decode.Answers request answer := by
  cases request with
  | map page frame writable =>
    obtain ⟨⟨mapped, _⟩, hmap, h⟩ := Outcome.bind_eq_ok_iff.1 h
    cases h
    have hrefused : directory.refused = [] := by rw [hplain]
    have hdirty : directory.mapsDirty = false := by rw [hplain]
    rcases map_cases hmap with ⟨-, hmem, -⟩ | ⟨rfl, -, entry, hfresh, rfl⟩
    · rw [hrefused] at hmem
      cases hmem
    · rw [hdirty] at hfresh
      exact ⟨hplain, decode_setEntry hfresh, rfl⟩
  | clear page =>
    cases h
    exact ⟨hplain, decode_modify fun _ => DirectoryEntry.decode_setPresent false, rfl⟩
  | setAccessed page on =>
    cases h
    exact ⟨hplain, decode_modify fun _ => DirectoryEntry.decode_setAccessed on, rfl⟩
  | setDirty page on =>
    cases h
    exact ⟨hplain, decode_modify fun _ => DirectoryEntry.decode_setDirty on, rfl⟩
  | load address length =>
    obtain ⟨loaded, hload, h⟩ := Outcome.bind_eq_ok_iff.1 h
    cases h
    obtain ⟨done, hreaches⟩ := exists_reaches_load hload
    have haccess := access_of_reaches hreaches
    exact ⟨hreaches.marked.traits_eq.trans hplain, congrArg Prod.fst haccess.symm, _,
      by rw [haccess]⟩
  | store address data =>
    obtain ⟨stored, hstore, h⟩ := Outcome.bind_eq_ok_iff.1 h
    cases h
    obtain ⟨done, hreaches⟩ := exists_reaches_store hstore
    have haccess := access_of_reaches hreaches
    refine ⟨hreaches.marked.traits_eq.trans hplain, congrArg Prod.fst haccess.symm, ?_⟩
    rw [Mappings.Answers, haccess]

/-- A directory after any requests is a map from pages to records, told from the requests. -/
structure Packs (history : DirectoryHistory) (directory : Directory) (memory : Memory n) :
    Prop where
  /-- What can be asked of the directory can be told from the records. -/
  shows : directory.Shows (.ofHistory history)
  /-- Every request was answered as the records before it say. -/
  answers : ∀ (i : Nat) request answer, history[i]? = some (request, answer) →
    (Mappings.ofHistory (history.take i)).Answers request answer
  /-- The pages with records are those that were mapped. -/
  mapped_iff : ∀ page, (Mappings.ofHistory history page).isSome ↔
    ∃ frame writable, .map page frame writable ∈ history.map Prod.fst
  /-- The next request changes the records as it should, those of the pages that it concerns; and
      unless it maps a page, neither where the page is nor whether it may be written. -/
  next_shows : ∀ request answer next memory',
    (perform (directory, memory) request).result = .ok (answer, next, memory') →
      next.Shows ((Mappings.ofHistory history).after request) ∧
      (∀ page, ¬request.Concerns page →
        (Mappings.ofHistory history).after request page = Mappings.ofHistory history page) ∧
      ∀ page, (∀ frame writable, request ≠ .map page frame writable) →
        ((Mappings.ofHistory history).after request).target page =
          (Mappings.ofHistory history).target page
  /-- A page is mapped to a frame whose number fits; any other stops the machine. -/
  map_completes_iff : ∀ page frame writable,
    (perform (directory, memory) (.map page frame writable)).Completes ↔
      frame.index ≤ maxFrameNumber

theorem completes_map_iff {frame : Frame} {writable : Bool} (hplain : directory.IsPlain) :
    (perform (directory, memory) (.map page frame writable)).Completes ↔
      frame.index ≤ maxFrameNumber := by
  constructor
  · rintro ⟨_, h⟩
    obtain ⟨⟨mapped, _⟩, hmap, -⟩ := Outcome.bind_eq_ok_iff.1 h
    have hrefused : directory.refused = [] := by rw [hplain]
    rcases map_cases hmap with ⟨-, hmem, -⟩ | ⟨rfl, -⟩
    · rw [hrefused] at hmem
      cases hmem
    · obtain ⟨-, entry, hentry, -⟩ := map_eq_ok_iff.1 hmap
      obtain ⟨_, hfits, -⟩ := Outcome.bind_eq_ok_iff.1 hentry
      exact Outcome.require_eq_ok_iff.1 hfits
  · intro hle
    obtain ⟨mapped, next, hmap⟩ := directory.exists_map page writable hle
    exact .bind_of hmap (.pure _)

/-- Whatever is asked of a new directory, it is a map from pages to records, packed into words. -/
theorem run_packs {memory₀ : Memory n}
    (hruns : Outcome.Runs perform (ofTraits {}, memory₀) history (directory, memory)) :
    Packs history directory memory := by
  obtain ⟨⟨hplain, hdecode⟩, hanswers⟩ := hruns.facts
    (P := fun before s => s.1.IsPlain ∧ s.1.decode = .ofHistory before)
    (Q := fun before => (Mappings.ofHistory before).Answers)
    (fun before s request answer next hbefore hrequest => by
      obtain ⟨hnext, hafter, hanswer⟩ := decode_perform hbefore.1 hrequest
      rw [hbefore.2] at hafter hanswer
      exact ⟨⟨hnext, hafter.trans (Mappings.ofHistory_concat _ _ _).symm⟩, hanswer⟩)
    ⟨rfl, rfl⟩
  refine ⟨hdecode ▸ shows_decode hplain, hanswers, fun _ => Mappings.isSome_ofHistory history,
    fun request answer next memory' hrequest => ?_, fun _ _ _ => completes_map_iff hplain⟩
  obtain ⟨hnext, hafter, -⟩ := decode_perform hplain hrequest
  refine ⟨?_, fun _ => Mappings.after_of_not_concerns, fun _ => Mappings.target_after⟩
  rw [← hdecode, ← hafter]
  exact shows_decode hnext

/-- A page that was written and then cleared stays dirty, and its neighbour may not be written. -/
theorem run_packs_cleared :
    ∃ history directory memory, Outcome.Runs perform (ofTraits {}, Memory.blank 2) history
        (directory, memory) ∧
      history.map Prod.fst = [.map ⟨4⟩ ⟨1⟩ true, .map ⟨5⟩ ⟨0⟩ false, .store 0x4FFE #[1, 2, 3, 4],
        .setAccessed ⟨4⟩ false, .clear ⟨4⟩, .setDirty ⟨9⟩ true, .load 0x5000 1] ∧
      (directory.isDirty ⟨4⟩ ∧ directory.translate ⟨4⟩ = none ∧ directory.mappedPages = 1 ∧
        ¬directory.isDirty ⟨9⟩) ∧
      Packs history directory memory := by
  obtain ⟨⟨answers, directory, memory⟩, h, hqueries⟩ := Outcome.exists_of_any
    (x := Outcome.answerAll perform (ofTraits {}, Memory.blank 2)
      [.map ⟨4⟩ ⟨1⟩ true, .map ⟨5⟩ ⟨0⟩ false, .store 0x4FFE #[1, 2, 3, 4],
        .setAccessed ⟨4⟩ false, .clear ⟨4⟩, .setDirty ⟨9⟩ true, .load 0x5000 1])
    (p := fun run => run.2.1.isDirty ⟨4⟩ ∧ run.2.1.translate ⟨4⟩ = none ∧
      run.2.1.mappedPages = 1 ∧ ¬run.2.1.isDirty ⟨9⟩) (by decide +kernel)
  obtain ⟨history, hrequests, -, hruns⟩ := Outcome.exists_runs h
  exact ⟨history, directory, memory, hruns, hrequests, of_decide_eq_true hqueries,
    run_packs hruns⟩

end Directory

end DemandPaging
