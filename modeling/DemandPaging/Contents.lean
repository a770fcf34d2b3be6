/-
  The bytes of a page, of a sector and of a file.

  * `Contents.overwrite` replaces a range of a page (`getElem_overwrite`),
    `Contents.slice` reads one, `Contents.ofBytes` starts a page with given
    bytes and fills it up with zeros;
  * `Contents.sectors` cuts a page into sectors and `Contents.ofSectors` puts
    them together again (`ofSectors_sectors`);
  * `Bytes.readAt` is what a file yields at an offset: fewer bytes than asked for
    where the file ends.
-/
import DemandPaging.Layout

namespace DemandPaging

/-- Bytes of a file, or that a process loads or stores. -/
abbrev Bytes : Type := Array UInt8

/-- The bytes of one sector. -/
abbrev Sector : Type := Vector UInt8 sectorSize

/-- The bytes of one page. -/
abbrev Contents : Type := Vector UInt8 pageSize

/-- What a file yields at an offset: the bytes from there on, `length` at
    most. -/
def Bytes.readAt (file : Bytes) (offset length : Nat) : Bytes :=
  file.extract offset (offset + length)

/-- A sector of zeros. -/
def Sector.zero : Sector :=
  Vector.replicate sectorSize 0

namespace Contents

/-- A page of zeros. -/
def zero : Contents :=
  Vector.replicate pageSize 0

/-- Replace the bytes from `offset` on by `data`, as far as they lie in the
    page. -/
def overwrite (contents : Contents) (offset : Nat) (data : Bytes) : Contents :=
  Vector.ofFn fun i =>
    if h : offset ≤ i ∧ i - offset < data.size then data[i - offset] else contents[i]

/-- The bytes of a page from `offset` on, `length` at most. -/
def slice (contents : Contents) (offset length : Nat) : Bytes :=
  contents.toArray.extract offset (offset + length)

/-- A page that starts with the given bytes; the rest is zero. -/
def ofBytes (data : Bytes) : Contents :=
  Vector.ofFn fun i => data.getD i 0

theorem sector_bound (k : Fin sectorsPerPage) (i : Fin sectorSize) :
    k.val * sectorSize + i.val < pageSize := by
  have hk := k.isLt
  have hi := i.isLt
  simp only [sectorsPerPage, sectorSize, pageSize] at *
  omega

/-- The `k`-th sector of a page. -/
def sector (contents : Contents) (k : Fin sectorsPerPage) : Sector :=
  Vector.ofFn fun i => contents[(⟨k.val * sectorSize + i.val, sector_bound k i⟩ : Fin pageSize)]

/-- The sectors of a page, in order. -/
def sectors (contents : Contents) : List Sector :=
  (List.finRange sectorsPerPage).map contents.sector

/-- The page that the given sectors make up.  Missing sectors are zero. -/
def ofSectors (sectors : List Sector) : Contents :=
  Vector.ofFn fun i =>
    match sectors[i.val / sectorSize]? with
    | some sector => sector[(⟨i.val % sectorSize, Nat.mod_lt _ (by decide)⟩ : Fin sectorSize)]
    | none => 0

@[simp] theorem getElem_zero {i : Nat} (hi : i < pageSize) : zero[i] = 0 := by
  simp [zero]

theorem getElem_overwrite (contents : Contents) (offset : Nat) (data : Bytes) {i : Nat}
    (hi : i < pageSize) :
    (contents.overwrite offset data)[i] =
      if h : offset ≤ i ∧ i - offset < data.size then data[i - offset] else contents[i] := by
  simp [overwrite]

theorem getElem_ofBytes (data : Bytes) {i : Nat} (hi : i < pageSize) :
    (ofBytes data)[i] = data.getD i 0 := by
  simp [ofBytes]

@[simp] theorem length_sectors (contents : Contents) :
    contents.sectors.length = sectorsPerPage := by
  simp [sectors]

theorem ofSectors_sectors (contents : Contents) : ofSectors contents.sectors = contents := by
  ext i hi
  have hk : i / sectorSize < sectorsPerPage := by
    simp only [pageSize, sectorSize, sectorsPerPage] at *
    omega
  have hs : contents.sectors[i / sectorSize]? = some (contents.sector ⟨i / sectorSize, hk⟩) := by
    simp [sectors, hk]
  have hi' : i / sectorSize * sectorSize + i % sectorSize = i := Nat.div_add_mod' i sectorSize
  simp only [ofSectors, Vector.getElem_ofFn, hs, sector, Fin.getElem_fin, hi']

end Contents

end DemandPaging
