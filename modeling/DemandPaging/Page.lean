/-
  Pages of user virtual memory.

  A page is known by its number; its base address is the number times
  `pageSize`.  Page numbers, unlike addresses, are never unaligned.

  * `Page.containing` is the page of an address (`Page.base_containing`),
    `Page.ofBase?` the page that starts at an address;
  * `Page.text` is how messages name a page.
-/
import DemandPaging.Layout
import DemandPaging.Hex

namespace DemandPaging

/-- A page of user virtual memory, by its number. -/
@[ext] structure Page where
  /-- The pages below this one. -/
  number : Nat
  deriving DecidableEq, Repr

namespace Page

/-- The address of the first byte of a page. -/
def base (page : Page) : Nat :=
  page.number * pageSize

/-- The page that an address lies in. -/
def containing (address : Nat) : Page :=
  ⟨address / pageSize⟩

/-- The page that starts at an address, if one does. -/
def ofBase? (address : Nat) : Option Page :=
  if pageOffset address = 0 then some (containing address) else none

/-- How messages name a page: by its base address, in at least eight digits. -/
def text (page : Page) : String :=
  "page " ++ Hex.padded 8 page.base

theorem base_containing (address : Nat) : (containing address).base = pageRoundDown address := by
  simp only [containing, base, pageRoundDown, pageOffset, pageSize]
  omega

end Page

end DemandPaging
