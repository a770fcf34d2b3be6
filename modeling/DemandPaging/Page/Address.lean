/-
  Pages that are named by addresses.

  An address names a page only if it is the first of it, and a page lies in the
  address space only if its base address is a word; anything else is a panic.

  * `above_eq_ok_iff`: counting pages upwards stays below the end of the address
    space.
-/
import DemandPaging.Page
import DemandPaging.Word

namespace DemandPaging.Page

/-- The page that starts at an address, which must be the start of one. -/
def ofBase (address : Nat) : Outcome Page :=
  match ofBase? address with
  | some page => pure page
  | none => Outcome.halt (.unalignedPage address)

/-- The pages that start at the given addresses, each of which must be the start
    of one. -/
def ofBases : List Nat → Outcome (List Page)
  | [] => return []
  | address :: rest => do
    let page ← ofBase address
    let pages ← ofBases rest
    return page :: pages

/-- The page `count` pages above a page, which must start at a word. -/
def above (page : Page) (count : Nat) : Outcome Page := do
  let distance ← Word.mul count pageSize
  let address ← Word.add page.base distance
  return containing address

theorem above_eq_ok_iff {page other : Page} {count : Nat} :
    (page.above count).result = .ok other ↔
      page.base + count * pageSize < wordLimit ∧ other = ⟨page.number + count⟩ := by
  have hpage : containing (page.base + count * pageSize) = ⟨page.number + count⟩ := by
    simp only [containing, base, ← Nat.add_mul, Nat.mul_div_cancel _ (by decide : 0 < pageSize)]
  simp only [above, Outcome.bind_eq_ok_iff, Word.mul_eq_ok_iff, Word.add_eq_ok_iff,
    Outcome.result_pure, Except.ok.injEq]
  constructor
  · rintro ⟨_, ⟨_, rfl⟩, _, ⟨hlt, rfl⟩, rfl⟩
    exact ⟨hlt, hpage⟩
  · rintro ⟨hlt, rfl⟩
    exact ⟨_, ⟨by omega, rfl⟩, _, ⟨hlt, rfl⟩, hpage⟩

end DemandPaging.Page
