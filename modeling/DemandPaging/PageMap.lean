/-
  Maps from pages to values, kept in rising page order.

  A `PageMap` is a list of pages with their values, sorted by page number, so
  that two maps with the same look-ups are equal (`PageMap.ext_get?`) and
  `toList` runs through the pages upwards.

  * `get?_empty`, `get?_insert`, `get?_modify` are the look-ups of each map
    built here;
  * `mem_toList_iff` ties the list to the look-up.
-/
import DemandPaging.Page

namespace DemandPaging

/-- A map from pages to values. -/
structure PageMap (α : Type) where
  /-- The pages in the map with their values. -/
  toList : List (Page × α)
  /-- Each page stands once, and lower pages stand first. -/
  sorted : toList.Pairwise fun a b => a.1.number < b.1.number

namespace PageMap

variable {α : Type}

/-! ## Look-up and insertion in a sorted list -/

/-- The value of a page in a list of pages with values. -/
def find (page : Page) : List (Page × α) → Option α
  | [] => none
  | (p, a) :: rest => if p = page then some a else find page rest

/-- Give a page a value in a sorted list, at its place in the order. -/
def put (page : Page) (a : α) : List (Page × α) → List (Page × α)
  | [] => [(page, a)]
  | (p, b) :: rest =>
    if page.number < p.number then (page, a) :: (p, b) :: rest
    else if p = page then (page, a) :: rest
    else (p, b) :: put page a rest

theorem find_eq_none_of_lt {page : Page} {l : List (Page × α)}
    (h : ∀ e ∈ l, page.number < e.1.number) : find page l = none := by
  induction l with
  | nil => rfl
  | cons e rest ih =>
    have he := h e List.mem_cons_self
    have hne : e.1 ≠ page := fun h' => by simp [h'] at he
    simp [find, hne, ih fun x hx => h x (List.mem_cons_of_mem _ hx)]

theorem find_put (page q : Page) (a : α) (l : List (Page × α)) :
    find q (put page a l) = if page = q then some a else find q l := by
  induction l with
  | nil => simp [put, find]
  | cons e rest ih =>
    obtain ⟨p, b⟩ := e
    unfold put
    split
    · simp [find]
    · split
      · rename_i h; subst h
        by_cases hq : p = q <;> simp [find, hq]
      · rename_i hne
        by_cases hq : p = q
        · subst hq
          have : page ≠ p := fun h => hne h.symm
          simp [find, this]
        · simp [find, hq, ih]

theorem mem_put {page : Page} {a : α} {l : List (Page × α)} {e : Page × α}
    (h : e ∈ put page a l) : e = (page, a) ∨ e ∈ l := by
  induction l with
  | nil => simpa [put] using h
  | cons x rest ih =>
    unfold put at h
    split at h
    · simpa using h
    · split at h
      · rcases List.mem_cons.1 h with h | h
        · exact .inl h
        · exact .inr (List.mem_cons_of_mem _ h)
      · rcases List.mem_cons.1 h with h | h
        · exact .inr (h ▸ List.mem_cons_self)
        · exact (ih h).imp_right (List.mem_cons_of_mem _)

theorem sorted_put (page : Page) (a : α) {l : List (Page × α)}
    (h : l.Pairwise fun a b => a.1.number < b.1.number) :
    (put page a l).Pairwise fun a b => a.1.number < b.1.number := by
  induction l with
  | nil => simp [put]
  | cons e rest ih =>
    obtain ⟨p, b⟩ := e
    have ⟨hp, hrest⟩ := List.pairwise_cons.1 h
    unfold put
    split
    · rename_i hlt
      refine List.pairwise_cons.2 ⟨fun x hx => ?_, h⟩
      rcases List.mem_cons.1 hx with rfl | hx
      · exact hlt
      · exact Nat.lt_trans hlt (hp x hx)
    · split
      · rename_i heq; subst heq
        exact List.pairwise_cons.2 ⟨hp, hrest⟩
      · rename_i hge hne
        refine List.pairwise_cons.2 ⟨fun x hx => ?_, ih hrest⟩
        rcases mem_put hx with rfl | hx
        · have : p.number ≠ page.number := fun h' => hne (Page.ext h')
          exact Nat.lt_of_le_of_ne (Nat.le_of_not_lt hge) this
        · exact hp x hx

/-! ## Maps -/

/-- The map without pages. -/
def empty : PageMap α :=
  ⟨[], .nil⟩

instance : EmptyCollection (PageMap α) := ⟨empty⟩

instance : Inhabited (PageMap α) := ⟨empty⟩

/-- The value of a page. -/
def get? (m : PageMap α) (page : Page) : Option α :=
  find page m.toList

/-- Whether a page has a value. -/
def contains (m : PageMap α) (page : Page) : Bool :=
  (m.get? page).isSome

/-- Give a page a value, in place of the one it had. -/
def insert (m : PageMap α) (page : Page) (a : α) : PageMap α :=
  ⟨put page a m.toList, sorted_put page a m.sorted⟩

/-- Change the value of a page, if it has one. -/
def modify (m : PageMap α) (page : Page) (f : α → α) : PageMap α :=
  match m.get? page with
  | some a => m.insert page (f a)
  | none => m

/-- The number of pages in the map. -/
def size (m : PageMap α) : Nat :=
  m.toList.length

/-- The number of pages whose value has a property. -/
def count (m : PageMap α) (p : α → Bool) : Nat :=
  m.toList.countP fun e => p e.2

@[simp] theorem get?_empty (page : Page) : (empty : PageMap α).get? page = none := rfl

theorem get?_insert (m : PageMap α) (page q : Page) (a : α) :
    (m.insert page a).get? q = if page = q then some a else m.get? q :=
  find_put page q a m.toList

@[simp] theorem get?_insert_self (m : PageMap α) (page : Page) (a : α) :
    (m.insert page a).get? page = some a := by
  simp [get?_insert]

theorem get?_insert_of_ne (m : PageMap α) {page q : Page} (a : α) (h : page ≠ q) :
    (m.insert page a).get? q = m.get? q := by
  simp [get?_insert, h]

theorem get?_modify (m : PageMap α) (page q : Page) (f : α → α) :
    (m.modify page f).get? q = if page = q then (m.get? q).map f else m.get? q := by
  unfold modify
  by_cases hq : page = q
  · subst hq
    split <;> rename_i h <;> simp [h]
  · split <;> simp [get?_insert_of_ne, hq]

theorem mem_toList_iff {m : PageMap α} {page : Page} {a : α} :
    (page, a) ∈ m.toList ↔ m.get? page = some a := by
  obtain ⟨l, hl⟩ := m
  simp only [get?]
  induction l with
  | nil => simp [find]
  | cons e rest ih =>
    obtain ⟨p, b⟩ := e
    have ⟨hp, hrest⟩ := List.pairwise_cons.1 hl
    by_cases h : p = page
    · subst h
      have hnot : ∀ c, (p, c) ∉ rest := fun c hc => Nat.lt_irrefl _ (hp (p, c) hc)
      simp [find, hnot, eq_comm]
    · have h' : page ≠ p := fun e => h e.symm
      simp [find, h, h', ih hrest]

/-- Two sorted lists with the same members are equal. -/
theorem eq_of_sorted {l k : List (Page × α)}
    (hl : l.Pairwise fun a b => a.1.number < b.1.number)
    (hk : k.Pairwise fun a b => a.1.number < b.1.number)
    (h : ∀ e, e ∈ l ↔ e ∈ k) : l = k := by
  induction l generalizing k with
  | nil =>
    cases k with
    | nil => rfl
    | cons y ys => exact absurd ((h y).2 List.mem_cons_self) (by simp)
  | cons x xs ih =>
    cases k with
    | nil => exact absurd ((h x).1 List.mem_cons_self) (by simp)
    | cons y ys =>
      have ⟨hx, hxs⟩ := List.pairwise_cons.1 hl
      have ⟨hy, hys⟩ := List.pairwise_cons.1 hk
      have hxy : x = y := by
        rcases List.mem_cons.1 ((h x).1 List.mem_cons_self) with h1 | h1
        · exact h1
        · rcases List.mem_cons.1 ((h y).2 List.mem_cons_self) with h2 | h2
          · exact h2.symm
          · exact absurd (hy x h1) (Nat.lt_asymm (hx y h2))
      subst hxy
      refine congrArg _ (ih hxs hys fun e => ⟨fun he => ?_, fun he => ?_⟩)
      · rcases List.mem_cons.1 ((h e).1 (List.mem_cons_of_mem _ he)) with h1 | h1
        · exact absurd (h1 ▸ hx e he) (Nat.lt_irrefl _)
        · exact h1
      · rcases List.mem_cons.1 ((h e).2 (List.mem_cons_of_mem _ he)) with h1 | h1
        · exact absurd (h1 ▸ hy e he) (Nat.lt_irrefl _)
        · exact h1

/-- A map is known by its look-ups. -/
theorem ext_get? {m k : PageMap α} (h : ∀ page, m.get? page = k.get? page) : m = k := by
  obtain ⟨l, hl⟩ := m
  obtain ⟨r, hr⟩ := k
  have : l = r := eq_of_sorted hl hr fun e => by
    obtain ⟨page, a⟩ := e
    exact (mem_toList_iff (m := ⟨l, hl⟩)).trans (h page ▸ (mem_toList_iff (m := ⟨r, hr⟩)).symm)
  subst this
  rfl

end PageMap

end DemandPaging
