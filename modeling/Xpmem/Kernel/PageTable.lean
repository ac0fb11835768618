import Xpmem.Kernel.Platform
import Mathlib.Logic.Function.Basic

/-!
# Page tables with base pages

A page table has entries at the levels pgd, p4d, pud, pmd and pte.  An entry
of an upper level is present or absent; a leaf holds a frame or nothing.  A
table cannot have a present entry below an absent one, which the fields of
`PageTable` state level by level.

Entries are indexed by page number: the pmd entry of page `page` is entry
`page / 2 ^ pmdOrder`, and so on.
-/

namespace Xpmem.Kernel

variable {K : Platform}

/-- A page table of base pages. -/
structure PageTable (K : Platform) where
  pgd : Nat → Bool
  p4d : Nat → Bool
  pud : Nat → Bool
  pmd : Nat → Bool
  pte : Nat → Option Frame
  pgd_of_p4d : ∀ page,
    p4d (page / 2 ^ K.p4dOrder) = true → pgd (page / 2 ^ K.pgdOrder) = true
  p4d_of_pud : ∀ page,
    pud (page / 2 ^ K.pudOrder) = true → p4d (page / 2 ^ K.p4dOrder) = true
  pud_of_pmd : ∀ page,
    pmd (page / 2 ^ K.pmdOrder) = true → pud (page / 2 ^ K.pudOrder) = true
  pmd_of_pte : ∀ page,
    (pte page).isSome = true → pmd (page / 2 ^ K.pmdOrder) = true

/-- Pages that share an entry of a lower level share the entry above. -/
theorem div_order_eq
    {low high page other : Nat} (ordered : low ≤ high)
    (equal : other / 2 ^ low = page / 2 ^ low) :
    other / 2 ^ high = page / 2 ^ high := by
  obtain ⟨extra, rfl⟩ := Nat.exists_eq_add_of_le ordered
  rw [Nat.pow_add, ← Nat.div_div_eq_div_mul, ← Nat.div_div_eq_div_mul,
    equal]

namespace PageTable

/-- The table of a new address space. -/
def empty : PageTable K where
  pgd _ := false
  p4d _ := false
  pud _ := false
  pmd _ := false
  pte _ := none
  pgd_of_p4d := by simp
  p4d_of_pud := by simp
  pud_of_pmd := by simp
  pmd_of_pte := by simp

@[simp]
theorem empty_pte (page : Nat) :
    (empty : PageTable K).pte page = none :=
  rfl

/-- Map a frame at a page, with all tables above it. -/
def map (table : PageTable K) (page : Nat) (frame : Frame) :
    PageTable K where
  pgd := Function.update table.pgd (page / 2 ^ K.pgdOrder) true
  p4d := Function.update table.p4d (page / 2 ^ K.p4dOrder) true
  pud := Function.update table.pud (page / 2 ^ K.pudOrder) true
  pmd := Function.update table.pmd (page / 2 ^ K.pmdOrder) true
  pte := Function.update table.pte page (some frame)
  pgd_of_p4d := by
    intro other present
    by_cases same : other / 2 ^ K.p4dOrder = page / 2 ^ K.p4dOrder
    · simp [div_order_eq K.p4d_le_pgd same]
    · rw [Function.update_of_ne same] at present
      have old := table.pgd_of_p4d other present
      by_cases upper : other / 2 ^ K.pgdOrder = page / 2 ^ K.pgdOrder
      · simp [upper]
      · simp [Function.update_of_ne upper, old]
  p4d_of_pud := by
    intro other present
    by_cases same : other / 2 ^ K.pudOrder = page / 2 ^ K.pudOrder
    · simp [div_order_eq K.pud_le_p4d same]
    · rw [Function.update_of_ne same] at present
      have old := table.p4d_of_pud other present
      by_cases upper : other / 2 ^ K.p4dOrder = page / 2 ^ K.p4dOrder
      · simp [upper]
      · simp [Function.update_of_ne upper, old]
  pud_of_pmd := by
    intro other present
    by_cases same : other / 2 ^ K.pmdOrder = page / 2 ^ K.pmdOrder
    · simp [div_order_eq K.pmd_le_pud same]
    · rw [Function.update_of_ne same] at present
      have old := table.pud_of_pmd other present
      by_cases upper : other / 2 ^ K.pudOrder = page / 2 ^ K.pudOrder
      · simp [upper]
      · simp [Function.update_of_ne upper, old]
  pmd_of_pte := by
    intro other present
    by_cases same : other = page
    · simp [same]
    · rw [Function.update_of_ne same] at present
      have old := table.pmd_of_pte other present
      by_cases upper : other / 2 ^ K.pmdOrder = page / 2 ^ K.pmdOrder
      · simp [upper]
      · simp [Function.update_of_ne upper, old]

theorem map_pte (table : PageTable K) (page other : Nat) (frame : Frame) :
    (table.map page frame).pte other =
      if other = page then some frame else table.pte other := by
  simp [map, Function.update_apply]

/-- Clear the leaves of the pages `[start, stop)`; the tables stay. -/
def clear (table : PageTable K) (start stop : Nat) : PageTable K where
  pgd := table.pgd
  p4d := table.p4d
  pud := table.pud
  pmd := table.pmd
  pte page := if start ≤ page ∧ page < stop then none else table.pte page
  pgd_of_p4d := table.pgd_of_p4d
  p4d_of_pud := table.p4d_of_pud
  pud_of_pmd := table.pud_of_pmd
  pmd_of_pte := by
    intro page present
    split at present
    · simp at present
    · exact table.pmd_of_pte page present

theorem clear_pte (table : PageTable K) (start stop page : Nat) :
    (table.clear start stop).pte page =
      if start ≤ page ∧ page < stop then none else table.pte page :=
  rfl

/-- Give each listed page the frame, or no frame, that `frames` says. -/
def assign (table : PageTable K) (frames : Nat → Option Frame) :
    List Nat → PageTable K
  | [] => table
  | page :: pages =>
      let table := table.assign frames pages
      match frames page with
      | some frame => table.map page frame
      | none => table.clear page (page + 1)

theorem assign_pte (table : PageTable K) (frames : Nat → Option Frame)
    (pages : List Nat) (other : Nat) :
    (table.assign frames pages).pte other =
      if other ∈ pages then frames other else table.pte other := by
  induction pages with
  | nil => simp [assign]
  | cons page pages induction =>
      simp only [assign]
      split
      · rename_i frame found
        rw [map_pte, induction]
        by_cases equal : other = page
        · simp [equal, found]
        · simp [equal]
      · rename_i found
        rw [clear_pte, induction]
        by_cases equal : other = page
        · simp [equal, found]
        · have outside : ¬ (page ≤ other ∧ other < page + 1) := by
            omega
          rw [if_neg outside]
          simp only [List.mem_cons, equal, false_or]

/-! ## Freeing tables -/

/-- The levels above the leaves. -/
inductive Level where
  | pmd
  | pud
  | p4d
  | pgd
deriving DecidableEq, Repr

/-- Clear one entry, when no entry of the level below is present under it. -/
def clearEntry {α : Type} (order below : Nat) (entries : Nat → Bool)
    (lower : Nat → α) (absent : α → Bool) (index : Nat) : Nat → Bool :=
  if (List.range (2 ^ (order - below))).all fun offset =>
      absent (lower (index * 2 ^ (order - below) + offset)) then
    Function.update entries index false
  else entries

theorem clearEntry_of_lower {α : Type} {order below : Nat}
    {entries : Nat → Bool} {lower : Nat → α} {absent : α → Bool}
    {index page : Nat} (ordered : below ≤ order)
    (present : absent (lower (page / 2 ^ below)) = false)
    (upper : entries (page / 2 ^ order) = true) :
    clearEntry order below entries lower absent index
      (page / 2 ^ order) = true := by
  unfold clearEntry
  split
  · rename_i empty
    rw [Function.update_apply]
    split
    · rename_i equal
      obtain ⟨extra, rfl⟩ := Nat.exists_eq_add_of_le ordered
      rw [Nat.pow_add, ← Nat.div_div_eq_div_mul] at equal
      rw [Nat.add_sub_cancel_left, List.all_eq_true] at empty
      have inside :=
        empty (page / 2 ^ below % 2 ^ extra)
          (List.mem_range.mpr (Nat.mod_lt _ (Nat.two_pow_pos extra)))
      rw [← equal, Nat.mul_comm, Nat.div_add_mod] at inside
      rw [present] at inside
      cases inside
    · exact upper
  · exact upper

theorem present_of_clearEntry {α : Type} {order below : Nat}
    {entries : Nat → Bool} {lower : Nat → α} {absent : α → Bool}
    {index entry : Nat}
    (present : clearEntry order below entries lower absent index entry =
      true) :
    entries entry = true := by
  unfold clearEntry at present
  split at present
  · rw [Function.update_apply] at present
    split at present
    · cases present
    · exact present
  · exact present

/-- Free the table one upper entry points to, when it is empty. -/
def free (table : PageTable K) (index : Nat) : Level → PageTable K
  | .pmd =>
      { table with
        pmd := clearEntry K.pmdOrder 0 table.pmd table.pte Option.isNone
          index
        pud_of_pmd := by
          intro page present
          exact table.pud_of_pmd page (present_of_clearEntry present)
        pmd_of_pte := by
          intro page present
          apply clearEntry_of_lower (Nat.zero_le _)
          · simpa using present
          · exact table.pmd_of_pte page present }
  | .pud =>
      { table with
        pud := clearEntry K.pudOrder K.pmdOrder table.pud table.pmd not
          index
        p4d_of_pud := by
          intro page present
          exact table.p4d_of_pud page (present_of_clearEntry present)
        pud_of_pmd := by
          intro page present
          apply clearEntry_of_lower K.pmd_le_pud
          · simpa using present
          · exact table.pud_of_pmd page present }
  | .p4d =>
      { table with
        p4d := clearEntry K.p4dOrder K.pudOrder table.p4d table.pud not
          index
        pgd_of_p4d := by
          intro page present
          exact table.pgd_of_p4d page (present_of_clearEntry present)
        p4d_of_pud := by
          intro page present
          apply clearEntry_of_lower K.pud_le_p4d
          · simpa using present
          · exact table.p4d_of_pud page present }
  | .pgd =>
      { table with
        pgd := clearEntry K.pgdOrder K.p4dOrder table.pgd table.p4d not
          index
        pgd_of_p4d := by
          intro page present
          apply clearEntry_of_lower K.p4d_le_pgd
          · simpa using present
          · exact table.pgd_of_p4d page present }

theorem free_pte (table : PageTable K) (index : Nat) (level : Level) :
    (table.free index level).pte = table.pte := by
  cases level <;> rfl

/-! ## The level at which a page is absent -/

/--
The order of the highest absent entry on the way to a page: `none` when the
page is mapped.
-/
def absentOrder (table : PageTable K) (page : Nat) : Option Nat :=
  if table.pgd (page / 2 ^ K.pgdOrder) = false then some K.pgdOrder
  else if table.p4d (page / 2 ^ K.p4dOrder) = false then some K.p4dOrder
  else if table.pud (page / 2 ^ K.pudOrder) = false then some K.pudOrder
  else if table.pmd (page / 2 ^ K.pmdOrder) = false then some K.pmdOrder
  else if table.pte page = none then some 0
  else none

theorem absentOrder_le {table : PageTable K} {page order : Nat}
    (absent : table.absentOrder page = some order) :
    order ≤ K.pgdOrder := by
  have := K.pmd_le_pud
  have := K.pud_le_p4d
  have := K.p4d_le_pgd
  unfold absentOrder at absent
  split at absent
  · simp at absent
    omega
  · split at absent
    · simp at absent
      omega
    · split at absent
      · simp at absent
        omega
      · split at absent
        · simp at absent
          omega
        · split at absent
          · simp at absent
            omega
          · simp at absent

/-- A page is mapped exactly when no entry on the way to it is absent. -/
theorem absentOrder_eq_none_iff (table : PageTable K) (page : Nat) :
    table.absentOrder page = none ↔ (table.pte page).isSome = true := by
  constructor
  · intro present
    unfold absentOrder at present
    by_contra missing
    have leaf : table.pte page = none := by simpa using missing
    simp only [leaf, if_true] at present
    split at present
    · cases present
    · split at present
      · cases present
      · split at present
        · cases present
        · split at present <;> cases present
  · intro present
    have pmd := table.pmd_of_pte page present
    have pud := table.pud_of_pmd page pmd
    have p4d := table.p4d_of_pud page pud
    have pgd := table.pgd_of_p4d page p4d
    have leaf : table.pte page ≠ none := by
      intro missing
      simp [missing] at present
    simp [absentOrder, pgd, p4d, pud, pmd, leaf]

/-- All pages below an absent entry are absent at its level. -/
theorem absentOrder_of_absent
    {table : PageTable K} {page other order : Nat}
    (absent : table.absentOrder page = some order)
    (below : other / 2 ^ order = page / 2 ^ order) :
    table.absentOrder other = some order := by
  have pmdPud := K.pmd_le_pud
  have pudP4d := K.pud_le_p4d
  have same : ∀ level, order ≤ level →
      other / 2 ^ level = page / 2 ^ level :=
    fun _ ordered => div_order_eq ordered below
  have pgd := same K.pgdOrder (absentOrder_le absent)
  unfold absentOrder at absent ⊢
  split_ifs at absent with noPgd noP4d noPud noPmd noPte <;> cases absent
  · simp [pgd, noPgd]
  · simp [pgd, below, noPgd, noP4d]
  · simp [pgd, same K.p4dOrder pudP4d, below, noPgd, noP4d, noPud]
  · simp [pgd, same K.p4dOrder (pmdPud.trans pudP4d),
      same K.pudOrder pmdPud, below, noPgd, noP4d, noPud, noPmd]
  · simp only [Nat.pow_zero, Nat.div_one] at below
    subst other
    simp [noPgd, noP4d, noPud, noPmd, noPte]

/-- No page below an absent entry is mapped. -/
theorem pte_eq_none_of_absent
    {table : PageTable K} {page other order : Nat}
    (absent : table.absentOrder page = some order)
    (below : other / 2 ^ order = page / 2 ^ order) :
    table.pte other = none := by
  by_contra mapped
  have present := (table.absentOrder_eq_none_iff other).mpr
    (Option.isSome_iff_ne_none.mpr mapped)
  rw [absentOrder_of_absent absent below] at present
  cases present

/-! ## Tables that only gain upper entries -/

/-- Upper entries that are present stay present. -/
structure Retains (table next : PageTable K) : Prop where
  pgd : ∀ entry, table.pgd entry = true → next.pgd entry = true
  p4d : ∀ entry, table.p4d entry = true → next.p4d entry = true
  pud : ∀ entry, table.pud entry = true → next.pud entry = true
  pmd : ∀ entry, table.pmd entry = true → next.pmd entry = true

namespace Retains

theorem refl (table : PageTable K) : Retains table table :=
  ⟨fun _ => id, fun _ => id, fun _ => id, fun _ => id⟩

theorem trans {table next last : PageTable K} (earlier : Retains table next)
    (later : Retains next last) : Retains table last where
  pgd entry present := later.pgd entry (earlier.pgd entry present)
  p4d entry present := later.p4d entry (earlier.p4d entry present)
  pud entry present := later.pud entry (earlier.pud entry present)
  pmd entry present := later.pmd entry (earlier.pmd entry present)

theorem clear (table : PageTable K) (start stop : Nat) :
    Retains table (table.clear start stop) :=
  ⟨fun _ => id, fun _ => id, fun _ => id, fun _ => id⟩

theorem update {entries : Nat → Bool} (index : Nat) (entry : Nat)
    (present : entries entry = true) :
    Function.update entries index true entry = true := by
  rw [Function.update_apply]
  split
  · rfl
  · exact present

theorem map (table : PageTable K) (page : Nat) (frame : Frame) :
    Retains table (table.map page frame) :=
  ⟨update _, update _, update _, update _⟩

theorem assign (table : PageTable K) (frames : Nat → Option Frame)
    (pages : List Nat) : Retains table (table.assign frames pages) := by
  induction pages with
  | nil => exact .refl table
  | cons page pages induction =>
      rw [PageTable.assign]
      split
      · exact induction.trans (.map _ page _)
      · exact induction.trans (.clear _ page (page + 1))

/-- What is absent in the later table was absent at that level or above. -/
theorem absentOrder {table next : PageTable K} (retains : Retains table next)
    {page later : Nat} (absent : next.absentOrder page = some later) :
    later = 0 ∨ ∃ order, later ≤ order ∧
      table.absentOrder page = some order := by
  have pmdPud := K.pmd_le_pud
  have pudP4d := K.pud_le_p4d
  have p4dPgd := K.p4d_le_pgd
  have pgd := retains.pgd (page / 2 ^ K.pgdOrder)
  have p4d := retains.p4d (page / 2 ^ K.p4dOrder)
  have pud := retains.pud (page / 2 ^ K.pudOrder)
  have pmd := retains.pmd (page / 2 ^ K.pmdOrder)
  unfold PageTable.absentOrder at *
  grind

end Retains

/-! ## Tables that only lose leaves -/

/-- Only leaves were taken out. -/
structure Thins (table next : PageTable K) : Prop where
  pgd : next.pgd = table.pgd
  p4d : next.p4d = table.p4d
  pud : next.pud = table.pud
  pmd : next.pmd = table.pmd
  pte : ∀ page frame, next.pte page = some frame →
    table.pte page = some frame

namespace Thins

theorem refl (table : PageTable K) : Thins table table :=
  ⟨rfl, rfl, rfl, rfl, fun _ _ => id⟩

theorem trans {table next last : PageTable K} (earlier : Thins table next)
    (later : Thins next last) : Thins table last where
  pgd := later.pgd.trans earlier.pgd
  p4d := later.p4d.trans earlier.p4d
  pud := later.pud.trans earlier.pud
  pmd := later.pmd.trans earlier.pmd
  pte page frame leaf := earlier.pte page frame (later.pte page frame leaf)

theorem clear (table : PageTable K) (start stop : Nat) :
    Thins table (table.clear start stop) := by
  refine ⟨rfl, rfl, rfl, rfl, fun page frame leaf => ?_⟩
  rw [clear_pte] at leaf
  split at leaf
  · cases leaf
  · exact leaf

theorem retains {table next : PageTable K} (thins : Thins table next) :
    Retains table next where
  pgd _ present := thins.pgd ▸ present
  p4d _ present := thins.p4d ▸ present
  pud _ present := thins.pud ▸ present
  pmd _ present := thins.pmd ▸ present

theorem pte_eq_none {table next : PageTable K} (thins : Thins table next)
    {page : Nat} (gone : table.pte page = none) : next.pte page = none := by
  rw [Option.eq_none_iff_forall_ne_some] at gone ⊢
  exact fun frame leaf => gone frame (thins.pte page frame leaf)

/-- What is absent above the leaves is absent there as before. -/
theorem absentOrder {table next : PageTable K} (thins : Thins table next)
    (page : Nat) :
    next.absentOrder page = table.absentOrder page ∨
      (table.absentOrder page).getD 0 = 0 ∧
        (next.absentOrder page).getD 0 = 0 := by
  unfold PageTable.absentOrder
  rw [thins.pgd, thins.p4d, thins.pud, thins.pmd]
  split_ifs <;> simp

end Thins

end PageTable

end Xpmem.Kernel
