import Mathlib.Algebra.Order.Ring.Nat

/-!
# Platform constants and machine arithmetic

The driver is compiled for one kernel configuration.  `Platform` collects
what it reads of that configuration: `TASK_SIZE`, the byte order, and the
number of base pages that one entry of each page-table level spans.  Base
pages have 4 KiB.

Addresses and sizes are natural numbers below `2 ^ 64`; every sum, difference
or narrowing the driver computes in a fixed-width type is written with `u64`,
`u64Sub` or `int32`.
-/

namespace Xpmem.Kernel

/-- `PAGE_SIZE`. -/
def pageSize : Nat := 4096

/-- A page frame number. -/
abbrev Frame := Nat

/-- The kernel configuration the driver is built for. -/
structure Platform where
  /-- `TASK_SIZE`, one above the highest user address. -/
  taskSize : Nat
  /-- Whether the first member of a structure is its high half. -/
  bigEndian : Bool
  /-- `PMD_SIZE`, `PUD_SIZE`, `P4D_SIZE` and `PGDIR_SIZE` are
  `pageSize * 2 ^ order`. -/
  pmdOrder : Nat
  pudOrder : Nat
  p4dOrder : Nat
  pgdOrder : Nat
  taskSize_aligned : taskSize % pageSize = 0
  taskSize_le : taskSize ≤ 2 ^ 62
  pmd_le_pud : pmdOrder ≤ pudOrder
  pud_le_p4d : pudOrder ≤ p4dOrder
  p4d_le_pgd : p4dOrder ≤ pgdOrder
  pgd_le : pgdOrder ≤ 50

/-- Four-level tables: the p4d level is folded into the pgd. -/
def fourLevel : Platform where
  taskSize := 2 ^ 47 - 4096
  bigEndian := false
  pmdOrder := 9
  pudOrder := 18
  p4dOrder := 27
  pgdOrder := 27
  taskSize_aligned := by decide
  taskSize_le := by decide
  pmd_le_pud := by decide
  pud_le_p4d := by decide
  p4d_le_pgd := by decide
  pgd_le := by decide

/-- Five-level tables: one top-level entry spans `2 ^ 48` bytes. -/
def fiveLevel : Platform where
  taskSize := 2 ^ 56 - 4096
  bigEndian := false
  pmdOrder := 9
  pudOrder := 18
  p4dOrder := 27
  pgdOrder := 36
  taskSize_aligned := by decide
  taskSize_le := by decide
  pmd_le_pud := by decide
  pud_le_p4d := by decide
  p4d_le_pgd := by decide
  pgd_le := by decide

/-! ## Fixed-width arithmetic -/

/-- A sum in `u64`, `size_t` or `unsigned long`. -/
def u64 (value : Nat) : Nat :=
  value % 2 ^ 64

/-- A difference of two `u64` values. -/
def u64Sub (left right : Nat) : Nat :=
  (left + 2 ^ 64 - right) % 2 ^ 64

/-- Conversion to `int`, which keeps the low 32 bits. -/
def int32 (value : Int) : Int :=
  (value + 2 ^ 31) % 2 ^ 32 - 2 ^ 31

/-- `offset_in_page`. -/
def offsetInPage (addr : Nat) : Nat :=
  addr % pageSize

/-- `addr & PAGE_MASK`. -/
def pageMask (addr : Nat) : Nat :=
  addr - addr % pageSize

theorem u64_of_lt {value : Nat} (small : value < 2 ^ 64) :
    u64 value = value :=
  Nat.mod_eq_of_lt small

theorem u64Sub_of_le {left right : Nat}
    (ordered : right ≤ left) (small : left < 2 ^ 64) :
    u64Sub left right = left - right := by
  unfold u64Sub
  omega

theorem int32_of_bounds {value : Int}
    (low : -2 ^ 31 ≤ value) (high : value < 2 ^ 31) :
    int32 value = value := by
  unfold int32
  omega

theorem int32_int32 (value : Int) : int32 (int32 value) = int32 value := by
  unfold int32
  omega

theorem pageMask_of_aligned {addr : Nat}
    (aligned : addr % pageSize = 0) :
    pageMask addr = addr := by
  simp [pageMask, aligned]

end Xpmem.Kernel
