import Xpmem.Foundation.RangeList
import Xpmem.Kernel.PageTable

/-!
# Address spaces

An `Mm` is what the driver reads and changes of an `mm_struct`: its list of
virtual memory areas, its page table, and the MMU notifiers registered on it.
A structure `vm_area_struct` has an identity of its own, because the driver
keeps a pointer to one (`at_vma`): splitting an area keeps the structure for
one side and gives the other side a new one.
-/

namespace Xpmem.Kernel

open Xpmem.Foundation

variable {K : Platform}

/-- What the driver reads of a `vm_area_struct` beside its bounds. -/
structure VmaInfo where
  /-- Which structure this is. -/
  vma : Nat
  /-- `vm_ops == &xpmem_vm_ops`, the test of `xpmem_is_vm_ops_set`. -/
  xpmemOps : Bool
  /-- `VM_PFNMAP` is set in `vm_flags`. -/
  pfnmap : Bool
  /-- `vm_private_data`. -/
  privateData : Option Nat
deriving DecidableEq, Repr

/-- A virtual memory area `[vm_start, vm_end)`. -/
abbrev Vma := Range VmaInfo

/-- The part of an `mm_struct` the driver depends on. -/
structure Mm (K : Platform) where
  vmas : RangeList VmaInfo
  table : PageTable K
  /-- The registered notifiers, as pointers to what contains them. -/
  notifiers : List Nat

namespace Mm

/-- The address space of a new process. -/
def empty : Mm K where
  vmas := .empty
  table := .empty
  notifiers := []

/-- `find_vma`: the first area that ends above the address. -/
def findVma (mm : Mm K) (addr : Nat) : Option Vma :=
  mm.vmas.find addr

/-- `find_vma` followed by the test that the area has begun. -/
def vmaAt (mm : Mm K) (addr : Nat) : Option Vma :=
  mm.vmas.containing addr

/-- The area whose structure is `vma`. -/
def vmaOf (mm : Mm K) (vma : Nat) : Option Vma :=
  mm.vmas.ranges.find? fun area => area.payload.vma = vma

/-- The frame mapped at an address. -/
def frameAt (mm : Mm K) (addr : Nat) : Option Frame :=
  mm.table.pte (addr / pageSize)

/-- Change the structure `vma`. -/
def updateVma (mm : Mm K) (vma : Nat) (change : VmaInfo → VmaInfo) :
    Mm K :=
  { mm with
    vmas := mm.vmas.mapPayload fun info =>
      if info.vma = vma then change info else info }

/--
The part of `munmap` that changes the address space: split off what is
outside `[start, stop)`, forget the areas inside and clear their leaves.
-/
def unmap (mm : Mm K) (copy : VmaInfo → VmaInfo) (start stop : Nat)
    (proper : start < stop) :
    Mm K :=
  { mm with
    vmas := mm.vmas.carve copy start stop proper
    table := mm.table.clear (start / pageSize) (stop / pageSize) }

/--
The areas `munmap` removes.  A part of an area is split off into a new
structure before it is removed; a whole area is removed as it is.
-/
def removedVmas (mm : Mm K) (copy : VmaInfo → VmaInfo)
    (start stop : Nat) : List Vma :=
  (mm.vmas.meeting start stop).map fun area =>
    if start ≤ area.start ∧ area.stop ≤ stop then area
    else
      { start := max area.start start
        stop := min area.stop stop
        payload := copy area.payload }

/-- Add an area to a gap. -/
def addVma (mm : Mm K) (area : Vma) (proper : area.start < area.stop) :
    Mm K :=
  { mm with vmas := mm.vmas.insert area proper }

/-- The split `mprotect` makes at one end of its range. -/
def splitVma (mm : Mm K) (lower upper : VmaInfo → VmaInfo) (addr : Nat) :
    Mm K :=
  { mm with vmas := mm.vmas.splitAt lower upper addr }

/--
`zap_vma_ptes`: clear the leaves of `[addr, addr + size)`, if the range lies
in the area and the area is a `VM_PFNMAP` one.
-/
def zapVmaPtes (mm : Mm K) (area : Vma) (addr size : Nat) : Mm K :=
  if addr < area.start ∨ area.stop < addr + size ∨
      area.payload.pfnmap = false then
    mm
  else
    { mm with
      table := mm.table.clear (addr / pageSize)
        ((addr + size) / pageSize) }

/-- Map one frame at the page of an address. -/
def mapFrame (mm : Mm K) (addr : Nat) (frame : Frame) : Mm K :=
  { mm with table := mm.table.map (addr / pageSize) frame }

/-- No page of `[start, stop)` is mapped. -/
def Unmapped (mm : Mm K) (start stop : Nat) : Prop :=
  ∀ addr, start ≤ addr → addr < stop → mm.frameAt addr = none

end Mm

end Xpmem.Kernel
