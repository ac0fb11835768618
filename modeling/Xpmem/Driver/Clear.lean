import Xpmem.Driver.Pfn

/-!
# Clearing the page tables of attachments

`xpmem_clear_PTEs_of_att` and the walks over it: all attachments of a permit,
all permits of a segment, all segments of a thread group.  The walks are used
by segment removal, by the recall of page frames and by the MMU notifier.

A walk drops its list lock around each visit and starts over if the visited
element was unlinked meanwhile.  In a transition of this model nothing else
runs meanwhile, and no visit unlinks an element, so a walk is a fold over the
list it finds.
-/

namespace Xpmem.Driver

open Xpmem.Foundation Xpmem.Kernel

variable {K : Platform}

/--
The call of `zap_vma_ptes` in `xpmem_clear_PTEs_of_att`.  A notifier callback
uses `at_vma`; an area that the running unmap has taken out of its address
space has no leaves left to zap.  Otherwise the area is looked up, and there
is no result when it is not found, which the driver would dereference.
-/
def zapPTEsOfAtt (s : State K) (att : AttPtr) (addr size : Nat)
    (fromMmu : Bool) : Option (State K) :=
  let record := s.att att
  let zap (vma : Vma) : State K :=
    s.modMm record.mm fun mm => mm.zapVmaPtes vma addr size
  if fromMmu then
    match record.atVma.bind (s.mm record.mm).vmaOf with
    | none => some s
    | some vma => some (zap vma)
  else ((s.mm record.mm).findVma record.atVaddr).map zap

/-- `xpmem_clear_PTEs_of_att`. -/
def xpmemClearPTEsOfAtt (s : State K) (att : AttPtr) (start stop : Nat)
    (fromMmu : Bool) : Option (State K) :=
  let record := s.att att
  if fromMmu && record.destroying then some s
  else if !record.validPTEs then some s
  else
    let attVaddrEnd := u64 (record.vaddr + record.atSize)
    let invalidateStart := max start record.vaddr
    let invalidateEnd := min stop attVaddrEnd
    if attVaddrEnd ≤ invalidateStart ∨ invalidateEnd ≤ record.vaddr then
      some s
    else
      let offsetStart := u64Sub invalidateStart record.vaddr
      let offsetEnd := u64Sub invalidateEnd record.vaddr
      let unpinAt := u64 (record.atVaddr + offsetStart)
      let invalidateLen := u64Sub offsetEnd offsetStart
      (xpmemUnpinPages s (s.ap record.ap).seg record.mm unpinAt
        invalidateLen).bind fun s =>
          (zapPTEsOfAtt s att unpinAt invalidateLen fromMmu).map fun s =>
            if offsetStart = 0 ∧ record.atSize = invalidateLen then
              s.modAtt att fun att => { att with validPTEs := false }
            else s

/-- One round of the loop of `xpmem_clear_PTEs_of_ap`. -/
def clearVisitAtt (start stop : Nat) (fromMmu : Bool) (s : State K)
    (att : AttPtr) : Option (State K) :=
  if (s.att att).validPTEs then
    (xpmemClearPTEsOfAtt (s.xpmemAttRef att) att start stop fromMmu).map
      fun s => s.xpmemAttDeref att
  else some s

/-- `xpmem_clear_PTEs_of_ap`. -/
def xpmemClearPTEsOfAp (s : State K) (permit : ApPtr) (start stop : Nat)
    (fromMmu : Bool) : Option (State K) :=
  (s.ap permit).attList.foldlM (clearVisitAtt start stop fromMmu) s

/-- One round of the loop of `xpmem_clear_PTEs_range`. -/
def clearVisitAp (start stop : Nat) (fromMmu : Bool) (s : State K)
    (permit : ApPtr) : Option (State K) :=
  (xpmemClearPTEsOfAp (s.xpmemApRef permit) permit start stop fromMmu).map
    fun s => s.xpmemApDeref permit

/-- `xpmem_clear_PTEs_range`. -/
def xpmemClearPTEsRange (s : State K) (seg : SegPtr) (start stop : Nat)
    (fromMmu : Bool) : Option (State K) :=
  (s.seg seg).apList.foldlM (clearVisitAp start stop fromMmu) s

/-- `xpmem_clear_PTEs`. -/
def xpmemClearPTEs (s : State K) (seg : SegPtr) : Option (State K) :=
  xpmemClearPTEsRange s seg (s.seg seg).vaddr
    (u64 ((s.seg seg).vaddr + (s.seg seg).size)) false

/-! ## Recall -/

/--
`xpmem_recall_PFNs`.  A segment that is being destroyed or recalled already
is waited for.
-/
def xpmemRecallPFNs (s : State K) (seg : SegPtr) : Option (State K) :=
  if (s.seg seg).destroying || (s.seg seg).recallingPFNs then
    if (s.seg seg).destroyed then some s else none
  else
    (xpmemClearPTEs
      (s.modSeg seg fun seg => { seg with recallingPFNs := true }) seg).map
        fun s => s.modSeg seg fun seg => { seg with recallingPFNs := false }

/-- One round of the loop of `xpmem_recall_PFNs_of_tg`. -/
def recallVisitSeg (s : State K) (seg : SegPtr) : Option (State K) :=
  if (s.seg seg).destroying then some s
  else
    (xpmemRecallPFNs (s.xpmemSegRef seg) seg).map
      fun s => s.xpmemSegDeref seg

/-- `xpmem_recall_PFNs_of_tg`. -/
def xpmemRecallPFNsOfTg (s : State K) (segTg : TgPtr) :
    Option (State K) :=
  (s.tg segTg).segList.foldlM recallVisitSeg s

/-! ## Invalidation -/

/-- One round of the loop of `xpmem_invalidate_PTEs_range`. -/
def invalidateVisitSeg (start stop : Nat) (s : State K) (seg : SegPtr) :
    Option (State K) :=
  if (s.seg seg).destroying then some s
  else
    let segStart := (s.seg seg).vaddr
    let segEnd := u64 ((s.seg seg).vaddr + (s.seg seg).size)
    if start ≤ segEnd ∧ segStart ≤ stop then
      (xpmemClearPTEsRange (s.xpmemSegRef seg) seg start stop true).map
        fun s => s.xpmemSegDeref seg
    else some s

/-- `xpmem_invalidate_PTEs_range`. -/
def xpmemInvalidatePTEsRange (s : State K) (segTg : TgPtr)
    (start stop : Nat) : Option (State K) :=
  (s.tg segTg).segList.foldlM (invalidateVisitSeg start stop) s

/-- One round of the loop of `xpmem_invalidate_range`. -/
def invalidateVisitVma (segTg : TgPtr) (start stop : Nat) (s : State K)
    (vma : Vma) : Option (State K) :=
  if vma.payload.xpmemOps then some s
  else
    let vmStart := max vma.start start
    if vma.stop ≤ vmStart then some s
    else
      let vmEnd := min vma.stop stop
      if vmEnd ≤ vma.start then some s
      else xpmemInvalidatePTEsRange s segTg vmStart vmEnd

/-- The rounding of the bounds in `xpmem_invalidate_range`. -/
def roundStart (start : Nat) : Nat :=
  if offsetInPage start ≠ 0 then u64Sub start (offsetInPage start)
  else start

def roundStop (stop : Nat) : Nat :=
  if offsetInPage stop ≠ 0 then u64 (stop + (pageSize - offsetInPage stop))
  else stop

/-- `xpmem_invalidate_range`, called for `mm` in the task `current`. -/
def xpmemInvalidateRange (s : State K) (current : Task) (segTg : TgPtr)
    (mm : MmPtr) (start stop : Nat) : Option (State K) :=
  if (s.tg segTg).tgid ≠ current.tgid then some s
  else
    let start := roundStart start
    let stop := roundStop stop
    -- `find_vma_intersection`
    match ((s.mm mm).findVma start).filter
        (fun vma => vma.start < stop) with
    | none => xpmemInvalidatePTEsRange s segTg start stop
    | some _ =>
        ((s.mm mm).vmas.meeting start stop).foldlM
          (invalidateVisitVma segTg start stop) s

/-- The kernel's calls of all notifiers registered on an address space. -/
def notifyInvalidateRange (s : State K) (current : Task) (mm : MmPtr)
    (start stop : Nat) : Option (State K) :=
  (s.mm mm).notifiers.foldlM
    (fun s segTg => xpmemInvalidateRange s current segTg mm start stop) s

end Xpmem.Driver
