import Xpmem.Driver.Clear

/-!
# Attachments

`xpmem_attach.c` without the clearing of page tables: the handlers of
attached areas, faults, attaching and detaching, with the kernel services
`vm_mmap` and `vm_munmap` they use.
-/

namespace Xpmem.Driver

open Xpmem.Foundation Xpmem.Kernel

variable {K : Platform}

/-- Take an attachment off its permit's list. -/
def unlinkAtt (s : State K) (permit : ApPtr) (att : AttPtr) : State K :=
  s.modAp permit fun ap => { ap with attList := ap.attList.erase att }

/-! ## The open and close handlers -/

/-- `xpmem_open_handler`, for a structure that is a copy. -/
def xpmemOpenHandler (s : State K) (info : VmaInfo) : VmaInfo :=
  match info.privateData with
  | none => info
  | some att =>
      if (s.att att).atVma ≠ some info.vma then
        { info with privateData := none }
      else info

/-- A split copies the structure of an area and opens the copy. -/
def copyVma (s : State K) (info : VmaInfo) : VmaInfo :=
  let copy := { info with vma := s.nextVma }
  if copy.xpmemOps then xpmemOpenHandler s copy else copy

/--
The part of `xpmem_close_handler` that finds where a partial unmap left
something of the attachment.  An area behind a hole is cut off from it.
There is no result where the driver calls `BUG_ON`.
-/
def remainingVaddr (s : State K) (mm : MmPtr) (att : AttPtr) (vma : Vma) :
    Option (State K × Nat) :=
  let record := s.att att
  if vma.start = record.atVaddr then some (s, vma.stop)
  else if vma.stop = u64 (record.atVaddr + record.atSize) then
    some (s, record.atVaddr)
  else
    match (s.mm mm).vmaAt vma.stop with
    | none => none
    | some tail =>
        if tail.payload.privateData ≠ some att then none
        else
          some
            (s.modMm mm fun mm =>
              mm.updateVma tail.payload.vma fun info =>
                { info with privateData := none, xpmemOps := false },
            record.atVaddr)

/-- The part of `xpmem_close_handler` after a partial unmap. -/
def closeFixup (s : State K) (mm : MmPtr) (att : AttPtr) (vma : Vma) :
    Option (State K) :=
  (remainingVaddr s mm att vma).bind fun found =>
    match (found.1.mm mm).vmaAt found.2 with
    | none => none
    | some remaining =>
        if remaining.payload.privateData ≠ some att then none
        else
          some (found.1.modAtt att fun record =>
            { record with
              atVaddr := remaining.start
              atSize := remaining.stop - remaining.start })

/-- `xpmem_close_handler`, for an area of `mm` that is being removed. -/
def xpmemCloseHandler (mm : MmPtr) (s : State K) (vma : Vma) :
    Option (State K) :=
  match vma.payload.privateData with
  | none => some s
  | some att =>
      let s := s.xpmemAttRef att
      let record := s.att att
      if record.destroying then some (s.xpmemAttDeref att)
      else if vma.start = record.atVaddr ∧
          vma.stop - vma.start = record.atSize then
        let s := s.modAtt att fun att => { att with destroying := true }
        let s := s.xpmemApRef record.ap
        let s := unlinkAtt s record.ap att
        let s := s.xpmemApDeref record.ap
        let s := s.xpmemAttDeref att
        some (s.xpmemAttDeref att)
      else
        (closeFixup s mm att vma).map fun s => s.xpmemAttDeref att

/-! ## Kernel services on areas -/

/-- The kernel calls `close` on an area it has removed. -/
def closeVma (mm : MmPtr) (s : State K) (vma : Vma) : Option (State K) :=
  if vma.payload.xpmemOps then xpmemCloseHandler mm s vma else some s

/-- Take the areas and leaves of `[start, stop)` out of an address space. -/
def unmapRange (s : State K) (mm : MmPtr) (start stop : Nat)
    (proper : start < stop) : State K :=
  { s.modMm mm (fun mm => mm.unmap (copyVma s) start stop proper) with
    nextVma := s.nextVma + 1 }

/--
`vm_munmap` of `[start, stop)`: the areas and leaves go first, then the
notifiers are called, then the areas removed are closed.
-/
def vmMunmap (s : State K) (current : Task) (mm : MmPtr)
    (start stop : Nat) : Option (State K) :=
  if proper : start < stop then
    if (s.mm mm).vmas.Free start stop then some s
    else
      let removed := (s.mm mm).removedVmas (copyVma s) start stop
      (notifyInvalidateRange (unmapRange s mm start stop proper) current
        mm start stop).bind fun s => removed.foldlM (closeVma mm) s
  else some s

/-- Insert an area that no structure was used for yet. -/
def addVma (s : State K) (mm : MmPtr) (start stop : Nat)
    (proper : start < stop) (xpmemOps : Bool) : State K :=
  { s.modMm mm (fun mm =>
      mm.addVma
        { start, stop,
          payload := ⟨s.nextVma, xpmemOps, false, none⟩ } proper) with
    nextVma := s.nextVma + 1 }

/--
`vm_mmap` of the XPMEM device.  `place` is the address the kernel picks when
the caller does not fix one, or nothing when the call fails for a reason of
its own.  `xpmem_mmap` sets the area's operations.
-/
def vmMmap (s : State K) (current : Task) (mm : MmPtr)
    (vaddr size : Nat) (fixed : Bool) (place : Option Nat) :
    Option (State K × Except Errno Nat) :=
  if proper : 0 < size ∧ size ≤ K.taskSize then
    match place with
    | none => some (s, .error .enomem)
    | some place =>
        if fixed then
          if K.taskSize - size < vaddr then some (s, .error .enomem)
          else
            (vmMunmap s current mm vaddr (vaddr + size)).map fun s =>
              (addVma s mm vaddr (vaddr + size) (by omega) true, .ok vaddr)
        else if place % pageSize = 0 ∧ place + size ≤ K.taskSize ∧
            (s.mm mm).vmas.Free place (place + size) then
          some (addVma s mm place (place + size) (by omega) true,
            .ok place)
        else some (s, .error .enomem)
  else some (s, .error .enomem)

/-! ## Faults -/

/-- What the kernel does during a fault on an attached area. -/
structure FaultEnv where
  /-- `PF_DUMPCORE` is set for the current task. -/
  dumpcore : Bool
  /-- The task is killed while it waits for `att->mutex`. -/
  killed : Bool
  gup : Gup
  /-- `pfn_valid` of the frame that was pinned. -/
  pfnValid : Bool
  /-- `remap_pfn_range` succeeds. -/
  remapOk : Bool

/-- The result of `xpmem_fault_handler`. -/
inductive VmFault where
  | sigbus
  | nopage
deriving DecidableEq, Repr

/--
The part of `xpmem_fault_handler` from the `killable` lock of the attachment
to label `out_2`: the frame that was pinned, or 0.
-/
def faultPin (s : State K) (att : AttPtr) (seg : SegPtr)
    (apTg segTg : TgPtr) (vaddr : Nat) (env : FaultEnv) :
    State K × Frame :=
  let record := s.att att
  if env.killed then (s, 0)
  else if record.destroying || (s.tg apTg).destroying ||
      (s.tg segTg).destroying then (s, 0)
  else if vaddr < record.atVaddr ∨
      u64 (record.atVaddr + record.atSize) < u64 (vaddr + 1) then (s, 0)
  else
    let segVaddr :=
      u64 (pageMask record.vaddr + u64Sub vaddr record.atVaddr)
    match xpmemEnsureValidPFN s seg segVaddr env.gup with
    | (s, .error _) => (s, 0)
    | (s, .ok pfn) =>
        (s.modAtt att fun att => { att with validPTEs := true }, pfn)

/-- Print a message. -/
def logMessage (s : State K) (message : Message) : State K :=
  { s with log := s.log ++ [message] }

/--
The part of `xpmem_fault_handler` after the segment was released: insert the
pte, or put a page that is there already.
-/
def faultMap (s : State K) (mm : MmPtr) (seg : SegPtr) (vaddr pfn : Nat)
    (env : FaultEnv) : State K × VmFault :=
  if pfn ≠ 0 ∧ env.pfnValid = true then
    let oldPfn := xpmemVaddrToPFN (s.mm mm) vaddr
    if oldPfn ≠ 0 then
      let put (s : State K) := putPages s seg [(vaddr / pageSize, pfn)]
      if oldPfn = pfn then (put s, .nopage)
      else (put (logMessage s (.pfnMismatch oldPfn pfn)), .sigbus)
    else if env.remapOk then
      (s.modMm mm fun mm => mm.mapFrame vaddr pfn, .nopage)
    else (s, .sigbus)
  else (s, .sigbus)

/--
`xpmem_block_recall_PFNs` when it may wait.  Nothing else runs in a
transition of this model, so waiting for a recall to end has no result.
-/
def xpmemBlockRecallPFNs (s : State K) (group : TgPtr) :
    Option (State K) :=
  if 0 < (s.tg group).nRecallPFNs then none
  else
    some (s.modTg group fun tg =>
      { tg with nRecallPFNs := tg.nRecallPFNs - 1 })

/-- `xpmem_unblock_recall_PFNs`. -/
def xpmemUnblockRecallPFNs (s : State K) (group : TgPtr) : State K :=
  s.modTg group fun tg => { tg with nRecallPFNs := tg.nRecallPFNs + 1 }

/--
`xpmem_fault_handler`, called with the area of `mm` that contains the
address.
-/
def xpmemFaultHandler (s : State K) (mm : MmPtr) (vma : Vma)
    (vaddr : Nat) (env : FaultEnv) : Option (State K × VmFault) :=
  if env.dumpcore then some (s, .sigbus)
  else
    match vma.payload.privateData with
    | none => some (s, .sigbus)
    | some att =>
        let s := s.xpmemAttRef att
        let permit := (s.att att).ap
        let s := s.xpmemApRef permit
        let apTg := (s.ap permit).tg
        let s := s.xpmemTgRef apTg
        if (s.ap permit).destroying || (s.tg apTg).destroying then
          let s := s.xpmemAttDeref att
          let s := s.xpmemApDeref permit
          some (s.xpmemTgDeref apTg, .sigbus)
        else
          let seg := (s.ap permit).seg
          let s := s.xpmemSegRef seg
          let segTg := (s.seg seg).tg
          let s := s.xpmemTgRef segTg
          -- `xpmem_seg_down_read` with the recall blocked
          (xpmemBlockRecallPFNs s segTg).map fun s =>
            let pinned :=
              if (s.seg seg).destroying || (s.tg segTg).destroying then
                (s, 0)
              else faultPin s att seg apTg segTg vaddr env
            let s := xpmemUnblockRecallPFNs pinned.1 segTg
            let s := s.xpmemApDeref permit
            let s := s.xpmemTgDeref apTg
            let mapped := faultMap s mm seg vaddr pinned.2 env
            let s := mapped.1.xpmemTgDeref segTg
            let s := s.xpmemSegDeref seg
            (s.xpmemAttDeref att, mapped.2)

/-! ## Attaching -/

/-- `xpmem_validate_access`: the source address of the window. -/
def xpmemValidateAccess (s : State K) (current : Task) (permit : ApPtr)
    (offset : BitVec 64) (size : Nat) (mode : BitVec 32) :
    Except Errno Nat :=
  if current.tgid ≠ (s.tg (s.ap permit).tg).tgid ∨
      (mode = xpmemRdwr ∧ (s.ap permit).mode = xpmemRdonly) then
    .error .eacces
  else if offset.toInt < 0 ∨ size = 0 ∨
      (s.seg (s.ap permit).seg).size < u64 (offset.toNat + size) then
    .error .einval
  else .ok (u64 ((s.seg (s.ap permit).seg).vaddr + offset.toNat))

/-- What the kernel does during an attach. -/
structure AttachEnv where
  /-- `kzalloc` fails. -/
  oom : Bool
  /-- The address `vm_mmap` picks, or nothing when it fails. -/
  place : Option Nat

/-- The loop of `xpmem_attach` over the areas in the requested range. -/
def xpmemVmaIn (mm : Mm K) (vaddr stop : Nat) : Bool :=
  match (mm.findVma vaddr).filter (fun vma => vma.start < stop) with
  | none => false
  | some _ =>
      (mm.vmas.meeting vaddr stop).any fun vma => vma.payload.xpmemOps

/-- Link a new attachment; it holds the creator's reference besides its own. -/
def attachLink (s : State K) (permit : ApPtr) (mm : MmPtr)
    (segVaddr size : Nat) : State K :=
  let att := s.nextAtt
  let s := { s with nextAtt := s.nextAtt + 1 }
  let s := s.modAtt att fun _ =>
    { vaddr := segVaddr, atSize := size, ap := permit, mm := mm,
      refcnt := 1, allocated := true }
  let s := s.xpmemAttRef att
  s.modAp permit fun ap => { ap with attList := ap.attList ++ [att] }

/-- Label `out_3` of `xpmem_attach` after a failure. -/
def attachUndo (s : State K) (permit : ApPtr) (att : AttPtr) : State K :=
  let s := s.modAtt att fun att => { att with destroying := true }
  let s := unlinkAtt s permit att
  s.xpmemAttDeref att

/-- Tie an attachment to the area that was mapped for it. -/
def attachBind (s : State K) (mm : MmPtr) (att : AttPtr) (atVaddr : Nat)
    (vma : Vma) : State K :=
  let s := s.modAtt att fun att => { att with atVaddr := atVaddr }
  let s := s.modMm mm fun mm =>
    mm.updateVma vma.payload.vma fun info =>
      { info with privateData := some att, pfnmap := true, xpmemOps := true }
  s.modAtt att fun att => { att with atVma := some vma.payload.vma }

/--
The part of `xpmem_attach` from the linked attachment to label `out_3`: map
an area and tie the attachment to it.
-/
def attachMap (s : State K) (current : Task) (mm : MmPtr)
    (permit : ApPtr) (att : AttPtr) (vaddr size : Nat)
    (place : Option Nat) : Option (State K × Except Errno Nat) :=
  if (s.ap permit).destroying then
    some (attachUndo s permit att, .error .enoent)
  else
    let fixed : Bool := vaddr ≠ 0
    if fixed && xpmemVmaIn (s.mm mm) vaddr (u64 (vaddr + size)) then
      some (attachUndo s permit att, .error .einval)
    else
      (vmMmap s current mm vaddr size fixed place).bind fun mapped =>
        match mapped with
        | (s, .error error) =>
            some (attachUndo s permit att, .error error)
        | (s, .ok atVaddr) =>
            ((s.mm mm).findVma atVaddr).map fun vma =>
              (attachBind s mm att atVaddr vma,
                .ok (u64 (atVaddr + offsetInPage (s.att att).vaddr)))

/--
The part of `xpmem_attach` between taking and dropping its references: the
checks on the segment, and the attachment.
-/
def attachChecked (s : State K) (current : Task) (mm : MmPtr)
    (permit : ApPtr) (seg : SegPtr) (segTg : TgPtr)
    (offset : BitVec 64) (size vaddr : Nat) (env : AttachEnv) :
    Option (State K × Except Errno Nat) :=
  if (s.seg seg).destroying || (s.tg segTg).destroying then
    some (s, .error .enoent)
  else
    match xpmemValidateAccess s current permit offset size xpmemRdwr with
    | .error error => some (s, .error error)
    | .ok segVaddr =>
        let size := u64 (size + offsetInPage segVaddr)
        if current.tgid = (s.tg segTg).tgid ∧ vaddr ≠ 0 ∧
            segVaddr < u64 (vaddr + size) ∧
            vaddr < u64 (segVaddr + size) then
          some (s, .error .einval)
        else if env.oom then some (s, .error .enomem)
        else
          let att := s.nextAtt
          (attachMap (attachLink s permit mm segVaddr size) current mm
            permit att vaddr size env.place).map
              fun mapped => (mapped.1.xpmemAttDeref att, mapped.2)

/-- `xpmem_attach`, called in a task whose address space is `mm`. -/
def xpmemAttach (s : State K) (current : Task) (mm : MmPtr)
    (apid offset : BitVec 64) (size vaddr : BitVec 64)
    (env : AttachEnv) : Option (State K × Except Errno Nat) :=
  let vaddr := vaddr.toNat
  if apid.toInt ≤ 0 then some (s, .error .einval)
  else if vaddr ≠ 0 ∧
      K.taskSize ≤ u64Sub (u64 (vaddr + pageSize)) (offsetInPage vaddr) then
    some (s, .error .einval)
  else if offsetInPage vaddr ≠ 0 ∨ offsetInPage offset.toNat ≠ 0 then
    some (s, .error .einval)
  else
    let size :=
      if offsetInPage size.toNat ≠ 0 then
        u64 (size.toNat + (pageSize - offsetInPage size.toNat))
      else size.toNat
    match s.findTg (idToTgid K apid) false with
    | none => some (s, .error .enoent)
    | some apTg =>
        let s := s.xpmemTgRef apTg
        match s.findAp apTg apid with
        | none => some (s.xpmemTgDeref apTg, .error .enoent)
        | some permit =>
            let s := s.xpmemApRef permit
            let seg := (s.ap permit).seg
            let s := s.xpmemSegRef seg
            let segTg := (s.seg seg).tg
            let s := s.xpmemTgRef segTg
            (attachChecked s current mm permit seg segTg offset size vaddr
              env).map fun attached =>
                let s := attached.1.xpmemApDeref permit
                let s := s.xpmemTgDeref apTg
                let s := s.xpmemSegDeref seg
                (s.xpmemTgDeref segTg, attached.2)

/-! ## Detaching -/

/--
What `xpmem_detach` and `xpmem_detach_att` do once the attachment is marked:
unpin its pages and cut its ties to the area and to the permit.
-/
def detachUnlink (s : State K) (mm : MmPtr) (permit : ApPtr)
    (att : AttPtr) (vma : Vma) : Option (State K) :=
  (xpmemUnpinPages s (s.ap permit).seg mm (s.att att).atVaddr
    (s.att att).atSize).map fun s =>
      let s := s.modMm mm fun mm =>
        mm.updateVma vma.payload.vma fun info =>
          { info with privateData := none }
      let s := s.modAtt att fun att => { att with validPTEs := false }
      unlinkAtt s permit att

/-- `xpmem_detach`, called in a task whose address space is `mm`. -/
def xpmemDetach (s : State K) (current : Task) (mm : MmPtr)
    (atVaddr : Nat) (killed : Bool) :
    Option (State K × Except Errno Unit) :=
  match (s.mm mm).vmaAt atVaddr with
  | none => some (s, .ok ())
  | some vma =>
      match vma.payload.privateData with
      | none => some (s, .error .einval)
      | some att =>
          if vma.payload.xpmemOps = false then some (s, .error .einval)
          else
            let s := s.xpmemAttRef att
            if killed then some (s.xpmemAttDeref att, .error .eintr)
            else if (s.att att).destroying then
              some (s.xpmemAttDeref att, .ok ())
            else
              let s := s.modAtt att fun att =>
                { att with destroying := true }
              let permit := (s.att att).ap
              let s := s.xpmemApRef permit
              if current.tgid ≠ (s.tg (s.ap permit).tg).tgid then
                let s := s.modAtt att fun att =>
                  { att with destroying := false }
                let s := s.xpmemApDeref permit
                some (s.xpmemAttDeref att, .error .eacces)
              else
                (detachUnlink s mm permit att vma).bind fun s =>
                  (vmMunmap s current mm vma.start
                    (vma.start + (s.att att).atSize)).map fun s =>
                      let s := s.xpmemAttDeref att
                      let s := s.xpmemApDeref permit
                      (s.xpmemAttDeref att, .ok ())

/-- `xpmem_detach_att`. -/
def xpmemDetachAtt (s : State K) (current : Task) (permit : ApPtr)
    (att : AttPtr) : Option (State K) :=
  let mm := current.mm.getD (s.att att).mm
  if (s.att att).destroying then some s
  else
    let s := s.modAtt att fun att => { att with destroying := true }
    match (s.mm mm).vmaAt (s.att att).atVaddr with
    | none => some s
    | some vma =>
        (detachUnlink s mm permit att vma).bind fun s =>
          (if current.mm = none then some s
            else
              vmMunmap s current mm vma.start
                (vma.start + (s.att att).atSize)).map
            fun s => s.xpmemAttDeref att

end Xpmem.Driver
