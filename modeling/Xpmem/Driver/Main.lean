import Xpmem.Driver.Make

/-!
# Entry points

`xpmem_main.c`, with the release half of `xpmem_mmu_notifier.c` and the
recall entry points of `xpmem_pfn.c`: opening and closing the device, the
teardown of a thread group, the ioctls, and the procfs unpin request.
-/

namespace Xpmem.Driver

open Xpmem.Foundation Xpmem.Kernel

variable {K : Platform}

/-! ## Opening -/

/-- What the kernel does while the device is opened. -/
structure OpenEnv where
  cred : Cred := {}
  /-- `kzalloc` fails. -/
  oom : Bool := false
  /-- `mmu_notifier_register` succeeds. -/
  registerOk : Bool := true

/-- The thread group `xpmem_open` fills in, registers and hashes. -/
def linkTg (s : State K) (tgid : Pid) (mm : MmPtr) (cred : Cred) :
    State K :=
  let group := s.nextTg
  let s := { s with nextTg := s.nextTg + 1 }
  let s := s.modTg group fun _ =>
    { tgid := tgid, uid := cred.uid, gid := cred.gid,
      addrLimit := K.taskSize, mm := mm, mmuInitialized := true,
      refcnt := 1, allocated := true }
  let s := s.modMm mm fun mm =>
    { mm with notifiers := group :: mm.notifiers }
  let index := xpmemTgHashtableIndex tgid
  { s with
    myPart :=
      { s.myPart with
        tgHashtable := Function.update s.myPart.tgHashtable index
          (s.myPart.tgHashtable index ++ [group]) } }

/-- `xpmem_open`, called in a task whose address space is `mm`. -/
def xpmemOpen (s : State K) (current : Task) (mm : MmPtr)
    (env : OpenEnv) : State K × Except Errno Unit :=
  match s.findTg current.tgid false with
  | some group => ((s.xpmemTgRef group).xpmemTgDeref group, .ok ())
  | none =>
      if env.oom then (s, .error .enomem)
      else if env.registerOk = false then (s, .error .efault)
      else (linkTg s current.tgid mm env.cred, .ok ())

/-! ## Teardown -/

/-- `xpmem_teardown`. -/
def xpmemTeardown (s : State K) (current : Task) (group : TgPtr) :
    Option (State K) :=
  let s := s.modTg group fun tg => { tg with destroying := true }
  (xpmemReleaseApsOfTg s current group).bind fun s =>
    (xpmemRemoveSegsOfTg s group).map fun s =>
      let s := s.modTg group fun tg => { tg with destroyed := true }
      s.xpmemTgDeref group

/-- The search of `xpmem_mmu_release` through all buckets. -/
def findTgOfMm (s : State K) (mm : MmPtr) : Option TgPtr :=
  ((List.range hashtableSize).flatMap s.myPart.tgHashtable).find?
    fun group => (s.tg group).mm = mm && !(s.tg group).destroying

/-- `xpmem_mmu_release`, for `mm`. -/
def xpmemMmuRelease (s : State K) (current : Task) (mm : MmPtr) :
    Option (State K) :=
  let abnormal (s : State K) :=
    match findTgOfMm s mm with
    | none => some s
    | some group => xpmemTeardown (s.xpmemTgRef group) current group
  match s.findTg current.tgid false with
  | none => abnormal s
  | some group =>
      let s := s.xpmemTgRef group
      if (s.tg group).mm = mm then xpmemTeardown s current group
      else abnormal (s.xpmemTgDeref group)

/-- Unregister the notifier of a group. -/
def dropNotifier (s : State K) (mm : MmPtr) (group : TgPtr) : State K :=
  s.modMm mm fun mm =>
    { mm with notifiers := mm.notifiers.erase group }

/--
`mmu_notifier_unregister`: a notifier that is still registered gets its
release callback first.
-/
def mmuNotifierUnregister (s : State K) (current : Task) (group : TgPtr)
    (mm : MmPtr) : Option (State K) :=
  if group ∈ (s.mm mm).notifiers then
    (xpmemMmuRelease s current mm).map fun s => dropNotifier s mm group
  else some s

/-- `xpmem_mmu_notifier_unlink`. -/
def xpmemMmuNotifierUnlink (s : State K) (current : Task)
    (group : TgPtr) : Option (State K) :=
  if (s.tg group).mmuInitialized = false ∨
      (s.tg group).mmuUnregisterCalled = true then
    some s
  else
    mmuNotifierUnregister
      (s.modTg group fun tg => { tg with mmuUnregisterCalled := true })
      current group (s.tg group).mm

/-- `xpmem_destroy_tg`. -/
def xpmemDestroyTg (s : State K) (current : Task) (group : TgPtr) :
    Option (State K) :=
  (xpmemMmuNotifierUnlink s current group).map fun s =>
    (s.xpmemTgDeref group).xpmemTgDeref group

/-- Take a group out of its hash bucket. -/
def unhashTg (s : State K) (group : TgPtr) : State K :=
  let index := xpmemTgHashtableIndex (s.tg group).tgid
  { s with
    myPart :=
      { s.myPart with
        tgHashtable := Function.update s.myPart.tgHashtable index
          ((s.myPart.tgHashtable index).erase group) } }

/-- `xpmem_flush`, when it belongs to the current process. -/
def xpmemFlush (s : State K) (current : Task) : Option (State K) :=
  match s.findTg current.tgid true with
  | none => some s
  | some group =>
      xpmemDestroyTg (unhashTg (s.xpmemTgRef group) group) current group

/-! ## Process exit -/

/-- `mmu_notifier_release`: all release callbacks, then no notifier is left. -/
def mmuNotifierRelease (s : State K) (current : Task) (mm : MmPtr) :
    Option (State K) :=
  ((s.mm mm).notifiers.foldlM
    (fun s _ => xpmemMmuRelease s current mm) s).map
      fun s => s.modMm mm fun mm => { mm with notifiers := [] }

/-- The rest of `exit_mmap`: free all page tables and close all areas. -/
def exitMmap (s : State K) (mm : MmPtr) : Option (State K) :=
  let closed := (s.mm mm).vmas.ranges
  closed.foldlM (closeVma mm)
    (s.modMm mm fun mm => { mm with vmas := .empty, table := .empty })

/-! ## Recall requests -/

/--
`xpmem_disallow_blocking_recall_PFNs`.  Waiting for faults to end has no
result, as nothing else runs in a transition of this model.
-/
def xpmemDisallowBlockingRecallPFNs (s : State K) (group : TgPtr) :
    Option (State K) :=
  if (s.tg group).nRecallPFNs < 0 then none
  else
    some (s.modTg group fun tg =>
      { tg with nRecallPFNs := tg.nRecallPFNs + 1 })

/-- `xpmem_allow_blocking_recall_PFNs`. -/
def xpmemAllowBlockingRecallPFNs (s : State K) (group : TgPtr) :
    State K :=
  s.modTg group fun tg => { tg with nRecallPFNs := tg.nRecallPFNs - 1 }

/-- `xpmem_fork_begin`. -/
def xpmemForkBegin (s : State K) (current : Task) :
    Option (State K × Except Errno Unit) :=
  match s.findTg current.tgid false with
  | none => some (s, .error .enoent)
  | some group =>
      (xpmemDisallowBlockingRecallPFNs (s.xpmemTgRef group) group).bind
        fun s =>
          (xpmemRecallPFNsOfTg s group).map fun s =>
            (s.xpmemTgDeref group, .ok ())

/-- `xpmem_fork_end`. -/
def xpmemForkEnd (s : State K) (current : Task) :
    State K × Except Errno Unit :=
  match s.findTg current.tgid false with
  | none => (s, .error .enoent)
  | some group =>
      let s := xpmemAllowBlockingRecallPFNs (s.xpmemTgRef group) group
      (s.xpmemTgDeref group, .ok ())

/--
`xpmem_unpin_procfs_write` for the group of `tgid`; `stopped` is what
`xpmem_is_thread_group_stopped` finds.
-/
def xpmemUnpinProcfsWrite (s : State K) (tgid : Pid) (stopped : Bool) :
    Option (State K × Except Errno Unit) :=
  match s.findTg tgid false with
  | none => some (s, .error .esrch)
  | some group =>
      let s := s.xpmemTgRef group
      if stopped = false then some (s.xpmemTgDeref group, .error .eperm)
      else
        (xpmemDisallowBlockingRecallPFNs s group).bind fun s =>
          (xpmemRecallPFNsOfTg s group).map fun s =>
            let s := xpmemAllowBlockingRecallPFNs s group
            (s.xpmemTgDeref group, .ok ())

/-! ## The ioctls -/

/-- The commands of `xpmem_ioctl` with the fields the driver reads. -/
inductive Cmd where
  | version
  | make (vaddr size : BitVec 64) (permitType : BitVec 32)
      (permitValue : BitVec 64)
  | remove (segid : BitVec 64)
  | get (segid : BitVec 64) (flags permitType : BitVec 32)
      (permitValue : BitVec 64)
  | release (apid : BitVec 64)
  | attach (apid offset size vaddr : BitVec 64)
  | detach (vaddr : BitVec 64)
  | forkBegin
  | forkEnd
  | unknown
deriving DecidableEq, Repr

/-- What the kernel does during an ioctl. -/
structure IoctlEnv where
  cred : Cred := {}
  /-- `copy_from_user` succeeds. -/
  copyIn : Bool := true
  /-- `put_user` succeeds. -/
  putUser : Bool := true
  /-- `kzalloc` fails. -/
  oom : Bool := false
  /-- The address `vm_mmap` picks, or nothing when it fails. -/
  place : Option Nat := none
  /-- The task is killed while it waits for `att->mutex`. -/
  killed : Bool := false

/-- `XPMEM_CURRENT_VERSION`. -/
def xpmemCurrentVersion : BitVec 64 := 0x00026005

/-- What a system call returns. -/
inductive Ret where
  | value (value : BitVec 64)
  | error (errno : Errno)
  /-- `-ENOIOCTLCMD`. -/
  | noIoctlCmd
  | fault (fault : VmFault)
deriving DecidableEq, Repr

/-- The return value of a function that returns 0 or an error. -/
def Ret.ofUnit : Except Errno Unit → Ret
  | .ok _ => .value 0
  | .error errno => .error errno

/-- `XPMEM_CMD_MAKE`. -/
def ioctlMake (s : State K) (current : Task) (vaddr size : BitVec 64)
    (permitType : BitVec 32) (permitValue : BitVec 64)
    (env : IoctlEnv) : Option (State K × Ret) :=
  match xpmemMake s current vaddr size permitType permitValue env.oom with
  | (s, .error error) => some (s, .error error)
  | (s, .ok segid) =>
      if env.putUser then some (s, .value segid)
      else
        (xpmemRemove s current segid).map fun removed =>
          (removed.1, .error .efault)

/-- `XPMEM_CMD_GET`. -/
def ioctlGet (s : State K) (current : Task) (segid : BitVec 64)
    (flags permitType : BitVec 32) (permitValue : BitVec 64)
    (env : IoctlEnv) : Option (State K × Ret) :=
  match xpmemGet s current env.cred segid flags permitType permitValue
      env.oom with
  | (s, .error error) => some (s, .error error)
  | (s, .ok apid) =>
      if env.putUser then some (s, .value apid)
      else
        (xpmemRelease s current apid).map fun released =>
          (released.1, .error .efault)

/-- `XPMEM_CMD_ATTACH`. -/
def ioctlAttach (s : State K) (current : Task) (mm : MmPtr)
    (apid offset size vaddr : BitVec 64) (env : IoctlEnv) :
    Option (State K × Ret) :=
  (xpmemAttach s current mm apid offset size vaddr
    { oom := env.oom, place := env.place }).bind fun attached =>
      match attached with
      | (s, .error error) => some (s, .error error)
      | (s, .ok atVaddr) =>
          if env.putUser then some (s, .value (BitVec.ofNat 64 atVaddr))
          else
            (xpmemDetach s current mm atVaddr env.killed).map
              fun detached => (detached.1, .error .efault)

/-- `xpmem_ioctl`, called in a task whose address space is `mm`. -/
def xpmemIoctl (s : State K) (current : Task) (mm : MmPtr) (cmd : Cmd)
    (env : IoctlEnv) : Option (State K × Ret) :=
  match cmd with
  | .version => some (s, .value xpmemCurrentVersion)
  | .forkBegin =>
      (xpmemForkBegin s current).map fun done =>
        (done.1, Ret.ofUnit done.2)
  | .forkEnd =>
      let done := xpmemForkEnd s current
      some (done.1, Ret.ofUnit done.2)
  | .unknown => some (s, .noIoctlCmd)
  | .make vaddr size permitType permitValue =>
      if env.copyIn = false then some (s, .error .efault)
      else ioctlMake s current vaddr size permitType permitValue env
  | .remove segid =>
      if env.copyIn = false then some (s, .error .efault)
      else
        (xpmemRemove s current segid).map fun done =>
          (done.1, Ret.ofUnit done.2)
  | .get segid flags permitType permitValue =>
      if env.copyIn = false then some (s, .error .efault)
      else ioctlGet s current segid flags permitType permitValue env
  | .release apid =>
      if env.copyIn = false then some (s, .error .efault)
      else
        (xpmemRelease s current apid).map fun done =>
          (done.1, Ret.ofUnit done.2)
  | .attach apid offset size vaddr =>
      if env.copyIn = false then some (s, .error .efault)
      else ioctlAttach s current mm apid offset size vaddr env
  | .detach vaddr =>
      if env.copyIn = false then some (s, .error .efault)
      else
        (xpmemDetach s current mm vaddr.toNat env.killed).map fun done =>
          (done.1, Ret.ofUnit done.2)

end Xpmem.Driver
