import Xpmem.Driver.Main

/-!
# The driver in its system

A transition is one completed operation: a system call on the device, a page
fault on an attached area, the steps of a process exit, or a change user
space or the kernel makes to an address space together with the notifier
callback that goes with it.  An operation that does not return (it waits for
something only another task can do, or it runs into a `BUG_ON`) has no
transition.

What the driver does not decide is an argument of the operation: failing
allocations and copies, the address `vm_mmap` picks, the frame
`get_user_pages_remote` faults in.
-/

namespace Xpmem.Driver

open Xpmem.Foundation Xpmem.Kernel

variable {K : Platform}

/-- The operations of user space and the kernel. -/
inductive Op where
  /-- A new process. -/
  | spawn (tgid : Pid)
  | openDev (tgid : Pid) (env : OpenEnv)
  /-- The process closes the device while it runs. -/
  | closeDev (tgid : Pid)
  /-- `exit_mm`: the release callbacks, then `exit_mmap`. -/
  | exitMm (tgid : Pid)
  /-- `exit_files`, which closes the device. -/
  | exitFiles (tgid : Pid)
  | ioctl (tgid : Pid) (cmd : Cmd) (env : IoctlEnv)
  /-- A fault of the process on an address of an attached area. -/
  | fault (tgid : Pid) (vaddr : Nat) (env : FaultEnv)
  /-- A write to `/proc/xpmem/<tgid>`. -/
  | unpin (tgid : Pid) (stopped : Bool)
  /-- A notifier callback without a change of frames. -/
  | invalidate (tgid : Pid) (start stop : Nat)
  | munmap (tgid : Pid) (start stop : Nat)
  | mprotect (tgid : Pid) (start stop : Nat)
  /-- `mmap` into a gap, of the device or of something else. -/
  | mmap (tgid : Pid) (start stop : Nat) (dev : Bool)
  /-- The process faults in a page of its own. -/
  | touch (tgid : Pid) (vaddr : Nat) (frame : Frame)
  /-- The frames of part of one area are replaced or taken away. -/
  | replace (tgid : Pid) (start stop : Nat)
      (frames : Nat → Option Frame)
  /-- The kernel frees an empty page table. -/
  | freeTable (tgid : Pid) (index : Nat) (level : PageTable.Level)

/-- The bounds of a page-aligned range of user addresses. -/
def userRange (K : Platform) (start stop : Nat) : Bool :=
  start % pageSize = 0 && stop % pageSize = 0 && start < stop &&
    stop ≤ K.taskSize

/-! ## Changes of an address space -/

/-- Split the area that has the address inside; one side is a copy. -/
def splitVma (s : State K) (mm : MmPtr) (lower upper : VmaInfo → VmaInfo)
    (addr : Nat) : State K :=
  { s.modMm mm (fun mm => mm.splitVma lower upper addr) with
    nextVma := s.nextVma + 1 }

/--
The splits of `mprotect` at both ends of its range: the original structures
stay with the pieces inside the range.
-/
def splitEnds (s : State K) (mm : MmPtr) (start stop : Nat) : State K :=
  let s := splitVma s mm (copyVma s) id start
  splitVma s mm id (copyVma s) stop

/-- `mprotect`, whose change of protection is followed by a callback. -/
def sysMprotect (s : State K) (current : Task) (mm : MmPtr)
    (start stop : Nat) : Option (State K) :=
  notifyInvalidateRange (splitEnds s mm start stop) current mm start stop

/-- Map a frame at a page of an ordinary area that is not mapped yet. -/
def touchPage (s : State K) (mm : MmPtr) (vaddr : Nat) (frame : Frame) :
    Option (State K) :=
  match (s.mm mm).vmaAt vaddr with
  | none => none
  | some vma =>
      if vma.payload.xpmemOps ∨ frame = 0 ∨
          (s.mm mm).frameAt vaddr ≠ none then none
      else some (s.modMm mm fun mm => mm.mapFrame vaddr frame)

/-- The pages of a page-aligned range. -/
def pagesOf (start stop : Nat) : List Nat :=
  List.range' (start / pageSize) (stop / pageSize - start / pageSize)

/-- Replace frames inside one ordinary area, and call the notifiers. -/
def replaceFrames (s : State K) (current : Task) (mm : MmPtr)
    (start stop : Nat) (frames : Nat → Option Frame) :
    Option (State K) :=
  match (s.mm mm).vmaAt start with
  | none => none
  | some vma =>
      if vma.payload.xpmemOps ∨ vma.stop < stop ∨
          some 0 ∈ (pagesOf start stop).map frames then none
      else
        notifyInvalidateRange
          (s.modMm mm fun mm =>
            { mm with
              table := mm.table.assign frames (pagesOf start stop) })
          current mm start stop

/-! ## Transitions -/

/-- Run an operation in a process that has an address space. -/
def asTask {α : Type} (s : State K) (tgid : Pid)
    (body : Task → MmPtr → Option α) : Option α :=
  match s.proc tgid with
  | .running mm => body ⟨tgid, some mm⟩ mm
  | _ => none

/-- A new process with an empty address space. -/
def spawnProc (s : State K) (tgid : Pid) : State K :=
  { s with
    proc := Function.update s.proc tgid (.running s.nextMm)
    nextMm := s.nextMm + 1 }

/-- `exit_mm`. -/
def exitMm (s : State K) (tgid : Pid) (mm : MmPtr) : Option (State K) :=
  (mmuNotifierRelease s ⟨tgid, none⟩ mm).bind fun s =>
    (exitMmap s mm).map fun s =>
      { s with proc := Function.update s.proc tgid .exiting }

/-- `exit_files`. -/
def exitFiles (s : State K) (tgid : Pid) : Option (State K) :=
  (xpmemFlush s ⟨tgid, none⟩).map fun s =>
    { s with proc := Function.update s.proc tgid .absent }

/-- A call of the kernel that returns nothing. -/
def done (result : Option (State K)) : Option (State K × Ret) :=
  result.map fun s => (s, .value 0)

/-- One operation: its result, if it returns. -/
def step (s : State K) : Op → Option (State K × Ret)
  | .spawn tgid =>
      if s.proc tgid = .absent ∧ 0 < tgid.toInt then
        some (spawnProc s tgid, .value 0)
      else none
  | .openDev tgid env =>
      asTask s tgid fun task mm =>
        let opened := xpmemOpen s task mm env
        some (opened.1, Ret.ofUnit opened.2)
  | .closeDev tgid => asTask s tgid fun task _ => done (xpmemFlush s task)
  | .exitMm tgid => asTask s tgid fun _ mm => done (exitMm s tgid mm)
  | .exitFiles tgid =>
      if s.proc tgid = .exiting then done (exitFiles s tgid) else none
  | .ioctl tgid cmd env =>
      asTask s tgid fun task mm => xpmemIoctl s task mm cmd env
  | .fault tgid vaddr env =>
      asTask s tgid fun _ mm =>
        match (s.mm mm).vmaAt vaddr with
        | none => none
        | some vma =>
            if vma.payload.xpmemOps = false ∨ env.gup = .page 0 then none
            else
              (xpmemFaultHandler s mm vma vaddr env).map fun faulted =>
                (faulted.1, .fault faulted.2)
  | .unpin tgid stopped =>
      (xpmemUnpinProcfsWrite s tgid stopped).map fun written =>
        (written.1, Ret.ofUnit written.2)
  | .invalidate tgid start stop =>
      asTask s tgid fun task mm =>
        if start < stop ∧ stop ≤ K.taskSize then
          done (notifyInvalidateRange s task mm start stop)
        else none
  | .munmap tgid start stop =>
      asTask s tgid fun task mm =>
        if userRange K start stop then done (vmMunmap s task mm start stop)
        else none
  | .mprotect tgid start stop =>
      asTask s tgid fun task mm =>
        if userRange K start stop then
          done (sysMprotect s task mm start stop)
        else none
  | .mmap tgid start stop dev =>
      asTask s tgid fun _ mm =>
        if proper : start < stop then
          if userRange K start stop ∧ (s.mm mm).vmas.Free start stop then
            some (addVma s mm start stop proper dev, .value 0)
          else none
        else none
  | .touch tgid vaddr frame =>
      asTask s tgid fun _ mm => done (touchPage s mm vaddr frame)
  | .replace tgid start stop frames =>
      asTask s tgid fun task mm =>
        if userRange K start stop then
          done (replaceFrames s task mm start stop frames)
        else none
  | .freeTable tgid index level =>
      asTask s tgid fun _ mm =>
        some
          (s.modMm mm fun mm =>
            { mm with table := mm.table.free index level },
          .value 0)

end Xpmem.Driver
