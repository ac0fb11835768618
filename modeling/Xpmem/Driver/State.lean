import Xpmem.Kernel.AddressSpace

/-!
# The state of the driver

The four kinds of driver objects (`struct xpmem_thread_group`,
`xpmem_segment`, `xpmem_access_permit` and `xpmem_attachment`), the partition
structure with the hash table of thread groups, and what the driver uses of
the kernel: processes, address spaces and page references.

An object lives at a pointer.  `kzalloc` takes a pointer that was never used
before, and `kfree` clears `allocated` and leaves the contents, so a pointer
always names at most one object of the whole run.  The locks are not part of
the state: a transition of this model is a whole operation, which takes them
and gives them back.
-/

namespace Xpmem.Driver

open Xpmem.Foundation Xpmem.Kernel

/-- `pid_t`, as the 32 bits it has. -/
abbrev Pid := BitVec 32

abbrev TgPtr := Nat
abbrev SegPtr := Nat
abbrev ApPtr := Nat
abbrev AttPtr := Nat
abbrev MmPtr := Nat

/-- `XPMEM_TG_HASHTABLE_SIZE` and `XPMEM_AP_HASHTABLE_SIZE`. -/
def hashtableSize : Nat := 8

/-- `XPMEM_MAX_UNIQ_ID`, which is `INT_MAX >> 1`. -/
def xpmemMaxUniqId : Nat := 2 ^ 30 - 1

/-- `XPMEM_RDONLY` and `XPMEM_RDWR`. -/
def xpmemRdonly : BitVec 32 := 0x1
def xpmemRdwr : BitVec 32 := 0x2

/-- `XPMEM_PERMIT_MODE`, the only permit type. -/
def xpmemPermitMode : BitVec 32 := 0x1

/-- `XPMEM_MAXADDR_SIZE`, which is `(size_t)(-1L)`. -/
def xpmemMaxaddrSize : Nat := 2 ^ 64 - 1

/-- The errors the driver returns, negated. -/
inductive Errno where
  | einval
  | enoent
  | eacces
  | enomem
  | efault
  | ebusy
  | eintr
  | eperm
  | esrch
  /-- `XPMEM_ERRNO_NOPROC`. -/
  | noproc
deriving DecidableEq, Repr

/-! ## Identifiers -/

/--
`struct xpmem_id` read as a signed 64-bit number: two 32-bit members in the
order `tgid`, `uniq`.
-/
def packId (K : Platform) (tgid : Pid) (uniq : Nat) : BitVec 64 :=
  if K.bigEndian then tgid ++ BitVec.ofNat 32 uniq
  else BitVec.ofNat 32 uniq ++ tgid

/-- `xpmem_segid_to_tgid` and `xpmem_apid_to_tgid`. -/
def idToTgid (K : Platform) (id : BitVec 64) : Pid :=
  if K.bigEndian then id.extractLsb' 32 32 else id.extractLsb' 0 32

/-- The `uniq` member of an identifier. -/
def idUniq (K : Platform) (id : BitVec 64) : Nat :=
  if K.bigEndian then (id.extractLsb' 0 32).toNat
  else (id.extractLsb' 32 32).toNat

/-- `xpmem_tg_hashtable_index`. -/
def xpmemTgHashtableIndex (tgid : Pid) : Nat :=
  tgid.toNat % hashtableSize

/-- `xpmem_ap_hashtable_index`. -/
def xpmemApHashtableIndex (K : Platform) (apid : BitVec 64) : Nat :=
  idUniq K apid % hashtableSize

/-! ## Objects -/

/-- `struct xpmem_thread_group`. -/
structure ThreadGroup where
  tgid : Pid := 0
  uid : Nat := 0
  gid : Nat := 0
  /-- `XPMEM_FLAG_DESTROYING` and `XPMEM_FLAG_DESTROYED` of `flags`. -/
  destroying : Bool := false
  destroyed : Bool := false
  uniqSegid : Nat := 0
  uniqApid : Nat := 0
  segList : List SegPtr := []
  /--
  An `atomic_t` that takes `2 ^ 31` live objects or running calls to wrap; as
  in the other objects, it does not wrap in the model.
  -/
  refcnt : Int := 0
  /-- An `atomic_t`, which wraps at 32 bits. -/
  nPinned : Int := 0
  addrLimit : Nat := 0
  mm : MmPtr := 0
  /--
  An `atomic_t` that takes `2 ^ 31` forks that do not end to wrap, and does not
  wrap here; `Concurrent.Recall` has it wrap.
  -/
  nRecallPFNs : Int := 0
  mmuInitialized : Bool := false
  mmuUnregisterCalled : Bool := false
  apHashtable : Nat → List ApPtr := fun _ => []
  allocated : Bool := false

/-- `struct xpmem_segment`. -/
structure Segment where
  segid : BitVec 64 := 0
  vaddr : Nat := 0
  size : Nat := 0
  permitType : BitVec 32 := 0
  permitValue : BitVec 64 := 0
  destroying : Bool := false
  destroyed : Bool := false
  /-- `XPMEM_FLAG_RECALLINGPFNS` of `flags`. -/
  recallingPFNs : Bool := false
  refcnt : Int := 0
  tg : TgPtr := 0
  apList : List ApPtr := []
  allocated : Bool := false

/-- `struct xpmem_access_permit`. -/
structure AccessPermit where
  apid : BitVec 64 := 0
  mode : BitVec 32 := 0
  destroying : Bool := false
  destroyed : Bool := false
  refcnt : Int := 0
  seg : SegPtr := 0
  tg : TgPtr := 0
  attList : List AttPtr := []
  allocated : Bool := false

/-- `struct xpmem_attachment`. -/
structure Attachment where
  vaddr : Nat := 0
  atVaddr : Nat := 0
  atSize : Nat := 0
  /-- `at_vma`, the identity of a `vm_area_struct`. -/
  atVma : Option Nat := none
  destroying : Bool := false
  /-- `XPMEM_FLAG_VALIDPTEs` of `flags`. -/
  validPTEs : Bool := false
  refcnt : Int := 0
  ap : ApPtr := 0
  mm : MmPtr := 0
  allocated : Bool := false

/-- `struct xpmem_partition`. -/
structure Partition where
  tgHashtable : Nat → List TgPtr := fun _ => []
  nPinned : Int := 0
  nUnpinned : Int := 0

/-- A process: its address space, until exit takes that away. -/
inductive Proc where
  | absent
  | running (mm : MmPtr)
  /-- `exit_mm` has run, `exit_files` has not. -/
  | exiting
deriving DecidableEq, Repr

/-- What the driver prints. -/
inductive Message where
  | pfnMismatch (oldPfn pfn : Frame)
deriving DecidableEq, Repr

/--
What `xpmem_tg_deref` finds when it frees a thread group: the conditions of
its assertions, and whether a live object still points to the group.
-/
structure TgFree where
  group : TgPtr
  destroyed : Bool
  segListEmpty : Bool
  bucketsEmpty : Bool
  noSegment : Bool
  noPermit : Bool
  noAttachment : Bool
deriving DecidableEq, Repr

/-- The driver and the kernel around it. -/
structure State (K : Platform) where
  tg : TgPtr → ThreadGroup := fun _ => {}
  seg : SegPtr → Segment := fun _ => {}
  ap : ApPtr → AccessPermit := fun _ => {}
  att : AttPtr → Attachment := fun _ => {}
  /-- The next pointers `kzalloc` gives out. -/
  nextTg : TgPtr := 0
  nextSeg : SegPtr := 0
  nextAp : ApPtr := 0
  nextAtt : AttPtr := 0
  /-- `xpmem_my_part`. -/
  myPart : Partition := {}
  proc : Pid → Proc := fun _ => .absent
  mm : MmPtr → Mm K := fun _ => .empty
  nextMm : MmPtr := 0
  nextVma : Nat := 0
  /-- `get_user_pages` references minus `put_page` calls, by frame. -/
  pageRefs : Frame → Int := fun _ => 0
  tgFrees : List TgFree := []
  log : List Message := []

/-- The task a piece of driver code runs in. -/
structure Task where
  tgid : Pid
  /-- `current->mm`, which is `NULL` during exit. -/
  mm : Option MmPtr

namespace State

variable {K : Platform}

/-! ## Changing one object -/

def modTg (s : State K) (group : TgPtr)
    (change : ThreadGroup → ThreadGroup) : State K :=
  { s with tg := Function.update s.tg group (change (s.tg group)) }

def modSeg (s : State K) (seg : SegPtr)
    (change : Segment → Segment) : State K :=
  { s with seg := Function.update s.seg seg (change (s.seg seg)) }

def modAp (s : State K) (permit : ApPtr)
    (change : AccessPermit → AccessPermit) : State K :=
  { s with ap := Function.update s.ap permit (change (s.ap permit)) }

def modAtt (s : State K) (att : AttPtr)
    (change : Attachment → Attachment) : State K :=
  { s with att := Function.update s.att att (change (s.att att)) }

def modMm (s : State K) (mm : MmPtr) (change : Mm K → Mm K) : State K :=
  { s with mm := Function.update s.mm mm (change (s.mm mm)) }

/-! ## Reference counts -/

def xpmemTgRef (s : State K) (group : TgPtr) : State K :=
  s.modTg group fun tg => { tg with refcnt := tg.refcnt + 1 }

def xpmemSegRef (s : State K) (seg : SegPtr) : State K :=
  s.modSeg seg fun seg => { seg with refcnt := seg.refcnt + 1 }

def xpmemApRef (s : State K) (permit : ApPtr) : State K :=
  s.modAp permit fun ap => { ap with refcnt := ap.refcnt + 1 }

def xpmemAttRef (s : State K) (att : AttPtr) : State K :=
  s.modAtt att fun att => { att with refcnt := att.refcnt + 1 }

/-- An object that exists and is not being destroyed. -/
def liveSeg (s : State K) (seg : SegPtr) : Bool :=
  (s.seg seg).allocated && !(s.seg seg).destroying

def liveAp (s : State K) (permit : ApPtr) : Bool :=
  (s.ap permit).allocated && !(s.ap permit).destroying

def liveAtt (s : State K) (att : AttPtr) : Bool :=
  (s.att att).allocated && !(s.att att).destroying

/-- The permit belongs to the group, or to a segment of it. -/
def apPointsTo (s : State K) (permit : ApPtr) (group : TgPtr) : Bool :=
  (s.ap permit).tg = group || (s.seg (s.ap permit).seg).tg = group

/-- The assertions of `xpmem_tg_deref`, evaluated. -/
def tgFreeReport (s : State K) (group : TgPtr) : TgFree where
  group := group
  destroyed := (s.tg group).destroyed
  segListEmpty := (s.tg group).segList.isEmpty
  bucketsEmpty :=
    (List.range hashtableSize).all fun index =>
      ((s.tg group).apHashtable index).isEmpty
  noSegment :=
    (List.range s.nextSeg).all fun seg =>
      !(s.liveSeg seg && (s.seg seg).tg = group)
  noPermit :=
    (List.range s.nextAp).all fun permit =>
      !(s.liveAp permit && s.apPointsTo permit group)
  noAttachment :=
    (List.range s.nextAtt).all fun att =>
      !(s.liveAtt att && s.apPointsTo (s.att att).ap group)

/-- `kfree` of a thread group. -/
def kfreeTg (s : State K) (group : TgPtr) : State K :=
  { s.modTg group fun tg => { tg with allocated := false } with
    tgFrees := s.tgFrees ++ [s.tgFreeReport group] }

def xpmemTgDeref (s : State K) (group : TgPtr) : State K :=
  let s := s.modTg group fun tg => { tg with refcnt := tg.refcnt - 1 }
  if (s.tg group).refcnt ≠ 0 then s else s.kfreeTg group

def xpmemSegDeref (s : State K) (seg : SegPtr) : State K :=
  let s := s.modSeg seg fun seg => { seg with refcnt := seg.refcnt - 1 }
  if (s.seg seg).refcnt ≠ 0 then s
  else s.modSeg seg fun seg => { seg with allocated := false }

def xpmemApDeref (s : State K) (permit : ApPtr) : State K :=
  let s := s.modAp permit fun ap => { ap with refcnt := ap.refcnt - 1 }
  if (s.ap permit).refcnt ≠ 0 then s
  else s.modAp permit fun ap => { ap with allocated := false }

def xpmemAttDeref (s : State K) (att : AttPtr) : State K :=
  let s := s.modAtt att fun att => { att with refcnt := att.refcnt - 1 }
  if (s.att att).refcnt ≠ 0 then s
  else s.modAtt att fun att => { att with allocated := false }

/-! ## Lookup -/

/--
`__xpmem_tg_ref_by_tgid_nolock_internal` without the reference it takes: the
first group of the bucket with this tgid, past those being destroyed unless
they are asked for.
-/
def findTg (s : State K) (tgid : Pid) (returnDestroying : Bool) :
    Option TgPtr :=
  (s.myPart.tgHashtable (xpmemTgHashtableIndex tgid)).find? fun group =>
    (s.tg group).tgid = tgid &&
      (returnDestroying || !(s.tg group).destroying)

/-- `xpmem_seg_ref_by_segid` without the reference it takes. -/
def findSeg (s : State K) (group : TgPtr) (segid : BitVec 64) :
    Option SegPtr :=
  (s.tg group).segList.find? fun seg =>
    (s.seg seg).segid = segid && !(s.seg seg).destroying

/--
`xpmem_ap_ref_by_apid` without the reference it takes.  The search ends at
the first permit with this apid, also when that one is being destroyed.
-/
def findAp (s : State K) (group : TgPtr) (apid : BitVec 64) :
    Option ApPtr :=
  (((s.tg group).apHashtable (xpmemApHashtableIndex K apid)).find?
    fun permit => (s.ap permit).apid = apid).filter
      fun permit => !(s.ap permit).destroying

end State

end Xpmem.Driver
