import Xpmem.Driver.Attach

/-!
# Access permits

`xpmem_get.c`: the permission check and the creation of a permit, and the
release of one permit or of all permits of a thread group.
-/

namespace Xpmem.Driver

open Xpmem.Foundation Xpmem.Kernel

variable {K : Platform}

/-! ## Permission -/

/-- The credentials of a task. -/
structure Cred where
  /-- `current_uid` and `current_gid`. -/
  uid : Nat := 0
  gid : Nat := 0
  /-- `current_euid`. -/
  euid : Nat := 0
  /-- The groups for which `in_group_p` holds. -/
  groups : List Nat := []
  /-- `capable(CAP_IPC_OWNER)`. -/
  capIpcOwner : Bool := false
deriving DecidableEq, Repr

/-- `S_IRUSR` and `S_IWUSR`. -/
def sIrusr : BitVec 32 := 0o400
def sIwusr : BitVec 32 := 0o200

/-- `xpmem_ipcperms`: whether it returns 0. -/
def xpmemIpcperms (cred : Cred) (uid gid : Nat) (mode : BitVec 32)
    (flag : BitVec 32) : Bool :=
  let requestedMode := (flag >>> 6) ||| (flag >>> 3) ||| flag
  let grantedMode :=
    if cred.euid = uid then mode >>> 6
    else if gid ∈ cred.groups then mode >>> 3
    else mode
  (requestedMode &&& ~~~grantedMode &&& 0o007) = 0 || cred.capIpcOwner

/-- The IPC rule for a segment: the owner is the segment's group. -/
def segPerms (s : State K) (cred : Cred) (seg : SegPtr)
    (flag : BitVec 32) : Bool :=
  let owner := s.tg (s.seg seg).tg
  xpmemIpcperms cred owner.uid owner.gid
    ((s.seg seg).permitValue.setWidth 16 |>.setWidth 32) flag

/-- `xpmem_check_permit_mode`: whether it returns 0. -/
def xpmemCheckPermitMode (s : State K) (cred : Cred) (flags : BitVec 32)
    (seg : SegPtr) : Bool :=
  segPerms s cred seg sIrusr &&
    (flags &&& xpmemRdwr = 0 || segPerms s cred seg sIwusr)

/-! ## Creating a permit -/

/-- `xpmem_make_apid`; there is no identifier left when it returns `-EBUSY`. -/
def xpmemMakeApid (s : State K) (group : TgPtr) :
    State K × Option (BitVec 64) :=
  let uniq := (s.tg group).uniqApid + 1
  if xpmemMaxUniqId < uniq then (s, none)
  else
    (s.modTg group fun tg => { tg with uniqApid := uniq },
      some (packId K (s.tg group).tgid uniq))

/-- The permit `xpmem_get` fills in and links into both its lists. -/
def linkAp (s : State K) (seg : SegPtr) (apTg : TgPtr)
    (apid : BitVec 64) (mode : BitVec 32) : State K :=
  let permit := s.nextAp
  let s := { s with nextAp := s.nextAp + 1 }
  let s := s.modAp permit fun _ =>
    { seg := seg, tg := apTg, apid := apid, mode := mode,
      refcnt := 1, allocated := true }
  let s := s.modSeg seg fun seg =>
    { seg with apList := seg.apList ++ [permit] }
  let index := xpmemApHashtableIndex K apid
  s.modTg apTg fun tg =>
    { tg with
      apHashtable := Function.update tg.apHashtable index
        (tg.apHashtable index ++ [permit]) }

/-- The flag test of `xpmem_get`. -/
def getFlagsInvalid (flags : BitVec 32) : Bool :=
  flags &&& ~~~(xpmemRdonly ||| xpmemRdwr) ≠ 0 ||
    flags &&& (xpmemRdonly ||| xpmemRdwr) = (xpmemRdonly ||| xpmemRdwr)

/-- The part of `xpmem_get` after the permission check. -/
def getPermitted (s : State K) (current : Task) (seg : SegPtr)
    (segTg : TgPtr) (flags : BitVec 32) (oom : Bool) :
    State K × Except Errno (BitVec 64) :=
  match s.findTg current.tgid false with
  | none =>
      let s := s.xpmemSegDeref seg
      (s.xpmemTgDeref segTg, .error .noproc)
  | some apTg =>
      let s := s.xpmemTgRef apTg
      match xpmemMakeApid s apTg with
      | (s, none) =>
          let s := s.xpmemTgDeref apTg
          let s := s.xpmemSegDeref seg
          (s.xpmemTgDeref segTg, .error .ebusy)
      | (s, some apid) =>
          if oom then
            let s := s.xpmemTgDeref apTg
            let s := s.xpmemSegDeref seg
            (s.xpmemTgDeref segTg, .error .enomem)
          else
            -- the references to the segment and to its group stay with
            -- the permit
            ((linkAp s seg apTg apid flags).xpmemTgDeref apTg, .ok apid)

/-- `xpmem_get`. -/
def xpmemGet (s : State K) (current : Task) (cred : Cred)
    (segid : BitVec 64) (flags permitType : BitVec 32)
    (permitValue : BitVec 64) (oom : Bool) :
    State K × Except Errno (BitVec 64) :=
  if segid.toInt ≤ 0 then (s, .error .einval)
  else if getFlagsInvalid flags then (s, .error .einval)
  else if permitType ≠ xpmemPermitMode ∨ permitValue ≠ 0 then
    (s, .error .einval)
  else
    match s.findTg (idToTgid K segid) false with
    | none => (s, .error .enoent)
    | some segTg =>
        let s := s.xpmemTgRef segTg
        match s.findSeg segTg segid with
        | none => (s.xpmemTgDeref segTg, .error .enoent)
        | some seg =>
            let s := s.xpmemSegRef seg
            if xpmemCheckPermitMode s cred flags seg then
              getPermitted s current seg segTg flags oom
            else
              let s := s.xpmemSegDeref seg
              (s.xpmemTgDeref segTg, .error .eacces)

/-! ## Releasing permits -/

/--
The loop of `xpmem_release_ap`.  There is no result when the attachments left
after `rounds` rounds are not the empty list: a round that leaves the first
attachment linked is repeated for ever.
-/
def detachAll (current : Task) (permit : ApPtr) :
    Nat → State K → Option (State K)
  | 0, s => if (s.ap permit).attList = [] then some s else none
  | rounds + 1, s =>
      match (s.ap permit).attList with
      | [] => some s
      | att :: _ =>
          (xpmemDetachAtt (s.xpmemAttRef att) current permit att).bind
            fun s => detachAll current permit rounds (s.xpmemAttDeref att)

/-- Take a permit out of its hash bucket and off its segment's list. -/
def unlinkAp (s : State K) (apTg : TgPtr) (permit : ApPtr) : State K :=
  let s := s.modAp permit fun ap => { ap with destroyed := true }
  let index := xpmemApHashtableIndex K (s.ap permit).apid
  let s := s.modTg apTg fun tg =>
    { tg with
      apHashtable := Function.update tg.apHashtable index
        ((tg.apHashtable index).erase permit) }
  s.modSeg (s.ap permit).seg fun seg =>
    { seg with apList := seg.apList.erase permit }

/-- `xpmem_release_ap`. -/
def xpmemReleaseAp (s : State K) (current : Task) (apTg : TgPtr)
    (permit : ApPtr) : Option (State K) :=
  if (s.ap permit).destroying then some s
  else
    let s := s.modAp permit fun ap => { ap with destroying := true }
    (detachAll current permit (s.ap permit).attList.length s).map
      fun s =>
        let s := unlinkAp s apTg permit
        let seg := (s.ap permit).seg
        let segTg := (s.seg seg).tg
        let s := s.xpmemSegDeref seg
        let s := s.xpmemTgDeref segTg
        s.xpmemApDeref permit

/-- The loop of `xpmem_release_aps_of_tg` over one bucket. -/
def releaseBucket (current : Task) (apTg : TgPtr) (index : Nat) :
    Nat → State K → Option (State K)
  | 0, s =>
      if (s.tg apTg).apHashtable index = [] then some s else none
  | rounds + 1, s =>
      match (s.tg apTg).apHashtable index with
      | [] => some s
      | permit :: _ =>
          (xpmemReleaseAp (s.xpmemApRef permit) current apTg permit).bind
            fun s =>
              releaseBucket current apTg index rounds
                (s.xpmemApDeref permit)

/-- `xpmem_release_aps_of_tg`. -/
def xpmemReleaseApsOfTg (s : State K) (current : Task) (apTg : TgPtr) :
    Option (State K) :=
  (List.range hashtableSize).foldlM
    (fun s index =>
      releaseBucket current apTg index
        ((s.tg apTg).apHashtable index).length s) s

/-- `xpmem_release`. -/
def xpmemRelease (s : State K) (current : Task) (apid : BitVec 64) :
    Option (State K × Except Errno Unit) :=
  if apid.toInt ≤ 0 then some (s, .error .einval)
  else
    match s.findTg (idToTgid K apid) false with
    | none => some (s, .error .enoent)
    | some apTg =>
        let s := s.xpmemTgRef apTg
        if current.tgid ≠ (s.tg apTg).tgid then
          some (s.xpmemTgDeref apTg, .error .eacces)
        else
          match s.findAp apTg apid with
          | none => some (s.xpmemTgDeref apTg, .error .enoent)
          | some permit =>
              (xpmemReleaseAp (s.xpmemApRef permit) current apTg
                permit).map fun s =>
                  let s := s.xpmemApDeref permit
                  (s.xpmemTgDeref apTg, .ok ())

end Xpmem.Driver
