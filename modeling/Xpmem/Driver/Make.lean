import Xpmem.Driver.Get

/-!
# Segments

`xpmem_make.c`: creating and removing segments.
-/

namespace Xpmem.Driver

open Xpmem.Foundation Xpmem.Kernel

variable {K : Platform}

/-- `xpmem_make_segid`; there is no identifier left when it returns `-EBUSY`. -/
def xpmemMakeSegid (s : State K) (group : TgPtr) :
    State K × Option (BitVec 64) :=
  let uniq := (s.tg group).uniqSegid + 1
  if xpmemMaxUniqId < uniq then (s, none)
  else
    (s.modTg group fun tg => { tg with uniqSegid := uniq },
      some (packId K (s.tg group).tgid uniq))

/-- The segment `xpmem_make` fills in and links. -/
def linkSeg (s : State K) (segTg : TgPtr) (segid : BitVec 64)
    (vaddr size : Nat) (permitType : BitVec 32)
    (permitValue : BitVec 64) : State K :=
  let seg := s.nextSeg
  let s := { s with nextSeg := s.nextSeg + 1 }
  let s := s.modSeg seg fun _ =>
    { segid := segid, vaddr := vaddr, size := size,
      permitType := permitType, permitValue := permitValue, tg := segTg,
      refcnt := 1, allocated := true }
  s.modTg segTg fun tg => { tg with segList := tg.segList ++ [seg] }

/-- The size `xpmem_make` uses, if the range passes the limit check. -/
def makeSize (addrLimit vaddr size : Nat) : Option Nat :=
  if addrLimit < u64 (vaddr + size) then
    if size ≠ xpmemMaxaddrSize then none
    else some (u64Sub addrLimit vaddr)
  else some size

/-- `xpmem_make`. -/
def xpmemMake (s : State K) (current : Task) (vaddr size : BitVec 64)
    (permitType : BitVec 32) (permitValue : BitVec 64) (oom : Bool) :
    State K × Except Errno (BitVec 64) :=
  if permitType ≠ xpmemPermitMode ∨ permitValue &&& ~~~0o777 ≠ 0 ∨
      size = 0 then
    (s, .error .einval)
  else
    match s.findTg current.tgid false with
    | none => (s, .error .noproc)
    | some segTg =>
        let s := s.xpmemTgRef segTg
        match makeSize (s.tg segTg).addrLimit vaddr.toNat size.toNat with
        | none => (s.xpmemTgDeref segTg, .error .einval)
        | some size =>
            if offsetInPage vaddr.toNat ≠ 0 ∨ offsetInPage size ≠ 0 then
              (s.xpmemTgDeref segTg, .error .einval)
            else
              match xpmemMakeSegid s segTg with
              | (s, none) => (s.xpmemTgDeref segTg, .error .ebusy)
              | (s, some segid) =>
                  if oom then (s.xpmemTgDeref segTg, .error .enomem)
                  else
                    ((linkSeg s segTg segid vaddr.toNat size permitType
                      permitValue).xpmemTgDeref segTg, .ok segid)

/-- Mark a segment as destroyed and take it off its group's list. -/
def unlinkSeg (s : State K) (segTg : TgPtr) (seg : SegPtr) : State K :=
  let s := s.modSeg seg fun seg => { seg with destroyed := true }
  s.modTg segTg fun tg => { tg with segList := tg.segList.erase seg }

/-- `xpmem_remove_seg`. -/
def xpmemRemoveSeg (s : State K) (segTg : TgPtr) (seg : SegPtr) :
    Option (State K) :=
  if (s.seg seg).destroying then some s
  else
    let s := s.modSeg seg fun seg => { seg with destroying := true }
    (xpmemClearPTEs s seg).map fun s =>
      (unlinkSeg s segTg seg).xpmemSegDeref seg

/-- The loop of `xpmem_remove_segs_of_tg`. -/
def removeSegs (segTg : TgPtr) : Nat → State K → Option (State K)
  | 0, s => if (s.tg segTg).segList = [] then some s else none
  | rounds + 1, s =>
      match (s.tg segTg).segList with
      | [] => some s
      | seg :: _ =>
          (xpmemRemoveSeg (s.xpmemSegRef seg) segTg seg).bind fun s =>
            removeSegs segTg rounds (s.xpmemSegDeref seg)

/-- `xpmem_remove_segs_of_tg`. -/
def xpmemRemoveSegsOfTg (s : State K) (segTg : TgPtr) :
    Option (State K) :=
  removeSegs segTg (s.tg segTg).segList.length s

/-- `xpmem_remove`. -/
def xpmemRemove (s : State K) (current : Task) (segid : BitVec 64) :
    Option (State K × Except Errno Unit) :=
  if segid.toInt ≤ 0 then some (s, .error .einval)
  else
    match s.findTg (idToTgid K segid) false with
    | none => some (s, .error .enoent)
    | some segTg =>
        let s := s.xpmemTgRef segTg
        if current.tgid ≠ (s.tg segTg).tgid then
          some (s.xpmemTgDeref segTg, .error .eacces)
        else
          match s.findSeg segTg segid with
          | none => some (s.xpmemTgDeref segTg, .error .enoent)
          | some seg =>
              (xpmemRemoveSeg (s.xpmemSegRef seg) segTg seg).map fun s =>
                let s := s.xpmemSegDeref seg
                (s.xpmemTgDeref segTg, .ok ())

end Xpmem.Driver
