import Xpmem.Driver.Main
import Xpmem.Foundation.Partial

/-!
# Creating objects under the segment semaphores

The ioctls that create an object, with `seg->sema`: `xpmem_attach` holds it
for reading between its checks and its last label, and `xpmem_remove`, which
takes a new segment back, for writing.  What they do to the state is what the
functions of the same name do without the semaphores.
-/

namespace Xpmem.Driver

open Xpmem.Foundation Xpmem.Kernel

variable {K : Platform}

/-- How often a `rw_semaphore` is held for reading and for writing. -/
structure RwSemaphore where
  readers : Int := 0
  writers : Int := 0
deriving DecidableEq, Repr

/-- A state and the semaphores of its segments. -/
structure Guarded (K : Platform) where
  state : State K
  sema : SegPtr → RwSemaphore

namespace Guarded

def modSema (guarded : Guarded K) (seg : SegPtr)
    (change : RwSemaphore → RwSemaphore) : Guarded K :=
  { guarded with
    sema := Function.update guarded.sema seg (change (guarded.sema seg)) }

def downRead (guarded : Guarded K) (seg : SegPtr) : Guarded K :=
  guarded.modSema seg fun sema => { sema with readers := sema.readers + 1 }

def upRead (guarded : Guarded K) (seg : SegPtr) : Guarded K :=
  guarded.modSema seg fun sema => { sema with readers := sema.readers - 1 }

/-- `xpmem_seg_down_write`. -/
def xpmemSegDownWrite (guarded : Guarded K) (seg : SegPtr) : Guarded K :=
  guarded.modSema seg fun sema => { sema with writers := sema.writers + 1 }

/-- `xpmem_seg_up_write`. -/
def xpmemSegUpWrite (guarded : Guarded K) (seg : SegPtr) : Guarded K :=
  guarded.modSema seg fun sema => { sema with writers := sema.writers - 1 }

/-- `xpmem_seg_down_read`, waiting, and without recalls blocked. -/
def xpmemSegDownRead (guarded : Guarded K) (segTg : TgPtr) (seg : SegPtr) :
    Guarded K × Except Errno Unit :=
  let guarded := guarded.downRead seg
  if (guarded.state.seg seg).destroying ||
      (guarded.state.tg segTg).destroying then
    (guarded.upRead seg, .error .enoent)
  else (guarded, .ok ())

/-- Change the state only. -/
def withState (guarded : Guarded K) (state : State K) : Guarded K :=
  { guarded with state := state }

/-! ## Segments -/

/-- `xpmem_make`, which initialises the semaphore of a new segment. -/
def xpmemMake (guarded : Guarded K) (current : Task)
    (vaddr size : BitVec 64) (permitType : BitVec 32)
    (permitValue : BitVec 64) (oom : Bool) :
    Guarded K × Except Errno (BitVec 64) :=
  match Driver.xpmemMake guarded.state current vaddr size permitType
      permitValue oom with
  | (s, .error error) => (guarded.withState s, .error error)
  | (s, .ok segid) =>
      ((guarded.modSema guarded.state.nextSeg fun _ => {}).withState s,
        .ok segid)

/-- `xpmem_remove_seg`. -/
def xpmemRemoveSeg (guarded : Guarded K) (segTg : TgPtr) (seg : SegPtr) :
    Option (Guarded K) :=
  let s := guarded.state
  if (s.seg seg).destroying then some guarded
  else
    let s := s.modSeg seg fun seg => { seg with destroying := true }
    let guarded := guarded.xpmemSegDownWrite seg
    (xpmemClearPTEs s seg).map fun s =>
      let s := unlinkSeg s segTg seg
      let guarded := guarded.xpmemSegUpWrite seg
      guarded.withState (s.xpmemSegDeref seg)

/-- `xpmem_remove`. -/
def xpmemRemove (guarded : Guarded K) (current : Task)
    (segid : BitVec 64) : Option (Guarded K × Except Errno Unit) :=
  let s := guarded.state
  if segid.toInt ≤ 0 then some (guarded, .error .einval)
  else
    match s.findTg (idToTgid K segid) false with
    | none => some (guarded, .error .enoent)
    | some segTg =>
        let s := s.xpmemTgRef segTg
        if current.tgid ≠ (s.tg segTg).tgid then
          some (guarded.withState (s.xpmemTgDeref segTg), .error .eacces)
        else
          match s.findSeg segTg segid with
          | none =>
              some (guarded.withState (s.xpmemTgDeref segTg),
                .error .enoent)
          | some seg =>
              ((guarded.withState (s.xpmemSegRef seg)).xpmemRemoveSeg
                segTg seg).map fun guarded =>
                  let s := guarded.state.xpmemSegDeref seg
                  (guarded.withState (s.xpmemTgDeref segTg), .ok ())

/-! ## Attachments -/

/-- The part of `xpmem_attach` between taking and dropping references. -/
def attachChecked (guarded : Guarded K) (current : Task) (mm : MmPtr)
    (permit : ApPtr) (seg : SegPtr) (segTg : TgPtr)
    (offset : BitVec 64) (size vaddr : Nat) (env : AttachEnv) :
    Option (Guarded K × Except Errno Nat) :=
  match guarded.xpmemSegDownRead segTg seg with
  | (guarded, .error error) => some (guarded, .error error)
  | (guarded, .ok ()) =>
      let s := guarded.state
      match xpmemValidateAccess s current permit offset size xpmemRdwr with
      | .error error => some (guarded.upRead seg, .error error)
      | .ok segVaddr =>
          let size := u64 (size + offsetInPage segVaddr)
          if current.tgid = (s.tg segTg).tgid ∧ vaddr ≠ 0 ∧
              segVaddr < u64 (vaddr + size) ∧
              vaddr < u64 (segVaddr + size) then
            some (guarded.upRead seg, .error .einval)
          else if env.oom then some (guarded.upRead seg, .error .enomem)
          else
            let att := s.nextAtt
            (attachMap (attachLink s permit mm segVaddr size) current mm
              permit att vaddr size env.place).map fun mapped =>
                let guarded :=
                  guarded.withState (mapped.1.xpmemAttDeref att)
                (guarded.upRead seg, mapped.2)

/-- `xpmem_attach`. -/
def xpmemAttach (guarded : Guarded K) (current : Task) (mm : MmPtr)
    (apid offset : BitVec 64) (size vaddr : BitVec 64)
    (env : AttachEnv) : Option (Guarded K × Except Errno Nat) :=
  let s := guarded.state
  let vaddr := vaddr.toNat
  if apid.toInt ≤ 0 then some (guarded, .error .einval)
  else if vaddr ≠ 0 ∧
      K.taskSize ≤ u64Sub (u64 (vaddr + pageSize)) (offsetInPage vaddr) then
    some (guarded, .error .einval)
  else if offsetInPage vaddr ≠ 0 ∨ offsetInPage offset.toNat ≠ 0 then
    some (guarded, .error .einval)
  else
    let size :=
      if offsetInPage size.toNat ≠ 0 then
        u64 (size.toNat + (pageSize - offsetInPage size.toNat))
      else size.toNat
    match s.findTg (idToTgid K apid) false with
    | none => some (guarded, .error .enoent)
    | some apTg =>
        let s := s.xpmemTgRef apTg
        match s.findAp apTg apid with
        | none =>
            some (guarded.withState (s.xpmemTgDeref apTg), .error .enoent)
        | some permit =>
            let s := s.xpmemApRef permit
            let seg := (s.ap permit).seg
            let s := s.xpmemSegRef seg
            let segTg := (s.seg seg).tg
            let s := s.xpmemTgRef segTg
            ((guarded.withState s).attachChecked current mm permit seg
              segTg offset size vaddr env).map fun attached =>
                let s := attached.1.state.xpmemApDeref permit
                let s := s.xpmemTgDeref apTg
                let s := s.xpmemSegDeref seg
                (attached.1.withState (s.xpmemTgDeref segTg), attached.2)

/-! ## The ioctls -/

/-- `XPMEM_CMD_MAKE`. -/
def ioctlMake (guarded : Guarded K) (current : Task)
    (vaddr size : BitVec 64) (permitType : BitVec 32)
    (permitValue : BitVec 64) (env : IoctlEnv) :
    Option (Guarded K × Ret) :=
  match guarded.xpmemMake current vaddr size permitType permitValue
      env.oom with
  | (guarded, .error error) => some (guarded, .error error)
  | (guarded, .ok segid) =>
      if env.putUser then some (guarded, .value segid)
      else
        (guarded.xpmemRemove current segid).map fun removed =>
          (removed.1, .error .efault)

/-- `XPMEM_CMD_GET`, which takes no semaphore. -/
def ioctlGet (guarded : Guarded K) (current : Task) (segid : BitVec 64)
    (flags permitType : BitVec 32) (permitValue : BitVec 64)
    (env : IoctlEnv) : Option (Guarded K × Ret) :=
  (Driver.ioctlGet guarded.state current segid flags permitType permitValue
    env).map fun got => (guarded.withState got.1, got.2)

/-- `XPMEM_CMD_ATTACH`; `xpmem_detach` takes no semaphore. -/
def ioctlAttach (guarded : Guarded K) (current : Task) (mm : MmPtr)
    (apid offset size vaddr : BitVec 64) (env : IoctlEnv) :
    Option (Guarded K × Ret) :=
  (guarded.xpmemAttach current mm apid offset size vaddr
    { oom := env.oom, place := env.place }).bind fun attached =>
      match attached with
      | (guarded, .error error) => some (guarded, .error error)
      | (guarded, .ok atVaddr) =>
          if env.putUser then
            some (guarded, .value (BitVec.ofNat 64 atVaddr))
          else
            (xpmemDetach guarded.state current mm atVaddr env.killed).map
              fun detached =>
                (guarded.withState detached.1, .error .efault)

end Guarded

/-- The commands that create an object. -/
inductive Creation where
  | make (vaddr size : BitVec 64) (permitType : BitVec 32)
      (permitValue : BitVec 64)
  | get (segid : BitVec 64) (flags permitType : BitVec 32)
      (permitValue : BitVec 64)
  | attach (apid offset size vaddr : BitVec 64)
deriving DecidableEq, Repr

def Creation.cmd : Creation → Cmd
  | .make vaddr size permitType permitValue =>
      .make vaddr size permitType permitValue
  | .get segid flags permitType permitValue =>
      .get segid flags permitType permitValue
  | .attach apid offset size vaddr => .attach apid offset size vaddr

/-- `xpmem_ioctl`, for these commands. -/
def Guarded.xpmemIoctl (guarded : Guarded K) (current : Task) (mm : MmPtr)
    (creation : Creation) (env : IoctlEnv) : Option (Guarded K × Ret) :=
  if env.copyIn = false then some (guarded, .error .efault)
  else
    match creation with
    | .make vaddr size permitType permitValue =>
        guarded.ioctlMake current vaddr size permitType permitValue env
    | .get segid flags permitType permitValue =>
        guarded.ioctlGet current segid flags permitType permitValue env
    | .attach apid offset size vaddr =>
        guarded.ioctlAttach current mm apid offset size vaddr env

/-! ## Every semaphore is given back -/

namespace Guarded

/-- A semaphore that is changed and changed back. -/
theorem modSema_modSema (guarded : Guarded K) (seg : SegPtr)
    {change back : RwSemaphore → RwSemaphore}
    (inverse : ∀ sema, back (change sema) = sema) :
    (guarded.modSema seg change).modSema seg back = guarded := by
  simp [modSema, inverse]

theorem upRead_downRead (guarded : Guarded K) (seg : SegPtr) :
    (guarded.downRead seg).upRead seg = guarded := by
  refine modSema_modSema guarded seg fun sema => ?_
  simp

theorem upWrite_downWrite (guarded : Guarded K) (seg : SegPtr) :
    (guarded.xpmemSegDownWrite seg).xpmemSegUpWrite seg = guarded := by
  refine modSema_modSema guarded seg fun sema => ?_
  simp

/-- The semaphores and the state are independent. -/
theorem upRead_withState (guarded : Guarded K) (seg : SegPtr)
    (s : State K) :
    (guarded.withState s).upRead seg = (guarded.upRead seg).withState s :=
  rfl

theorem xpmemRemoveSeg_eq (guarded : Guarded K) (segTg : TgPtr)
    (seg : SegPtr) :
    guarded.xpmemRemoveSeg segTg seg =
      (Driver.xpmemRemoveSeg guarded.state segTg seg).map
        guarded.withState := by
  unfold xpmemRemoveSeg Driver.xpmemRemoveSeg
  dsimp only
  split
  · rfl
  · rw [upWrite_downWrite, Option.map_map]
    rfl

theorem xpmemRemove_eq (guarded : Guarded K) (current : Task)
    (segid : BitVec 64) :
    guarded.xpmemRemove current segid =
      (Driver.xpmemRemove guarded.state current segid).map fun removed =>
        (guarded.withState removed.1, removed.2) := by
  unfold xpmemRemove Driver.xpmemRemove
  dsimp only
  split
  · rfl
  · cases guarded.state.findTg (idToTgid K segid) false with
    | none => rfl
    | some segTg =>
        dsimp only
        split
        · rfl
        · cases (guarded.state.xpmemTgRef segTg).findSeg segTg segid with
          | none => rfl
          | some seg =>
              dsimp only
              rw [xpmemRemoveSeg_eq, Option.map_map, Option.map_map]
              rfl

theorem attachChecked_eq (guarded : Guarded K) (current : Task)
    (mm : MmPtr) (permit : ApPtr) (seg : SegPtr) (segTg : TgPtr)
    (offset : BitVec 64) (size vaddr : Nat) (env : AttachEnv) :
    guarded.attachChecked current mm permit seg segTg offset size vaddr
        env =
      (Driver.attachChecked guarded.state current mm permit seg segTg offset
        size vaddr env).map fun attached =>
          (guarded.withState attached.1, attached.2) := by
  have entered : (guarded.downRead seg).state = guarded.state := rfl
  unfold attachChecked Driver.attachChecked xpmemSegDownRead
  dsimp only
  rw [entered]
  by_cases gone : ((guarded.state.seg seg).destroying ||
      (guarded.state.tg segTg).destroying) = true
  · rw [if_pos gone, if_pos gone, upRead_downRead]
    rfl
  · rw [if_neg gone, if_neg gone]
    dsimp only
    rw [entered]
    cases xpmemValidateAccess guarded.state current permit offset size
        xpmemRdwr with
    | error error =>
        dsimp only
        rw [upRead_downRead]
        rfl
    | ok segVaddr =>
        dsimp only
        split
        · rw [upRead_downRead]
          rfl
        · split
          · rw [upRead_downRead]
            rfl
          · simp only [upRead_withState, upRead_downRead, Option.map_map]
            rfl

theorem xpmemAttach_eq (guarded : Guarded K) (current : Task)
    (mm : MmPtr) (apid offset size vaddr : BitVec 64) (env : AttachEnv) :
    guarded.xpmemAttach current mm apid offset size vaddr env =
      (Driver.xpmemAttach guarded.state current mm apid offset size vaddr
        env).map fun attached =>
          (guarded.withState attached.1, attached.2) := by
  unfold xpmemAttach Driver.xpmemAttach
  dsimp only
  split
  · rfl
  · split
    · rfl
    · split
      · rfl
      · cases guarded.state.findTg (idToTgid K apid) false with
        | none => rfl
        | some apTg =>
            dsimp only
            cases (guarded.state.xpmemTgRef apTg).findAp apTg apid with
            | none => rfl
            | some permit =>
                dsimp only
                rw [attachChecked_eq, Option.map_map, Option.map_map]
                rfl

/-- The state and the result. -/
def outcome (result : Guarded K × Ret) : State K × Ret :=
  (result.1.state, result.2)

/-- What an ioctl does to the state is what it does without semaphores. -/
theorem xpmemIoctl_state (guarded : Guarded K) (current : Task)
    (mm : MmPtr) (creation : Creation) (env : IoctlEnv) :
    (guarded.xpmemIoctl current mm creation env).map outcome =
      Driver.xpmemIoctl guarded.state current mm creation.cmd env := by
  unfold xpmemIoctl
  cases creation with
  | make vaddr size permitType permitValue =>
      simp only [Creation.cmd, Driver.xpmemIoctl]
      split
      · rfl
      · unfold ioctlMake Driver.ioctlMake xpmemMake
        cases Driver.xpmemMake guarded.state current vaddr size permitType
            permitValue env.oom with
        | mk s result =>
            cases result with
            | error error => rfl
            | ok segid =>
                dsimp only
                split
                · rfl
                · rw [xpmemRemove_eq, Option.map_map, Option.map_map]
                  rfl
  | get segid flags permitType permitValue =>
      simp only [Creation.cmd, Driver.xpmemIoctl]
      split
      · rfl
      · rw [ioctlGet, Option.map_map]
        exact Option.map_id'
  | attach apid offset size vaddr =>
      simp only [Creation.cmd, Driver.xpmemIoctl]
      split
      · rfl
      · unfold ioctlAttach Driver.ioctlAttach
        rw [xpmemAttach_eq]
        cases Driver.xpmemAttach guarded.state current mm apid offset size
            vaddr { oom := env.oom, place := env.place } with
        | none => rfl
        | some attached =>
            obtain ⟨s, result⟩ := attached
            cases result with
            | error error => rfl
            | ok atVaddr =>
                dsimp only [Option.map_some, Option.bind_some]
                split
                · rfl
                · rw [Option.map_map]
                  rfl

/-- An ioctl leaves the semaphores of all segments as they were. -/
theorem xpmemIoctl_sema (guarded : Guarded K) (current : Task) (mm : MmPtr)
    (creation : Creation) (env : IoctlEnv) {seg : SegPtr}
    (used : seg < guarded.state.nextSeg) :
    Always (guarded.xpmemIoctl current mm creation env) fun result =>
      result.1.sema seg = guarded.sema seg := by
  unfold xpmemIoctl
  split
  · exact .some rfl
  · cases creation with
    | make vaddr size permitType permitValue =>
        dsimp only
        unfold ioctlMake xpmemMake
        cases Driver.xpmemMake guarded.state current vaddr size permitType
            permitValue env.oom with
        | mk s result =>
            cases result with
            | error error => exact .some rfl
            | ok segid =>
                have kept : ((guarded.modSema guarded.state.nextSeg
                    fun _ => {}).withState s).sema seg =
                      guarded.sema seg :=
                  Function.update_of_ne used.ne ..
                dsimp only
                split
                · exact .some kept
                · rw [xpmemRemove_eq]
                  exact .map (.map fun _ _ => kept)
    | get segid flags permitType permitValue =>
        exact .map fun _ _ => rfl
    | attach apid offset size vaddr =>
        dsimp only
        unfold ioctlAttach
        rw [xpmemAttach_eq]
        refine .bind (.map fun attached _ => ?_)
        cases attached with
        | mk s result =>
            cases result with
            | error error => exact .some rfl
            | ok atVaddr =>
                dsimp only
                split
                · exact .some rfl
                · exact .map fun _ _ => rfl

end Guarded

end Xpmem.Driver
