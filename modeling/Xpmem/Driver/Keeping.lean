import Xpmem.Driver.Records

/-!
# What operations keep

Every operation of the driver is a sequence of changes that keep the records
of all objects, whatever the state it is called in.
-/

namespace Xpmem.Driver

open Xpmem.Foundation Xpmem.Kernel

variable {K : Platform}

namespace Keeps

variable {scope : Scope} {permits : Prop} {s t u : State K}

/-! ## Permits -/

theorem getPermitted (keeps : Keeps (.call permits) u s) (yes : permits)
    (current : Task) (seg : SegPtr) (segTg : TgPtr) (flags : BitVec 32)
    (oom : Bool) :
    Keeps (.call permits) u (getPermitted s current seg segTg flags oom).1 := by
  simp only [Driver.getPermitted]
  split
  · exact xpmemTgDeref (keeps.xpmemSegDeref _) _
  · rename_i apTg found
    have entered := keeps.xpmemTgRef apTg
    have made := entered.change (.makeApid yes apTg)
    split
    · rename_i equal
      rw [equal] at made
      exact xpmemTgDeref (xpmemSegDeref (made.xpmemTgDeref _) _) _
    · rename_i apid equal
      split
      · rw [equal] at made
        exact xpmemTgDeref (xpmemSegDeref (made.xpmemTgDeref _) _) _
      · have given : (xpmemMakeApid (s.xpmemTgRef apTg) apTg).2 =
            some apid := by
          rw [equal]
        have hashed : apTg ∈ (s.xpmemTgRef apTg).myPart.tgHashtable _ :=
          List.mem_of_find?_eq_some found
        have linked := entered.change (.linkAp yes hashed given seg
          flags)
        rw [equal] at linked
        exact linked.xpmemTgDeref _

theorem xpmemGet (keeps : Keeps (.call permits) u s) (yes : permits)
    (current : Task) (cred : Cred) (segid : BitVec 64)
    (flags permitType : BitVec 32) (permitValue : BitVec 64) (oom : Bool) :
    Keeps (.call permits) u (xpmemGet s current cred segid flags permitType
      permitValue oom).1 := by
  simp only [Driver.xpmemGet]
  split
  · exact keeps
  · split
    · exact keeps
    · split
      · exact keeps
      · split
        · exact keeps
        · split
          · exact xpmemTgDeref (keeps.xpmemTgRef _) _
          · split
            · exact getPermitted (xpmemSegRef (keeps.xpmemTgRef _) _)
                yes _ _ _ _ _
            · exact xpmemTgDeref (xpmemSegDeref
                (xpmemSegRef (keeps.xpmemTgRef _) _) _) _

theorem detachAll (current : Task) (permit : ApPtr) (rounds : Nat)
    {s : State K} (keeps : Keeps scope u s) :
    Always (detachAll current permit rounds s) (Keeps scope u) := by
  induction rounds generalizing s with
  | zero =>
      simp only [Driver.detachAll]
      split
      · exact .some keeps
      · exact .none
  | succ rounds induction =>
      simp only [Driver.detachAll]
      split
      · exact .some keeps
      · refine .bind (((keeps.xpmemAttRef _).xpmemDetachAtt _ _ _).mono ?_)
        exact fun _ keeps => induction (keeps.xpmemAttDeref _)

theorem xpmemReleaseAp (keeps : Keeps (.call permits) u s) (current : Task)
    (apTg : TgPtr) (permit : ApPtr) :
    Always (xpmemReleaseAp s current apTg permit)
      (Keeps (.call permits) u) := by
  simp only [Driver.xpmemReleaseAp]
  split
  · exact .some keeps
  · have marked : Keeps (.call permits) u
        (s.modAp permit fun ap => { ap with destroying := true }) :=
      keeps.modAp rfl (fun _ => rfl) fun _ => id
    have start : Keeps .quiet (s.modAp permit fun ap =>
        { ap with destroying := true }) _ := .refl _
    refine .map ((detachAll current permit _ start).mono ?_)
    intro detached detaches
    have flagged : (detached.ap permit).destroying = true :=
      detaches.ap_destroying (by simp [State.modAp])
    have unlinked := (marked.trans detaches.always).change
      (.unlinkAp trivial apTg flagged)
    exact xpmemApDeref (xpmemTgDeref (xpmemSegDeref unlinked _) _) _

theorem releaseBucket (current : Task) (apTg : TgPtr) (index : Nat)
    (rounds : Nat) {s : State K} (keeps : Keeps (.call permits) u s) :
    Always (releaseBucket current apTg index rounds s)
      (Keeps (.call permits) u) := by
  induction rounds generalizing s with
  | zero =>
      simp only [Driver.releaseBucket]
      split
      · exact .some keeps
      · exact .none
  | succ rounds induction =>
      simp only [Driver.releaseBucket]
      split
      · exact .some keeps
      · refine .bind
          (((keeps.xpmemApRef _).xpmemReleaseAp _ _ _).mono ?_)
        exact fun _ keeps => induction (keeps.xpmemApDeref _)

theorem xpmemReleaseApsOfTg (keeps : Keeps (.call permits) u s) (current : Task)
    (apTg : TgPtr) :
    Always (xpmemReleaseApsOfTg s current apTg) (Keeps (.call permits) u) :=
  .foldlM keeps fun _ index _ keeps =>
    releaseBucket current apTg index _ keeps

theorem xpmemRelease (keeps : Keeps (.call permits) u s) (current : Task)
    (apid : BitVec 64) :
    Always (xpmemRelease s current apid)
      fun released => Keeps (.call permits) u released.1 := by
  simp only [Driver.xpmemRelease]
  split
  · exact .some keeps
  · split
    · exact .some keeps
    · split
      · exact .some (xpmemTgDeref (keeps.xpmemTgRef _) _)
      · split
        · exact .some (xpmemTgDeref (keeps.xpmemTgRef _) _)
        · refine .map (((xpmemApRef (keeps.xpmemTgRef _)
            _).xpmemReleaseAp _ _ _).mono ?_)
          exact fun _ keeps => xpmemTgDeref (keeps.xpmemApDeref _) _

/-! ## Segments -/

theorem xpmemMake (keeps : Keeps (.call permits) u s) (current : Task)
    (vaddr size : BitVec 64) (permitType : BitVec 32)
    (permitValue : BitVec 64) (oom : Bool) :
    Keeps (.call permits) u (xpmemMake s current vaddr size permitType
      permitValue oom).1 := by
  simp only [Driver.xpmemMake]
  split
  · exact keeps
  · split
    · exact keeps
    · rename_i segTg found
      have entered := keeps.xpmemTgRef segTg
      split
      · exact entered.xpmemTgDeref _
      · rename_i size _
        split
        · exact entered.xpmemTgDeref _
        · have made := entered.change (.makeSegid trivial segTg)
          split
          · rename_i equal
            rw [equal] at made
            exact made.xpmemTgDeref _
          · rename_i segid equal
            split
            · rw [equal] at made
              exact made.xpmemTgDeref _
            · have given : (xpmemMakeSegid (s.xpmemTgRef segTg) segTg).2 =
                  some segid := by
                rw [equal]
              have hashed :
                  segTg ∈ (s.xpmemTgRef segTg).myPart.tgHashtable _ :=
                List.mem_of_find?_eq_some found
              have linked := entered.change (.linkSeg trivial hashed given
                vaddr.toNat size permitType permitValue)
              rw [equal] at linked
              exact linked.xpmemTgDeref _

theorem xpmemRemoveSeg (keeps : Keeps (.call permits) u s) (segTg : TgPtr)
    (seg : SegPtr) :
    Always (xpmemRemoveSeg s segTg seg) (Keeps (.call permits) u) := by
  simp only [Driver.xpmemRemoveSeg]
  split
  · exact .some keeps
  · have marked : Keeps (.call permits) u
        (s.modSeg seg fun seg => { seg with destroying := true }) :=
      keeps.modSeg rfl (fun _ => rfl) id (fun _ => id)
    have start : Keeps .quiet (s.modSeg seg fun seg =>
        { seg with destroying := true }) _ := .refl _
    refine .map ((start.xpmemClearPTEsRange _ _ _ _).mono ?_)
    intro cleared clears
    have flagged : (cleared.seg seg).destroying = true :=
      clears.seg_destroying (by simp [State.modSeg])
    have unlinked := (marked.trans clears.always).change
      (.unlinkSeg trivial segTg flagged)
    exact unlinked.xpmemSegDeref _

theorem removeSegs (segTg : TgPtr) (rounds : Nat) {s : State K}
    (keeps : Keeps (.call permits) u s) :
    Always (removeSegs segTg rounds s) (Keeps (.call permits) u) := by
  induction rounds generalizing s with
  | zero =>
      simp only [Driver.removeSegs]
      split
      · exact .some keeps
      · exact .none
  | succ rounds induction =>
      simp only [Driver.removeSegs]
      split
      · exact .some keeps
      · refine .bind
          (((keeps.xpmemSegRef _).xpmemRemoveSeg _ _).mono ?_)
        exact fun _ keeps => induction (keeps.xpmemSegDeref _)

theorem xpmemRemove (keeps : Keeps (.call permits) u s) (current : Task)
    (segid : BitVec 64) :
    Always (xpmemRemove s current segid)
      fun removed => Keeps (.call permits) u removed.1 := by
  simp only [Driver.xpmemRemove]
  split
  · exact .some keeps
  · split
    · exact .some keeps
    · split
      · exact .some (xpmemTgDeref (keeps.xpmemTgRef _) _)
      · split
        · exact .some (xpmemTgDeref (keeps.xpmemTgRef _) _)
        · refine .map (((xpmemSegRef (keeps.xpmemTgRef _)
            _).xpmemRemoveSeg _ _).mono ?_)
          exact fun _ keeps => xpmemTgDeref (keeps.xpmemSegDeref _) _

/-! ## Groups -/

theorem xpmemOpen (keeps : Keeps (.call permits) u s) (current : Task)
    (mm : MmPtr) (env : OpenEnv) :
    Keeps (.call permits) u (xpmemOpen s current mm env).1 := by
  simp only [Driver.xpmemOpen]
  split
  · exact xpmemTgDeref (keeps.xpmemTgRef _) _
  · split
    · exact keeps
    · split
      · exact keeps
      · exact keeps.change (.linkTg trivial _ _ _)

theorem xpmemTeardown (keeps : Keeps (.call permits) u s) (current : Task)
    (group : TgPtr) :
    Always (xpmemTeardown s current group) (Keeps (.call permits) u) := by
  have marked : Keeps (.call permits) u
      (s.modTg group fun tg => { tg with destroying := true }) :=
    keeps.modTg rfl (fun _ => rfl) id
  refine .bind ((marked.xpmemReleaseApsOfTg _ _).mono ?_)
  intro released keeps
  refine .map ((removeSegs group _ keeps).mono ?_)
  exact fun _ keeps => xpmemTgDeref (keeps.modTg rfl id fun _ => rfl) _

theorem xpmemMmuRelease (keeps : Keeps (.call permits) u s) (current : Task)
    (mm : MmPtr) :
    Always (xpmemMmuRelease s current mm) (Keeps (.call permits) u) := by
  simp only [Driver.xpmemMmuRelease]
  split
  · split
    · exact .some keeps
    · exact (keeps.xpmemTgRef _).xpmemTeardown _ _
  · split
    · exact (keeps.xpmemTgRef _).xpmemTeardown _ _
    · split
      · exact .some (xpmemTgDeref (keeps.xpmemTgRef _) _)
      · exact (xpmemTgRef (xpmemTgDeref (keeps.xpmemTgRef _) _)
          _).xpmemTeardown _ _

theorem xpmemMmuNotifierUnlink (keeps : Keeps (.call permits) u s)
    (current : Task) (group : TgPtr) :
    Always (xpmemMmuNotifierUnlink s current group)
      (Keeps (.call permits) u) := by
  have called : Keeps (.call permits) u
      (s.modTg group fun tg => { tg with mmuUnregisterCalled := true }) :=
    keeps.modTg rfl id id
  simp only [Driver.xpmemMmuNotifierUnlink, mmuNotifierUnregister]
  split
  · exact .some keeps
  · split
    · exact .map ((called.xpmemMmuRelease _ _).mono
        fun _ keeps => keeps.modMm _ _)
    · exact .some called

theorem unhashTg (keeps : Keeps (.call permits) u s) (group : TgPtr) :
    Keeps (.call permits) u (unhashTg s group) := by
  refine keeps.of_same rfl rfl rfl rfl rfl rfl rfl rfl ?_ rfl
  intro index other member
  simp only [Driver.unhashTg, Function.update_apply] at member
  split at member
  · subst index
    exact List.mem_of_mem_erase member
  · exact member

theorem xpmemFlush (keeps : Keeps (.call permits) u s) (current : Task) :
    Always (xpmemFlush s current) (Keeps (.call permits) u) := by
  simp only [Driver.xpmemFlush, xpmemDestroyTg]
  split
  · exact .some keeps
  · rename_i group _
    have unhashed := (keeps.xpmemTgRef group).unhashTg group
    exact .map ((unhashed.xpmemMmuNotifierUnlink _ _).mono
      fun _ keeps => xpmemTgDeref (keeps.xpmemTgDeref _) _)

theorem mmuNotifierRelease (keeps : Keeps (.call permits) u s) (current : Task)
    (mm : MmPtr) :
    Always (mmuNotifierRelease s current mm) (Keeps (.call permits) u) :=
  .map ((Always.foldlM keeps
    fun _ _ _ keeps => keeps.xpmemMmuRelease current mm).mono
      fun _ keeps => keeps.modMm _ _)

theorem exitMmap (keeps : Keeps (.call permits) u s) (mm : MmPtr) :
    Always (exitMmap s mm) (Keeps (.call permits) u) :=
  .foldlM (keeps.modMm _ _) fun _ vma _ keeps => keeps.closeVma mm vma

/-! ## Recall requests -/

theorem xpmemDisallowBlockingRecallPFNs (keeps : Keeps (.call permits) u s)
    (group : TgPtr) :
    Always (xpmemDisallowBlockingRecallPFNs s group)
      (Keeps (.call permits) u) := by
  simp only [Driver.xpmemDisallowBlockingRecallPFNs]
  split
  · exact .none
  · exact .some (keeps.modTg rfl id id)

theorem xpmemForkBegin (keeps : Keeps (.call permits) u s) (current : Task) :
    Always (xpmemForkBegin s current) fun begun =>
      Keeps (.call permits) u begun.1 := by
  simp only [Driver.xpmemForkBegin]
  split
  · exact .some keeps
  · refine .bind
      (((keeps.xpmemTgRef _).xpmemDisallowBlockingRecallPFNs _).mono ?_)
    intro disallowed keeps
    exact .map ((keeps.xpmemRecallPFNsOfTg _).mono
      fun _ keeps => keeps.xpmemTgDeref _)

theorem xpmemForkEnd (keeps : Keeps (.call permits) u s) (current : Task) :
    Keeps (.call permits) u (xpmemForkEnd s current).1 := by
  simp only [Driver.xpmemForkEnd]
  split
  · exact keeps
  · exact xpmemTgDeref (modTg (keeps.xpmemTgRef _) rfl id id) _

theorem xpmemUnpinProcfsWrite (keeps : Keeps (.call permits) u s) (tgid : Pid)
    (stopped : Bool) :
    Always (xpmemUnpinProcfsWrite s tgid stopped)
      fun written => Keeps (.call permits) u written.1 := by
  simp only [Driver.xpmemUnpinProcfsWrite]
  split
  · exact .some keeps
  · split
    · exact .some (xpmemTgDeref (keeps.xpmemTgRef _) _)
    · refine .bind
        (((keeps.xpmemTgRef _).xpmemDisallowBlockingRecallPFNs _).mono ?_)
      intro disallowed keeps
      exact .map ((keeps.xpmemRecallPFNsOfTg _).mono
        fun _ keeps => xpmemTgDeref (keeps.modTg rfl id id) _)

/-! ## Operations -/

theorem xpmemIoctl (keeps : Keeps (.call permits) u s) (current : Task)
    (mm : MmPtr) (cmd : Cmd) (env : IoctlEnv) (yes : cmd.gets → permits) :
    Always (xpmemIoctl s current mm cmd env)
      fun called => Keeps (.call permits) u called.1 := by
  cases cmd with
  | version | unknown => exact .some keeps
  | forkBegin => exact .map (keeps.xpmemForkBegin current)
  | forkEnd => exact .some (keeps.xpmemForkEnd current)
  | make vaddr size permitType permitValue =>
      have made := keeps.xpmemMake current vaddr size permitType
        permitValue env.oom
      simp only [Driver.xpmemIoctl, ioctlMake]
      split
      · exact .some keeps
      · split
        · rename_i equal
          rw [equal] at made
          exact .some made
        · rename_i equal
          rw [equal] at made
          split
          · exact .some made
          · exact .map (made.xpmemRemove current _)
  | remove segid =>
      simp only [Driver.xpmemIoctl]
      split
      · exact .some keeps
      · exact .map (keeps.xpmemRemove current segid)
  | get segid flags permitType permitValue =>
      have got := keeps.xpmemGet (yes trivial) current env.cred segid flags
        permitType permitValue env.oom
      simp only [Driver.xpmemIoctl, ioctlGet]
      split
      · exact .some keeps
      · split
        · rename_i equal
          rw [equal] at got
          exact .some got
        · rename_i equal
          rw [equal] at got
          split
          · exact .some got
          · exact .map (got.xpmemRelease current _)
  | release apid =>
      simp only [Driver.xpmemIoctl]
      split
      · exact .some keeps
      · exact .map (keeps.xpmemRelease current apid)
  | attach apid offset size vaddr =>
      simp only [Driver.xpmemIoctl, ioctlAttach]
      split
      · exact .some keeps
      · refine .bind
          ((keeps.xpmemAttach current mm apid offset size vaddr _).mono ?_)
        intro attached keeps
        split
        · exact .some keeps
        · split
          · exact .some keeps
          · exact .map (keeps.xpmemDetach current mm _ _)
  | detach vaddr =>
      simp only [Driver.xpmemIoctl]
      split
      · exact .some keeps
      · exact .map (keeps.xpmemDetach current mm _ _)

theorem exitMm {tgid : Pid} {mm : MmPtr}
    (running : s.proc tgid = .running mm) :
    Always (exitMm s tgid mm) (Keeps ⟨True, permits, True⟩ s) := by
  have start : Keeps (.call permits) s s := refl s
  unfold Driver.exitMm
  refine .bind ((start.mmuNotifierRelease _ mm).mono ?_)
  intro released keeps
  refine .map ((keeps.exitMmap mm).mono fun closed keeps => ?_)
  refine keeps.procs.setProc _ (.inl ?_)
  rw [keeps.proc, running]
  nofun

theorem exitFiles (s : State K) (tgid : Pid) :
    Always (exitFiles s tgid) (Keeps ⟨True, permits, True⟩ s) := by
  have start : Keeps (.call permits) s s := refl s
  unfold Driver.exitFiles
  refine .map ((start.xpmemFlush _).mono fun flushed keeps => ?_)
  exact keeps.procs.setProc _ (.inr (.inr rfl))

theorem splitVma (keeps : Keeps (.call permits) u s) (mm : MmPtr)
    (lower upper : VmaInfo → VmaInfo) (addr : Nat) :
    Keeps (.call permits) u (splitVma s mm lower upper addr) := by
  have same : (Driver.splitVma s mm lower upper addr).proc = s.proc := by
    simp only [Driver.splitVma, State.modMm]
  exact keeps.of_same rfl rfl rfl rfl rfl rfl rfl rfl (fun _ _ => id) same

/-- Every operation keeps the records of all objects. -/
theorem step (s : State K) (op : Op) :
    Always (step s op)
      fun taken => Keeps ⟨True, op.gets, op.procs⟩ s taken.1 := by
  have keeps : Keeps ⟨True, op.gets, op.procs⟩ s s := .refl s
  cases op with
  | spawn tgid =>
      simp only [Driver.step]
      split
      · rename_i fresh
        have spawned := keeps.setProc (.running s.nextMm)
          (.inr (.inl fresh.2))
        exact .some (spawned.of_same rfl rfl rfl rfl rfl rfl rfl rfl
          (fun _ _ => id) rfl)
      · exact .none
  | openDev tgid env =>
      simp only [Driver.step]
      exact always_asTask fun mm _ => .some (keeps.xpmemOpen _ mm env)
  | closeDev tgid =>
      simp only [Driver.step]
      exact always_asTask fun mm _ => .map (keeps.xpmemFlush _)
  | exitMm tgid =>
      simp only [Driver.step]
      exact always_asTask fun mm running => .map (exitMm running)
  | exitFiles tgid =>
      simp only [Driver.step]
      split
      · exact .map (exitFiles s tgid)
      · exact .none
  | ioctl tgid cmd env =>
      simp only [Driver.step]
      exact always_asTask fun mm _ => keeps.xpmemIoctl _ mm cmd env id
  | fault tgid vaddr env =>
      simp only [Driver.step]
      refine always_asTask fun mm _ => ?_
      split
      · exact .none
      · split
        · exact .none
        · exact .map (keeps.xpmemFaultHandler mm _ vaddr env)
  | unpin tgid stopped =>
      exact .map (keeps.xpmemUnpinProcfsWrite tgid stopped)
  | invalidate tgid start stop =>
      simp only [Driver.step]
      refine always_asTask fun mm _ => ?_
      split
      · exact .map (keeps.notifyInvalidateRange _ mm start stop)
      · exact .none
  | munmap tgid start stop =>
      simp only [Driver.step]
      refine always_asTask fun mm _ => ?_
      split
      · exact .map (keeps.vmMunmap _ mm start stop)
      · exact .none
  | mprotect tgid start stop =>
      simp only [Driver.step]
      refine always_asTask fun mm _ => ?_
      split
      · have split : Keeps (.call False) s (splitEnds s mm start stop) :=
          (keeps.splitVma mm _ _ start).splitVma mm _ _ stop
        exact .map (split.notifyInvalidateRange _ mm start stop)
      · exact .none
  | mmap tgid start stop dev =>
      simp only [Driver.step]
      refine always_asTask fun mm _ => ?_
      split
      · split
        · exact .some (keeps.addVma mm start stop _ dev)
        · exact .none
      · exact .none
  | touch tgid vaddr frame =>
      simp only [Driver.step]
      refine always_asTask fun mm _ => .map ?_
      simp only [touchPage]
      split
      · exact .none
      · split
        · exact .none
        · exact .some (keeps.modMm _ _)
  | replace tgid start stop frames =>
      simp only [Driver.step]
      refine always_asTask fun mm _ => ?_
      split
      · refine .map ?_
        simp only [replaceFrames]
        split
        · exact .none
        · split
          · exact .none
          · exact (keeps.modMm _ _).notifyInvalidateRange _ mm start stop
      · exact .none
  | freeTable tgid index level =>
      simp only [Driver.step]
      exact always_asTask fun mm _ =>
        .some (keeps.of_same rfl rfl rfl rfl rfl rfl rfl rfl (fun _ _ => id) rfl)

end Keeps

end Xpmem.Driver
