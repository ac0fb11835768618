import Xpmem.Driver.Attach
import Xpmem.Foundation.Partial

/-!
# The fault handler with its locks

`xpmem_fault_handler` takes the segment for reading with recalls blocked, the
`mmap_sem` of the source and `att->mutex`, and drops and retakes its own
`mmap_sem` on two retry paths.  It is modelled here with these locks, with the
answers of the kernel to each attempt to take one, and with what other threads
do while it sleeps.  What it pins and inserts is that of `faultPin` and
`faultMap`.
-/

namespace Xpmem.Driver

open Xpmem.Foundation Xpmem.Kernel

variable {K : Platform}

/-- How often the faulting thread holds each of its locks. -/
structure Locks where
  /-- Recalls of the source group are blocked. -/
  recallBlocks : Int := 0
  /-- `seg->sema`, for reading. -/
  sema : Int := 0
  attMutex : Int := 0
  /-- `mmap_sem` of `current->mm` and of `seg_tg->mm`, for reading. -/
  ownMmap : Int := 1
  srcMmap : Int := 0
deriving DecidableEq, Repr

/-- The state, the locks of the thread and the number of PTEs it inserted. -/
structure Scene (K : Platform) where
  state : State K
  locks : Locks := {}
  inserted : Nat := 0

/-- How locks are contended, and what happens while the thread sleeps. -/
structure Delays (K : Platform) where
  /-- `xpmem_block_recall_PFNs` need not wait. -/
  recallFree : Bool := true
  /-- `down_read_trylock` of `seg->sema` succeeds. -/
  semaFree : Bool := true
  /-- `current->mm` has the smaller address. -/
  ownFirst : Bool := true
  /-- The source's `mmap_sem` can be taken at once. -/
  trylock : Bool := true
  /-- Other threads, while the thread waits for the segment, for the source's
  `mmap_sem` and for `att->mutex`. -/
  atSegment : State K → State K := id
  atMmap : State K → State K := id
  atMutex : State K → State K := id

/-- The result of `xpmem_seg_down_read`. -/
inductive DownRead where
  | ok
  | eagain
  | enoent
deriving DecidableEq, Repr

namespace Scene

/-- `xpmem_block_recall_PFNs`, when it returns 0. -/
def blockRecallPFNs (scene : Scene K) (segTg : TgPtr) : Scene K :=
  { scene with
    state := scene.state.modTg segTg fun tg =>
      { tg with nRecallPFNs := tg.nRecallPFNs - 1 }
    locks := { scene.locks with
      recallBlocks := scene.locks.recallBlocks + 1 } }

def unblockRecallPFNs (scene : Scene K) (segTg : TgPtr) : Scene K :=
  { scene with
    state := xpmemUnblockRecallPFNs scene.state segTg
    locks := { scene.locks with
      recallBlocks := scene.locks.recallBlocks - 1 } }

def downSema (scene : Scene K) : Scene K :=
  { scene with locks := { scene.locks with sema := scene.locks.sema + 1 } }

def upSema (scene : Scene K) : Scene K :=
  { scene with locks := { scene.locks with sema := scene.locks.sema - 1 } }

def lockOwn (scene : Scene K) : Scene K :=
  { scene with
    locks := { scene.locks with ownMmap := scene.locks.ownMmap + 1 } }

def unlockOwn (scene : Scene K) : Scene K :=
  { scene with
    locks := { scene.locks with ownMmap := scene.locks.ownMmap - 1 } }

def lockSource (scene : Scene K) : Scene K :=
  { scene with
    locks := { scene.locks with srcMmap := scene.locks.srcMmap + 1 } }

def unlockSource (scene : Scene K) : Scene K :=
  { scene with
    locks := { scene.locks with srcMmap := scene.locks.srcMmap - 1 } }

def lockMutex (scene : Scene K) : Scene K :=
  { scene with
    locks := { scene.locks with attMutex := scene.locks.attMutex + 1 } }

def unlockMutex (scene : Scene K) : Scene K :=
  { scene with
    locks := { scene.locks with attMutex := scene.locks.attMutex - 1 } }

/-- Other threads run. -/
def sleep (scene : Scene K) (others : State K → State K) : Scene K :=
  { scene with state := others scene.state }

/--
`xpmem_seg_down_read` with recalls blocked.  The flags say whether the two
attempts it makes succeed at once; when it may wait they do in the end.
-/
def xpmemSegDownRead (scene : Scene K) (segTg : TgPtr) (seg : SegPtr)
    (wait recallFree semaFree : Bool) : Scene K × DownRead :=
  if recallFree = false ∧ wait = false then (scene, .eagain)
  else
    let scene := scene.blockRecallPFNs segTg
    if semaFree = false ∧ wait = false then
      (scene.unblockRecallPFNs segTg, .eagain)
    else
      let scene := scene.downSema
      if (scene.state.seg seg).destroying ||
          (scene.state.tg segTg).destroying then
        (scene.upSema.unblockRecallPFNs segTg, .enoent)
      else (scene, .ok)

/-- `xpmem_seg_up_read` with recalls blocked. -/
def xpmemSegUpRead (scene : Scene K) (segTg : TgPtr) : Scene K :=
  scene.upSema.unblockRecallPFNs segTg

/--
The first lock of the handler: without waiting, and if that does not work
with `mmap_sem` dropped.  The flag is `vma_verification_needed`.
-/
def downReadRetrying (scene : Scene K) (segTg : TgPtr) (seg : SegPtr)
    (delays : Delays K) : Scene K × DownRead × Bool :=
  let tried := scene.xpmemSegDownRead segTg seg false delays.recallFree
    delays.semaFree
  if tried.2 = .eagain then
    let waited := (tried.1.unlockOwn.sleep delays.atSegment).xpmemSegDownRead
      segTg seg true delays.recallFree delays.semaFree
    (waited.1.lockOwn, waited.2, true)
  else (tried.1, tried.2, false)

/--
The second lock: the source's `mmap_sem`, if it is another one, in the order
of the addresses.  The flags are `seg_tg_mmap_sem_locked` and whether the
thread's own `mmap_sem` was dropped.
-/
def lockSourceOrdered (scene : Scene K) (srcMm mm : MmPtr)
    (delays : Delays K) : Scene K × Bool × Bool :=
  if srcMm = mm then (scene, false, false)
  else if delays.ownFirst || delays.trylock then
    (scene.lockSource, true, false)
  else
    ((scene.unlockOwn.sleep delays.atMmap).lockSource.lockOwn, true, true)

/-- `find_vma` still finds the area of the attachment. -/
def vmaKept (scene : Scene K) (mm : MmPtr) (att : AttPtr) (vaddr : Nat) :
    Bool :=
  match (scene.state.mm mm).vmaAt vaddr with
  | none => false
  | some vma =>
      vma.payload.xpmemOps && vma.payload.privateData = some att

/--
From the verification of the area to label `out_2`: the frame that was
pinned, or 0, and `att_locked`.
-/
def pinLocked (scene : Scene K) (mm : MmPtr) (att : AttPtr) (seg : SegPtr)
    (apTg segTg : TgPtr) (vaddr : Nat) (verify : Bool) (env : FaultEnv)
    (delays : Delays K) : Scene K × Frame × Bool :=
  if verify && !scene.vmaKept mm att vaddr then (scene, 0, false)
  else if env.killed then (scene, 0, false)
  else
    let scene := (scene.sleep delays.atMutex).lockMutex
    let pinned := faultPin scene.state att seg apTg segTg vaddr env
    ({ scene with state := pinned.1 }, pinned.2, true)

/-- What the handler has done when it comes to label `out_1`. -/
structure Pinned (K : Platform) where
  scene : Scene K
  pfn : Frame := 0
  attLocked : Bool := false
  srcLocked : Bool := false

/-- The part of `xpmem_fault_handler` up to label `out_1`. -/
def pinSource (scene : Scene K) (mm : MmPtr) (att : AttPtr) (seg : SegPtr)
    (apTg segTg : TgPtr) (vaddr : Nat) (env : FaultEnv)
    (delays : Delays K) : Pinned K :=
  let entered := scene.downReadRetrying segTg seg delays
  if entered.2.1 = .ok then
    let locked := entered.1.lockSourceOrdered
      (entered.1.state.tg segTg).mm mm delays
    let pinned := locked.1.pinLocked mm att seg apTg segTg vaddr
      (entered.2.2 || locked.2.2) env delays
    { scene := pinned.1.xpmemSegUpRead segTg, pfn := pinned.2.1
      attLocked := pinned.2.2, srcLocked := locked.2.1 }
  else { scene := entered.1 }

/-- `remap_pfn_range` is called and succeeds. -/
def remaps (s : State K) (mm : MmPtr) (vaddr pfn : Nat) (env : FaultEnv) :
    Bool :=
  pfn ≠ 0 && env.pfnValid && xpmemVaddrToPFN (s.mm mm) vaddr = 0 &&
    env.remapOk

/-- The part of `xpmem_fault_handler` after label `out_1`. -/
def mapPinned (pinned : Pinned K) (mm : MmPtr) (att : AttPtr)
    (seg : SegPtr) (permit : ApPtr) (apTg segTg : TgPtr) (vaddr : Nat)
    (env : FaultEnv) : Scene K × VmFault :=
  let scene := pinned.scene
  let s := scene.state.xpmemApDeref permit
  let s := s.xpmemTgDeref apTg
  let mapped := faultMap s mm seg vaddr pinned.pfn env
  let count := if remaps s mm vaddr pinned.pfn env then 1 else 0
  let scene :=
    { scene with state := mapped.1, inserted := scene.inserted + count }
  let scene := if pinned.srcLocked then scene.unlockSource else scene
  let scene := if pinned.attLocked then scene.unlockMutex else scene
  let s := scene.state.xpmemTgDeref segTg
  let s := s.xpmemSegDeref seg
  ({ scene with state := s.xpmemAttDeref att }, mapped.2)

/-- `xpmem_fault_handler`, in a task whose address space is `mm`. -/
def xpmemFaultHandler (scene : Scene K) (mm : MmPtr) (vma : Vma)
    (vaddr : Nat) (env : FaultEnv) (delays : Delays K) :
    Scene K × VmFault :=
  if env.dumpcore then (scene, .sigbus)
  else
    match vma.payload.privateData with
    | none => (scene, .sigbus)
    | some att =>
        let s := scene.state.xpmemAttRef att
        let permit := (s.att att).ap
        let s := s.xpmemApRef permit
        let apTg := (s.ap permit).tg
        let s := s.xpmemTgRef apTg
        if (s.ap permit).destroying || (s.tg apTg).destroying then
          let s := s.xpmemAttDeref att
          let s := s.xpmemApDeref permit
          ({ scene with state := s.xpmemTgDeref apTg }, .sigbus)
        else
          let seg := (s.ap permit).seg
          let s := s.xpmemSegRef seg
          let segTg := (s.seg seg).tg
          let s := s.xpmemTgRef segTg
          let pinned := pinSource { scene with state := s } mm att seg apTg
            segTg vaddr env delays
          mapPinned pinned mm att seg permit apTg segTg vaddr env

end Scene

/-! ## The handler without contention -/

/-- The segment or its group is being destroyed, seen with recalls blocked. -/
def Scene.going (scene : Scene K) (segTg : TgPtr) (seg : SegPtr) : Bool :=
  ((scene.blockRecallPFNs segTg).state.seg seg).destroying ||
    ((scene.blockRecallPFNs segTg).state.tg segTg).destroying

theorem Scene.xpmemSegDownRead_calm (scene : Scene K) (segTg : TgPtr)
    (seg : SegPtr) :
    scene.xpmemSegDownRead segTg seg false true true =
      if scene.going segTg seg then
        ((scene.blockRecallPFNs segTg).downSema.xpmemSegUpRead segTg,
          .enoent)
      else ((scene.blockRecallPFNs segTg).downSema, .ok) :=
  rfl

theorem Scene.downReadRetrying_calm (scene : Scene K) (segTg : TgPtr)
    (seg : SegPtr) :
    scene.downReadRetrying segTg seg {} =
      if scene.going segTg seg then
        ((scene.blockRecallPFNs segTg).downSema.xpmemSegUpRead segTg,
          .enoent, false)
      else ((scene.blockRecallPFNs segTg).downSema, .ok, false) := by
  rw [downReadRetrying, xpmemSegDownRead_calm]
  cases scene.going segTg seg <;> rfl

theorem Scene.pinSource_calm (scene : Scene K) (mm : MmPtr) (att : AttPtr)
    (seg : SegPtr) (apTg segTg : TgPtr) (vaddr : Nat) (env : FaultEnv) :
    let pinned := scene.pinSource mm att seg apTg segTg vaddr env {}
    let blocked := (scene.blockRecallPFNs segTg).state
    let expected :=
      if (blocked.seg seg).destroying || (blocked.tg segTg).destroying then
        (blocked, 0)
      else faultPin blocked att seg apTg segTg vaddr env
    (pinned.scene.state, pinned.pfn) =
      (xpmemUnblockRecallPFNs expected.1 segTg, expected.2) := by
  extract_lets pinned blocked expected
  unfold pinned pinSource
  rw [downReadRetrying_calm]
  cases going : scene.going segTg seg with
  | true =>
      have gone : expected = (blocked, 0) := if_pos going
      rw [gone]
      rfl
  | false =>
      have kept : expected =
          faultPin blocked att seg apTg segTg vaddr env :=
        if_neg (ne_of_eq_of_ne going Bool.false_ne_true)
      rw [kept]
      simp only [Bool.false_eq_true, if_false, if_true]
      unfold lockSourceOrdered pinLocked
      split <;> simp only [Bool.false_and, Bool.false_eq_true, if_false,
        Bool.or_self, if_true]
      all_goals
        split
        · rename_i killed
          rw [faultPin, if_pos killed]
          rfl
        · rfl

/-- What follows label `out_1` depends on the locks in nothing but locks. -/
theorem Scene.mapPinned_state (pinned : Pinned K) (mm : MmPtr)
    (att : AttPtr) (seg : SegPtr) (permit : ApPtr) (apTg segTg : TgPtr)
    (vaddr : Nat) (env : FaultEnv) :
    let result := mapPinned pinned mm att seg permit apTg segTg vaddr env
    let mapped := faultMap ((pinned.scene.state.xpmemApDeref
      permit).xpmemTgDeref apTg) mm seg vaddr pinned.pfn env
    (result.1.state, result.2) =
      (((mapped.1.xpmemTgDeref segTg).xpmemSegDeref seg).xpmemAttDeref att,
        mapped.2) := by
  obtain ⟨scene, pfn, attLocked, srcLocked⟩ := pinned
  cases attLocked <;> cases srcLocked <;> rfl

/--
Uncontended, the handler does to the state what the handler of the sequential
model does.
-/
theorem Scene.xpmemFaultHandler_eq (scene : Scene K) (mm : MmPtr)
    (vma : Vma) (vaddr : Nat) (env : FaultEnv) :
    Always (Driver.xpmemFaultHandler scene.state mm vma vaddr env)
      fun result =>
        ((scene.xpmemFaultHandler mm vma vaddr env {}).1.state,
          (scene.xpmemFaultHandler mm vma vaddr env {}).2) = result := by
  unfold Driver.xpmemFaultHandler Scene.xpmemFaultHandler
  by_cases dump : env.dumpcore = true
  · rw [if_pos dump, if_pos dump]
    exact .some rfl
  · rw [if_neg dump, if_neg dump]
    cases vma.payload.privateData with
    | none => exact .some rfl
    | some att =>
        dsimp -zeta only
        extract_lets s₁ permit s₂ apTg s₃ s₄ s₅ seg s₆ segTg s₇
        by_cases going :
            ((s₃.ap permit).destroying || (s₃.tg apTg).destroying) = true
        · rw [if_pos going, if_pos going]
          exact .some rfl
        · rw [if_neg going, if_neg going]
          unfold xpmemBlockRecallPFNs
          split
          · exact .none
          · refine .some ?_
            have pinned := pinSource_calm { scene with state := s₇ } mm att
              seg apTg segTg vaddr env
            rw [Prod.mk.injEq] at pinned
            refine (mapPinned_state _ mm att seg permit apTg segTg vaddr
              env).trans ?_
            rw [pinned.1, pinned.2]
            rfl

/-! ## Pins -/

/--
The frames that are pinned more often than before, for segments of `segTg`.
The counters are `int`s, so they agree up to a multiple of `2 ^ 32`.
-/
structure Gains (segTg : TgPtr) (frames : List Frame) (s t : State K) :
    Prop where
  refs : ∀ frame, t.pageRefs frame = s.pageRefs frame + frames.count frame
  group : ∀ group, int32 (t.tg group).nPinned =
    int32 ((s.tg group).nPinned +
      if group = segTg then (frames.length : Int) else 0)
  partition : int32 (t.myPart.nPinned - t.myPart.nUnpinned) =
    int32 (s.myPart.nPinned - s.myPart.nUnpinned + frames.length)
  owners : ∀ seg, (t.seg seg).tg = (s.seg seg).tg
  /-- Frame 0 is given to no page. -/
  nonzero : (∀ mm page, (s.mm mm).table.pte page ≠ some 0) →
    ∀ mm page, (t.mm mm).table.pte page ≠ some 0

namespace Gains

variable {segTg : TgPtr} {frames more : List Frame} {s t u : State K}

theorem int32_add (left right other : Int)
    (same : int32 left = int32 right) :
    int32 (left + other) = int32 (right + other) := by
  unfold int32 at *
  omega

theorem trans (earlier : Gains segTg frames s t)
    (later : Gains segTg more t u) :
    Gains segTg (frames ++ more) s u where
  refs frame := by
    rw [later.refs, earlier.refs, List.count_append]
    push_cast
    omega
  group group := by
    rw [later.group, int32_add _ _ _ (earlier.group group),
      List.length_append]
    congr 1
    split <;> push_cast <;> omega
  partition := by
    rw [later.partition, int32_add _ _ _ earlier.partition,
      List.length_append]
    congr 1
    push_cast
    omega
  owners seg := (later.owners seg).trans (earlier.owners seg)
  nonzero before := later.nonzero (earlier.nonzero before)

/-- Nothing about pins has changed. -/
theorem of_same (refs : t.pageRefs = s.pageRefs)
    (group : ∀ group, (t.tg group).nPinned = (s.tg group).nPinned)
    (partition : t.myPart = s.myPart)
    (owners : ∀ seg, (t.seg seg).tg = (s.seg seg).tg)
    (mm : t.mm = s.mm) : Gains segTg [] s t where
  refs frame := by simp [refs]
  group other := by simp [group]
  partition := by simp [partition]
  owners := owners
  nonzero before := by rw [mm]; exact before

theorem refl (s : State K) : Gains segTg [] s s :=
  of_same rfl (fun _ => rfl) rfl (fun _ => rfl) rfl

theorem modTg (s : State K) (group : TgPtr)
    {change : ThreadGroup → ThreadGroup}
    (kept : (change (s.tg group)).nPinned = (s.tg group).nPinned) :
    Gains segTg [] s (s.modTg group change) := by
  refine of_same rfl (fun other => ?_) rfl (fun _ => rfl) rfl
  by_cases here : other = group
  · subst here
    simpa [State.modTg] using kept
  · simp [State.modTg, here]

theorem modSeg (s : State K) (seg : SegPtr) {change : Segment → Segment}
    (kept : (change (s.seg seg)).tg = (s.seg seg).tg) :
    Gains segTg [] s (s.modSeg seg change) := by
  refine of_same rfl (fun _ => rfl) rfl (fun other => ?_) rfl
  by_cases here : other = seg
  · subst here
    simpa [State.modSeg] using kept
  · simp [State.modSeg, here]

theorem modAp (s : State K) (permit : ApPtr)
    (change : AccessPermit → AccessPermit) :
    Gains segTg [] s (s.modAp permit change) :=
  of_same rfl (fun _ => rfl) rfl (fun _ => rfl) rfl

theorem modAtt (s : State K) (att : AttPtr)
    (change : Attachment → Attachment) :
    Gains segTg [] s (s.modAtt att change) :=
  of_same rfl (fun _ => rfl) rfl (fun _ => rfl) rfl

theorem tgDeref (s : State K) (group : TgPtr) :
    Gains segTg [] s (s.xpmemTgDeref group) := by
  unfold State.xpmemTgDeref
  extract_lets lowered
  have first : Gains segTg [] s lowered := modTg s group rfl
  split
  · exact first
  · have freed : Gains segTg [] lowered
        (lowered.modTg group fun tg => { tg with allocated := false }) :=
      modTg lowered group rfl
    have both := first.trans freed
    exact ⟨both.refs, both.group, both.partition, both.owners,
      both.nonzero⟩

theorem segDeref (s : State K) (seg : SegPtr) :
    Gains segTg [] s (s.xpmemSegDeref seg) := by
  unfold State.xpmemSegDeref
  extract_lets lowered
  have first : Gains segTg [] s lowered := modSeg s seg rfl
  split
  · exact first
  · exact first.trans (modSeg lowered seg rfl)

theorem apDeref (s : State K) (permit : ApPtr) :
    Gains segTg [] s (s.xpmemApDeref permit) := by
  unfold State.xpmemApDeref
  extract_lets lowered
  have first : Gains segTg [] s lowered := modAp s permit _
  split
  · exact first
  · exact first.trans (modAp lowered permit _)

theorem attDeref (s : State K) (att : AttPtr) :
    Gains segTg [] s (s.xpmemAttDeref att) := by
  unfold State.xpmemAttDeref
  extract_lets lowered
  have first : Gains segTg [] s lowered := modAtt s att _
  split
  · exact first
  · exact first.trans (modAtt lowered att _)

/-- `put_page` and the counters take a pin back. -/
theorem put {seg : SegPtr} {pfn : Frame} (gains : Gains segTg [pfn] s t)
    (owner : (s.seg seg).tg = segTg) (page : Nat) :
    Gains segTg [] s (putPages t seg [(page, pfn)]) := by
  rw [putPages_eq, gains.owners, owner]
  constructor
  · intro frame
    have refs := gains.refs frame
    simp only [List.map_cons, List.map_nil, List.count_nil]
    omega
  · intro other
    have group := gains.group other
    by_cases here : other = segTg
    · subst here
      simp only [if_true, List.length_singleton] at group
      simp only [State.modTg, Function.update_self, List.length_singleton,
        List.length_nil, if_true]
      unfold int32 at *
      omega
    · simp only [here, if_false] at group
      simp only [State.modTg, Function.update_of_ne here, here, if_false]
      exact group
  · have partition := gains.partition
    simp only [List.length_singleton] at partition
    change int32 (t.myPart.nPinned -
      int32 (t.myPart.nUnpinned + ([(page, pfn)] : List _).length)) = _
    simp only [List.length_singleton, List.length_nil]
    unfold int32 at *
    omega
  · exact gains.owners
  · exact gains.nonzero

end Gains

/-- The frames a pinned frame number stands for. -/
def framesOf (pfn : Frame) : List Frame :=
  if pfn = 0 then [] else [pfn]

namespace Scene

variable {scene : Scene K} {segTg : TgPtr}

/-- A frame was pinned, under these locks. -/
structure Holds (segTg : TgPtr) (pfn : Frame) (taken : Locks)
    (before after : Scene K) : Prop where
  locks : after.locks = taken
  inserted : after.inserted = before.inserted
  gains : Gains segTg (framesOf pfn) before.state after.state

/-- No page has frame 0, and none gets it. -/
structure Sound (s : State K) (env : FaultEnv) : Prop where
  nonzero : ∀ mm page, (s.mm mm).table.pte page ≠ some 0
  fresh : env.gup ≠ .page 0

variable {env : FaultEnv} {delays : Delays K}

/-- What is held at label `out_1`: at most the mutex and the `mmap_sem`. -/
def Arrives (segTg : TgPtr) (before : Scene K) (pinned : Pinned K) : Prop :=
  Holds segTg pinned.pfn
    { before.locks with
      srcMmap := before.locks.srcMmap + if pinned.srcLocked then 1 else 0
      attMutex := before.locks.attMutex +
        if pinned.attLocked then 1 else 0 }
    before pinned.scene

/--
The handler has the locks back as they were, and its pins and counters have
grown by the PTEs it inserted, none of them when it fails.
-/
def Settles (segTg : TgPtr) (mm : MmPtr) (vaddr : Nat) (before : Scene K)
    (result : Scene K × VmFault) : Prop :=
  result.1.locks = before.locks ∧
    ∃ frames : List Frame,
      result.1.inserted = before.inserted + frames.length ∧
      (result.2 = .sigbus → frames = []) ∧
      Gains segTg frames before.state result.1.state ∧
      ∀ frame ∈ frames,
        (result.1.state.mm mm).frameAt vaddr = some frame

theorem Arrives.dropped {pinned : Pinned K}
    (arrives : Arrives segTg scene pinned) (permit : ApPtr)
    (apTg : TgPtr) :
    Gains segTg (framesOf pinned.pfn) scene.state
      ((pinned.scene.state.xpmemApDeref permit).xpmemTgDeref apTg) := by
  have both := (arrives.gains.trans
    (.apDeref pinned.scene.state permit)).trans (.tgDeref _ apTg)
  rwa [List.append_nil, List.append_nil] at both

theorem Settles.after {t : State K} {mm : MmPtr} {vaddr : Nat}
    {result : Scene K × VmFault}
    (settles : Settles segTg mm vaddr { scene with state := t } result)
    (gains : Gains segTg [] scene.state t) :
    Settles segTg mm vaddr scene result := by
  obtain ⟨locks, frames, inserted, failed, later, present⟩ := settles
  exact ⟨locks, frames, inserted, failed, gains.trans later, present⟩

end Scene

end Xpmem.Driver
