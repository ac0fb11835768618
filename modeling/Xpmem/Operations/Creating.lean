import Xpmem.Operations.Attaching
import Xpmem.Operations.Releasing

/-!
# Creating objects, and the ioctls

What opening the device, `xpmem_make`, `xpmem_get` and the recall requests
reach, and from that what every ioctl reaches.
-/

namespace Xpmem.Driver

open Xpmem.Foundation Xpmem.Kernel Xpmem.Objects

variable {K : Platform} {tidy : Prop} {origin s t : State K}
    {first held : Held}

/-! ## Groups -/

theorem Reaches.openDev (reaches : Reaches tidy origin first s held)
    (standing : ∀ group, .closing (.tg group) ∉ held) {current : Task}
    {mm : MmPtr} (running : s.proc current.tgid = .running mm)
    (staying : .leaving current.tgid ∉ held) (env : OpenEnv) :
    Reaches tidy origin first (xpmemOpen s current mm env).1 held := by
  have formed := reaches.formed
  unfold xpmemOpen
  split
  · rename_i group found
    exact (reaches.tgRef (findTg_eq_some found).1).tgDeref
  · rename_i missing
    split
    · exact reaches
    · split
      · exact reaches
      · refine .act reaches (.openTg env.cred running ?_)
        intro group linked own
        obtain ⟨_, destroying⟩ := findTg_eq_none missing linked own
        have dead : (s.tg group).destroyed = true :=
          (formed.graph.closing (.tg group) destroying).resolve_right
            (standing group)
        rcases formed.procs.leaving group linked dead with exits | leaves
        · rw [own, running] at exits
          cases exits
        · exact staying (own ▸ leaves)

/-! ## Segments -/

theorem segRange_of_makeSize {vaddr size range : Nat}
    (low : vaddr < 2 ^ 64) (small : size < 2 ^ 64)
    (passed : makeSize K.taskSize vaddr size = some range)
    (aligned : vaddr % pageSize = 0) (whole : range % pageSize = 0) :
    SegRange K vaddr range := by
  have bound := K.taskSize_le
  unfold makeSize at passed
  unfold SegRange
  unfold u64 u64Sub at passed
  split at passed
  · split at passed
    · cases passed
    · cases passed
      omega
  · cases passed
    omega

theorem main_makeSegid (s : State K) (group : TgPtr) :
    (xpmemMakeSegid s group).1.main = s.main := by
  unfold xpmemMakeSegid
  extract_lets uniq
  split
  · rfl
  · dsimp only
    apply s.main_modTg group
    rfl

theorem main_makeApid (s : State K) (group : TgPtr) :
    (xpmemMakeApid s group).1.main = s.main := by
  unfold xpmemMakeApid
  extract_lets uniq
  split
  · rfl
  · dsimp only
    apply s.main_modTg group
    rfl

theorem Reaches.make (reaches : Reaches tidy origin first s held)
    (current : Task) (vaddr size : BitVec 64) (permitType : BitVec 32)
    (permitValue : BitVec 64) (oom : Bool) :
    Reaches tidy origin first
      (xpmemMake s current vaddr size permitType permitValue oom).1 held := by
  have formed := reaches.formed
  unfold xpmemMake
  split
  · exact reaches
  split
  · exact reaches
  rename_i group found
  obtain ⟨linked, _, live⟩ := findTg_eq_some found
  extract_lets referred
  have shape : referred.shape = s.shape := shape_xpmemTgRef s group
  have entered : Reaches tidy origin first referred
      (.ref (.tg group) ::ₘ held) := reaches.tgRef linked
  split
  · exact entered.tgDeref
  rename_i range passed
  split
  · exact entered.tgDeref
  rename_i aligned
  simp only [not_or, not_not] at aligned
  have minor := main_makeSegid referred group
  split
  · rename_i same
    rw [same] at minor
    exact Reaches.tgDeref (.act entered (.minor minor))
  rename_i counted segid same
  rw [same] at minor
  have reached : Reaches tidy origin first counted
      (.ref (.tg group) ::ₘ held) := .act entered (.minor minor)
  split
  · exact reached.tgDeref
  have total : counted.shape = s.shape :=
    (State.shape_eq_of_main minor).trans shape
  have winds := Winds.of_shape total
  have limit : (referred.tg group).addrLimit = K.taskSize :=
    (congrArg ThreadGroup.addrLimit ((Winds.of_shape shape).tg group)).trans
      (formed.laid.limit group (formed.graph.used (.tg group) linked))
  rw [limit] at passed
  have active : s.graph.destroyed (.tg group) = false :=
    formed.destroyed_eq_false (live rfl)
  refine Reaches.tgDeref (.act reached (.makeSeg segid permitType
    permitValue ((winds.linked group).mpr linked) ?_ ?_))
  · rw [winds.destroyed]
    exact active
  · exact segRange_of_makeSize vaddr.isLt size.isLt passed aligned.1
      aligned.2

/-! ## Permits -/

theorem Reaches.getPermitted {seg : SegPtr} {segTg : TgPtr}
    (reaches : Reaches tidy origin first s
      (.ref (.seg seg) ::ₘ .ref (.tg segTg) ::ₘ held))
    (owner : (s.seg seg).tg = segTg) (current : Task) (flags : BitVec 32)
    (oom : Bool) :
    Reaches tidy origin first
      (getPermitted s current seg segTg flags oom).1 held := by
  have formed := reaches.formed
  unfold Driver.getPermitted
  split
  · exact reaches.segDeref.tgDeref
  rename_i group found
  obtain ⟨linked, _, live⟩ := findTg_eq_some found
  extract_lets referred
  have shape : referred.shape = s.shape := shape_xpmemTgRef s group
  have entered : Reaches tidy origin first referred
      (.ref (.tg group) ::ₘ .ref (.seg seg) ::ₘ .ref (.tg segTg) ::ₘ
        held) := reaches.tgRef linked
  have minor := main_makeApid referred group
  split
  · rename_i same
    rw [same] at minor
    have reached := Reaches.act entered (.minor minor)
    exact reached.tgDeref.segDeref.tgDeref
  rename_i counted apid same
  rw [same] at minor
  have reached : Reaches tidy origin first counted
      (.ref (.tg group) ::ₘ .ref (.seg seg) ::ₘ .ref (.tg segTg) ::ₘ
        held) := .act entered (.minor minor)
  split
  · exact reached.tgDeref.segDeref.tgDeref
  have total : counted.shape = s.shape :=
    (State.shape_eq_of_main minor).trans shape
  have winds := Winds.of_shape total
  have active : s.graph.destroyed (.tg group) = false :=
    formed.destroyed_eq_false (live rfl)
  have target : (counted.seg seg).tg = segTg :=
    (congrArg Segment.tg (winds.seg seg)).trans owner
  have ordered : Reaches tidy origin first counted
      (.ref (.seg seg) ::ₘ .ref (.tg (counted.seg seg).tg) ::ₘ
        .ref (.tg group) ::ₘ held) := by
    rw [target]
    refine reached.of_eq ?_
    rw [Multiset.cons_swap (Token.ref (.tg group)) (.ref (.seg seg)),
      Multiset.cons_swap (Token.ref (.tg group)) (.ref (.tg segTg))]
  refine Reaches.tgDeref (.act ordered (.getAp apid flags
    ((winds.linked group).mpr linked) ?_))
  rw [winds.destroyed]
  exact active

theorem Reaches.get (reaches : Reaches tidy origin first s held)
    (current : Task) (cred : Cred) (segid : BitVec 64)
    (flags permitType : BitVec 32) (permitValue : BitVec 64) (oom : Bool) :
    Reaches tidy origin first
      (xpmemGet s current cred segid flags permitType permitValue oom).1
      held := by
  unfold xpmemGet
  split
  · exact reaches
  split
  · exact reaches
  split
  · exact reaches
  split
  · exact reaches
  rename_i segTg found
  obtain ⟨linked, _, _⟩ := findTg_eq_some found
  extract_lets referred
  have entered : Reaches tidy origin first referred
      (.ref (.tg segTg) ::ₘ held) := reaches.tgRef linked
  split
  · exact entered.tgDeref
  rename_i seg listed
  obtain ⟨present, owner, _⟩ := entered.formed.findSeg listed
  extract_lets shared fewer
  have taken : Reaches tidy origin first shared
      (.ref (.seg seg) ::ₘ .ref (.tg segTg) ::ₘ held) :=
    entered.segRef present
  split
  · refine taken.getPermitted ?_ current flags oom
    simpa [shared, State.xpmemSegRef, State.modSeg] using owner
  · exact taken.segDeref.tgDeref

/-! ## Recall requests -/

theorem main_recallCount (s : State K) (group : TgPtr)
    (count : Int → Int) :
    (s.modTg group fun tg =>
      { tg with nRecallPFNs := count tg.nRecallPFNs }).main = s.main :=
  s.main_modTg group rfl

theorem Reaches.recallCounted
    (reaches : Reaches tidy origin first s held) (group : TgPtr)
    (count : Int → Int) :
    Reaches tidy origin first
      (s.modTg group fun tg =>
        { tg with nRecallPFNs := count tg.nRecallPFNs }) held :=
  .act reaches (.minor (main_recallCount s group count))

/-- Recalls are disallowed to be blocked, and the pages are recalled. -/
theorem Reaches.disallowAndRecall
    (reaches : Reaches tidy origin first s held) (settled : Settled held)
    (group : TgPtr) :
    Always ((xpmemDisallowBlockingRecallPFNs s group).bind fun s =>
      xpmemRecallPFNsOfTg s group) fun t =>
        Reaches tidy origin first t held := by
  refine .bind ?_
  unfold xpmemDisallowBlockingRecallPFNs
  split
  · exact .none
  · refine .some (((reaches.recallCounted group (· + 1)).recallPFNsOfTg
      (settled.ready _ _ _) group).mono fun _ sweeps => sweeps.reaches)

theorem Reaches.forkBegin (reaches : Reaches tidy origin first s held)
    (settled : Settled held) (current : Task) :
    Always (xpmemForkBegin s current) fun result =>
      Reaches tidy origin first result.1 held := by
  unfold xpmemForkBegin
  split
  · exact .some reaches
  · rename_i group found
    have entered := reaches.tgRef (findTg_eq_some found).1
    refine .bind_map ((entered.disallowAndRecall settled.cons_ref
      group).mono fun recalled reached => ?_)
    exact reached.tgDeref

theorem Reaches.forkEnd (reaches : Reaches tidy origin first s held)
    (current : Task) :
    Reaches tidy origin first (xpmemForkEnd s current).1 held := by
  unfold xpmemForkEnd
  split
  · exact reaches
  · rename_i group found
    have entered := reaches.tgRef (findTg_eq_some found).1
    exact (entered.recallCounted group (· - 1)).tgDeref

theorem Reaches.unpinProcfs (reaches : Reaches tidy origin first s held)
    (settled : Settled held) (tgid : Pid) (stopped : Bool) :
    Always (xpmemUnpinProcfsWrite s tgid stopped) fun result =>
      Reaches tidy origin first result.1 held := by
  unfold xpmemUnpinProcfsWrite
  split
  · exact .some reaches
  · rename_i group found
    have entered := reaches.tgRef (findTg_eq_some found).1
    extract_lets referred
    split
    · exact .some entered.tgDeref
    · refine .bind_map ((entered.disallowAndRecall settled.cons_ref
        group).mono fun recalled reached => ?_)
      exact (reached.recallCounted group (· - 1)).tgDeref

/-! ## The ioctls -/

theorem Reaches.ioctlMake (reaches : Reaches tidy origin first s held)
    (calm : Calm held) (settled : Settled held) (current : Task)
    (vaddr size : BitVec 64) (permitType : BitVec 32)
    (permitValue : BitVec 64) (env : IoctlEnv) :
    Always (ioctlMake s current vaddr size permitType permitValue env)
      fun result => Reaches tidy origin first result.1 held := by
  have made := reaches.make current vaddr size permitType permitValue
    env.oom
  unfold Driver.ioctlMake
  cases result : xpmemMake s current vaddr size permitType permitValue
      env.oom with
  | mk t outcome =>
      rw [result] at made
      cases outcome with
      | error => exact .some made
      | ok segid =>
          dsimp only
          split
          · exact .some made
          · exact .map ((made.remove current calm settled segid).mono
              fun _ removed => removed.1)

theorem Reaches.ioctlGet (reaches : Reaches tidy origin first s held)
    (calm : Calm held) (settled : Settled held)
    (free : ∀ permit, .closing (.ap permit) ∉ held) {tgid : Pid}
    {mm : MmPtr} (running : s.proc tgid = .running mm)
    (segid : BitVec 64) (flags permitType : BitVec 32)
    (permitValue : BitVec 64) (env : IoctlEnv) :
    Always (ioctlGet s ⟨tgid, some mm⟩ segid flags permitType permitValue
      env) fun result => Reaches tidy origin first result.1 held := by
  have got := reaches.get ⟨tgid, some mm⟩ env.cred segid flags permitType
    permitValue env.oom
  have start : Keeps (.call True) s s := .refl s
  have keeps := (start.xpmemGet trivial ⟨tgid, some mm⟩ env.cred segid
    flags permitType permitValue env.oom).proc
  unfold Driver.ioctlGet
  cases result : xpmemGet s ⟨tgid, some mm⟩ env.cred segid flags permitType
      permitValue env.oom with
  | mk t outcome =>
      rw [result] at got keeps
      cases outcome with
      | error => exact .some got
      | ok apid =>
          dsimp only
          split
          · exact .some got
          · have runs : t.proc tgid = .running mm := keeps ▸ running
            exact .map ((got.release runs rfl calm settled free apid).mono
              fun _ released => released.1)

/--
Where an ioctl attaches, the walk over the pages of the attachment meets no
absent entry that is too long.
-/
def Walkably (s : State K) (current : Task) (mm : MmPtr) (env : IoctlEnv) :
    Cmd → Prop
  | .attach apid offset size vaddr =>
      Always (xpmemAttach s current mm apid offset size vaddr
        { oom := env.oom, place := env.place }) fun attached =>
          ∀ addr, attached.2 = .ok addr → Walkable (s.mm mm).table
            (addr / pageSize) (roundSize size / pageSize)
  | _ => True

theorem Reaches.ioctlAttach (reaches : Reaches tidy origin first s held)
    (calm : Calm held) (settled : Settled held) {current : Task}
    {mm : MmPtr} (running : s.proc current.tgid = .running mm)
    (apid offset size vaddr : BitVec 64) (env : IoctlEnv)
    (walkably : tidy → Walkably s current mm env
      (.attach apid offset size vaddr)) :
    Always (ioctlAttach s current mm apid offset size vaddr env)
      fun result => Reaches tidy origin first result.1 held := by
  unfold Driver.ioctlAttach
  refine .bind fun attached attaches => ?_
  have facts := (reaches.attach running calm settled apid offset size vaddr
    { oom := env.oom, place := env.place }).of_eq attaches
  obtain ⟨reached, proc⟩ := facts fun orderly =>
    (walkably orderly).of_eq attaches
  obtain ⟨t, outcome⟩ := attached
  cases outcome with
  | error => exact .some reached
  | ok addr =>
      dsimp only
      split
      · exact .some reached
      · exact .map ((reached.detach (proc ▸ running) calm settled addr
          env.killed).mono fun _ detached => detached.1)

/-- What an ioctl of a running process reaches. -/
theorem Reaches.ioctl (formed : WellFormed s 0) {tgid : Pid} {mm : MmPtr}
    (running : s.proc tgid = .running mm) (cmd : Cmd) (env : IoctlEnv)
    (walkably : tidy → Walkably s ⟨tgid, some mm⟩ mm env cmd) :
    Always (xpmemIoctl s ⟨tgid, some mm⟩ mm cmd env) fun result =>
      Reaches tidy s 0 result.1 0 := by
  have start : Reaches tidy s 0 s 0 := .here formed
  have calm : Calm 0 := ⟨by simp, by simp⟩
  have settled : Settled 0 := by simp [Settled]
  unfold xpmemIoctl
  cases cmd with
  | version | unknown => exact .some start
  | forkBegin => exact .map (start.forkBegin settled _)
  | forkEnd => exact .some (start.forkEnd _)
  | make vaddr size permitType permitValue =>
      dsimp only
      split
      · exact .some start
      · exact start.ioctlMake calm settled _ vaddr size permitType
          permitValue env
  | remove segid =>
      dsimp only
      split
      · exact .some start
      · exact .map ((start.remove _ calm settled segid).mono
          fun _ removed => removed.1)
  | get segid flags permitType permitValue =>
      dsimp only
      split
      · exact .some start
      · exact start.ioctlGet calm settled (by simp) running segid flags
          permitType permitValue env
  | release apid =>
      dsimp only
      split
      · exact .some start
      · exact .map ((start.release running rfl calm settled (by simp)
          apid).mono fun _ released => released.1)
  | attach apid offset size vaddr =>
      dsimp only
      split
      · exact .some start
      · exact start.ioctlAttach calm settled running apid offset size vaddr
          env walkably
  | detach vaddr =>
      dsimp only
      split
      · exact .some start
      · exact .map ((start.detach running calm settled vaddr.toNat
          env.killed).mono fun _ detached => detached.1)

end Xpmem.Driver
