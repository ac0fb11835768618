import Xpmem.Driver.Naming

/-!
# Write authority

An attachment is mapped for reading and writing, whatever its permit says.
The permission check of `xpmem_get` and the mode check of `xpmem_attach` meet
only in the mode of the permit: `xpmem_get` asks for write permission when
the flags have `XPMEM_RDWR`, and `xpmem_attach` refuses a permit whose mode is
`XPMEM_RDONLY`.  Flags that are neither pass both.

Here every permit of a run is traced back to the `xpmem_get` that created it,
and from there to what that call has checked.
-/

namespace Xpmem.Driver

open Xpmem.Foundation Xpmem.Kernel

variable {K : Platform} {s t : State K}

/-! ## Flags -/

/-- `xpmem_get` accepts three values for its flags. -/
theorem flags_eq_of_filtered {flags : BitVec 32}
    (filtered : getFlagsInvalid flags = false) :
    flags = 0 ∨ flags = xpmemRdonly ∨ flags = xpmemRdwr := by
  simp only [getFlagsInvalid, Bool.or_eq_false_iff] at filtered
  have known : flags &&& ~~~3 = 0 := by
    simpa [xpmemRdonly, xpmemRdwr] using of_decide_eq_false filtered.1
  have notBoth : flags &&& 3 ≠ 3 := of_decide_eq_false filtered.2
  have low : flags &&& 3 = flags := by
    calc flags &&& 3
      _ = (flags &&& 3) ||| (flags &&& ~~~3) := by rw [known]; simp
      _ = flags &&& (3 ||| ~~~3) := BitVec.and_or_distrib_left.symm
      _ = flags := BitVec.and_allOnes
  have small : flags.toNat ≤ 3 := by
    rw [← low, BitVec.toNat_and]
    exact Nat.and_le_right
  rw [low] at notBoth
  simp only [← BitVec.toNat_inj, ne_eq, xpmemRdonly, xpmemRdwr,
    BitVec.reduceToNat] at notBoth ⊢
  omega

/-! ## Permits and the calls that created them -/

/-- What makes no permits leaves their number alone. -/
theorem Keeps.nextAp {lists procs : Prop}
    (keeps : Keeps ⟨lists, False, procs⟩ s t) :
    t.nextAp = s.nextAp := by
  refine keeps.invariant (fun state => state.nextAp = s.nextAp) rfl ?_
  intro pre post same change
  cases change with
  | rest _ _ _ _ _ _ nextAp => rw [nextAp]; exact same
  | tg | seg | ap | att => exact same
  | makeApid yes | linkAp yes => exact yes.elim
  | attachLink | unlinkAp | unlinkSeg | linkTg => exact same
  | makeSegid | linkSeg =>
      simp only [linkSeg, xpmemMakeSegid]
      split <;> exact same

/-- What changes single objects leaves the records alone. -/
theorem Keeps.records (keeps : Keeps .quiet s t) :
    (∀ group, (t.tg group).record = (s.tg group).record) ∧
      (∀ permit, (t.ap permit).record = (s.ap permit).record) := by
  refine keeps.invariant (fun state =>
    (∀ group, (state.tg group).record = (s.tg group).record) ∧
      (∀ permit, (state.ap permit).record = (s.ap permit).record))
    ⟨fun _ => rfl, fun _ => rfl⟩ ?_
  intro pre post ⟨groups, permits⟩ change
  cases change with
  | rest tg _ ap => rw [tg, ap]; exact ⟨groups, permits⟩
  | tg group entry =>
      refine ⟨fun other => ?_, permits⟩
      rw [← groups other]
      simp only [State.modTg, Function.update_apply]
      split
      · rename_i here
        rw [here]
        have same := congrArg ThreadGroup.record entry
        exact same
      · rfl
  | ap permit record =>
      refine ⟨groups, fun other => ?_⟩
      rw [← permits other]
      simp only [State.modAp, Function.update_apply]
      split
      · rename_i here
        rw [here]
        exact record
      · rfl
  | seg | att => exact ⟨groups, permits⟩
  | attachLink yes | makeApid yes | linkAp yes | unlinkAp yes
  | makeSegid yes | linkSeg yes | unlinkSeg yes | linkTg yes =>
      exact yes.elim

theorem nextAp_xpmemTgDeref (s : State K) (group : TgPtr) :
    (s.xpmemTgDeref group).nextAp = s.nextAp :=
  (xpmemTgDeref_objects s group).2.2.2

theorem nextAp_xpmemSegDeref (s : State K) (seg : SegPtr) :
    (s.xpmemSegDeref seg).nextAp = s.nextAp := by
  simp only [State.xpmemSegDeref]
  split <;> rfl

theorem getPermitted_eq_error {current : Task} {seg : SegPtr}
    {segTg : TgPtr} {flags : BitVec 32} {oom : Bool} {error : Errno}
    (failed : getPermitted s current seg segTg flags oom =
      (t, .error error)) :
    t.nextAp = s.nextAp := by
  unfold getPermitted at failed
  split at failed
  · cases failed
    rw [nextAp_xpmemTgDeref, nextAp_xpmemSegDeref]
  · dsimp only at failed
    split at failed
    · rename_i equal
      cases failed
      rw [nextAp_xpmemTgDeref, nextAp_xpmemSegDeref, nextAp_xpmemTgDeref,
        xpmemMakeApid_nextAp equal]
      rfl
    · rename_i equal
      split at failed
      · cases failed
        rw [nextAp_xpmemTgDeref, nextAp_xpmemSegDeref, nextAp_xpmemTgDeref,
          xpmemMakeApid_nextAp equal]
        rfl
      · cases failed

/-- A failing `xpmem_get` leaves no permit. -/
theorem xpmemGet_eq_error {current : Task} {cred : Cred}
    {segid : BitVec 64} {flags permitType : BitVec 32}
    {permitValue : BitVec 64} {oom : Bool} {error : Errno}
    (failed : xpmemGet s current cred segid flags permitType permitValue
      oom = (t, .error error)) :
    t.nextAp = s.nextAp := by
  unfold xpmemGet at failed
  split at failed
  · cases failed; rfl
  · split at failed
    · cases failed; rfl
    · split at failed
      · cases failed; rfl
      · split at failed
        · cases failed; rfl
        · dsimp only at failed
          split at failed
          · cases failed
            rw [nextAp_xpmemTgDeref]
            rfl
          · split at failed
            · rw [getPermitted_eq_error failed]
              rfl
            · cases failed
              rw [nextAp_xpmemTgDeref, nextAp_xpmemSegDeref]
              rfl

/--
The event is an `XPMEM_CMD_GET` of the process that created the permit, and
the caller had read and write permission on the segment.
-/
def GetsWritable (tgid : Pid) (permit : ApPtr)
    (event : Event (State K) Op Ret) : Prop :=
  match event.action with
  | .ioctl caller (.get segid _ _ _) env =>
      caller = tgid ∧
        permit = event.pre.nextAp ∧ permit < event.post.nextAp ∧
        event.pre.findTg tgid false = some (event.post.ap permit).tg ∧
        event.pre.resolveSeg segid = some (event.post.ap permit).seg ∧
        segPerms event.pre env.cred (event.post.ap permit).seg sIrusr ∧
        segPerms event.pre env.cred (event.post.ap permit).seg sIwusr
  | _ => False

instance (tgid : Pid) (permit : ApPtr)
    (event : Event (State K) Op Ret) :
    Decidable (GetsWritable tgid permit event) := by
  unfold GetsWritable
  split <;> infer_instance

/-- No permit is asked for without saying what for. -/
def FlagsGiven (_ : State K) : Op → Prop
  | .ioctl _ (.get _ flags _ _) _ => flags ≠ 0
  | _ => True

instance (s : State K) (op : Op) : Decidable (FlagsGiven s op) := by
  unfold FlagsGiven
  split <;> infer_instance

/--
The event is an `XPMEM_CMD_GET` that created the permit: what was checked is
what the permit records.
-/
def Gets (permit : ApPtr) (event : Event (State K) Op Ret) : Prop :=
  ∃ tgid segid flags permitType permitValue env apid granted,
    event.action = .ioctl tgid (.get segid flags permitType permitValue)
      env ∧
    permit = event.pre.nextAp ∧
    Granted event.pre tgid env.cred segid flags apid granted ∧
    Recorded granted event.post

/-- A transition that adds a permit is an `XPMEM_CMD_GET`. -/
theorem gets_of_step {op : Op} {ret : Ret} {permit : ApPtr}
    (taken : step s op = some (t, ret)) (fresh : s.nextAp ≤ permit)
    (used : permit < t.nextAp) : Gets permit ⟨s, op, ret, t⟩ := by
  have keeps := (Keeps.step s op).of_eq taken
  by_cases gets : op.gets
  · match op, gets with
    | .ioctl tgid (.get segid flags permitType permitValue) env, _ =>
      simp only [Driver.step, asTask, xpmemIoctl, ioctlGet] at taken
      split at taken
      · rename_i mm running
        split at taken
        · cases taken
          exact absurd used (Nat.not_lt.mpr fresh)
        · split at taken
          · rename_i failed
            cases taken
            rw [xpmemGet_eq_error failed] at used
            exact absurd used (Nat.not_lt.mpr fresh)
          · rename_i granted apid got
            have given := xpmemGet_eq_ok got
            have later : Keeps (.call False) granted t := by
              split at taken
              · cases taken
                exact .refl _
              · simp only [Option.map_eq_some_iff] at taken
                obtain ⟨released, equal, same⟩ := taken
                cases same
                have start : Keeps (.call False) granted granted := .refl _
                exact (start.xpmemRelease _ apid).of_eq equal
            have next := later.nextAp
            rw [given.next] at next
            refine ⟨tgid, segid, flags, permitType, permitValue, env, apid,
              granted, rfl, ?_, given, later.recorded⟩
            rw [next] at used
            exact Nat.le_antisymm (Nat.lt_succ_iff.mp used) fresh
      · cases taken
  · change Keeps ⟨True, op.gets, op.procs⟩ s t at keeps
    rw [eq_false gets] at keeps
    rw [keeps.nextAp] at used
    exact absurd used (Nat.not_lt.mpr fresh)

/-- Every permit of a run has been created by an `XPMEM_CMD_GET`. -/
theorem gets_of_run {allowed : State K → Op → Prop}
    {events : List (Event (State K) Op Ret)}
    (run : Run step {} allowed events s) {permit : ApPtr}
    (used : permit < s.nextAp) : ∃ event ∈ events, Gets permit event := by
  induction run with
  | start => cases used
  | @next events pre post op ret _ _ taken induction =>
      by_cases before : permit < pre.nextAp
      · obtain ⟨event, member, gets⟩ := induction before
        exact ⟨event, List.mem_append_left _ member, gets⟩
      · refine ⟨⟨pre, op, ret, post⟩, List.mem_append_right _ ?_, ?_⟩
        · exact List.mem_singleton_self _
        · exact gets_of_step taken (Nat.not_lt.mp before) used

/-! ## What an attach has checked -/

/--
`xpmem_attach`, called in the process, succeeds and makes an attachment of
the permit.
-/
def Attaches (s : State K) (tgid : Pid) (permit : ApPtr) : Prop :=
  ∃ mm apid offset size vaddr env attached address,
    s.proc tgid = .running mm ∧
    xpmemAttach s ⟨tgid, some mm⟩ mm apid offset size vaddr env =
      some (attached, .ok address) ∧
    s.nextAtt < attached.nextAtt ∧ (attached.att s.nextAtt).ap = permit

/-- An attach to show, by what it returns. -/
theorem attaches_of_any {tgid : Pid} {mm : MmPtr}
    {apid offset size vaddr : BitVec 64} {env : AttachEnv} {permit : ApPtr}
    (running : s.proc tgid = .running mm)
    (attached : (xpmemAttach s ⟨tgid, some mm⟩ mm apid offset size vaddr
      env).any (fun attached =>
        attached.2.isOk && decide (s.nextAtt < attached.1.nextAtt ∧
          (attached.1.att s.nextAtt).ap = permit)) = true) :
    Attaches s tgid permit := by
  rw [Option.any_eq_true] at attached
  obtain ⟨⟨t, result⟩, equal, passed⟩ := attached
  cases result with
  | error => simp [Except.isOk, Except.toBool] at passed
  | ok address =>
      simp only [Bool.and_eq_true, decide_eq_true_eq] at passed
      exact ⟨mm, _, _, _, _, _, t, address, running, equal, passed.2⟩

/-- The checks of `xpmem_validate_access` on the permit itself. -/
theorem mode_of_validateAccess {current : Task} {permit : ApPtr}
    {offset : BitVec 64} {size segVaddr : Nat}
    (passed : xpmemValidateAccess s current permit offset size xpmemRdwr =
      .ok segVaddr) :
    (s.tg (s.ap permit).tg).tgid = current.tgid ∧
      (s.ap permit).mode ≠ xpmemRdonly := by
  unfold xpmemValidateAccess at passed
  split at passed
  · cases passed
  · rename_i own
    simp only [not_or, not_and, not_not, true_implies] at own
    exact ⟨own.1.symm, own.2⟩

theorem attachChecked_eq_ok {current : Task} {mm : MmPtr} {permit : ApPtr}
    {seg : SegPtr} {segTg : TgPtr} {offset : BitVec 64} {size vaddr : Nat}
    {env : AttachEnv} {address : Nat}
    (attached : attachChecked s current mm permit seg segTg offset size
      vaddr env = some (t, .ok address)) :
    s.nextAtt < t.nextAtt ∧ (t.att s.nextAtt).ap = permit ∧
      (s.tg (s.ap permit).tg).tgid = current.tgid ∧
      (s.ap permit).mode ≠ xpmemRdonly := by
  unfold attachChecked at attached
  split at attached
  · cases attached
  · split at attached
    · cases attached
    · rename_i segVaddr passed
      rw [← and_assoc]
      refine ⟨?_, mode_of_validateAccess passed⟩
      extract_lets length att at attached
      split at attached
      · cases attached
      · split at attached
        · cases attached
        · simp only [Option.map_eq_some_iff] at attached
          obtain ⟨⟨mapped, result⟩, equal, same⟩ := attached
          cases same
          have start : Keeps .quiet
            (attachLink s permit mm segVaddr length) _ := .refl _
          have keeps := ((start.attachMap current mm permit att vaddr length
            env.place).of_eq equal).xpmemAttDeref att
          have used : s.nextAtt <
              (attachLink s permit mm segVaddr length).nextAtt :=
            Nat.lt_succ_self _
          refine ⟨lt_of_lt_of_le used keeps.recorded.nextAtt, ?_⟩
          rw [keeps.recorded.att_ap used]
          simp [attachLink, State.modAtt, State.modAp, State.xpmemAttRef]

theorem findAp_xpmemTgRef (s : State K) (group owner : TgPtr)
    (apid : BitVec 64) :
    (s.xpmemTgRef group).findAp owner apid = s.findAp owner apid := by
  have same : ((s.xpmemTgRef group).tg owner).apHashtable =
      (s.tg owner).apHashtable := by
    by_cases here : owner = group
    · subst owner
      simp [State.xpmemTgRef, State.modTg]
    · simp [State.xpmemTgRef, State.modTg, here]
  simp only [State.findAp, same]
  rfl

/-- What `xpmem_attach` has found out about the permit when it succeeds. -/
theorem xpmemAttach_eq_ok {current : Task} {mm : MmPtr}
    {apid offset size vaddr : BitVec 64} {env : AttachEnv} {address : Nat}
    (attached : xpmemAttach s current mm apid offset size vaddr env =
      some (t, .ok address)) :
    s.resolveAp apid = some (t.att s.nextAtt).ap ∧
      (s.tg (s.ap (t.att s.nextAtt).ap).tg).tgid = current.tgid ∧
      (s.ap (t.att s.nextAtt).ap).mode ≠ xpmemRdonly := by
  unfold xpmemAttach at attached
  extract_lets address length at attached
  split at attached
  · cases attached
  · split at attached
    · cases attached
    · split at attached
      · cases attached
      · split at attached
        · cases attached
        · rename_i apTg owner
          extract_lets referred at attached
          split at attached
          · cases attached
          · rename_i permit found
            rw [findAp_xpmemTgRef] at found
            extract_lets permitted seg shared segTg taken at attached
            have start : Keeps .quiet s s := .refl s
            have before : Keeps .quiet s taken :=
              (((start.xpmemTgRef apTg).xpmemApRef permit).xpmemSegRef
                seg).xpmemTgRef segTg
            have next : taken.nextAtt = s.nextAtt := rfl
            clear_value taken
            simp only [Option.map_eq_some_iff] at attached
            obtain ⟨⟨checked, result⟩, equal, same⟩ := attached
            cases same
            have middle : Keeps .quiet checked checked := .refl _
            have after := (((middle.xpmemApDeref permit).xpmemTgDeref
              apTg).xpmemSegDeref seg).xpmemTgDeref segTg
            obtain ⟨used, here, own, mode⟩ := attachChecked_eq_ok equal
            rw [next] at used here
            obtain ⟨groups, permits⟩ := before.records
            have holder := congrArg AccessPermit.tg (permits permit)
            change (taken.ap permit).tg = (s.ap permit).tg at holder
            have caller :=
              congrArg ThreadGroup.tgid (groups (s.ap permit).tg)
            change (taken.tg (s.ap permit).tg).tgid =
              (s.tg (s.ap permit).tg).tgid at caller
            have kept := congrArg AccessPermit.mode (permits permit)
            change (taken.ap permit).mode = (s.ap permit).mode at kept
            rw [after.recorded.att_ap used, here]
            refine ⟨?_, ?_, kept ▸ mode⟩
            · rw [State.resolveAp, owner]
              exact found
            · rw [← caller, ← holder]
              exact own

/-! ## Runs -/

section Runs

variable {allowed : State K → Op → Prop}
    {events : List (Event (State K) Op Ret)}

/-- A permit that an apid leads to exists. -/
theorem Named.used_of_resolveAp (named : Named s) {apid : BitVec 64}
    {permit : ApPtr} (found : s.resolveAp apid = some permit) :
    permit < s.nextAp := by
  obtain ⟨group, _, found⟩ := Option.bind_eq_some_iff.mp found
  obtain ⟨found, _⟩ := Option.filter_eq_some_iff.mp found
  exact (named.aps.listed group apid permit
    (List.mem_of_find?_eq_some found)).1

/-- What a permit of a run says about the call that created it. -/
theorem Gets.origin (run : Run step {} allowed events s)
    {event : Event (State K) Op Ret} {permit : ApPtr}
    (member : event ∈ events) (gets : Gets permit event) :
    ∃ segid permitType permitValue env,
      event.action = .ioctl (s.tg (s.ap permit).tg).tgid
        (.get segid (s.ap permit).mode permitType permitValue) env ∧
      permit = event.pre.nextAp ∧ permit < event.post.nextAp ∧
      event.pre.findTg (s.tg (s.ap permit).tg).tgid false =
        some (event.post.ap permit).tg ∧
      event.pre.resolveSeg segid = some (event.post.ap permit).seg ∧
      getFlagsInvalid (s.ap permit).mode = false ∧
      xpmemCheckPermitMode event.pre env.cred (s.ap permit).mode
        (event.post.ap permit).seg = true := by
  obtain ⟨tgid, segid, flags, permitType, permitValue, env, apid, granted,
    action, rfl, given, recorded⟩ := gets
  obtain ⟨⟨before, prior⟩, _, taken⟩ := run.event_of_mem member
  have later := Recorded.of_event run member
  have used : event.pre.nextAp < granted.nextAp := by
    rw [given.next]
    exact Nat.lt_succ_self _
  have usedPost : event.pre.nextAp < event.post.nextAp :=
    lt_of_lt_of_le used recorded.nextAp
  have mode : (s.ap event.pre.nextAp).mode = flags := by
    rw [later.ap_mode usedPost, recorded.ap_mode used, given.mode]
  have holder : (s.ap event.pre.nextAp).tg =
      (granted.ap event.pre.nextAp).tg := by
    rw [later.ap_tg usedPost, recorded.ap_tg used]
  have caller : (s.tg (s.ap event.pre.nextAp).tg).tgid = tgid := by
    have known := (Named.of_run prior).hashed _ _
      (List.mem_of_find?_eq_some given.group)
    have named := List.find?_some given.group
    simp only [Bool.and_eq_true, decide_eq_true_eq] at named
    have whole := ((Recorded.step event.pre event.action).of_eq taken).trans
      later
    rw [holder, whole.tg_tgid known, named.1]
  rw [mode, caller, recorded.ap_tg used, recorded.ap_seg used]
  exact ⟨segid, permitType, permitValue, env, action, rfl, usedPost,
    given.group, given.seg, given.filtered, given.checked⟩

/-- Flags that pass both checks without asking for write permission are 0. -/
theorem segPerms_of_mode {cred : Cred} {flags : BitVec 32} {seg : SegPtr}
    (filtered : getFlagsInvalid flags = false) (given : flags ≠ 0)
    (mode : flags ≠ xpmemRdonly)
    (checked : xpmemCheckPermitMode s cred flags seg = true) :
    segPerms s cred seg sIrusr = true ∧
      segPerms s cred seg sIwusr = true := by
  rcases flags_eq_of_filtered filtered with rfl | rfl | rfl
  · exact absurd rfl given
  · exact absurd rfl mode
  · simpa [xpmemCheckPermitMode, xpmemRdwr] using checked

/--
Where every `xpmem_get` says what the permit is for, a process attaches only
permits it has itself created with read and write permission.
-/
theorem getsWritable_of_attaches (run : Run step {} FlagsGiven events s)
    {tgid : Pid} {permit : ApPtr} (attaches : Attaches s tgid permit) :
    ∃ event ∈ events, GetsWritable tgid permit event := by
  obtain ⟨mm, apid, offset, size, vaddr, env, attached, address, _, equal,
    _, rfl⟩ := attaches
  obtain ⟨found, own, mode⟩ := xpmemAttach_eq_ok equal
  obtain ⟨event, member, gets⟩ := gets_of_run run
    ((Named.of_run run).used_of_resolveAp found)
  obtain ⟨segid, permitType, permitValue, env, action, next, used, group,
    seg, filtered, checked⟩ := gets.origin run member
  obtain ⟨_, given, _⟩ := run.event_of_mem member
  rw [action] at given
  obtain ⟨reads, writes⟩ :=
    segPerms_of_mode filtered given mode checked
  refine ⟨event, member, ?_⟩
  rw [own] at action group
  rw [GetsWritable, action]
  exact ⟨rfl, next, used, group, seg, reads, writes⟩

/-- One process shares memory with mode 0600, and then gives it to itself. -/
theorem getsWritable_of_attaches_own :
    ∃ (events : _) (s : State fourLevel),
      Run step {} FlagsGiven events s ∧ Attaches s 1 0 ∧
      ∃ event ∈ events, GetsWritable 1 0 event := by
  obtain ⟨events, s, run, running, attached⟩ := exists_run
    step ({} : State fourLevel) FlagsGiven
    [.spawn 1, .openDev 1 {}, .mmap 1 0x10000 0x14000 false,
      .ioctl 1 (.make 0x10000 0x4000 1 0o600) {},
      .ioctl 1 (.get 0x100000001 2 1 0) {}]
    (fun _ s => s.proc 1 = .running 0 ∧
      ((xpmemAttach s ⟨1, some 0⟩ 0 0x100000001 0 0x1000 0
        ⟨false, some 0x20000⟩).any fun attached =>
          attached.2.isOk && decide (s.nextAtt < attached.1.nextAtt ∧
            (attached.1.att s.nextAtt).ap = 0)) = true)
    (by decide +kernel)
  have attaches := attaches_of_any running attached
  exact ⟨events, s, run, attaches, getsWritable_of_attaches run attaches⟩

/--
A process without write permission asks for a permit with flags 0 and
attaches it: the segment has mode 0644 and belongs to somebody else.
-/
theorem not_getsWritable_of_attaches :
    ∃ (events : _) (s : State fourLevel),
      Run step {} (fun _ _ => True) events s ∧ Attaches s 2 0 ∧
      ¬∃ event ∈ events, GetsWritable 2 0 event := by
  obtain ⟨events, s, run, running, none, attached⟩ := exists_run
    step ({} : State fourLevel) (fun _ _ => True)
    [.spawn 1, .openDev 1 {}, .mmap 1 0x10000 0x14000 false,
      .ioctl 1 (.make 0x10000 0x4000 1 0o644) {},
      .spawn 2, .openDev 2 { cred := { uid := 5, euid := 5 } },
      .ioctl 2 (.get 0x100000001 0 1 0) { cred := { uid := 5, euid := 5 } }]
    (fun events s => s.proc 2 = .running 1 ∧
      (¬∃ event ∈ events, GetsWritable 2 0 event) ∧
      ((xpmemAttach s ⟨2, some 1⟩ 1 0x100000002 0 0x1000 0
        ⟨false, some 0x20000⟩).any fun attached =>
          attached.2.isOk && decide (s.nextAtt < attached.1.nextAtt ∧
            (attached.1.att s.nextAtt).ap = 0)) = true)
    (by decide +kernel)
  exact ⟨events, s, run, attaches_of_any running attached, none⟩

end Runs

end Xpmem.Driver
