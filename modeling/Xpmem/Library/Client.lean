import Xpmem.Driver.Naming
import Xpmem.Operations.Basic

/-!
# The library

`libxpmem.c`: the descriptor of the device that a process keeps, the wrapper
`xpmem_ioctl` that opens the device when there is no descriptor and opens it
again when the driver does not know the process, and the calls `xpmem_make`
and `xpmem_remove` over it.  A process that was forked starts with its
parent's descriptor, but the driver does not know it.

`shares` is what the driver holds for a process, and `kept` what the process
was told: the identifiers `xpmem_make` returned and `xpmem_remove` did not
take.
-/

namespace Xpmem.Library

open Foundation Kernel Driver

variable {K : Platform}

/-! ## The calls -/

/-- A process that uses the library, and the driver. -/
structure Client (K : Platform) where
  driver : State K
  /-- `xpmem_fd` is a descriptor. -/
  xpmemFd : Bool

/-- What the kernel does during `xpmem_init`. -/
structure InitEnv where
  /-- The device file is there. -/
  stat : Bool := true
  device : OpenEnv := {}
  /-- `fcntl` succeeds. -/
  fcntl : Bool := true

/-- What the kernel does during `xpmem_ioctl`. -/
structure CallEnv where
  init : InitEnv := {}
  first : IoctlEnv := {}
  device : OpenEnv := {}
  retry : IoctlEnv := {}

/-- `open` of the device, whose result becomes `xpmem_fd`. -/
def openDevice (client : Client K) (tgid : Pid) (env : OpenEnv) :
    Option (Client K × Bool) :=
  (step client.driver (.openDev tgid env)).map fun opened =>
    (⟨opened.1, opened.2 = .value 0⟩, opened.2 = .value 0)

/-- `xpmem_init`; the result says whether it returns 0. -/
def xpmemInit (client : Client K) (tgid : Pid) (env : InitEnv) :
    Option (Client K × Bool) :=
  if env.stat then
    (openDevice client tgid env.device).map fun opened =>
      (opened.1, opened.2 && env.fcntl)
  else some (client, false)

/-- The result of an ioctl: nothing for `-1`. -/
def outcome : Ret → Option (BitVec 64)
  | .value value => some value
  | _ => none

/--
`xpmem_ioctl`.  The result is what the driver writes back into the command,
or nothing for `-1`.
-/
def xpmemIoctl (client : Client K) (tgid : Pid) (cmd : Cmd)
    (env : CallEnv) : Option (Client K × Option (BitVec 64)) :=
  let ready :=
    if client.xpmemFd then some (client, true)
    else xpmemInit client tgid env.init
  ready.bind fun ready =>
    if ready.2 = false then some (ready.1, none)
    else
      (step ready.1.driver (.ioctl tgid cmd env.first)).bind fun first =>
        if first.2 = .error .noproc then
          (openDevice ⟨first.1, true⟩ tgid env.device).bind fun opened =>
            if opened.2 = false then some (opened.1, none)
            else
              (step opened.1.driver (.ioctl tgid cmd env.retry)).map
                fun again => (⟨again.1, true⟩, outcome again.2)
        else some (⟨first.1, true⟩, outcome first.2)

/-- The calls of the library that make and remove segments. -/
inductive Call where
  /-- `xpmem_make`, which calls `xpmem_ioctl` twice. -/
  | make (vaddr size : BitVec 64) (permitType : BitVec 32)
      (permitValue : BitVec 64) (first second : CallEnv)
  | remove (segid : BitVec 64) (env : CallEnv)

/-- `xpmem_make`. -/
def xpmemMake (client : Client K) (tgid : Pid) (vaddr size : BitVec 64)
    (permitType : BitVec 32) (permitValue : BitVec 64)
    (first second : CallEnv) : Option (Client K × Option (BitVec 64)) :=
  let cmd := .make vaddr size permitType permitValue
  (xpmemIoctl client tgid cmd first).bind fun ignored =>
    (xpmemIoctl ignored.1 tgid cmd second).map fun made =>
      (made.1, made.2.filter (· ≠ 0))

/-- `xpmem_remove`; the result is the identifier unless it returns `-1`. -/
def xpmemRemove (client : Client K) (tgid : Pid) (segid : BitVec 64)
    (env : CallEnv) : Option (Client K × Option (BitVec 64)) :=
  (xpmemIoctl client tgid (.remove segid) env).map fun removed =>
    (removed.1, removed.2.map fun _ => segid)

/-- One call by the process. -/
def call (tgid : Pid) (client : Client K) :
    Call → Option (Client K × Option (BitVec 64))
  | .make vaddr size permitType permitValue first second =>
      xpmemMake client tgid vaddr size permitType permitValue first second
  | .remove segid env => xpmemRemove client tgid segid env

/-! ## What is shared -/

/-- The identifiers of the segments the driver lists for a process. -/
def shares (s : State K) (tgid : Pid) : List (BitVec 64) :=
  match s.findTg tgid false with
  | none => []
  | some group => (s.tg group).segList.map fun seg => (s.seg seg).segid

/-- The identifiers a process has after a call. -/
def keep (kept : List (BitVec 64))
    (event : Event (Client K) Call (Option (BitVec 64))) :
    List (BitVec 64) :=
  match event.action, event.result with
  | .make .., some segid => kept ++ [segid]
  | .remove .., some segid => kept.erase segid
  | _, none => kept

/--
The identifiers returned by calls of `xpmem_make` that succeeded and not yet
passed to a call of `xpmem_remove` that succeeded.
-/
def kept (events : List (Event (Client K) Call (Option (BitVec 64)))) :
    List (BitVec 64) :=
  events.foldl keep []

/-! ## What the driver does to the shares of a process -/

variable {s t r : State K} {tgid : Pid}

/-- The two states have the same groups with the same segments. -/
structure SameShares (s t : State K) : Prop where
  hashtable : t.myPart.tgHashtable = s.myPart.tgHashtable
  tg (group : TgPtr) : (t.tg group).tgid = (s.tg group).tgid ∧
    (t.tg group).destroying = (s.tg group).destroying ∧
    (t.tg group).segList = (s.tg group).segList
  segid (seg : SegPtr) : (t.seg seg).segid = (s.seg seg).segid

namespace SameShares

theorem of_shape (same : t.shape = s.shape) : SameShares s t where
  hashtable := congrArg (fun u => u.myPart.tgHashtable) same
  tg group := ⟨congrArg (fun u => (u.tg group).tgid) same,
    congrArg (fun u => (u.tg group).destroying) same,
    congrArg (fun u => (u.tg group).segList) same⟩
  segid seg := congrArg (fun u => (u.seg seg).segid) same

theorem refl (s : State K) : SameShares s s :=
  of_shape rfl

theorem trans (earlier : SameShares s t) (later : SameShares t r) :
    SameShares s r where
  hashtable := later.hashtable.trans earlier.hashtable
  tg group := ⟨(later.tg group).1.trans (earlier.tg group).1,
    (later.tg group).2.1.trans (earlier.tg group).2.1,
    (later.tg group).2.2.trans (earlier.tg group).2.2⟩
  segid seg := (later.segid seg).trans (earlier.segid seg)

theorem findTg (same : SameShares s t) (tgid : Pid) :
    t.findTg tgid false = s.findTg tgid false := by
  simp only [State.findTg, same.hashtable, same.tg]

theorem shares (same : SameShares s t) (tgid : Pid) :
    shares t tgid = shares s tgid := by
  simp only [Library.shares, same.findTg, same.tg, same.segid]

theorem modSeg (seg : SegPtr) {change : Segment → Segment}
    (kept : (change (s.seg seg)).segid = (s.seg seg).segid) :
    SameShares s (s.modSeg seg change) where
  hashtable := rfl
  tg _ := ⟨rfl, rfl, rfl⟩
  segid other := by
    by_cases here : other = seg
    · simp [State.modSeg, here, kept]
    · simp [State.modSeg, here]

theorem clearPTEsOfAtt (att : AttPtr) (start stop : Nat) :
    Always (xpmemClearPTEsOfAtt s att start stop false) (SameShares s) := by
  simp only [xpmemClearPTEsOfAtt]
  split
  · exact .some (refl s)
  · split
    · exact .some (refl s)
    · split
      · exact .some (refl s)
      · refine .bind (.map fun put _ => ?_)
        have unpinned := of_shape (shape_putPages s (s.ap (s.att att).ap).seg put)
        refine .map (.map fun vma _ => ?_)
        refine unpinned.trans ?_
        split
        · exact ⟨rfl, fun _ => ⟨rfl, rfl, rfl⟩, fun _ => rfl⟩
        · exact ⟨rfl, fun _ => ⟨rfl, rfl, rfl⟩, fun _ => rfl⟩

theorem clearPTEs (seg : SegPtr) :
    Always (xpmemClearPTEs s seg) (SameShares s) := by
  refine .foldlM (refl s) fun pre permit _ before => ?_
  have entered := before.trans (of_shape (shape_xpmemApRef pre permit))
  refine .map ((Always.foldlM entered fun now att _ here => ?_).mono
    fun after there => there.trans
      (of_shape (shape_xpmemApDeref after permit)))
  simp only [clearVisitAtt]
  split
  · refine .map ((clearPTEsOfAtt att _ _).mono ?_)
    intro after clears
    exact ((here.trans (of_shape (shape_xpmemAttRef now att))).trans
      clears).trans (of_shape (shape_xpmemAttDeref after att))
  · exact .some here

end SameShares

/-- Taking one element off a list on which names are unique. -/
theorem map_erase_of_injOn {name : Nat → BitVec 64} {list : List Nat}
    {element : Nat} (unique : ∀ other ∈ list,
      name other = name element → other = element) :
    (list.erase element).map name = (list.map name).erase (name element) := by
  induction list with
  | nil => rfl
  | cons first rest induction =>
      by_cases here : first = element
      · rw [here]
        simp
      · have differs : name first ≠ name element :=
          fun same => here (unique first List.mem_cons_self same)
        rw [List.erase_cons_tail (by simpa using here), List.map_cons,
          List.map_cons, List.erase_cons_tail (by simpa using differs),
          induction fun other member =>
            unique other (List.mem_cons_of_mem _ member)]

theorem shares_eq {group : TgPtr}
    (found : s.findTg tgid false = some group) :
    shares s tgid =
      (s.tg group).segList.map fun seg => (s.seg seg).segid := by
  simp only [shares, found]

theorem sameShares_ref (s : State K) (group : TgPtr) :
    SameShares s (s.xpmemTgRef group) :=
  .of_shape (shape_xpmemTgRef s group)

theorem sameShares_deref (s : State K) (group : TgPtr) :
    SameShares s (s.xpmemTgDeref group) :=
  .of_shape (shape_xpmemTgDeref s group)

/-- A new group is found, and has no segment. -/
theorem shares_linkTg (named : Named s)
    (missing : s.findTg tgid false = none) (mm : MmPtr) (cred : Cred) :
    (linkTg s tgid mm cred).findTg tgid false = some s.nextTg ∧
      shares (linkTg s tgid mm cred) tgid = shares s tgid := by
  have old {group : TgPtr}
      (member : group ∈ s.myPart.tgHashtable (xpmemTgHashtableIndex tgid)) :
      (linkTg s tgid mm cred).tg group = s.tg group :=
    Function.update_of_ne (named.hashed _ group member).ne ..
  have new : (linkTg s tgid mm cred).tg s.nextTg =
      { tgid := tgid, uid := cred.uid, gid := cred.gid,
        addrLimit := K.taskSize, mm := mm, mmuInitialized := true,
        refcnt := 1, allocated := true } := by
    simp [linkTg, State.modTg, State.modMm]
  have found :
      (linkTg s tgid mm cred).findTg tgid false = some s.nextTg := by
    unfold State.findTg at missing ⊢
    have bucket : (linkTg s tgid mm cred).myPart.tgHashtable
        (xpmemTgHashtableIndex tgid) =
        s.myPart.tgHashtable (xpmemTgHashtableIndex tgid) ++ [s.nextTg] := by
      simp [linkTg, State.modTg, State.modMm]
    rw [bucket, List.find?_append, List.find?_eq_none.mpr, Option.none_or]
    · simp [new]
    · intro group member
      rw [old member]
      exact List.find?_eq_none.mp missing group member
  refine ⟨found, ?_⟩
  rw [shares_eq found, new]
  simp only [shares, missing]
  rfl

/-- `open` fails for a process the driver does not know. -/
def OpenFails (env : OpenEnv) : Prop :=
  env.oom = true ∨ env.registerOk = false

instance (env : OpenEnv) : Decidable (OpenFails env) :=
  inferInstanceAs (Decidable (_ ∨ _))

theorem shares_open (named : Named s) (env : OpenEnv) :
    Always (step s (.openDev tgid env)) fun opened =>
      shares opened.1 tgid = shares s tgid ∧
        (opened.2 = .value 0 → opened.1.findTg tgid false ≠ none) ∧
        (s.findTg tgid false = none → OpenFails env →
          opened.2 ≠ .value 0) := by
  simp only [step]
  refine always_asTask fun mm _ => .some ?_
  simp only [xpmemOpen]
  split
  · rename_i group found
    have same := (sameShares_ref s group).trans (sameShares_deref _ group)
    refine ⟨same.shares tgid, fun _ => ?_, fun unknown => ?_⟩
    · rw [same.findTg, found]
      exact Option.some_ne_none group
    · rw [found] at unknown
      cases unknown
  · rename_i missing
    split
    · simp [Ret.ofUnit]
    · rename_i memory
      split
      · simp [Ret.ofUnit]
      · rename_i registered
        obtain ⟨found, same⟩ := shares_linkTg named missing mm env.cred
        refine ⟨same, fun _ => by simp [found], fun _ fails => ?_⟩
        exact (fails.elim memory registered).elim

/-- A segment of the process that `xpmem_remove` can find. -/
def Removable (s : State K) (tgid : Pid) (segid : BitVec 64) : Prop :=
  0 < segid.toInt ∧ idToTgid K segid = tgid ∧
    ∃ group, s.findTg tgid false = some group ∧
      ∃ seg ∈ (s.tg group).segList,
        (s.seg seg).segid = segid ∧ (s.seg seg).destroying = false

theorem findTg_unlinkSeg (s : State K) (group : TgPtr) (seg : SegPtr)
    (tgid : Pid) :
    (unlinkSeg s group seg).findTg tgid false = s.findTg tgid false := by
  have same (other : TgPtr) :
      ((unlinkSeg s group seg).tg other).tgid = (s.tg other).tgid ∧
        ((unlinkSeg s group seg).tg other).destroying =
          (s.tg other).destroying := by
    by_cases here : other = group
    · subst other
      simp [unlinkSeg, State.modTg, State.modSeg]
    · simp [unlinkSeg, State.modTg, State.modSeg, here]
  simp only [State.findTg, same]
  rfl

theorem shares_unlinkSeg {group : TgPtr} {seg : SegPtr}
    (found : s.findTg tgid false = some group)
    (unique : ∀ other ∈ (s.tg group).segList,
      (s.seg other).segid = (s.seg seg).segid → other = seg) :
    shares (unlinkSeg s group seg) tgid =
      (shares s tgid).erase (s.seg seg).segid := by
  have list : ((unlinkSeg s group seg).tg group).segList =
      (s.tg group).segList.erase seg := by
    simp [unlinkSeg, State.modTg, State.modSeg]
  have segid (other : SegPtr) :
      ((unlinkSeg s group seg).seg other).segid = (s.seg other).segid := by
    by_cases here : other = seg
    · subst other
      simp [unlinkSeg, State.modTg, State.modSeg]
    · simp [unlinkSeg, State.modTg, State.modSeg, here]
  rw [shares_eq ((findTg_unlinkSeg s group seg tgid).trans found),
    shares_eq found, list]
  simp only [segid]
  exact map_erase_of_injOn unique

theorem shares_removeSeg {group : TgPtr} {seg : SegPtr}
    (found : s.findTg tgid false = some group)
    (live : (s.seg seg).destroying = false)
    (unique : ∀ other ∈ (s.tg group).segList,
      (s.seg other).segid = (s.seg seg).segid → other = seg) :
    Always (xpmemRemoveSeg s group seg) fun removed =>
      shares removed tgid = (shares s tgid).erase (s.seg seg).segid := by
  simp only [xpmemRemoveSeg, live, Bool.false_eq_true, if_false]
  have flagged : SameShares s
      (s.modSeg seg fun seg => { seg with destroying := true }) :=
    .modSeg seg rfl
  refine .map ((SameShares.clearPTEs seg).mono fun cleared clears => ?_)
  have same := flagged.trans clears
  rw [(SameShares.of_shape (shape_xpmemSegDeref _ seg)).shares,
    shares_unlinkSeg ((same.findTg tgid).trans found), same.shares,
    same.segid]
  intro other member equal
  rw [(same.tg group).2.2] at member
  rw [same.segid, same.segid] at equal
  exact unique other member equal

theorem unique_segid (named : Named s) {group : TgPtr} {seg other : SegPtr}
    (member : seg ∈ (s.tg group).segList)
    (also : other ∈ (s.tg group).segList)
    (same : (s.seg other).segid = (s.seg seg).segid) : other = seg := by
  obtain ⟨used, owner⟩ := named.segs.listed group (s.seg seg).segid seg member
  obtain ⟨otherUsed, otherOwner⟩ :=
    named.segs.listed group (s.seg seg).segid other also
  exact named.segs.unique other otherUsed seg used
    (otherOwner.trans owner.symm) same

theorem findSeg_xpmemTgRef (s : State K) (group other : TgPtr)
    (segid : BitVec 64) :
    (s.xpmemTgRef group).findSeg other segid = s.findSeg other segid := by
  have list := ((sameShares_ref s group).tg other).2.2
  unfold State.findSeg
  rw [list]
  rfl

theorem findSeg_eq_some {group : TgPtr} {segid : BitVec 64} {seg : SegPtr}
    (found : s.findSeg group segid = some seg) :
    seg ∈ (s.tg group).segList ∧ (s.seg seg).segid = segid ∧
      (s.seg seg).destroying = false := by
  have holds := List.find?_some found
  simp only [Bool.and_eq_true, decide_eq_true_eq, Bool.not_eq_true'] at holds
  exact ⟨List.mem_of_find?_eq_some found, holds⟩

theorem shares_remove (named : Named s) (segid : BitVec 64)
    (mm : Option MmPtr) :
    Always (Driver.xpmemRemove s ⟨tgid, mm⟩ segid) fun removed =>
      match removed.2 with
      | .ok _ => shares removed.1 tgid = (shares s tgid).erase segid
      | .error _ => shares removed.1 tgid = shares s tgid ∧
          ¬ Removable s tgid segid := by
  simp only [Driver.xpmemRemove]
  split
  · rename_i negative
    exact .some ⟨rfl, fun removable => not_lt.mpr negative removable.1⟩
  · split
    · rename_i missing
      refine .some ⟨rfl, fun removable => ?_⟩
      obtain ⟨_, rfl, group, found, _⟩ := removable
      rw [missing] at found
      cases found
    · rename_i segTg found
      have owner := (findTg_eq_some found).2.1
      have refs := sameShares_ref s segTg
      split
      · rename_i foreign
        rw [(refs.tg segTg).1, owner] at foreign
        exact .some ⟨(refs.trans (sameShares_deref _ segTg)).shares tgid,
          fun removable => foreign removable.2.1.symm⟩
      · rename_i own
        rw [(refs.tg segTg).1, owner, not_not] at own
        rw [← own] at found
        rw [findSeg_xpmemTgRef]
        split
        · rename_i missing
          refine .some ⟨(refs.trans (sameShares_deref _ segTg)).shares tgid,
            fun removable => ?_⟩
          obtain ⟨_, _, group, also, seg, member, same, live⟩ := removable
          obtain rfl : group = segTg := Option.some.inj (also.symm.trans found)
          exact List.find?_eq_none.mp missing seg member (by simp [same, live])
        · rename_i seg here
          obtain ⟨member, rfl, live⟩ := findSeg_eq_some here
          have enters := refs.trans
            (.of_shape (shape_xpmemSegRef (s.xpmemTgRef segTg) seg))
          have flag : (((s.xpmemTgRef segTg).xpmemSegRef seg).seg
              seg).destroying = false := by
            simp only [State.xpmemSegRef, State.modSeg, Function.update_self]
            exact live
          have removes := shares_removeSeg
            ((enters.findTg tgid).trans found) flag
            (fun other also same => by
              rw [(enters.tg segTg).2.2] at also
              rw [enters.segid, enters.segid] at same
              exact unique_segid named member also same)
          refine .map (removes.mono fun removed shared => ?_)
          have leaves := (SameShares.of_shape
            (shape_xpmemSegDeref removed seg)).trans
              (sameShares_deref _ segTg)
          rw [enters.shares, enters.segid] at shared
          exact (leaves.shares tgid).trans shared

theorem sameShares_makeSegid (s : State K) (group : TgPtr) :
    SameShares s (xpmemMakeSegid s group).1 := by
  simp only [xpmemMakeSegid]
  split
  · exact .refl s
  · refine ⟨rfl, fun other => ?_, fun _ => rfl⟩
    by_cases here : other = group
    · simp [State.modTg, here]
    · simp [State.modTg, here]

theorem shares_linkSeg {group : TgPtr} (segid : BitVec 64)
    (vaddr size : Nat) (permitType : BitVec 32) (permitValue : BitVec 64)
    (found : s.findTg tgid false = some group)
    (old : ∀ seg ∈ (s.tg group).segList, seg < s.nextSeg) :
    let t := linkSeg s group segid vaddr size permitType permitValue
    t.findTg tgid false = some group ∧
      shares t tgid = shares s tgid ++ [segid] ∧
      s.nextSeg ∈ (t.tg group).segList ∧
      (t.seg s.nextSeg).segid = segid ∧
      (t.seg s.nextSeg).destroying = false := by
  intro t
  have same (other : TgPtr) : (t.tg other).tgid = (s.tg other).tgid ∧
      (t.tg other).destroying = (s.tg other).destroying := by
    by_cases here : other = group
    · subst other
      simp [t, linkSeg, State.modTg, State.modSeg]
    · simp [t, linkSeg, State.modTg, State.modSeg, here]
  have list : (t.tg group).segList = (s.tg group).segList ++ [s.nextSeg] := by
    simp [t, linkSeg, State.modTg, State.modSeg]
  have new : (t.seg s.nextSeg).segid = segid ∧
      (t.seg s.nextSeg).destroying = false := by
    simp [t, linkSeg, State.modTg, State.modSeg]
  have stays {seg : SegPtr} (member : seg ∈ (s.tg group).segList) :
      (t.seg seg).segid = (s.seg seg).segid := by
    simp [t, linkSeg, State.modTg, State.modSeg, (old seg member).ne]
  have lookup : t.findTg tgid false = some group := by
    rw [← found]
    simp only [State.findTg, same]
    rfl
  refine ⟨lookup, ?_, by simp [list], new⟩
  rw [shares_eq lookup, shares_eq found, list, List.map_append,
    List.map_congr_left fun seg member => stays member]
  simp [new.1]

/-- The next identifier of a group was not issued before. -/
theorem next_notMem_shares (named : Named s) {group : TgPtr}
    (found : s.findTg tgid false = some group)
    (bounded : (s.tg group).uniqSegid + 1 ≤ xpmemMaxUniqId) :
    packId K tgid ((s.tg group).uniqSegid + 1) ∉ shares s tgid := by
  rw [shares_eq found]
  intro member
  obtain ⟨seg, listed, same⟩ := List.mem_map.mp member
  obtain ⟨used, owner⟩ := named.segs.listed group 0 seg listed
  obtain ⟨number, below, made⟩ := named.segs.named seg used
  rw [owner] at below made
  have tgid_eq := (findTg_eq_some found).2.1
  change (s.seg seg).segid = packId K (s.tg group).tgid number at made
  rw [made, tgid_eq] at same
  exact packId_ne (Nat.lt_succ_of_le below) bounded same

/-- What `xpmem_make` does to the shares of its caller. -/
theorem shares_make (named : Named s) (positive : 0 < tgid.toInt)
    {mm : Option MmPtr} {vaddr size : BitVec 64} {permitType : BitVec 32}
    {permitValue : BitVec 64} {oom : Bool} {result : Except Errno (BitVec 64)}
    (made : Driver.xpmemMake s ⟨tgid, mm⟩ vaddr size permitType permitValue
      oom = (t, result)) :
    match result with
    | .ok segid => shares t tgid = shares s tgid ++ [segid] ∧
        segid ∉ shares s tgid ∧ Removable t tgid segid
    | .error _ => shares t tgid = shares s tgid := by
  unfold Driver.xpmemMake at made
  split at made
  · cases made
    rfl
  · split at made
    · cases made
      rfl
    · rename_i segTg found
      have refs := sameShares_ref s segTg
      have leaves := refs.trans (sameShares_deref _ segTg)
      dsimp only at made
      split at made
      · cases made
        exact leaves.shares tgid
      · rename_i length _
        split at made
        · cases made
          exact leaves.shares tgid
        · have counts := refs.trans (sameShares_makeSegid _ segTg)
          split at made
          · rename_i counted equal
            rw [equal] at counts
            cases made
            exact (counts.trans (sameShares_deref _ segTg)).shares tgid
          · rename_i counted segid equal
            have issued := makeSegid_eq (congrArg Prod.snd equal)
            have next := xpmemMakeSegid_nextSeg equal
            rw [equal] at counts
            split at made
            · cases made
              exact (counts.trans (sameShares_deref _ segTg)).shares tgid
            · cases made
              obtain ⟨lookup, shared, member, given, live⟩ := shares_linkSeg
                segid vaddr.toNat length permitType permitValue
                ((counts.findTg tgid).trans found) (fun seg member => by
                  rw [(counts.tg segTg).2.2] at member
                  rw [next]
                  exact (named.segs.listed segTg 0 seg member).1)
              have ends := sameShares_deref (linkSeg counted segTg segid
                vaddr.toNat length permitType permitValue) segTg
              have objects := xpmemTgDeref_objects (linkSeg counted segTg segid
                vaddr.toNat length permitType permitValue) segTg
              have owner : ((s.xpmemTgRef segTg).tg segTg).tgid = tgid :=
                (refs.tg segTg).1.trans (findTg_eq_some found).2.1
              have count : ((s.xpmemTgRef segTg).tg segTg).uniqSegid =
                  (s.tg segTg).uniqSegid := by
                simp [State.xpmemTgRef, State.modTg]
              rw [owner, count] at issued
              refine ⟨?_, ?_, ?_, ?_, segTg, ?_, counted.nextSeg, ?_, ?_, ?_⟩
              · rw [ends.shares, shared, counts.shares]
              · rw [issued.2.1]
                exact next_notMem_shares named found issued.1
              · rw [issued.2.1]
                exact packId_toInt_pos K positive (Nat.succ_pos _) issued.1
              · rw [issued.2.1, idToTgid_packId]
              · rw [ends.findTg, lookup]
              · rw [(ends.tg segTg).2.2]
                exact member
              · rw [ends.segid, given]
              · rw [objects.1]
                exact live

/-! ## What an ioctl does to the shares -/

/-- What `XPMEM_CMD_MAKE` does. -/
def Makes (before after : List (BitVec 64)) (out : Option (BitVec 64)) :
    Prop :=
  after = before ++ out.toList ∧ out ≠ some 0

/-- What `XPMEM_CMD_REMOVE` does. -/
def Removes (segid : BitVec 64) (before after : List (BitVec 64))
    (out : Option (BitVec 64)) : Prop :=
  after = if out.isSome then before.erase segid else before

theorem Makes.failed {list : List (BitVec 64)} : Makes list list none :=
  ⟨by simp, by simp⟩

theorem named_of_keeps {scope : Scope} (named : Named s)
    (keeps : Keeps scope s t) : Named t :=
  keeps.invariant Named named fun _ _ named change => named.change change

theorem makes_ioctl (named : Named s) (positive : 0 < tgid.toInt)
    (vaddr size : BitVec 64) (permitType : BitVec 32)
    (permitValue : BitVec 64) (env : IoctlEnv) :
    Always (step s (.ioctl tgid (.make vaddr size permitType permitValue)
      env)) fun done =>
        Makes (shares s tgid) (shares done.1 tgid) (outcome done.2) := by
  simp only [step]
  refine always_asTask fun mm _ => ?_
  simp only [Driver.xpmemIoctl, ioctlMake]
  split
  · exact .some .failed
  · have start : Keeps (.call False) s s := .refl s
    have keeps := start.xpmemMake ⟨tgid, some mm⟩ vaddr size permitType
      permitValue env.oom
    split
    · rename_i t errno made
      refine .some ?_
      rw [shares_make named positive made]
      exact .failed
    · rename_i t segid made
      rw [made] at keeps
      obtain ⟨shared, new, removable⟩ := shares_make named positive made
      split
      · refine .some ⟨shared, fun zero => ?_⟩
        cases zero
        exact (lt_irrefl _ removable.1).elim
      · refine .map ((shares_remove (named_of_keeps named keeps) segid
          (some mm)).mono fun removed result => ?_)
        -- the segment just made is found and removed
        cases outcome : removed.2 with
        | error errno =>
            rw [outcome] at result
            exact (result.2 removable).elim
        | ok value =>
            rw [outcome] at result
            change shares removed.1 tgid = (shares t tgid).erase segid at result
            rw [result, shared, List.erase_append_right _ new]
            simp only [List.erase_cons_head, List.append_nil]
            exact .failed

theorem removes_ioctl (named : Named s) (segid : BitVec 64)
    (env : IoctlEnv) :
    Always (step s (.ioctl tgid (.remove segid) env)) fun done =>
      Removes segid (shares s tgid) (shares done.1 tgid)
        (outcome done.2) := by
  simp only [step]
  refine always_asTask fun mm _ => ?_
  simp only [Driver.xpmemIoctl]
  split
  · exact .some rfl
  · refine .map ((shares_remove named segid (some mm)).mono
      fun removed result => ?_)
    cases returned : removed.2 with
    | error errno =>
        rw [returned] at result
        exact result.1
    | ok value =>
        rw [returned] at result
        exact result

/-! ## What a call does to the shares -/

theorem named_step (named : Named s) (op : Op) :
    Always (step s op) fun done => Named done.1 :=
  (Keeps.step s op).mono fun _ keeps => named_of_keeps named keeps

theorem openDevice_spec {client : Client K} (named : Named client.driver)
    (env : OpenEnv) :
    Always (openDevice client tgid env) fun opened =>
      Named opened.1.driver ∧
        shares opened.1.driver tgid = shares client.driver tgid :=
  .map (((named_step named _).and (shares_open named env)).mono
    fun _ both => ⟨both.1, both.2.1⟩)

/-- An ioctl through the library does what one through the device does. -/
theorem xpmemIoctl_spec {client : Client K} {cmd : Cmd}
    {post : List (BitVec 64) → List (BitVec 64) → Option (BitVec 64) → Prop}
    (failed : ∀ before after, post before after none ↔ after = before)
    (ioctl : ∀ (s : State K) env, Named s →
      Always (step s (.ioctl tgid cmd env)) fun done =>
        post (shares s tgid) (shares done.1 tgid) (outcome done.2))
    (named : Named client.driver) (env : CallEnv) :
    Always (xpmemIoctl client tgid cmd env) fun done =>
      Named done.1.driver ∧
        post (shares client.driver tgid) (shares done.1.driver tgid)
          done.2 := by
  have ready : Always (if client.xpmemFd then some (client, true)
      else xpmemInit client tgid env.init) fun ready =>
        Named ready.1.driver ∧
          shares ready.1.driver tgid = shares client.driver tgid := by
    split
    · exact .some ⟨named, rfl⟩
    · simp only [xpmemInit]
      split
      · exact .map (openDevice_spec named env.init.device)
      · exact .some ⟨named, rfl⟩
  simp only [xpmemIoctl]
  refine .bind (ready.mono ?_)
  rintro ⟨ready, ok⟩ ⟨named, same⟩
  rw [← same]
  split
  · exact .some ⟨named, (failed _ _).mpr rfl⟩
  · refine .bind (((named_step named _).and
      (ioctl _ env.first named)).mono ?_)
    rintro ⟨first, ret⟩ ⟨named, done⟩
    split
    · rename_i unknown
      -- the driver has done nothing for a process it does not know
      change ret = .error .noproc at unknown
      subst unknown
      have unchanged := (failed _ _).mp done
      refine .bind ((openDevice_spec named env.device).mono ?_)
      rintro ⟨opened, ok⟩ ⟨named, same⟩
      rw [← unchanged, ← same]
      split
      · exact .some ⟨named, (failed _ _).mpr rfl⟩
      · exact .map ((named_step named _).and (ioctl _ env.retry named))
    · exact .some ⟨named, done⟩

theorem Makes.none_iff (before after : List (BitVec 64)) :
    Makes before after none ↔ after = before := by
  simp [Makes]

theorem xpmemIoctl_makes {client : Client K} (positive : 0 < tgid.toInt)
    (named : Named client.driver) (vaddr size : BitVec 64)
    (permitType : BitVec 32) (permitValue : BitVec 64) (env : CallEnv) :
    Always (xpmemIoctl client tgid
      (.make vaddr size permitType permitValue) env) fun done =>
        Named done.1.driver ∧ Makes (shares client.driver tgid)
          (shares done.1.driver tgid) done.2 :=
  xpmemIoctl_spec Makes.none_iff
    (fun _ env named => makes_ioctl named positive vaddr size permitType
      permitValue env) named env

theorem xpmemIoctl_removes {client : Client K}
    (named : Named client.driver) (segid : BitVec 64) (env : CallEnv) :
    Always (xpmemIoctl client tgid (.remove segid) env) fun done =>
      Named done.1.driver ∧ Removes segid (shares client.driver tgid)
        (shares done.1.driver tgid) done.2 :=
  xpmemIoctl_spec (fun _ _ => by simp [Removes])
    (fun _ env named => removes_ioctl named segid env) named env

/-! ## Calls that the driver refuses -/

/-- Arguments that `xpmem_make` refuses whatever the state. -/
def BadArguments (vaddr size : BitVec 64) (permitType : BitVec 32)
    (permitValue : BitVec 64) : Prop :=
  permitType ≠ xpmemPermitMode ∨ permitValue &&& ~~~0o777 ≠ 0 ∨ size = 0 ∨
    offsetInPage vaddr.toNat ≠ 0

/-- `XPMEM_CMD_MAKE` fails at the hands of the kernel. -/
def MakeFails (env : IoctlEnv) : Prop :=
  env.copyIn = false ∨ env.putUser = false ∨ env.oom = true

/--
The first of the two `xpmem_ioctl`s of an `xpmem_make` is refused: for its
arguments, because the device cannot be opened, or because the kernel fails
the ioctl or, for a process the driver does not know, the second attempt.
-/
def Refused (tgid : Pid) (client : Client K) : Call → Prop
  | .make vaddr size permitType permitValue first _ =>
      BadArguments vaddr size permitType permitValue ∨
        if client.xpmemFd then
          if client.driver.findTg tgid false = none then
            first.first.copyIn = false ∨ OpenFails first.device ∨
              MakeFails first.retry
          else MakeFails first.first
        else
          first.init.stat = false ∨ first.init.fcntl = false ∨
            client.driver.findTg tgid false = none ∧
              OpenFails first.init.device ∨
            MakeFails first.first
  | .remove .. => True

instance (env : IoctlEnv) : Decidable (MakeFails env) :=
  inferInstanceAs (Decidable (_ ∨ _ ∨ _))

instance (vaddr size : BitVec 64) (permitType : BitVec 32)
    (permitValue : BitVec 64) :
    Decidable (BadArguments vaddr size permitType permitValue) :=
  inferInstanceAs (Decidable (_ ∨ _ ∨ _ ∨ _))

instance (tgid : Pid) (client : Client K) (action : Call) :
    Decidable (Refused tgid client action) := by
  unfold Refused
  split <;> infer_instance

section

variable {vaddr size : BitVec 64} {permitType : BitVec 32}
  {permitValue : BitVec 64}

theorem make_error {mm : Option MmPtr} {oom : Bool}
    (bad : BadArguments vaddr size permitType permitValue ∨ oom = true) :
    ∃ errno, (Driver.xpmemMake s ⟨tgid, mm⟩ vaddr size permitType
      permitValue oom).2 = .error errno := by
  unfold Driver.xpmemMake
  split
  · exact ⟨_, rfl⟩
  · rename_i valid
    split
    · exact ⟨_, rfl⟩
    · dsimp only
      split
      · exact ⟨_, rfl⟩
      · split
        · exact ⟨_, rfl⟩
        · rename_i aligned
          split
          · exact ⟨_, rfl⟩
          · split
            · exact ⟨_, rfl⟩
            · rename_i memory
              simp only [BadArguments, not_or] at bad valid aligned
              tauto

/-- A refused ioctl tells of no segment. -/
theorem ioctl_refused {env : IoctlEnv}
    (refused : BadArguments vaddr size permitType permitValue ∨
      MakeFails env) :
    Always (step s (.ioctl tgid (.make vaddr size permitType permitValue)
      env)) fun done => outcome done.2 = none := by
  simp only [step]
  refine always_asTask fun mm _ => ?_
  simp only [Driver.xpmemIoctl, ioctlMake]
  split
  · exact .some rfl
  · rename_i copied
    split
    · exact .some rfl
    · rename_i made
      split
      · rename_i written
        have bad : BadArguments vaddr size permitType permitValue ∨
            env.oom = true :=
          refused.imp_right fun fails =>
            (fails.resolve_left copied).resolve_left (by simp [written])
        obtain ⟨errno, error⟩ := @make_error K s tgid vaddr size permitType
          permitValue (some mm) env.oom bad
        rw [made] at error
        cases error
      · exact .map fun _ _ => rfl

/-- The driver tells a process that it does not know it, or knows it. -/
theorem ioctl_known (env : IoctlEnv) :
    Always (step s (.ioctl tgid (.make vaddr size permitType permitValue)
      env)) fun done =>
        (s.findTg tgid false ≠ none → done.2 ≠ .error .noproc) ∧
        (s.findTg tgid false = none → done.1 = s ∧ outcome done.2 = none ∧
          (env.copyIn = false → done.2 ≠ .error .noproc)) := by
  simp only [step]
  refine always_asTask fun mm _ => ?_
  simp only [Driver.xpmemIoctl, ioctlMake]
  split
  · exact .some (by simp [outcome])
  · rename_i copied
    split
    · rename_i t errno made
      refine .some ?_
      unfold Driver.xpmemMake at made
      grind [outcome]
    · rename_i t segid made
      have known : s.findTg tgid false ≠ none := by
        unfold Driver.xpmemMake at made
        grind
      split
      · exact .some (by simp [known])
      · exact .map fun _ _ => by simp [known]

theorem openDevice_known {client : Client K} (named : Named client.driver)
    (env : OpenEnv) :
    Always (openDevice client tgid env) fun opened =>
      (opened.2 = true → opened.1.driver.findTg tgid false ≠ none) ∧
        (client.driver.findTg tgid false = none → OpenFails env →
          opened.2 = false) := by
  refine .map ((shares_open named env).mono ?_)
  rintro opened ⟨_, found, failed⟩
  simpa using ⟨found, failed⟩

/-- An ioctl of a process that the driver knows is not tried again. -/
theorem xpmemIoctl_of_known {env : CallEnv}
    (found : s.findTg tgid false ≠ none)
    (refused : BadArguments vaddr size permitType permitValue ∨
      MakeFails env.first) :
    Always (xpmemIoctl ⟨s, true⟩ tgid
      (.make vaddr size permitType permitValue) env) fun done =>
        done.2 = none := by
  simp only [xpmemIoctl, if_true]
  rw [Option.bind_some, if_neg (by simp)]
  refine .bind (((ioctl_refused refused).and (ioctl_known env.first)).mono ?_)
  rintro done ⟨nothing, answers, _⟩
  rw [if_neg (answers found)]
  exact .some nothing

/-- A refused call makes no segment at its first attempt. -/
theorem Refused.first {client : Client K} {first second : CallEnv}
    (named : Named client.driver)
    (refused : Refused tgid client
      (.make vaddr size permitType permitValue first second)) :
    Always (xpmemIoctl client tgid
      (.make vaddr size permitType permitValue) first) fun done =>
        done.2 = none := by
  simp only [Refused] at refused
  cases fd : client.xpmemFd with
  | true =>
      simp only [fd, if_true] at refused
      split at refused
      · rename_i unknown
        simp only [xpmemIoctl, fd, if_true]
        rw [Option.bind_some, if_neg (by simp)]
        refine .bind ((ioctl_known first.first).mono ?_)
        rintro ⟨after, ret⟩ ⟨_, answers⟩
        obtain ⟨rfl, nothing, copied⟩ := answers unknown
        split
        · rename_i noproc
          refine .bind ((openDevice_known named first.device).mono ?_)
          rintro opened ⟨_, failed⟩
          split
          · exact .some rfl
          · rename_i ok
            refine .map (ioctl_refused ?_)
            rcases refused with bad | uncopied | fails | fails
            · exact .inl bad
            · exact absurd noproc (copied uncopied)
            · exact absurd (failed unknown fails) ok
            · exact .inr fails
        · exact .some nothing
      · rename_i found
        have known := xpmemIoctl_of_known found refused
        rwa [← fd] at known
  | false =>
      simp only [fd, Bool.false_eq_true, if_false] at refused
      simp only [xpmemIoctl, fd, Bool.false_eq_true, if_false, xpmemInit]
      split
      · rename_i stat
        refine .bind (.map ((openDevice_known named first.init.device).mono
          ?_))
        rintro opened ⟨found, failed⟩
        dsimp only
        split
        · exact .some rfl
        · rename_i ready
          simp only [Bool.not_eq_false, Bool.and_eq_true] at ready
          refine xpmemIoctl_of_known (found ready.1) ?_
          rcases refused with bad | gone | refused | ⟨unknown, fails⟩ | fails
          · exact .inl bad
          · simp [stat] at gone
          · simp [ready.2] at refused
          · simp [failed unknown fails] at ready
          · exact .inr fails
      · rw [Option.bind_some, if_pos rfl]
        exact .some rfl

end

/-- What a call does to the shares is what it tells the process. -/
theorem call_spec {pre post : Client K} {action : Call}
    {result : Option (BitVec 64)} (positive : 0 < tgid.toInt)
    (named : Named pre.driver) (refused : Refused tgid pre action)
    (taken : call tgid pre action = some (post, result)) :
    Named post.driver ∧ shares post.driver tgid =
      keep (shares pre.driver tgid) ⟨pre, action, result, post⟩ := by
  cases action with
  | make vaddr size permitType permitValue first second =>
      obtain ⟨ignored, called, rest⟩ := Option.bind_eq_some_iff.mp taken
      obtain ⟨made, again, same⟩ := Option.map_eq_some_iff.mp rest
      have nothing : ignored.2 = none := (refused.first named).of_eq called
      obtain ⟨named, before⟩ := (xpmemIoctl_makes positive named vaddr size
        permitType permitValue first).of_eq called
      rw [nothing, Makes.none_iff] at before
      obtain ⟨named, after, nonzero⟩ := (xpmemIoctl_makes positive named
        vaddr size permitType permitValue second).of_eq again
      cases same
      refine ⟨named, ?_⟩
      rw [after, before]
      cases returned : made.2 with
      | none => simp [keep]
      | some segid =>
          have proper : segid ≠ 0 :=
            fun zero => nonzero (by rw [returned, zero])
          have told : (some segid).filter (· ≠ 0) = some segid := by
            simp only [Option.filter, proper, ne_eq, not_false_eq_true,
              decide_true, if_true]
          simp only [keep, told, Option.toList_some]
  | remove segid env =>
      obtain ⟨removed, called, same⟩ := Option.map_eq_some_iff.mp taken
      obtain ⟨named, after⟩ :=
        (xpmemIoctl_removes named segid env).of_eq called
      cases same
      refine ⟨named, ?_⟩
      rw [after]
      cases returned : removed.2 with
      | none => simp [keep]
      | some value => simp [keep]

/-- The calls of a process from a state the driver can be in. -/
abbrev Calls (tgid : Pid) (driver : State K) (xpmemFd : Bool)
    (allowed : Client K → Call → Prop)
    (events : List (Event (Client K) Call (Option (BitVec 64))))
    (client : Client K) : Prop :=
  Run (call tgid) ⟨driver, xpmemFd⟩ allowed events client

/--
If the first ioctl of each `xpmem_make` is refused, the segments the driver
lists for a process are those the process was told of, and in that order.
-/
theorem shares_eq_kept
    {prior : List (Event (State K) Op Ret)} {driver : State K}
    {xpmemFd : Bool}
    {events : List (Event (Client K) Call (Option (BitVec 64)))}
    {client : Client K} (positive : 0 < tgid.toInt)
    (reached : Run step {} (fun _ _ => True) prior driver)
    (unknown : driver.findTg tgid false = none)
    (calls : Calls tgid driver xpmemFd (Refused tgid) events client) :
    shares client.driver tgid = kept events := by
  have both : Named client.driver ∧
      shares client.driver tgid = kept events := by
    induction calls with
    | start => exact ⟨.of_run reached, by simp [shares, unknown, kept]⟩
    | next _ refused taken induction =>
        obtain ⟨named, shared⟩ :=
          call_spec positive induction.1 refused taken
        refine ⟨named, ?_⟩
        rw [shared, induction.2, kept, kept, List.foldl_append]
        rfl
  exact both.2

/-- A forked process whose first attempt to open the device again fails. -/
theorem shares_eq_kept_forked :
    ∃ (prior : _) (driver : State fourLevel) (events : _) (client : _),
      Run step {} (fun _ _ => True) prior driver ∧
      driver.findTg 1 false = none ∧
      Calls 1 driver true (Refused 1) events client ∧
      shares client.driver 1 = [0x100000001] ∧
      kept events = [0x100000001] := by
  obtain ⟨prior, driver, reached, unknown, checked⟩ := exists_run
    step ({} : State fourLevel) (fun _ _ => True) [.spawn 1]
    (fun _ driver => driver.findTg 1 false = none ∧
      ((execute (call 1) ⟨driver, true⟩
        [.make 0x10000 0x4000 1 0o666 { device := { oom := true } } {}]).any
        fun done =>
          done.1.all (fun event =>
            decide (Refused 1 event.pre event.action)) &&
          decide (shares done.2.driver 1 = [0x100000001])) = true)
    (by decide +kernel)
  obtain ⟨events, client, calls, shared⟩ := exists_run _ _ (Refused 1) _
    (fun _ (client : Client fourLevel) =>
      shares client.driver 1 = [0x100000001])
    checked
  have told := shares_eq_kept (by decide) reached unknown calls
  exact ⟨prior, driver, events, client, reached, unknown, calls, shared,
    told ▸ shared⟩

/-- Each `xpmem_make` makes two segments, and tells of the second only. -/
theorem shares_ne_kept :
    ∃ (prior : _) (driver : State fourLevel) (events : _) (client : _),
      Run step {} (fun _ _ => True) prior driver ∧
      driver.findTg 1 false = none ∧
      Calls 1 driver true (fun _ _ => True) events client ∧
      shares client.driver 1 = [0x100000001, 0x200000001] ∧
      kept events = [0x200000001] := by
  obtain ⟨prior, driver, reached, unknown, checked⟩ := exists_run
    step ({} : State fourLevel) (fun _ _ => True) [.spawn 1]
    (fun _ driver => driver.findTg 1 false = none ∧
      ((execute (call 1) ⟨driver, true⟩
        [.make 0x10000 0x4000 1 0o666 {} {}]).any fun done =>
          done.1.all (fun _ => decide True) &&
          decide (shares done.2.driver 1 = [0x100000001, 0x200000001] ∧
            kept done.1 = [0x200000001])) = true)
    (by decide +kernel)
  obtain ⟨events, client, calls, shared, told⟩ := exists_run _ _
    (fun _ _ => True) _
    (fun events (client : Client fourLevel) =>
      shares client.driver 1 = [0x100000001, 0x200000001] ∧
        kept events = [0x200000001])
    checked
  exact ⟨prior, driver, events, client, reached, unknown, calls, shared, told⟩

end Xpmem.Library
