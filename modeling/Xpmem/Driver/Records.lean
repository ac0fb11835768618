import Xpmem.Driver.System
import Xpmem.Foundation.Partial

/-!
# Records of existing objects

An object keeps what it was created with: no operation of the driver changes
the identity of a thread group, the range and permission of a segment, the
mode of a permit, or the source of an attachment, and nothing takes back that
an object is being destroyed.

`Change` lists the changes of a state that operations are made of, as far as
these records are concerned.  Every operation is a sequence of them in every
state, well-formed or not, so what each change keeps holds in every run.
-/

namespace Xpmem.Driver

open Xpmem.Foundation Xpmem.Kernel

variable {K : Platform}

theorem always_asTask {α : Type} {s : State K} {tgid : Pid}
    {body : Task → MmPtr → Option α} {post : α → Prop}
    (always : ∀ mm, s.proc tgid = .running mm →
      Always (body ⟨tgid, some mm⟩ mm) post) :
    Always (asTask s tgid body) post := by
  simp only [asTask]
  split
  · rename_i mm running
    exact always mm running
  · exact .none

/-- What a group is created with. -/
def ThreadGroup.record (tg : ThreadGroup) : ThreadGroup where
  tgid := tg.tgid
  uid := tg.uid
  gid := tg.gid
  addrLimit := tg.addrLimit
  mm := tg.mm
  mmuInitialized := tg.mmuInitialized

/-- What a segment is created with. -/
def Segment.record (seg : Segment) : Segment where
  segid := seg.segid
  vaddr := seg.vaddr
  size := seg.size
  permitType := seg.permitType
  permitValue := seg.permitValue
  tg := seg.tg

/-- What a permit is created with. -/
def AccessPermit.record (ap : AccessPermit) : AccessPermit where
  apid := ap.apid
  mode := ap.mode
  seg := ap.seg
  tg := ap.tg

/-- What an attachment is created with. -/
def Attachment.record (att : Attachment) : Attachment where
  vaddr := att.vaddr
  ap := att.ap
  mm := att.mm

/-- What a group is created with, and the objects it has. -/
def ThreadGroup.entry (tg : ThreadGroup) : ThreadGroup :=
  { tg.record with
    uniqSegid := tg.uniqSegid
    uniqApid := tg.uniqApid
    segList := tg.segList
    apHashtable := tg.apHashtable }

/-- What an operation may do besides changing single objects. -/
structure Scope where
  /-- Objects are made and taken off their lists. -/
  lists : Prop
  /-- Permits are made. -/
  permits : Prop
  /-- Processes come and go. -/
  procs : Prop

/-- Only single objects are changed. -/
abbrev Scope.quiet : Scope :=
  ⟨False, False, False⟩

/-- A call of the driver. -/
abbrev Scope.call (permits : Prop) : Scope :=
  ⟨True, permits, False⟩

/--
The changes operations are made of.  Those that create objects, or take them
off their lists, are for operations whose scope has them.
-/
inductive Change (scope : Scope) (s : State K) : State K → Prop where
  | rest {t : State K} (tg : t.tg = s.tg) (seg : t.seg = s.seg)
      (ap : t.ap = s.ap) (att : t.att = s.att)
      (nextTg : t.nextTg = s.nextTg) (nextSeg : t.nextSeg = s.nextSeg)
      (nextAp : t.nextAp = s.nextAp) (nextAtt : t.nextAtt = s.nextAtt)
      (hashed : ∀ index group, group ∈ t.myPart.tgHashtable index →
        group ∈ s.myPart.tgHashtable index)
      (proc : t.proc = s.proc ∨ scope.procs)
      (positive : ∀ tgid, t.proc tgid ≠ .absent →
        s.proc tgid ≠ .absent ∨ 0 < tgid.toInt) :
      Change scope s t
  | tg (group : TgPtr) {change : ThreadGroup → ThreadGroup}
      (entry : (change (s.tg group)).entry = (s.tg group).entry)
      (destroying : (s.tg group).destroying = true →
        (change (s.tg group)).destroying = true)
      (destroyed : (s.tg group).destroyed = true →
        (change (s.tg group)).destroyed = true) :
      Change scope s (s.modTg group change)
  | seg (seg : SegPtr) {change : Segment → Segment}
      (record : (change (s.seg seg)).record = (s.seg seg).record)
      (destroying : (s.seg seg).destroying = true →
        (change (s.seg seg)).destroying = true)
      (destroyed : (s.seg seg).destroyed = true →
        (change (s.seg seg)).destroyed = true)
      (permits : ∀ permit ∈ (change (s.seg seg)).apList,
        permit ∈ (s.seg seg).apList) :
      Change scope s (s.modSeg seg change)
  | ap (permit : ApPtr) {change : AccessPermit → AccessPermit}
      (record : (change (s.ap permit)).record = (s.ap permit).record)
      (destroying : (s.ap permit).destroying = true →
        (change (s.ap permit)).destroying = true)
      (atts : ∀ att ∈ (change (s.ap permit)).attList,
        att ∈ (s.ap permit).attList) :
      Change scope s (s.modAp permit change)
  | att (att : AttPtr) {change : Attachment → Attachment}
      (record : (change (s.att att)).record = (s.att att).record) :
      Change scope s (s.modAtt att change)
  | attachLink (yes : scope.lists) (permit : ApPtr) (mm : MmPtr)
      (segVaddr size : Nat) :
      Change scope s (attachLink s permit mm segVaddr size)
  | makeApid (yes : scope.permits) (group : TgPtr) :
      Change scope s (xpmemMakeApid s group).1
  | linkAp (yes : scope.permits) {group : TgPtr} {index : Nat}
      (hashed : group ∈ s.myPart.tgHashtable index) {apid : BitVec 64}
      (made : (xpmemMakeApid s group).2 = some apid) (seg : SegPtr)
      (mode : BitVec 32) :
      Change scope s
        (linkAp (xpmemMakeApid s group).1 seg group apid mode)
  | unlinkAp (yes : scope.lists) (group : TgPtr) {permit : ApPtr}
      (flagged : (s.ap permit).destroying = true) :
      Change scope s (unlinkAp s group permit)
  | makeSegid (yes : scope.lists) (group : TgPtr) :
      Change scope s (xpmemMakeSegid s group).1
  | linkSeg (yes : scope.lists) {group : TgPtr} {index : Nat}
      (hashed : group ∈ s.myPart.tgHashtable index) {segid : BitVec 64}
      (made : (xpmemMakeSegid s group).2 = some segid) (vaddr size : Nat)
      (permitType : BitVec 32) (permitValue : BitVec 64) :
      Change scope s
        (linkSeg (xpmemMakeSegid s group).1 group segid vaddr size
          permitType permitValue)
  | unlinkSeg (yes : scope.lists) (group : TgPtr) {seg : SegPtr}
      (flagged : (s.seg seg).destroying = true) :
      Change scope s (unlinkSeg s group seg)
  | linkTg (yes : scope.lists) (tgid : Pid) (mm : MmPtr) (cred : Cred) :
      Change scope s (linkTg s tgid mm cred)

/-- The command makes a permit. -/
def Cmd.gets : Cmd → Prop
  | .get .. => True
  | _ => False

/-- The operation makes a permit. -/
def Op.gets : Op → Prop
  | .ioctl _ cmd _ => cmd.gets
  | _ => False

/-- The operation changes which processes there are. -/
def Op.procs : Op → Prop
  | .spawn _ | .exitMm _ | .exitFiles _ => True
  | _ => False

/-- The second state is the first one after any number of changes. -/
def Keeps (scope : Scope) : State K → State K → Prop :=
  Relation.ReflTransGen (Change scope)

namespace Keeps

variable {scope : Scope} {permits : Prop} {s t u : State K}

theorem refl (s : State K) : Keeps scope s s :=
  Relation.ReflTransGen.refl

theorem trans (first : Keeps scope s t) (second : Keeps scope t u) :
    Keeps scope s u :=
  Relation.ReflTransGen.trans first second

theorem change (keeps : Keeps scope u s) (change : Change scope s t) :
    Keeps scope u t :=
  Relation.ReflTransGen.tail keeps change

/-- What every change keeps is kept. -/
theorem invariant (property : State K → Prop) (keeps : Keeps scope s t)
    (holds : property s)
    (kept : ∀ pre post, property pre → Change scope pre post →
      property post) :
    property t := by
  induction keeps with
  | refl => exact holds
  | tail _ change induction => exact kept _ _ induction change

/-- The same changes in a wider scope. -/
theorem mono {wider : Scope} (keeps : Keeps scope s t)
    (lists : scope.lists → wider.lists)
    (permits : scope.permits → wider.permits)
    (procs : scope.procs → wider.procs) : Keeps wider s t := by
  refine keeps.invariant (Keeps wider s) (refl s) ?_
  intro pre post keeps change
  refine keeps.change ?_
  cases change with
  | rest tg seg ap att nextTg nextSeg nextAp nextAtt hashed proc positive =>
      exact .rest tg seg ap att nextTg nextSeg nextAp nextAtt hashed
        (proc.imp_right procs) positive
  | tg group entry destroying destroyed =>
      exact .tg group entry destroying destroyed
  | seg seg record destroying destroyed permits =>
      exact .seg seg record destroying destroyed permits
  | ap permit record destroying atts =>
      exact .ap permit record destroying atts
  | att att record => exact .att att record
  | attachLink yes permit mm segVaddr size =>
      exact .attachLink (lists yes) permit mm segVaddr size
  | makeApid yes group => exact .makeApid (permits yes) group
  | linkAp yes hashed made seg mode =>
      exact .linkAp (permits yes) hashed made seg mode
  | unlinkAp yes group flagged => exact .unlinkAp (lists yes) group flagged
  | makeSegid yes group => exact .makeSegid (lists yes) group
  | linkSeg yes hashed made vaddr size permitType permitValue =>
      exact .linkSeg (lists yes) hashed made vaddr size permitType
        permitValue
  | unlinkSeg yes group flagged =>
      exact .unlinkSeg (lists yes) group flagged
  | linkTg yes tgid mm cred => exact .linkTg (lists yes) tgid mm cred

/-- The changes that are always allowed. -/
theorem always (keeps : Keeps .quiet s t) :
    Keeps scope s t :=
  keeps.mono False.elim False.elim False.elim

/-- Inside an operation no process comes or goes. -/
theorem proc {lists : Prop} (keeps : Keeps ⟨lists, permits, False⟩ s t) :
    t.proc = s.proc := by
  refine keeps.invariant (fun pre => pre.proc = s.proc) rfl ?_
  intro pre post same change
  rw [← same]
  cases change with
  | rest _ _ _ _ _ _ _ _ _ proc => exact proc.resolve_right id
  | makeApid _ group =>
      simp only [xpmemMakeApid]
      split <;> rfl
  | makeSegid _ group =>
      simp only [xpmemMakeSegid]
      split <;> rfl
  | linkAp _ _ _ =>
      simp only [xpmemMakeApid]
      split <;> rfl
  | linkSeg _ _ _ =>
      simp only [xpmemMakeSegid]
      split <;> rfl
  | tg | seg | ap | att | attachLink | unlinkAp | unlinkSeg | linkTg => rfl

/-- An operation in which processes may come or go. -/
theorem procs {lists : Prop} (keeps : Keeps ⟨lists, permits, False⟩ s t) :
    Keeps ⟨lists, permits, True⟩ s t :=
  keeps.mono id id False.elim

/-- A process whose identifier is positive, or that is there already. -/
theorem setProc {lists : Prop} (keeps : Keeps ⟨lists, permits, True⟩ u s)
    {tgid : Pid} (value : Proc)
    (positive : s.proc tgid ≠ .absent ∨ 0 < tgid.toInt ∨ value = .absent) :
    Keeps ⟨lists, permits, True⟩ u
      { s with proc := Function.update s.proc tgid value } := by
  refine keeps.change (.rest rfl rfl rfl rfl rfl rfl rfl rfl
    (fun _ _ => id) (.inr trivial) fun other present => ?_)
  by_cases here : other = tgid
  · subst here
    rcases positive with running | positive | gone
    · exact .inl running
    · exact .inr positive
    · exact absurd (by simp [gone]) present
  · exact .inl (by simpa [here] using present)

theorem seg_destroying (keeps : Keeps .quiet s t) {seg : SegPtr}
    (flagged : (s.seg seg).destroying = true) :
    (t.seg seg).destroying = true := by
  refine keeps.invariant (fun s => (s.seg seg).destroying = true) flagged ?_
  intro pre post flagged change
  cases change with
  | rest _ same => rw [same]; exact flagged
  | seg other _ destroying _ =>
      simp only [State.modSeg, Function.update_apply]
      grind
  | tg | ap | att => exact flagged
  | attachLink yes | makeApid yes | linkAp yes | unlinkAp yes
  | makeSegid yes | linkSeg yes | unlinkSeg yes | linkTg yes =>
      exact yes.elim

theorem ap_destroying (keeps : Keeps .quiet s t) {permit : ApPtr}
    (flagged : (s.ap permit).destroying = true) :
    (t.ap permit).destroying = true := by
  refine keeps.invariant (fun s => (s.ap permit).destroying = true)
    flagged ?_
  intro pre post flagged change
  cases change with
  | rest _ _ same => rw [same]; exact flagged
  | ap other _ destroying =>
      simp only [State.modAp, Function.update_apply]
      grind
  | tg | seg | att => exact flagged
  | attachLink yes | makeApid yes | linkAp yes | unlinkAp yes
  | makeSegid yes | linkSeg yes | unlinkSeg yes | linkTg yes =>
      exact yes.elim

/-! ## Changing one object -/

/-- The two states have the same objects. -/
theorem of_same (keeps : Keeps scope u s) (tg : t.tg = s.tg)
    (seg : t.seg = s.seg) (ap : t.ap = s.ap) (att : t.att = s.att)
    (nextTg : t.nextTg = s.nextTg) (nextSeg : t.nextSeg = s.nextSeg)
    (nextAp : t.nextAp = s.nextAp) (nextAtt : t.nextAtt = s.nextAtt)
    (hashed : ∀ index group, group ∈ t.myPart.tgHashtable index →
      group ∈ s.myPart.tgHashtable index)
    (proc : t.proc = s.proc) :
    Keeps scope u t :=
  keeps.change
    (.rest tg seg ap att nextTg nextSeg nextAp nextAtt hashed (.inl proc)
      fun _ present => .inl (proc ▸ present))

theorem modTg (keeps : Keeps scope u s) {group : TgPtr}
    {change : ThreadGroup → ThreadGroup}
    (entry : (change (s.tg group)).entry = (s.tg group).entry)
    (destroying : (s.tg group).destroying = true →
      (change (s.tg group)).destroying = true)
    (destroyed : (s.tg group).destroyed = true →
      (change (s.tg group)).destroyed = true) :
    Keeps scope u (s.modTg group change) :=
  keeps.change (.tg group entry destroying destroyed)

theorem modSeg (keeps : Keeps scope u s) {seg : SegPtr}
    {change : Segment → Segment}
    (record : (change (s.seg seg)).record = (s.seg seg).record)
    (destroying : (s.seg seg).destroying = true →
      (change (s.seg seg)).destroying = true)
    (destroyed : (s.seg seg).destroyed = true →
      (change (s.seg seg)).destroyed = true)
    (permits : ∀ permit ∈ (change (s.seg seg)).apList,
      permit ∈ (s.seg seg).apList) :
    Keeps scope u (s.modSeg seg change) :=
  keeps.change (.seg seg record destroying destroyed permits)

theorem modAp (keeps : Keeps scope u s) {permit : ApPtr}
    {change : AccessPermit → AccessPermit}
    (record : (change (s.ap permit)).record = (s.ap permit).record)
    (destroying : (s.ap permit).destroying = true →
      (change (s.ap permit)).destroying = true)
    (atts : ∀ att ∈ (change (s.ap permit)).attList,
      att ∈ (s.ap permit).attList) :
    Keeps scope u (s.modAp permit change) :=
  keeps.change (.ap permit record destroying atts)

theorem modAtt (keeps : Keeps scope u s) {att : AttPtr}
    {change : Attachment → Attachment}
    (record : (change (s.att att)).record = (s.att att).record) :
    Keeps scope u (s.modAtt att change) :=
  keeps.change (.att att record)

theorem modMm (keeps : Keeps scope u s) (mm : MmPtr)
    (change : Mm K → Mm K) :
    Keeps scope u (s.modMm mm change) :=
  keeps.of_same rfl rfl rfl rfl rfl rfl rfl rfl (fun _ _ => id) rfl

/-! ## References -/

theorem xpmemTgRef (keeps : Keeps scope u s) (group : TgPtr) :
    Keeps scope u (s.xpmemTgRef group) :=
  keeps.modTg rfl id id

theorem xpmemSegRef (keeps : Keeps scope u s) (seg : SegPtr) :
    Keeps scope u (s.xpmemSegRef seg) :=
  keeps.modSeg rfl id id (fun _ => id)

theorem xpmemApRef (keeps : Keeps scope u s) (permit : ApPtr) :
    Keeps scope u (s.xpmemApRef permit) :=
  keeps.modAp rfl id (fun _ => id)

theorem xpmemAttRef (keeps : Keeps scope u s) (att : AttPtr) :
    Keeps scope u (s.xpmemAttRef att) :=
  keeps.modAtt rfl

theorem xpmemTgDeref (keeps : Keeps scope u s) (group : TgPtr) :
    Keeps scope u (s.xpmemTgDeref group) := by
  rw [State.xpmemTgDeref]
  split
  · exact keeps.modTg rfl id id
  · have lowered : Keeps scope u
        (s.modTg group fun tg => { tg with refcnt := tg.refcnt - 1 }) :=
      keeps.modTg rfl id id
    have freed : Keeps scope u
        ((s.modTg group fun tg =>
          { tg with refcnt := tg.refcnt - 1 }).modTg group fun tg =>
            { tg with allocated := false }) :=
      lowered.modTg rfl id id
    exact freed.of_same rfl rfl rfl rfl rfl rfl rfl rfl (fun _ _ => id) rfl

theorem xpmemSegDeref (keeps : Keeps scope u s) (seg : SegPtr) :
    Keeps scope u (s.xpmemSegDeref seg) := by
  rw [State.xpmemSegDeref]
  split
  · exact keeps.modSeg rfl id id (fun _ => id)
  · exact (keeps.modSeg rfl id id (fun _ => id)).modSeg rfl id id (fun _ => id)

theorem xpmemApDeref (keeps : Keeps scope u s) (permit : ApPtr) :
    Keeps scope u (s.xpmemApDeref permit) := by
  rw [State.xpmemApDeref]
  split
  · exact keeps.modAp rfl id (fun _ => id)
  · exact (keeps.modAp rfl id (fun _ => id)).modAp rfl id (fun _ => id)

theorem xpmemAttDeref (keeps : Keeps scope u s) (att : AttPtr) :
    Keeps scope u (s.xpmemAttDeref att) := by
  rw [State.xpmemAttDeref]
  split
  · exact keeps.modAtt rfl
  · exact (keeps.modAtt rfl).modAtt rfl

theorem putPage (keeps : Keeps scope u s) (frame : Frame) :
    Keeps scope u (putPage s frame) :=
  keeps.of_same rfl rfl rfl rfl rfl rfl rfl rfl (fun _ _ => id) rfl

theorem putPages (keeps : Keeps scope u s) (seg : SegPtr)
    (put : List (Nat × Frame)) :
    Keeps scope u (putPages s seg put) := by
  have folded : Keeps scope u
      (put.foldl (fun s entry => Driver.putPage s entry.2) s) := by
    induction put generalizing s with
    | nil => exact keeps
    | cons entry rest induction => exact induction (keeps.putPage entry.2)
  have lowered (owner : TgPtr) : Keeps scope u
      ((put.foldl (fun s entry => Driver.putPage s entry.2) s).modTg owner
        fun tg =>
          { tg with nPinned := int32 (tg.nPinned - put.length) }) :=
    folded.modTg rfl id id
  exact (lowered _).of_same rfl rfl rfl rfl rfl rfl rfl rfl (fun _ _ => id) rfl

theorem xpmemUnpinPages (keeps : Keeps scope u s) (seg : SegPtr) (mm : MmPtr)
    (vaddr size : Nat) :
    Always (xpmemUnpinPages s seg mm vaddr size) (Keeps scope u) :=
  .map fun put _ => keeps.putPages seg put

/-! ## Clearing -/

theorem zapPTEsOfAtt (keeps : Keeps scope u s) (att : AttPtr)
    (addr size : Nat) (fromMmu : Bool) :
    Always (zapPTEsOfAtt s att addr size fromMmu) (Keeps scope u) := by
  simp only [Driver.zapPTEsOfAtt]
  split
  · split
    · exact .some keeps
    · exact .some (keeps.modMm _ _)
  · exact .map fun _ _ => keeps.modMm _ _

theorem xpmemClearPTEsOfAtt (keeps : Keeps scope u s) (att : AttPtr)
    (start stop : Nat) (fromMmu : Bool) :
    Always (xpmemClearPTEsOfAtt s att start stop fromMmu) (Keeps scope u) := by
  simp only [Driver.xpmemClearPTEsOfAtt]
  split
  · exact .some keeps
  · split
    · exact .some keeps
    · split
      · exact .some keeps
      · refine .bind ((keeps.xpmemUnpinPages _ _ _ _).mono ?_)
        intro unpinned keeps
        refine .map ((keeps.zapPTEsOfAtt _ _ _ _).mono ?_)
        intro zapped keeps
        split
        · exact keeps.modAtt rfl
        · exact keeps

theorem clearVisitAtt (keeps : Keeps scope u s) (start stop : Nat)
    (fromMmu : Bool) (att : AttPtr) :
    Always (clearVisitAtt start stop fromMmu s att) (Keeps scope u) := by
  simp only [Driver.clearVisitAtt]
  split
  · exact .map
      (((keeps.xpmemAttRef att).xpmemClearPTEsOfAtt att _ _ _).mono
        fun _ keeps => keeps.xpmemAttDeref att)
  · exact .some keeps

theorem xpmemClearPTEsOfAp (keeps : Keeps scope u s) (permit : ApPtr)
    (start stop : Nat) (fromMmu : Bool) :
    Always (xpmemClearPTEsOfAp s permit start stop fromMmu) (Keeps scope u) :=
  .foldlM keeps fun _ att _ keeps => keeps.clearVisitAtt _ _ _ att

theorem xpmemClearPTEsRange (keeps : Keeps scope u s) (seg : SegPtr)
    (start stop : Nat) (fromMmu : Bool) :
    Always (xpmemClearPTEsRange s seg start stop fromMmu) (Keeps scope u) :=
  .foldlM keeps fun _ permit _ keeps => .map
    (((keeps.xpmemApRef permit).xpmemClearPTEsOfAp permit _ _ _).mono
      fun _ keeps => keeps.xpmemApDeref permit)

theorem xpmemRecallPFNs (keeps : Keeps scope u s) (seg : SegPtr) :
    Always (xpmemRecallPFNs s seg) (Keeps scope u) := by
  simp only [Driver.xpmemRecallPFNs]
  split
  · split
    · exact .some keeps
    · exact .none
  · have marked : Keeps scope u
        (s.modSeg seg fun seg => { seg with recallingPFNs := true }) :=
      keeps.modSeg rfl id id (fun _ => id)
    exact .map ((marked.xpmemClearPTEsRange seg _ _ _).mono
      fun _ keeps => keeps.modSeg rfl id id (fun _ => id))

theorem xpmemRecallPFNsOfTg (keeps : Keeps scope u s) (segTg : TgPtr) :
    Always (xpmemRecallPFNsOfTg s segTg) (Keeps scope u) := by
  refine .foldlM keeps fun pre seg _ keeps => ?_
  simp only [recallVisitSeg]
  split
  · exact .some keeps
  · exact .map (((keeps.xpmemSegRef seg).xpmemRecallPFNs seg).mono
      fun _ keeps => keeps.xpmemSegDeref seg)

theorem xpmemInvalidatePTEsRange (keeps : Keeps scope u s) (segTg : TgPtr)
    (start stop : Nat) :
    Always (xpmemInvalidatePTEsRange s segTg start stop) (Keeps scope u) := by
  refine .foldlM keeps fun pre seg _ keeps => ?_
  simp only [invalidateVisitSeg]
  split
  · exact .some keeps
  · split
    · exact .map
        (((keeps.xpmemSegRef seg).xpmemClearPTEsRange seg _ _ _).mono
          fun _ keeps => keeps.xpmemSegDeref seg)
    · exact .some keeps

theorem xpmemInvalidateRange (keeps : Keeps scope u s) (current : Task)
    (segTg : TgPtr) (mm : MmPtr) (start stop : Nat) :
    Always (xpmemInvalidateRange s current segTg mm start stop)
      (Keeps scope u) := by
  simp only [Driver.xpmemInvalidateRange]
  split
  · exact .some keeps
  · split
    · exact keeps.xpmemInvalidatePTEsRange _ _ _
    · refine .foldlM keeps fun pre vma _ keeps => ?_
      simp only [invalidateVisitVma]
      split
      · exact .some keeps
      · split
        · exact .some keeps
        · split
          · exact .some keeps
          · exact keeps.xpmemInvalidatePTEsRange _ _ _

theorem notifyInvalidateRange (keeps : Keeps scope u s) (current : Task)
    (mm : MmPtr) (start stop : Nat) :
    Always (notifyInvalidateRange s current mm start stop) (Keeps scope u) :=
  .foldlM keeps fun _ segTg _ keeps =>
    keeps.xpmemInvalidateRange current segTg mm start stop

/-! ## Areas -/

theorem remainingVaddr (keeps : Keeps scope u s) (mm : MmPtr) (att : AttPtr)
    (vma : Vma) :
    Always (remainingVaddr s mm att vma)
      fun found => Keeps scope u found.1 := by
  simp only [Driver.remainingVaddr]
  split
  · exact .some keeps
  · split
    · exact .some keeps
    · split
      · exact .none
      · split
        · exact .none
        · exact .some
            (keeps.of_same rfl rfl rfl rfl rfl rfl rfl rfl (fun _ _ => id) rfl)

theorem closeFixup (keeps : Keeps scope u s) (mm : MmPtr) (att : AttPtr)
    (vma : Vma) :
    Always (closeFixup s mm att vma) (Keeps scope u) := by
  refine .bind ((keeps.remainingVaddr mm att vma).mono ?_)
  intro found keeps
  split
  · exact .none
  · split
    · exact .none
    · exact .some (keeps.modAtt rfl)

theorem unlinkAtt (keeps : Keeps scope u s) (permit : ApPtr) (att : AttPtr) :
    Keeps scope u (unlinkAtt s permit att) :=
  keeps.modAp rfl id fun _ => List.mem_of_mem_erase

theorem closeVma (keeps : Keeps scope u s) (mm : MmPtr) (vma : Vma) :
    Always (closeVma mm s vma) (Keeps scope u) := by
  simp only [Driver.closeVma, xpmemCloseHandler]
  split
  · split
    · exact .some keeps
    · rename_i att _
      have known := keeps.xpmemAttRef att
      split
      · exact .some (known.xpmemAttDeref att)
      · split
        · refine .some (xpmemAttDeref (xpmemAttDeref ?_ _) _)
          refine xpmemApDeref (unlinkAtt (xpmemApRef ?_ _) _ _) _
          exact known.modAtt rfl
        · exact .map ((known.closeFixup mm att vma).mono
            fun _ keeps => keeps.xpmemAttDeref att)
  · exact .some keeps

theorem vmMunmap (keeps : Keeps scope u s) (current : Task) (mm : MmPtr)
    (start stop : Nat) :
    Always (vmMunmap s current mm start stop) (Keeps scope u) := by
  simp only [Driver.vmMunmap]
  split
  · rename_i proper
    split
    · exact .some keeps
    · have unmapped : Keeps scope u (unmapRange s mm start stop proper) :=
        keeps.of_same rfl rfl rfl rfl rfl rfl rfl rfl (fun _ _ => id) rfl
      refine .bind ((unmapped.notifyInvalidateRange _ _ _ _).mono ?_)
      exact fun _ keeps => .foldlM keeps fun _ vma _ keeps =>
        keeps.closeVma mm vma
  · exact .some keeps

theorem addVma (keeps : Keeps scope u s) (mm : MmPtr) (start stop : Nat)
    (proper : start < stop) (xpmemOps : Bool) :
    Keeps scope u (addVma s mm start stop proper xpmemOps) :=
  keeps.of_same rfl rfl rfl rfl rfl rfl rfl rfl (fun _ _ => id) rfl

theorem vmMmap (keeps : Keeps scope u s) (current : Task) (mm : MmPtr)
    (vaddr size : Nat) (fixed : Bool) (place : Option Nat) :
    Always (vmMmap s current mm vaddr size fixed place)
      fun mapped => Keeps scope u mapped.1 := by
  simp only [Driver.vmMmap]
  split
  · split
    · exact .some keeps
    · split
      · split
        · exact .some keeps
        · exact .map ((keeps.vmMunmap _ _ _ _).mono
            fun _ keeps => keeps.addVma _ _ _ _ _)
      · split
        · exact .some (keeps.addVma _ _ _ _ _)
        · exact .some keeps
  · exact .some keeps

/-! ## Faults -/

theorem xpmemPinPage (keeps : Keeps scope u s) (group : TgPtr) (srcMm : MmPtr)
    (vaddr : Nat) (gup : Gup) :
    Keeps scope u (xpmemPinPage s group srcMm vaddr gup).1 := by
  simp only [Driver.xpmemPinPage]
  split
  · exact keeps
  · split
    · exact keeps
    · split
      · exact keeps
      · exact keeps
      · rename_i fresh
        have found : Keeps scope u (getUserPagesRemote s srcMm vaddr fresh) :=
          keeps.of_same rfl rfl rfl rfl rfl rfl rfl rfl (fun _ _ => id) rfl
        have counted : Keeps scope u
            ((getUserPagesRemote s srcMm vaddr fresh).modTg group fun tg =>
              { tg with nPinned := int32 (tg.nPinned + 1) }) :=
          found.modTg rfl id id
        exact counted.of_same rfl rfl rfl rfl rfl rfl rfl rfl (fun _ _ => id) rfl

theorem xpmemEnsureValidPFN (keeps : Keeps scope u s) (seg : SegPtr)
    (vaddr : Nat) (gup : Gup) :
    Keeps scope u (xpmemEnsureValidPFN s seg vaddr gup).1 := by
  simp only [Driver.xpmemEnsureValidPFN]
  split
  · exact keeps
  · exact keeps.xpmemPinPage _ _ _ _

theorem faultPin (keeps : Keeps scope u s) (att : AttPtr) (seg : SegPtr)
    (apTg segTg : TgPtr) (vaddr : Nat) (env : FaultEnv) :
    Keeps scope u (faultPin s att seg apTg segTg vaddr env).1 := by
  simp only [Driver.faultPin]
  split
  · exact keeps
  · split
    · exact keeps
    · split
      · exact keeps
      · have pinned := keeps.xpmemEnsureValidPFN seg
          (u64 (pageMask (s.att att).vaddr +
            u64Sub vaddr (s.att att).atVaddr)) env.gup
        split
        · rename_i equal
          rw [equal] at pinned
          exact pinned
        · rename_i equal
          rw [equal] at pinned
          dsimp only at pinned ⊢
          exact pinned.modAtt rfl

theorem faultMap (keeps : Keeps scope u s) (mm : MmPtr) (seg : SegPtr)
    (vaddr pfn : Nat) (env : FaultEnv) :
    Keeps scope u (faultMap s mm seg vaddr pfn env).1 := by
  simp only [Driver.faultMap]
  split
  · split
    · split
      · exact keeps.putPages _ _
      · have logged := keeps.of_same (t := logMessage s
          (.pfnMismatch (xpmemVaddrToPFN (s.mm mm) vaddr) pfn))
          rfl rfl rfl rfl rfl rfl rfl rfl (fun _ _ => id) rfl
        exact logged.putPages _ _
    · split
      · exact keeps.of_same rfl rfl rfl rfl rfl rfl rfl rfl (fun _ _ => id) rfl
      · exact keeps
  · exact keeps

theorem xpmemFaultHandler (keeps : Keeps scope u s) (mm : MmPtr) (vma : Vma)
    (vaddr : Nat) (env : FaultEnv) :
    Always (xpmemFaultHandler s mm vma vaddr env)
      fun faulted => Keeps scope u faulted.1 := by
  unfold Driver.xpmemFaultHandler
  split
  · exact .some keeps
  · split
    · exact .some keeps
    · rename_i att _
      extract_lets first permit second apTg third
      have entered : Keeps scope u third :=
        xpmemTgRef (xpmemApRef (keeps.xpmemAttRef att) permit) apTg
      clear_value third
      split
      · exact .some (xpmemTgDeref (xpmemApDeref
          (entered.xpmemAttDeref _) _) _)
      · rename_i seg fourth segTg fifth _
        have locked : Keeps scope u fifth :=
          xpmemTgRef (entered.xpmemSegRef seg) segTg
        clear_value fifth
        refine .map fun blocked returned => ?_
        beta_reduce
        have entered : Keeps scope u blocked := by
          unfold xpmemBlockRecallPFNs at returned
          split at returned
          · cases returned
          · cases returned
            exact locked.modTg rfl (fun flag => flag) fun flag => flag
        extract_lets pinned unblocked sixth seventh mapped eighth ninth
        have pin : Keeps scope u pinned.1 := by
          unfold pinned
          split
          · exact entered
          · exact entered.faultPin _ _ _ _ _ _
        clear_value pinned
        have released : Keeps scope u seventh :=
          xpmemTgDeref (xpmemApDeref
            (pin.modTg rfl (fun flag => flag) fun flag => flag) permit) apTg
        clear_value seventh
        exact xpmemAttDeref (xpmemSegDeref (xpmemTgDeref
          (released.faultMap mm seg vaddr pinned.2 env) segTg) seg) att

/-! ## Attaching and detaching -/

theorem attachUndo (keeps : Keeps scope u s) (permit : ApPtr) (att : AttPtr) :
    Keeps scope u (attachUndo s permit att) :=
  xpmemAttDeref (unlinkAtt (keeps.modAtt rfl) _ _) _

theorem attachBind (keeps : Keeps scope u s) (mm : MmPtr) (att : AttPtr)
    (atVaddr : Nat) (vma : Vma) :
    Keeps scope u (attachBind s mm att atVaddr vma) := by
  simp only [Driver.attachBind]
  exact modAtt (modMm (keeps.modAtt rfl) _ _) rfl

theorem attachMap (keeps : Keeps scope u s) (current : Task) (mm : MmPtr)
    (permit : ApPtr) (att : AttPtr) (vaddr size : Nat)
    (place : Option Nat) :
    Always (attachMap s current mm permit att vaddr size place)
      fun mapped => Keeps scope u mapped.1 := by
  simp only [Driver.attachMap]
  split
  · exact .some (keeps.attachUndo permit att)
  · split
    · exact .some (keeps.attachUndo permit att)
    · refine .bind ((keeps.vmMmap _ _ _ _ _ _).mono ?_)
      intro mapped keeps
      split
      · exact .some (keeps.attachUndo permit att)
      · exact .map fun vma _ => keeps.attachBind mm att _ vma

theorem attachChecked (keeps : Keeps (.call permits) u s)
    (current : Task) (mm : MmPtr) (permit : ApPtr) (seg : SegPtr)
    (segTg : TgPtr) (offset : BitVec 64) (size vaddr : Nat)
    (env : AttachEnv) :
    Always
      (attachChecked s current mm permit seg segTg offset size vaddr env)
      fun attached => Keeps (.call permits) u attached.1 := by
  simp only [Driver.attachChecked]
  split
  · exact .some keeps
  · split
    · exact .some keeps
    · split
      · exact .some keeps
      · split
        · exact .some keeps
        · refine .map ((attachMap (keeps.change (.attachLink trivial _ _ _ _))
            _ _ _ _ _ _ _).mono ?_)
          exact fun _ keeps => keeps.xpmemAttDeref _

theorem xpmemAttach (keeps : Keeps (.call permits) u s)
    (current : Task) (mm : MmPtr) (apid offset size vaddr : BitVec 64)
    (env : AttachEnv) :
    Always (xpmemAttach s current mm apid offset size vaddr env)
      fun attached => Keeps (.call permits) u attached.1 := by
  unfold Driver.xpmemAttach
  extract_lets
  split
  · exact .some keeps
  · split
    · exact .some keeps
    · split
      · exact .some keeps
      · split
        · exact .some keeps
        · rename_i apTg _
          extract_lets
          split
          · exact .some (xpmemTgDeref (keeps.xpmemTgRef _) _)
          · rename_i permit _
            extract_lets second seg third segTg fourth
            have entered : Keeps (.call permits) u fourth :=
              xpmemTgRef (xpmemSegRef (xpmemApRef (keeps.xpmemTgRef apTg)
                permit) seg) segTg
            clear_value fourth
            refine .map ((entered.attachChecked
              _ _ _ _ _ _ _ _ _).mono ?_)
            exact fun _ keeps => xpmemTgDeref (xpmemSegDeref
              (xpmemTgDeref (keeps.xpmemApDeref _) _) _) _

theorem detachUnlink (keeps : Keeps scope u s) (mm : MmPtr) (permit : ApPtr)
    (att : AttPtr) (vma : Vma) :
    Always (detachUnlink s mm permit att vma) (Keeps scope u) :=
  .map ((keeps.xpmemUnpinPages _ _ _ _).mono fun _ keeps =>
    unlinkAtt (modAtt (keeps.modMm _ _) rfl) _ _)

theorem xpmemDetach (keeps : Keeps scope u s) (current : Task) (mm : MmPtr)
    (atVaddr : Nat) (killed : Bool) :
    Always (xpmemDetach s current mm atVaddr killed)
      fun detached => Keeps scope u detached.1 := by
  simp only [Driver.xpmemDetach]
  split
  · exact .some keeps
  · split
    · exact .some keeps
    · split
      · exact .some keeps
      · split
        · exact .some (xpmemAttDeref (keeps.xpmemAttRef _) _)
        · split
          · exact .some (xpmemAttDeref (keeps.xpmemAttRef _) _)
          · have marked (att : AttPtr) (permit : ApPtr) : Keeps scope u
                (((s.xpmemAttRef att).modAtt att fun att =>
                  { att with destroying := true }).xpmemApRef permit) :=
              xpmemApRef (modAtt (keeps.xpmemAttRef _) rfl) _
            split
            · exact .some (xpmemAttDeref (xpmemApDeref
                (modAtt (marked _ _) rfl) _) _)
            · refine .bind ((detachUnlink (marked _ _) _ _ _ _).mono ?_)
              intro unlinked keeps
              refine .map ((keeps.vmMunmap _ _ _ _).mono ?_)
              exact fun _ keeps => xpmemAttDeref (xpmemApDeref
                (keeps.xpmemAttDeref _) _) _

theorem xpmemDetachAtt (keeps : Keeps scope u s) (current : Task)
    (permit : ApPtr) (att : AttPtr) :
    Always (xpmemDetachAtt s current permit att) (Keeps scope u) := by
  simp only [Driver.xpmemDetachAtt]
  have marked : Keeps scope u
      (s.modAtt att fun att => { att with destroying := true }) :=
    keeps.modAtt rfl
  split
  · exact .some keeps
  · split
    · exact .some marked
    · refine .bind ((marked.detachUnlink _ _ _ _).mono ?_)
      intro unlinked keeps
      refine .map ?_
      split
      · exact .some (keeps.xpmemAttDeref _)
      · exact (keeps.vmMunmap _ _ _ _).mono
          fun _ keeps => keeps.xpmemAttDeref _

end Keeps

end Xpmem.Driver
