import Xpmem.Driver.Keeping

/-!
# What runs keep of existing objects

`Recorded s t` says that the objects of `s` have the same records in `t`, and
that those being destroyed in `s` still are in `t`.  It relates the two ends
of every run.
-/

namespace Xpmem.Driver

open Xpmem.Foundation Xpmem.Kernel

variable {K : Platform}

/-- The objects of the first state keep their records in the second. -/
structure Recorded (s t : State K) : Prop where
  tg : ∀ group, group < s.nextTg →
    (t.tg group).record = (s.tg group).record
  seg : ∀ seg, seg < s.nextSeg →
    (t.seg seg).record = (s.seg seg).record
  ap : ∀ permit, permit < s.nextAp →
    (t.ap permit).record = (s.ap permit).record
  att : ∀ att, att < s.nextAtt →
    (t.att att).record = (s.att att).record
  nextTg : s.nextTg ≤ t.nextTg
  nextSeg : s.nextSeg ≤ t.nextSeg
  nextAp : s.nextAp ≤ t.nextAp
  nextAtt : s.nextAtt ≤ t.nextAtt
  tgDestroying : ∀ group, group < s.nextTg →
    (s.tg group).destroying = true → (t.tg group).destroying = true
  tgDestroyed : ∀ group, group < s.nextTg →
    (s.tg group).destroyed = true → (t.tg group).destroyed = true
  segDestroying : ∀ seg, seg < s.nextSeg →
    (s.seg seg).destroying = true → (t.seg seg).destroying = true
  segDestroyed : ∀ seg, seg < s.nextSeg →
    (s.seg seg).destroyed = true → (t.seg seg).destroyed = true
  apDestroying : ∀ permit, permit < s.nextAp →
    (s.ap permit).destroying = true → (t.ap permit).destroying = true

namespace Recorded

variable {s t u : State K}

theorem refl (s : State K) : Recorded s s := by
  constructor <;> simp

theorem trans (first : Recorded s t) (second : Recorded t u) :
    Recorded s u where
  tg group used :=
    (second.tg group (lt_of_lt_of_le used first.nextTg)).trans
      (first.tg group used)
  seg seg used :=
    (second.seg seg (lt_of_lt_of_le used first.nextSeg)).trans
      (first.seg seg used)
  ap permit used :=
    (second.ap permit (lt_of_lt_of_le used first.nextAp)).trans
      (first.ap permit used)
  att att used :=
    (second.att att (lt_of_lt_of_le used first.nextAtt)).trans
      (first.att att used)
  nextTg := first.nextTg.trans second.nextTg
  nextSeg := first.nextSeg.trans second.nextSeg
  nextAp := first.nextAp.trans second.nextAp
  nextAtt := first.nextAtt.trans second.nextAtt
  tgDestroying group used flagged :=
    second.tgDestroying group (lt_of_lt_of_le used first.nextTg)
      (first.tgDestroying group used flagged)
  tgDestroyed group used destroyed :=
    second.tgDestroyed group (lt_of_lt_of_le used first.nextTg)
      (first.tgDestroyed group used destroyed)
  segDestroying seg used flagged :=
    second.segDestroying seg (lt_of_lt_of_le used first.nextSeg)
      (first.segDestroying seg used flagged)
  segDestroyed seg used destroyed :=
    second.segDestroyed seg (lt_of_lt_of_le used first.nextSeg)
      (first.segDestroyed seg used destroyed)
  apDestroying permit used flagged :=
    second.apDestroying permit (lt_of_lt_of_le used first.nextAp)
      (first.apDestroying permit used flagged)

/-! ## The members of a record -/

theorem tg_tgid (recorded : Recorded s t) {group : TgPtr}
    (used : group < s.nextTg) :
    (t.tg group).tgid = (s.tg group).tgid := by
  have same := congrArg ThreadGroup.tgid (recorded.tg group used)
  exact same

theorem tg_mm (recorded : Recorded s t) {group : TgPtr}
    (used : group < s.nextTg) :
    (t.tg group).mm = (s.tg group).mm := by
  have same := congrArg ThreadGroup.mm (recorded.tg group used)
  exact same

theorem tg_addrLimit (recorded : Recorded s t) {group : TgPtr}
    (used : group < s.nextTg) :
    (t.tg group).addrLimit = (s.tg group).addrLimit := by
  have same := congrArg ThreadGroup.addrLimit (recorded.tg group used)
  exact same

theorem seg_segid (recorded : Recorded s t) {seg : SegPtr}
    (used : seg < s.nextSeg) :
    (t.seg seg).segid = (s.seg seg).segid := by
  have same := congrArg Segment.segid (recorded.seg seg used)
  exact same

theorem seg_vaddr (recorded : Recorded s t) {seg : SegPtr}
    (used : seg < s.nextSeg) :
    (t.seg seg).vaddr = (s.seg seg).vaddr := by
  have same := congrArg Segment.vaddr (recorded.seg seg used)
  exact same

theorem seg_size (recorded : Recorded s t) {seg : SegPtr}
    (used : seg < s.nextSeg) :
    (t.seg seg).size = (s.seg seg).size := by
  have same := congrArg Segment.size (recorded.seg seg used)
  exact same

theorem seg_tg (recorded : Recorded s t) {seg : SegPtr}
    (used : seg < s.nextSeg) :
    (t.seg seg).tg = (s.seg seg).tg := by
  have same := congrArg Segment.tg (recorded.seg seg used)
  exact same

theorem ap_seg (recorded : Recorded s t) {permit : ApPtr}
    (used : permit < s.nextAp) :
    (t.ap permit).seg = (s.ap permit).seg := by
  have same := congrArg AccessPermit.seg (recorded.ap permit used)
  exact same

theorem ap_tg (recorded : Recorded s t) {permit : ApPtr}
    (used : permit < s.nextAp) :
    (t.ap permit).tg = (s.ap permit).tg := by
  have same := congrArg AccessPermit.tg (recorded.ap permit used)
  exact same

theorem ap_apid (recorded : Recorded s t) {permit : ApPtr}
    (used : permit < s.nextAp) :
    (t.ap permit).apid = (s.ap permit).apid := by
  have same := congrArg AccessPermit.apid (recorded.ap permit used)
  exact same

theorem ap_mode (recorded : Recorded s t) {permit : ApPtr}
    (used : permit < s.nextAp) :
    (t.ap permit).mode = (s.ap permit).mode := by
  have same := congrArg AccessPermit.mode (recorded.ap permit used)
  exact same

theorem att_ap (recorded : Recorded s t) {att : AttPtr}
    (used : att < s.nextAtt) :
    (t.att att).ap = (s.att att).ap := by
  have same := congrArg Attachment.ap (recorded.att att used)
  exact same

theorem att_mm (recorded : Recorded s t) {att : AttPtr}
    (used : att < s.nextAtt) :
    (t.att att).mm = (s.att att).mm := by
  have same := congrArg Attachment.mm (recorded.att att used)
  exact same

theorem att_vaddr (recorded : Recorded s t) {att : AttPtr}
    (used : att < s.nextAtt) :
    (t.att att).vaddr = (s.att att).vaddr := by
  have same := congrArg Attachment.vaddr (recorded.att att used)
  exact same

/-! ## Single changes -/

/-- The two states have the same objects. -/
theorem of_same (tg : t.tg = s.tg) (seg : t.seg = s.seg)
    (ap : t.ap = s.ap) (att : t.att = s.att)
    (nextTg : t.nextTg = s.nextTg) (nextSeg : t.nextSeg = s.nextSeg)
    (nextAp : t.nextAp = s.nextAp) (nextAtt : t.nextAtt = s.nextAtt) :
    Recorded s t := by
  constructor <;> simp_all

theorem modTg {group : TgPtr} {change : ThreadGroup → ThreadGroup}
    (record : (change (s.tg group)).record = (s.tg group).record)
    (destroying : (s.tg group).destroying = true →
      (change (s.tg group)).destroying = true)
    (destroyed : (s.tg group).destroyed = true →
      (change (s.tg group)).destroyed = true) :
    Recorded s (s.modTg group change) := by
  constructor <;> simp only [State.modTg, Function.update_apply] <;> grind

theorem modSeg {seg : SegPtr} {change : Segment → Segment}
    (record : (change (s.seg seg)).record = (s.seg seg).record)
    (destroying : (s.seg seg).destroying = true →
      (change (s.seg seg)).destroying = true)
    (destroyed : (s.seg seg).destroyed = true →
      (change (s.seg seg)).destroyed = true) :
    Recorded s (s.modSeg seg change) := by
  constructor <;> simp only [State.modSeg, Function.update_apply] <;> grind

theorem modAp {permit : ApPtr} {change : AccessPermit → AccessPermit}
    (record : (change (s.ap permit)).record = (s.ap permit).record)
    (destroying : (s.ap permit).destroying = true →
      (change (s.ap permit)).destroying = true) :
    Recorded s (s.modAp permit change) := by
  constructor <;> simp only [State.modAp, Function.update_apply] <;> grind

theorem modAtt {att : AttPtr} {change : Attachment → Attachment}
    (record : (change (s.att att)).record = (s.att att).record) :
    Recorded s (s.modAtt att change) := by
  constructor <;> simp only [State.modAtt, Function.update_apply] <;> grind

theorem attachLink (s : State K) (permit : ApPtr) (mm : MmPtr)
    (segVaddr size : Nat) :
    Recorded s (attachLink s permit mm segVaddr size) := by
  constructor <;>
    simp only [Driver.attachLink, State.xpmemAttRef, State.modAtt,
      State.modAp, Function.update_apply] <;>
    grind [AccessPermit.record]

theorem unlinkAtt (s : State K) (permit : ApPtr) (att : AttPtr) :
    Recorded s (unlinkAtt s permit att) :=
  modAp rfl id

theorem makeApid (s : State K) (group : TgPtr) :
    Recorded s (xpmemMakeApid s group).1 := by
  simp only [xpmemMakeApid]
  split
  · exact refl s
  · dsimp only
    exact modTg rfl id id

theorem linkAp (s : State K) (seg : SegPtr) (apTg : TgPtr)
    (apid : BitVec 64) (mode : BitVec 32) :
    Recorded s (linkAp s seg apTg apid mode) := by
  constructor <;>
    simp only [Driver.linkAp, State.modTg, State.modSeg, State.modAp,
      Function.update_apply] <;>
    grind [ThreadGroup.record, Segment.record]

theorem unlinkAp (s : State K) (apTg : TgPtr) (permit : ApPtr) :
    Recorded s (unlinkAp s apTg permit) := by
  simp only [Driver.unlinkAp]
  exact ((modAp rfl id).trans (modTg rfl id id)).trans (modSeg rfl id id)

theorem makeSegid (s : State K) (group : TgPtr) :
    Recorded s (xpmemMakeSegid s group).1 := by
  simp only [xpmemMakeSegid]
  split
  · exact refl s
  · dsimp only
    exact modTg rfl id id

theorem linkSeg (s : State K) (segTg : TgPtr) (segid : BitVec 64)
    (vaddr size : Nat) (permitType : BitVec 32)
    (permitValue : BitVec 64) :
    Recorded s
      (linkSeg s segTg segid vaddr size permitType permitValue) := by
  constructor <;>
    simp only [Driver.linkSeg, State.modTg, State.modSeg,
      Function.update_apply] <;>
    grind [ThreadGroup.record]

theorem unlinkSeg (s : State K) (segTg : TgPtr) (seg : SegPtr) :
    Recorded s (unlinkSeg s segTg seg) := by
  simp only [Driver.unlinkSeg]
  exact (modSeg rfl id fun _ => rfl).trans (modTg rfl id id)

theorem linkTg (s : State K) (tgid : Pid) (mm : MmPtr) (cred : Cred) :
    Recorded s (linkTg s tgid mm cred) := by
  constructor <;>
    simp only [Driver.linkTg, State.modTg, State.modMm,
      Function.update_apply] <;>
    grind

end Recorded

theorem Change.recorded {scope : Scope} {s t : State K}
    (change : Change scope s t) : Recorded s t := by
  cases change with
  | rest tg seg ap att nextTg nextSeg nextAp nextAtt =>
      exact .of_same tg seg ap att nextTg nextSeg nextAp nextAtt
  | tg group entry destroying destroyed =>
      have record := congrArg ThreadGroup.record entry
      exact .modTg record destroying destroyed
  | seg seg record destroying destroyed =>
      exact .modSeg record destroying destroyed
  | ap permit record destroying => exact .modAp record destroying
  | att att record => exact .modAtt record
  | attachLink _ permit mm segVaddr size =>
      exact .attachLink s permit mm segVaddr size
  | makeApid _ group => exact .makeApid s group
  | linkAp _ _ made seg mode =>
      exact (Recorded.makeApid s _).trans (.linkAp _ seg _ _ mode)
  | unlinkAp _ group flagged => exact .unlinkAp s group _
  | makeSegid _ group => exact .makeSegid s group
  | linkSeg _ _ made vaddr size permitType permitValue =>
      exact (Recorded.makeSegid s _).trans
        (.linkSeg _ _ _ vaddr size permitType permitValue)
  | unlinkSeg _ group flagged => exact .unlinkSeg s group _
  | linkTg _ tgid mm cred => exact .linkTg s tgid mm cred

theorem Keeps.recorded {scope : Scope} {s t : State K}
    (keeps : Keeps scope s t) : Recorded s t := by
  refine keeps.invariant (Recorded s) (.refl s) ?_
  intro pre post before change
  exact before.trans change.recorded

/-- Every operation keeps the records of all objects. -/
theorem Recorded.step (s : State K) (op : Op) :
    Always (step s op) fun taken => Recorded s taken.1 :=
  (Keeps.step s op).mono fun _ keeps => keeps.recorded

end Xpmem.Driver
