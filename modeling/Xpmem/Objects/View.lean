import Xpmem.Driver.System
import Xpmem.Objects.References

/-!
# The object graph of a driver state

`State.graph` reads the graph off a state.  Three erasures say what a change
of the state leaves alone: `State.main` forgets the numbers nothing depends
on, `State.shape` forgets all counters, and `State.layout` forgets the flags
for the beginning of destruction as well.  Whatever is read off an erasure is
the same in two states that it does not tell apart.
-/

namespace Xpmem.Driver

open Xpmem.Foundation Xpmem.Kernel Xpmem.Objects

variable {K : Platform}

/-! ## Erasures -/

/-- A group without its identifier counters and its recall counter. -/
def ThreadGroup.main (tg : ThreadGroup) : ThreadGroup :=
  { tg with
    uniqSegid := 0, uniqApid := 0, nRecallPFNs := 0
    mmuUnregisterCalled := false }

/-- A group without any counter. -/
def ThreadGroup.shape (tg : ThreadGroup) : ThreadGroup :=
  { tg.main with refcnt := 0, allocated := false, nPinned := 0 }

def ThreadGroup.layout (tg : ThreadGroup) : ThreadGroup :=
  { tg.shape with destroying := false }

def Segment.main (seg : Segment) : Segment :=
  { seg with recallingPFNs := false }

def Segment.shape (seg : Segment) : Segment :=
  { seg.main with refcnt := 0, allocated := false }

def Segment.layout (seg : Segment) : Segment :=
  { seg.shape with destroying := false }

def AccessPermit.shape (ap : AccessPermit) : AccessPermit :=
  { ap with refcnt := 0, allocated := false }

def AccessPermit.layout (ap : AccessPermit) : AccessPermit :=
  { ap.shape with destroying := false }

def Attachment.shape (att : Attachment) : Attachment :=
  { att with refcnt := 0, allocated := false }

def Attachment.layout (att : Attachment) : Attachment :=
  { att.shape with destroying := false }

namespace State

/-- The state without the numbers no invariant depends on. -/
def main (s : State K) : State K :=
  { s with
    tg := fun group => (s.tg group).main
    seg := fun seg => (s.seg seg).main }

/-- The state without counters and logs. -/
def shape (s : State K) : State K :=
  { s with
    tg := fun group => (s.tg group).shape
    seg := fun seg => (s.seg seg).shape
    ap := fun permit => (s.ap permit).shape
    att := fun att => (s.att att).shape
    myPart := { s.myPart with nPinned := 0, nUnpinned := 0 }
    pageRefs := fun _ => 0
    tgFrees := []
    log := [] }

/-- The state without counters, logs and beginnings of destruction. -/
def layout (s : State K) : State K :=
  { s.shape with
    tg := fun group => (s.tg group).layout
    seg := fun seg => (s.seg seg).layout
    ap := fun permit => (s.ap permit).layout
    att := fun att => (s.att att).layout }

theorem layout_eq_of_shape {s t : State K} (same : t.shape = s.shape) :
    t.layout = s.layout := by
  change t.shape.layout = s.shape.layout
  rw [same]

theorem shape_main (s : State K) : s.main.shape = s.shape :=
  rfl

theorem shape_eq_of_main {s t : State K} (same : t.main = s.main) :
    t.shape = s.shape := by
  rw [← shape_main t, same, shape_main]

/-- Changing an entry in what is erased does not show. -/
theorem erase_update {α β : Type} (erase : α → β) (heap : Nat → α)
    (pointer : Nat) {value : α}
    (same : erase value = erase (heap pointer)) :
    (fun other => erase (Function.update heap pointer value other)) =
      fun other => erase (heap other) := by
  funext other
  by_cases equal : other = pointer
  · subst equal
    simpa using same
  · simp [equal]

theorem shape_modTg (s : State K) (group : TgPtr)
    {change : ThreadGroup → ThreadGroup}
    (same : (change (s.tg group)).shape = (s.tg group).shape) :
    (s.modTg group change).shape = s.shape := by
  simp only [shape, modTg, erase_update ThreadGroup.shape s.tg group same]

theorem shape_modSeg (s : State K) (seg : SegPtr)
    {change : Segment → Segment}
    (same : (change (s.seg seg)).shape = (s.seg seg).shape) :
    (s.modSeg seg change).shape = s.shape := by
  simp only [shape, modSeg, erase_update Segment.shape s.seg seg same]

theorem shape_modAp (s : State K) (permit : ApPtr)
    {change : AccessPermit → AccessPermit}
    (same : (change (s.ap permit)).shape = (s.ap permit).shape) :
    (s.modAp permit change).shape = s.shape := by
  simp only [shape, modAp, erase_update AccessPermit.shape s.ap permit same]

theorem shape_modAtt (s : State K) (att : AttPtr)
    {change : Attachment → Attachment}
    (same : (change (s.att att)).shape = (s.att att).shape) :
    (s.modAtt att change).shape = s.shape := by
  simp only [shape, modAtt, erase_update Attachment.shape s.att att same]

theorem main_modTg (s : State K) (group : TgPtr)
    {change : ThreadGroup → ThreadGroup}
    (same : (change (s.tg group)).main = (s.tg group).main) :
    (s.modTg group change).main = s.main := by
  simp only [main, modTg, erase_update ThreadGroup.main s.tg group same]

theorem main_modSeg (s : State K) (seg : SegPtr)
    {change : Segment → Segment}
    (same : (change (s.seg seg)).main = (s.seg seg).main) :
    (s.modSeg seg change).main = s.main := by
  simp only [main, modSeg, erase_update Segment.main s.seg seg same]

/-! ## Reference counts of any object -/

/-- The reference count of an object. -/
def refcnt (s : State K) : Ref → Int
  | .tg group => (s.tg group).refcnt
  | .seg seg => (s.seg seg).refcnt
  | .ap permit => (s.ap permit).refcnt
  | .att att => (s.att att).refcnt

/-- Whether an object is allocated. -/
def allocated (s : State K) : Ref → Bool
  | .tg group => (s.tg group).allocated
  | .seg seg => (s.seg seg).allocated
  | .ap permit => (s.ap permit).allocated
  | .att att => (s.att att).allocated

/-- Take a reference on an object. -/
def ref (s : State K) : Ref → State K
  | .tg group => s.xpmemTgRef group
  | .seg seg => s.xpmemSegRef seg
  | .ap permit => s.xpmemApRef permit
  | .att att => s.xpmemAttRef att

/-- Drop a reference on an object. -/
def deref (s : State K) : Ref → State K
  | .tg group => s.xpmemTgDeref group
  | .seg seg => s.xpmemSegDeref seg
  | .ap permit => s.xpmemApDeref permit
  | .att att => s.xpmemAttDeref att

theorem shape_ref (s : State K) (object : Ref) :
    (s.ref object).shape = s.shape := by
  cases object with
  | tg group =>
      rw [ref, xpmemTgRef, shape_modTg]
      rfl
  | seg seg =>
      rw [ref, xpmemSegRef, shape_modSeg]
      rfl
  | ap permit =>
      rw [ref, xpmemApRef, shape_modAp]
      rfl
  | att att =>
      rw [ref, xpmemAttRef, shape_modAtt]
      rfl

theorem shape_kfreeTg (s : State K) (group : TgPtr) :
    (s.kfreeTg group).shape = s.shape := by
  change
    (s.modTg group fun tg => { tg with allocated := false }).shape =
      s.shape
  rw [shape_modTg]
  rfl

theorem shape_deref (s : State K) (object : Ref) :
    (s.deref object).shape = s.shape := by
  cases object with
  | tg group =>
      rw [deref, xpmemTgDeref]
      split
      · rw [shape_modTg]
        rfl
      · rw [shape_kfreeTg, shape_modTg]
        rfl
  | seg seg =>
      rw [deref, xpmemSegDeref]
      split
      · rw [shape_modSeg]
        rfl
      · rw [shape_modSeg, shape_modSeg] <;> rfl
  | ap permit =>
      rw [deref, xpmemApDeref]
      split
      · rw [shape_modAp]
        rfl
      · rw [shape_modAp, shape_modAp] <;> rfl
  | att att =>
      rw [deref, xpmemAttDeref]
      split
      · rw [shape_modAtt]
        rfl
      · rw [shape_modAtt, shape_modAtt] <;> rfl

theorem refcnt_ref (s : State K) (object other : Ref) :
    (s.ref object).refcnt other =
      s.refcnt other + if other = object then 1 else 0 := by
  cases object <;> cases other <;>
    simp [ref, refcnt, xpmemTgRef, xpmemSegRef, xpmemApRef, xpmemAttRef,
      modTg, modSeg, modAp, modAtt, Function.update_apply] <;>
    split <;> simp_all

theorem allocated_ref (s : State K) (object other : Ref) :
    (s.ref object).allocated other = s.allocated other := by
  cases object <;> cases other <;>
    simp [ref, allocated, xpmemTgRef, xpmemSegRef, xpmemApRef, xpmemAttRef,
      modTg, modSeg, modAp, modAtt, Function.update_apply] <;>
    split <;> simp_all

theorem refcnt_deref (s : State K) (object other : Ref) :
    (s.deref object).refcnt other =
      s.refcnt other - if other = object then 1 else 0 := by
  cases object with
  | tg group =>
      rw [deref, xpmemTgDeref]
      split <;> cases other <;>
        simp [refcnt, kfreeTg, modTg, Function.update_apply] <;>
        split <;> simp_all
  | seg seg =>
      rw [deref, xpmemSegDeref]
      split <;> cases other <;>
        simp [refcnt, modSeg, Function.update_apply] <;>
        split <;> simp_all
  | ap permit =>
      rw [deref, xpmemApDeref]
      split <;> cases other <;>
        simp [refcnt, modAp, Function.update_apply] <;>
        split <;> simp_all
  | att att =>
      rw [deref, xpmemAttDeref]
      split <;> cases other <;>
        simp [refcnt, modAtt, Function.update_apply] <;>
        split <;> simp_all

theorem allocated_deref (s : State K) (object other : Ref) :
    (s.deref object).allocated other =
      if other = object ∧ s.refcnt object = 1 then false
      else s.allocated other := by
  cases object with
  | tg group =>
      rw [deref, xpmemTgDeref]
      simp only [modTg, Function.update_self, kfreeTg, refcnt]
      split <;> rename_i count <;> cases other <;>
        simp [allocated, Function.update_apply] <;> grind
  | seg seg =>
      rw [deref, xpmemSegDeref]
      simp only [modSeg, Function.update_self, refcnt]
      split <;> rename_i count <;> cases other <;>
        simp [allocated, Function.update_apply] <;> grind
  | ap permit =>
      rw [deref, xpmemApDeref]
      simp only [modAp, Function.update_self, refcnt]
      split <;> rename_i count <;> cases other <;>
        simp [allocated, Function.update_apply] <;> grind
  | att att =>
      rw [deref, xpmemAttDeref]
      simp only [modAtt, Function.update_self, refcnt]
      split <;> rename_i count <;> cases other <;>
        simp [allocated, Function.update_apply] <;> grind

/-! ## The graph -/

/-- The object graph of a state. -/
def graph (s : State K) : Graph where
  bucketOf group := xpmemTgHashtableIndex (s.tg group).tgid
  hash := s.myPart.tgHashtable
  segTg seg := (s.seg seg).tg
  segs group := (s.tg group).segList
  apSeg permit := (s.ap permit).seg
  permits seg := (s.seg seg).apList
  apSlot permit :=
    ((s.ap permit).tg, xpmemApHashtableIndex K (s.ap permit).apid)
  slots slot := (s.tg slot.1).apHashtable slot.2
  attAp att := (s.att att).ap
  atts permit := (s.ap permit).attList
  destroying
    | .tg group => (s.tg group).destroying
    | .seg seg => (s.seg seg).destroying
    | .ap permit => (s.ap permit).destroying
    | .att att => (s.att att).destroying
  destroyed
    | .tg group => (s.tg group).destroyed
    | .seg seg => (s.seg seg).destroyed
    | .ap permit => (s.ap permit).destroyed
    | .att _ => false
  nextTg := s.nextTg
  nextSeg := s.nextSeg
  nextAp := s.nextAp
  nextAtt := s.nextAtt

theorem graph_shape (s : State K) : s.shape.graph = s.graph := by
  ext object <;> rfl

theorem graph_eq_of_shape {s t : State K} (same : t.shape = s.shape) :
    t.graph = s.graph := by
  rw [← graph_shape t, same, graph_shape]

/-- Set or clear the flag for the beginning of destruction. -/
def flag (s : State K) (object : Ref) (value : Bool) : State K :=
  match object with
  | .tg group => s.modTg group fun tg => { tg with destroying := value }
  | .seg seg => s.modSeg seg fun seg => { seg with destroying := value }
  | .ap permit => s.modAp permit fun ap => { ap with destroying := value }
  | .att att => s.modAtt att fun att => { att with destroying := value }

theorem layout_flag (s : State K) (object : Ref) (value : Bool) :
    (s.flag object value).layout = s.layout := by
  cases object with
  | tg group =>
      simp only [flag, modTg, layout, shape]
      rw [erase_update ThreadGroup.layout _ _ (by rfl)]
  | seg seg =>
      simp only [flag, modSeg, layout, shape]
      rw [erase_update Segment.layout _ _ (by rfl)]
  | ap permit =>
      simp only [flag, modAp, layout, shape]
      rw [erase_update AccessPermit.layout _ _ (by rfl)]
  | att att =>
      simp only [flag, modAtt, layout, shape]
      rw [erase_update Attachment.layout _ _ (by rfl)]

theorem graph_flag (s : State K) (object : Ref) (value : Bool) :
    (s.flag object value).graph = s.graph.flag object value := by
  cases object <;> ext other <;>
    simp only [flag, graph, Graph.flag, modTg, modSeg, modAp, modAtt,
      Function.update_apply] <;>
    grind

theorem refcnt_flag (s : State K) (object : Ref) (value : Bool) :
    (s.flag object value).refcnt = s.refcnt := by
  funext other
  cases object <;> cases other <;>
    simp [flag, refcnt, modTg, modSeg, modAp, modAtt,
      Function.update_apply] <;>
    split <;> simp_all

theorem allocated_flag (s : State K) (object : Ref) (value : Bool) :
    (s.flag object value).allocated = s.allocated := by
  funext other
  cases object <;> cases other <;>
    simp [flag, allocated, modTg, modSeg, modAp, modAtt,
      Function.update_apply] <;>
    split <;> simp_all

theorem graph_linkTg {s : State K} {held : Held}
    (sound : s.graph.Sound held) (tgid : Pid) (mm : MmPtr)
    (cred : Cred) :
    (linkTg s tgid mm cred).graph =
      s.graph.addTg (xpmemTgHashtableIndex tgid) := by
  have fresh := sound.fresh (.tg s.nextTg) (lt_irrefl _)
  simp only [Graph.Blank, graph] at fresh
  ext other <;>
    simp only [linkTg, graph, Graph.addTg, modTg, modMm,
      Function.update_apply] <;>
    grind

theorem graph_linkSeg {s : State K} {held : Held}
    (sound : s.graph.Sound held) (segTg : TgPtr) (segid : BitVec 64)
    (vaddr size : Nat) (permitType : BitVec 32)
    (permitValue : BitVec 64) :
    (linkSeg s segTg segid vaddr size permitType permitValue).graph =
      s.graph.addSeg segTg := by
  have fresh := sound.fresh (.seg s.nextSeg) (lt_irrefl _)
  simp only [Graph.Blank, graph] at fresh
  ext other <;>
    simp only [linkSeg, graph, Graph.addSeg, modTg, modSeg,
      Function.update_apply] <;>
    grind

/-- Changing one bucket of one group. -/
theorem slots_update (heap : TgPtr → ThreadGroup) (group : TgPtr)
    (index : Nat) (list : List ApPtr) :
    (fun slot : TgPtr × Nat =>
      (Function.update heap group
        { heap group with
          apHashtable :=
            Function.update (heap group).apHashtable index list }
        slot.1).apHashtable slot.2) =
      Function.update (fun slot => (heap slot.1).apHashtable slot.2)
        (group, index) list := by
  funext slot
  obtain ⟨other, bucket⟩ := slot
  by_cases same : other = group
  · subst same
    by_cases hit : bucket = index
    · simp [hit]
    · simp [hit]
  · simp [same]

theorem graph_linkAp {s : State K} {held : Held}
    (sound : s.graph.Sound held) (seg : SegPtr) (apTg : TgPtr)
    (apid : BitVec 64) (mode : BitVec 32) :
    (linkAp s seg apTg apid mode).graph =
      s.graph.addAp seg (apTg, xpmemApHashtableIndex K apid) := by
  have fresh := sound.fresh (.ap s.nextAp) (lt_irrefl _)
  simp only [Graph.Blank, graph] at fresh
  apply Objects.Graph.ext
  case slots => exact slots_update _ _ _ _
  all_goals
    first
    | rfl
    | funext other
      simp only [linkAp, graph, Graph.addAp, modTg, modSeg, modAp,
        Function.update_apply]
      grind

theorem graph_attachLink {s : State K} {held : Held}
    (sound : s.graph.Sound held) (permit : ApPtr) (mm : MmPtr)
    (segVaddr size : Nat) :
    (attachLink s permit mm segVaddr size).graph =
      s.graph.addAtt permit := by
  have fresh := sound.fresh (.att s.nextAtt) (lt_irrefl _)
  simp only [Graph.Blank, graph] at fresh
  ext other <;>
    simp only [attachLink, xpmemAttRef, graph, Graph.addAtt, modAtt, modAp,
      Function.update_apply] <;>
    grind

theorem graph_unlinkAtt (s : State K) (att : AttPtr) :
    (unlinkAtt s (s.att att).ap att).graph = s.graph.dropAtt att := by
  ext other <;>
    simp only [unlinkAtt, graph, Graph.dropAtt, modAp,
      Function.update_apply] <;>
    grind

theorem graph_unlinkAp (s : State K) (permit : ApPtr) :
    (unlinkAp s (s.ap permit).tg permit).graph =
      (s.graph.finish (.ap permit)).dropAp permit := by
  apply Objects.Graph.ext
  case slots =>
    have same :
        ((s.modAp permit fun ap =>
          { ap with destroyed := true }).ap permit).apid =
          (s.ap permit).apid := by
      simp [modAp]
    simp only [unlinkAp, graph, modSeg, modTg, same]
    exact slots_update _ _ _ _
  all_goals
    first
    | rfl
    | funext other
      simp only [unlinkAp, graph, Graph.dropAp, Graph.finish, modTg,
        modSeg, modAp, Function.update_apply]
      grind

theorem graph_unlinkSeg (s : State K) (seg : SegPtr) :
    (unlinkSeg s (s.seg seg).tg seg).graph =
      (s.graph.finish (.seg seg)).dropSeg seg := by
  ext other <;>
    simp only [unlinkSeg, graph, Graph.dropSeg, Graph.finish, modTg,
      modSeg, Function.update_apply] <;>
    grind

theorem graph_finishTg (s : State K) (group : TgPtr) :
    (s.modTg group fun tg => { tg with destroyed := true }).graph =
      s.graph.finish (.tg group) := by
  ext other <;>
    simp only [graph, Graph.finish, modTg, Function.update_apply] <;>
    grind

theorem graph_unhashTg (s : State K) (group : TgPtr) :
    (unhashTg s group).graph = s.graph.dropTg group := by
  ext other <;>
    simp only [unhashTg, graph, Graph.dropTg]

end State

end Xpmem.Driver
