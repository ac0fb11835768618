import Mathlib.Algebra.Group.Pi.Lemmas
import Xpmem.Driver.Naming
import Xpmem.Objects.MemorySteps

/-!
# Ledgers

The ledger of a state has its lists and reference counts and nothing else.
Each step that operations are made of is one entry in it, in any state, so
that an operation that takes everything back is an equation between ledgers.
-/

namespace Xpmem.Objects

open Xpmem.Foundation Xpmem.Kernel Xpmem.Driver

/-- The lists and the reference counts of all objects. -/
@[ext]
structure Ledger where
  hash : Nat → List TgPtr
  segs : TgPtr → List SegPtr
  permits : SegPtr → List ApPtr
  slots : TgPtr × Nat → List ApPtr
  atts : ApPtr → List AttPtr
  refcnt : Ref → Int

namespace Ledger

variable {ledger : Ledger} {group : TgPtr} {seg : SegPtr} {permit : ApPtr}
  {att : AttPtr} {slot : TgPtr × Nat}

/-- Change the reference count of an object. -/
def count (ledger : Ledger) (object : Ref) (change : Int) : Ledger :=
  { ledger with refcnt := ledger.refcnt + Pi.single object change }

/-- A new segment on the list of a group. -/
def addSeg (ledger : Ledger) (group : TgPtr) (seg : SegPtr) : Ledger :=
  { ledger with
    segs := Function.update ledger.segs group (ledger.segs group ++ [seg])
    permits := Function.update ledger.permits seg []
    refcnt := Function.update ledger.refcnt (.seg seg) 1 }

def removeSeg (ledger : Ledger) (group : TgPtr) (seg : SegPtr) : Ledger :=
  { ledger with
    segs := Function.update ledger.segs group
      ((ledger.segs group).erase seg) }

/-- A new permit on the list of a segment and in a hash bucket. -/
def addAp (ledger : Ledger) (seg : SegPtr) (slot : TgPtr × Nat)
    (permit : ApPtr) : Ledger :=
  { ledger with
    permits := Function.update ledger.permits seg
      (ledger.permits seg ++ [permit])
    slots := Function.update ledger.slots slot
      (ledger.slots slot ++ [permit])
    atts := Function.update ledger.atts permit []
    refcnt := Function.update ledger.refcnt (.ap permit) 1 }

def removeAp (ledger : Ledger) (seg : SegPtr) (slot : TgPtr × Nat)
    (permit : ApPtr) : Ledger :=
  { ledger with
    permits := Function.update ledger.permits seg
      ((ledger.permits seg).erase permit)
    slots := Function.update ledger.slots slot
      ((ledger.slots slot).erase permit) }

/-- A new attachment on the list of a permit. -/
def addAtt (ledger : Ledger) (permit : ApPtr) (att : AttPtr) : Ledger :=
  { ledger with
    atts := Function.update ledger.atts permit
      (ledger.atts permit ++ [att])
    refcnt := Function.update ledger.refcnt (.att att) 1 }

def removeAtt (ledger : Ledger) (permit : ApPtr) (att : AttPtr) : Ledger :=
  { ledger with
    atts := Function.update ledger.atts permit
      ((ledger.atts permit).erase att) }

/-! ## Counting -/

@[simp]
theorem count_zero (ledger : Ledger) (object : Ref) :
    ledger.count object 0 = ledger := by
  simp [count]

@[simp]
theorem count_count (ledger : Ledger) (object : Ref) (first second : Int) :
    (ledger.count object first).count object second =
      ledger.count object (first + second) := by
  simp [count, add_assoc, Pi.single_add]

theorem count_comm (ledger : Ledger) (object other : Ref)
    (first second : Int) :
    (ledger.count object first).count other second =
      (ledger.count other second).count object first := by
  simp [count, add_right_comm]

theorem count_removeSeg (object : Ref) (change : Int) :
    (ledger.count object change).removeSeg group seg =
      (ledger.removeSeg group seg).count object change :=
  rfl

theorem count_removeAtt (object : Ref) (change : Int) :
    (ledger.count object change).removeAtt permit att =
      (ledger.removeAtt permit att).count object change :=
  rfl

/-- Counting another object before a new one is entered. -/
theorem update_count {object other : Ref} (differs : object ≠ other)
    (refcnt : Ref → Int) (change : Int) :
    Function.update (refcnt + Pi.single object change) other 1 =
      Function.update refcnt other 1 + Pi.single object change := by
  funext this
  by_cases here : this = other
  · subst here
    simp [differs.symm]
  · simp [here]

theorem count_addSeg {object : Ref} (differs : object ≠ .seg seg)
    (change : Int) :
    (ledger.count object change).addSeg group seg =
      (ledger.addSeg group seg).count object change := by
  simp only [count, addSeg, update_count differs]

theorem count_addAp {object : Ref} (differs : object ≠ .ap permit)
    (change : Int) :
    (ledger.count object change).addAp seg slot permit =
      (ledger.addAp seg slot permit).count object change := by
  simp only [count, addAp, update_count differs]

theorem count_addAtt {object : Ref} (differs : object ≠ .att att)
    (change : Int) :
    (ledger.count object change).addAtt permit att =
      (ledger.addAtt permit att).count object change := by
  simp only [count, addAtt, update_count differs]

end Ledger

end Xpmem.Objects

namespace Xpmem.Driver

open Xpmem.Foundation Xpmem.Kernel Xpmem.Objects

variable {K : Platform} {s t : State K}

/-- The lists and reference counts of a state. -/
def State.ledger (s : State K) : Ledger where
  hash := s.graph.hash
  segs := s.graph.segs
  permits := s.graph.permits
  slots := s.graph.slots
  atts := s.graph.atts
  refcnt := s.refcnt

theorem ledger_eq_of_graph (graph : t.graph = s.graph)
    (refcnt : t.refcnt = s.refcnt) : t.ledger = s.ledger := by
  simp only [State.ledger, graph, refcnt]

theorem ledger_ref (s : State K) (object : Ref) :
    (s.ref object).ledger = s.ledger.count object 1 := by
  simp only [State.ledger, Ledger.count,
    State.graph_eq_of_shape (s.shape_ref object)]
  congr 1
  funext other
  simp [State.refcnt_ref, Pi.single_apply]

theorem ledger_deref (s : State K) (object : Ref) :
    (s.deref object).ledger = s.ledger.count object (-1) := by
  simp only [State.ledger, Ledger.count,
    State.graph_eq_of_shape (s.shape_deref object)]
  congr 1
  funext other
  rw [State.refcnt_deref, Pi.add_apply, Pi.single_apply]
  split <;> omega

theorem ledger_flag (s : State K) (object : Ref) (value : Bool) :
    (s.flag object value).ledger = s.ledger := by
  simp only [State.ledger, State.graph_flag, State.refcnt_flag,
    Graph.flag]

theorem ledger_linkSeg (s : State K) (group : TgPtr) (segid : BitVec 64)
    (vaddr size : Nat) (permitType : BitVec 32) (permitValue : BitVec 64) :
    (linkSeg s group segid vaddr size permitType permitValue).ledger =
      s.ledger.addSeg group s.nextSeg := by
  ext object <;>
    simp only [State.ledger, State.graph, Ledger.addSeg, linkSeg,
      State.modTg, State.modSeg, Function.update_apply]
  case refcnt =>
    cases object <;>
      simp only [State.refcnt, Function.update_apply] <;> grind
  all_goals grind

theorem ledger_unlinkSeg (s : State K) (group : TgPtr) (seg : SegPtr) :
    (unlinkSeg s group seg).ledger = s.ledger.removeSeg group seg := by
  ext object <;>
    simp only [State.ledger, State.graph, Ledger.removeSeg, unlinkSeg,
      State.modTg, State.modSeg, Function.update_apply]
  case refcnt =>
    cases object <;>
      simp only [State.refcnt, Function.update_apply] <;> grind
  all_goals grind

theorem ledger_linkAp (s : State K) (seg : SegPtr) (group : TgPtr)
    (apid : BitVec 64) (mode : BitVec 32) :
    (linkAp s seg group apid mode).ledger =
      s.ledger.addAp seg (group, xpmemApHashtableIndex K apid)
        s.nextAp := by
  apply Ledger.ext
  case slots => exact State.slots_update _ _ _ _
  case refcnt =>
    funext object
    simp only [State.ledger, Ledger.addAp, linkAp, State.modTg,
      State.modSeg, State.modAp, Function.update_apply]
    cases object <;>
      simp only [State.refcnt, Function.update_apply] <;> grind
  all_goals
    funext object
    simp only [State.ledger, State.graph, Ledger.addAp, linkAp,
      State.modTg, State.modSeg, State.modAp, Function.update_apply]
    try grind

theorem ledger_unlinkAp (s : State K) (group : TgPtr) (permit : ApPtr) :
    (unlinkAp s group permit).ledger =
      s.ledger.removeAp (s.ap permit).seg
        (group, xpmemApHashtableIndex K (s.ap permit).apid) permit := by
  have same :
      ((s.modAp permit fun ap =>
        { ap with destroyed := true }).ap permit).apid =
        (s.ap permit).apid := by
    simp [State.modAp]
  apply Ledger.ext
  case slots =>
    simp only [State.ledger, Ledger.removeAp, unlinkAp, State.graph,
      State.modSeg, State.modTg, same]
    exact State.slots_update _ _ _ _
  case refcnt =>
    funext object
    simp only [State.ledger, Ledger.removeAp, unlinkAp, State.modTg,
      State.modSeg, State.modAp, Function.update_apply]
    cases object <;>
      simp only [State.refcnt, Function.update_apply] <;> grind
  all_goals
    funext object
    simp only [State.ledger, State.graph, Ledger.removeAp, unlinkAp,
      State.modTg, State.modSeg, State.modAp, Function.update_apply]
    try grind

theorem ledger_attachLink (s : State K) (permit : ApPtr) (mm : MmPtr)
    (segVaddr size : Nat) :
    (attachLink s permit mm segVaddr size).ledger =
      (s.ledger.addAtt permit s.nextAtt).count (.att s.nextAtt) 1 := by
  ext object <;>
    simp only [State.ledger, State.graph, Ledger.addAtt, Ledger.count,
      attachLink, State.xpmemAttRef, State.modAtt, State.modAp,
      Function.update_apply]
  case refcnt =>
    rw [Pi.add_apply, Pi.single_apply]
    cases object <;>
      simp only [State.refcnt, Function.update_apply] <;> grind
  all_goals grind

theorem ledger_unlinkAtt (s : State K) (permit : ApPtr) (att : AttPtr) :
    (unlinkAtt s permit att).ledger = s.ledger.removeAtt permit att := by
  ext object <;>
    simp only [State.ledger, State.graph, Ledger.removeAtt, unlinkAtt,
      State.modAp, Function.update_apply]
  case refcnt =>
    cases object <;> simp only [State.refcnt, Function.update_apply]
    grind
  all_goals grind

/-- Identifier counters are not in the ledger. -/
theorem ledger_modTg (s : State K) (group : TgPtr)
    {change : ThreadGroup → ThreadGroup}
    (segs : (change (s.tg group)).segList = (s.tg group).segList)
    (slots : (change (s.tg group)).apHashtable = (s.tg group).apHashtable)
    (refcnt : (change (s.tg group)).refcnt = (s.tg group).refcnt) :
    (s.modTg group change).ledger = s.ledger := by
  ext object <;>
    simp only [State.ledger, State.graph, State.modTg,
      Function.update_apply]
  case refcnt =>
    cases object <;> simp only [State.refcnt, Function.update_apply]
    grind
  all_goals grind

theorem ledger_xpmemMakeSegid (s : State K) (group : TgPtr) :
    (xpmemMakeSegid s group).1.ledger = s.ledger := by
  unfold xpmemMakeSegid
  extract_lets uniq
  split
  · rfl
  · exact ledger_modTg s group rfl rfl rfl

theorem ledger_xpmemMakeApid (s : State K) (group : TgPtr) :
    (xpmemMakeApid s group).1.ledger = s.ledger := by
  unfold xpmemMakeApid
  extract_lets uniq
  split
  · rfl
  · exact ledger_modTg s group rfl rfl rfl

theorem ledger_attachBind (s : State K) (mm : MmPtr) (att : AttPtr)
    (atVaddr : Nat) (vma : Vma) :
    (attachBind s mm att atVaddr vma).ledger = s.ledger := by
  refine ledger_eq_of_graph (State.graph_eq_of_objects
    (State.objects_attachBind s mm att atVaddr vma)) ?_
  funext object
  cases object with
  | att other =>
      by_cases here : other = att
      · simp [State.refcnt, attachBind, State.modAtt, State.modMm, here]
      · simp [State.refcnt, attachBind, State.modAtt, State.modMm, here]
  | tg | seg | ap => rfl

/-! ## Objects on lists exist -/

/-- The permits of segments and the attachments of permits were made. -/
structure Listed (s : State K) : Prop where
  permits : ∀ seg, ∀ permit ∈ s.ledger.permits seg, permit < s.nextAp
  atts : ∀ permit, ∀ att ∈ s.ledger.atts permit, att < s.nextAtt

/-- What is on a list was there before or is new. -/
theorem Listed.mono (listed : Listed s)
    (permits : ∀ seg, ∀ permit ∈ t.ledger.permits seg,
      permit ∈ s.ledger.permits seg ∨ permit < t.nextAp)
    (atts : ∀ permit, ∀ att ∈ t.ledger.atts permit,
      att ∈ s.ledger.atts permit ∨ att < t.nextAtt)
    (nextAp : s.nextAp ≤ t.nextAp) (nextAtt : s.nextAtt ≤ t.nextAtt) :
    Listed t where
  permits seg permit member :=
    (permits seg permit member).elim
      (fun old => (listed.permits seg permit old).trans_le nextAp) id
  atts permit att member :=
    (atts permit att member).elim
      (fun old => (listed.atts permit att old).trans_le nextAtt) id

theorem Listed.of_ledger (listed : Listed s) (same : t.ledger = s.ledger)
    (nextAp : s.nextAp ≤ t.nextAp) (nextAtt : s.nextAtt ≤ t.nextAtt) :
    Listed t :=
  listed.mono (fun _ _ member => .inl (same ▸ member))
    (fun _ _ member => .inl (same ▸ member)) nextAp nextAtt

theorem Listed.makeApid (listed : Listed s) (group : TgPtr) :
    Listed (xpmemMakeApid s group).1 := by
  refine listed.of_ledger (ledger_xpmemMakeApid s group) ?_ ?_ <;>
    simp only [xpmemMakeApid] <;> split <;> exact le_rfl

theorem Listed.makeSegid (listed : Listed s) (group : TgPtr) :
    Listed (xpmemMakeSegid s group).1 := by
  refine listed.of_ledger (ledger_xpmemMakeSegid s group) ?_ ?_ <;>
    simp only [xpmemMakeSegid] <;> split <;> exact le_rfl

theorem Listed.attachLink (listed : Listed s) (permit : ApPtr)
    (mm : MmPtr) (segVaddr size : Nat) :
    Listed (attachLink s permit mm segVaddr size) := by
  have next : (Driver.attachLink s permit mm segVaddr size).nextAtt =
      s.nextAtt + 1 := rfl
  refine listed.mono (fun _ _ => .inl) (fun other att member => ?_) le_rfl
    (next ▸ Nat.le_succ _)
  rw [ledger_attachLink] at member
  simp only [Ledger.count, Ledger.addAtt, Function.update_apply] at member
  grind

theorem Listed.linkAp (listed : Listed s) (seg : SegPtr) (group : TgPtr)
    (apid : BitVec 64) (mode : BitVec 32) :
    Listed (linkAp s seg group apid mode) := by
  have next : (Driver.linkAp s seg group apid mode).nextAp =
      s.nextAp + 1 := rfl
  refine listed.mono (fun other permit member => ?_)
    (fun other att member => .inl ?_) (next ▸ Nat.le_succ _) le_rfl
  · rw [ledger_linkAp] at member
    simp only [Ledger.addAp, Function.update_apply] at member
    grind
  · rw [ledger_linkAp] at member
    simp only [Ledger.addAp, Function.update_apply] at member
    grind

theorem Listed.linkSeg (listed : Listed s) (group : TgPtr)
    (segid : BitVec 64) (vaddr size : Nat) (permitType : BitVec 32)
    (permitValue : BitVec 64) :
    Listed (linkSeg s group segid vaddr size permitType permitValue) := by
  refine listed.mono (fun other permit member => .inl ?_)
    (fun other att member => .inl member) le_rfl le_rfl
  rw [ledger_linkSeg] at member
  simp only [Ledger.addSeg, Function.update_apply] at member
  grind

theorem Listed.change {scope : Scope} (listed : Listed s)
    (change : Change scope s t) : Listed t := by
  cases change with
  | rest _ seg ap _ _ _ nextAp nextAtt =>
      refine listed.mono (fun other permit member => .inl ?_)
        (fun other att member => .inl ?_) nextAp.ge nextAtt.ge
      · simp only [State.ledger, State.graph, seg] at member ⊢
        exact member
      · simp only [State.ledger, State.graph, ap] at member ⊢
        exact member
  | tg | att | linkTg => exact ⟨listed.permits, listed.atts⟩
  | seg other _ _ _ fewer =>
      refine listed.mono (fun seg permit member => .inl ?_)
        (fun _ _ => .inl) le_rfl le_rfl
      simp only [State.ledger, State.graph, State.modSeg,
        Function.update_apply] at member ⊢
      grind
  | ap other _ _ fewer =>
      refine listed.mono (fun _ _ => .inl)
        (fun permit att member => .inl ?_) le_rfl le_rfl
      simp only [State.ledger, State.graph, State.modAp,
        Function.update_apply] at member ⊢
      grind
  | attachLink _ permit mm segVaddr size =>
      exact listed.attachLink permit mm segVaddr size
  | makeApid _ group => exact listed.makeApid group
  | makeSegid _ group => exact listed.makeSegid group
  | linkAp _ _ _ seg mode =>
      exact (listed.makeApid _).linkAp seg _ _ mode
  | linkSeg => exact (listed.makeSegid _).linkSeg ..
  | unlinkAp _ group _ =>
      refine listed.mono (fun seg permit member => .inl ?_)
        (fun permit att member => .inl ?_) le_rfl le_rfl
      · rw [ledger_unlinkAp] at member
        simp only [Ledger.removeAp, Function.update_apply] at member
        grind [List.mem_of_mem_erase]
      · rw [ledger_unlinkAp] at member
        exact member
  | unlinkSeg _ group _ =>
      refine listed.mono (fun seg permit member => .inl ?_)
        (fun permit att member => .inl ?_) le_rfl le_rfl
      · rw [ledger_unlinkSeg] at member
        exact member
      · rw [ledger_unlinkSeg] at member
        exact member

theorem Listed.of_run {allowed : State K → Op → Prop}
    {events : List (Event (State K) Op Ret)}
    (run : Run step {} allowed events s) : Listed s := by
  refine run.invariant Listed ⟨nofun, nofun⟩ ?_
  intro pre op post ret listed _ taken
  exact ((Keeps.step pre op).of_eq taken).invariant Listed listed
    fun _ _ listed change => listed.change change

end Xpmem.Driver
