import Mathlib.Tactic.Abel
import Xpmem.Driver.Semaphores
import Xpmem.Objects.Ledger
import Xpmem.Operations.Windows

/-!
# Ioctls that fail

An ioctl that creates an object and fails, at whatever point, leaves all
lists and reference counts as they were.  Where it fails after the object was
made, because its identifier or address cannot be written back, it goes
through the public functions that destroy objects, and these find the object
that was just made: in every run identifiers are unique, and a new mapping
belongs to its attachment.
-/

namespace Xpmem.Driver

open Xpmem.Foundation Xpmem.Kernel Xpmem.Objects

variable {K : Platform} {s t u : State K}

/-! ## Process identifiers are positive -/

theorem Keeps.positive {scope : Scope} (keeps : Keeps scope s t)
    (positive : ∀ tgid, s.proc tgid ≠ .absent → 0 < tgid.toInt) :
    ∀ tgid, t.proc tgid ≠ .absent → 0 < tgid.toInt := by
  refine keeps.invariant
    (fun pre => ∀ tgid, pre.proc tgid ≠ .absent → 0 < tgid.toInt)
    positive ?_
  intro pre post positive change
  cases change with
  | rest _ _ _ _ _ _ _ _ _ _ allowed =>
      exact fun tgid present =>
        (allowed tgid present).elim (positive tgid) id
  | makeApid _ group | linkAp _ _ _ =>
      simp only [xpmemMakeApid]
      split <;> exact positive
  | makeSegid _ group | linkSeg _ _ _ =>
      simp only [xpmemMakeSegid]
      split <;> exact positive
  | tg | seg | ap | att | attachLink | unlinkAp | unlinkSeg | linkTg =>
      exact positive

theorem positive_of_run {allowed : State K → Op → Prop}
    {events : List (Event (State K) Op Ret)}
    (run : Run step {} allowed events s) {tgid : Pid}
    (present : s.proc tgid ≠ .absent) : 0 < tgid.toInt := by
  refine run.invariant
    (fun s => ∀ tgid, s.proc tgid ≠ .absent → 0 < tgid.toInt)
    (fun _ present => absurd rfl present) ?_ tgid present
  intro pre op post ret positive _ taken
  exact ((Keeps.step pre op).of_eq taken).positive positive

/-! ## Groups are found as before -/

/-- Lookups of groups have the same results. -/
structure SameGroups (s t : State K) : Prop where
  hashtable : t.myPart.tgHashtable = s.myPart.tgHashtable
  tg : ∀ group, (t.tg group).tgid = (s.tg group).tgid ∧
    (t.tg group).destroying = (s.tg group).destroying

namespace SameGroups

theorem of_shape (same : t.shape = s.shape) : SameGroups s t where
  hashtable := congrArg (fun u => u.myPart.tgHashtable) same
  tg group := ⟨congrArg (fun u => (u.tg group).tgid) same,
    congrArg (fun u => (u.tg group).destroying) same⟩

theorem trans (earlier : SameGroups s t) (later : SameGroups t u) :
    SameGroups s u where
  hashtable := later.hashtable.trans earlier.hashtable
  tg group := ⟨(later.tg group).1.trans (earlier.tg group).1,
    (later.tg group).2.trans (earlier.tg group).2⟩

theorem modTg (s : State K) (group : TgPtr)
    {change : ThreadGroup → ThreadGroup}
    (tgid : (change (s.tg group)).tgid = (s.tg group).tgid)
    (destroying : (change (s.tg group)).destroying =
      (s.tg group).destroying) :
    SameGroups s (s.modTg group change) where
  hashtable := rfl
  tg other := by
    by_cases here : other = group
    · subst here
      simpa [State.modTg] using ⟨tgid, destroying⟩
    · simp [State.modTg, here]

theorem findTg (same : SameGroups s t) (tgid : Pid) (all : Bool) :
    t.findTg tgid all = s.findTg tgid all := by
  simp only [State.findTg, same.hashtable, same.tg]

end SameGroups

/-! ## Ledgers that agree -/

/--
The ledgers differ only in an object that was made in between and is gone
again.
-/
structure AgreesBut (old new : Ledger) (object : Ref) : Prop where
  hash : new.hash = old.hash
  segs : new.segs = old.segs
  slots : new.slots = old.slots
  permits : ∀ seg, .seg seg ≠ object → new.permits seg = old.permits seg
  atts : ∀ permit, .ap permit ≠ object → new.atts permit = old.atts permit
  refcnt : ∀ other ≠ object, new.refcnt other = old.refcnt other
  gone : new.refcnt object = 0

/-- Lists and counts are as before. -/
def NoTrace (s t : State K) : Prop :=
  t.ledger = s.ledger ∨
    ∃ object, ¬ s.graph.Used object ∧ AgreesBut s.ledger t.ledger object

theorem AgreesBut.count {old new : Ledger} {object other : Ref}
    (agrees : AgreesBut old new object) (differs : other ≠ object)
    (change : Int) :
    AgreesBut (old.count other change) (new.count other change) object where
  hash := agrees.hash
  segs := agrees.segs
  slots := agrees.slots
  permits := agrees.permits
  atts := agrees.atts
  refcnt this distinct := by
    simp only [Ledger.count, Pi.add_apply, agrees.refcnt this distinct]
  gone := by
    simp only [Ledger.count, Pi.add_apply, agrees.gone,
      Pi.single_eq_of_ne differs.symm, add_zero]

theorem erase_append_new {list : List Nat} {new : Nat}
    (fresh : new ∉ list) : (list ++ [new]).erase new = list := by
  rw [List.erase_append_right _ fresh, List.erase_cons_head,
    List.append_nil]

/-- A segment that is made and removed. -/
theorem agreesBut_seg (ledger : Ledger) {group : TgPtr} {seg : SegPtr}
    (fresh : seg ∉ ledger.segs group) :
    AgreesBut ledger
      (((ledger.addSeg group seg).removeSeg group seg).count (.seg seg)
        (-1)) (.seg seg) where
  hash := rfl
  segs := by
    simp [Ledger.count, Ledger.addSeg, Ledger.removeSeg,
      erase_append_new fresh]
  slots := rfl
  permits other differs := by
    have apart : other ≠ seg := fun same => differs (congrArg Ref.seg same)
    simp [Ledger.count, Ledger.addSeg, Ledger.removeSeg, apart]
  atts _ _ := rfl
  refcnt other differs := by
    simp [Ledger.count, Ledger.addSeg, Ledger.removeSeg, differs]
  gone := by
    simp [Ledger.count, Ledger.addSeg, Ledger.removeSeg]

/-- A permit that is made and released. -/
theorem agreesBut_ap (ledger : Ledger) {seg : SegPtr} {slot : TgPtr × Nat}
    {permit : ApPtr} (fresh : permit ∉ ledger.permits seg)
    (freshSlot : permit ∉ ledger.slots slot) :
    AgreesBut ledger
      (((ledger.addAp seg slot permit).removeAp seg slot permit).count
        (.ap permit) (-1)) (.ap permit) where
  hash := rfl
  segs := rfl
  slots := by
    simp [Ledger.count, Ledger.addAp, Ledger.removeAp,
      erase_append_new freshSlot]
  permits other _ := by
    simp [Ledger.count, Ledger.addAp, Ledger.removeAp,
      erase_append_new fresh]
  atts other differs := by
    have apart : other ≠ permit :=
      fun same => differs (congrArg Ref.ap same)
    simp [Ledger.count, Ledger.addAp, Ledger.removeAp, apart]
  refcnt other differs := by
    simp [Ledger.count, Ledger.addAp, Ledger.removeAp, differs]
  gone := by
    simp [Ledger.count, Ledger.addAp, Ledger.removeAp]

/-- An attachment that is made and detached. -/
theorem agreesBut_att (ledger : Ledger) {permit : ApPtr} {att : AttPtr}
    (fresh : att ∉ ledger.atts permit) :
    AgreesBut ledger
      (((ledger.addAtt permit att).removeAtt permit att).count (.att att)
        (-1)) (.att att) where
  hash := rfl
  segs := rfl
  slots := rfl
  permits _ _ := rfl
  atts other _ := by
    simp [Ledger.count, Ledger.addAtt, Ledger.removeAtt,
      erase_append_new fresh]
  refcnt other differs := by
    simp [Ledger.count, Ledger.addAtt, Ledger.removeAtt, differs]
  gone := by
    simp [Ledger.count, Ledger.addAtt, Ledger.removeAtt]

theorem Spares.ledger (spares : Spares s t) : t.ledger = s.ledger :=
  ledger_eq_of_graph spares.graph spares.refcnt

/-! ## Making a segment -/

theorem ledger_tgRef_tgDeref (s : State K) (group : TgPtr) :
    ((s.xpmemTgRef group).xpmemTgDeref group).ledger = s.ledger := by
  rw [show (s.xpmemTgRef group).xpmemTgDeref group =
    (s.ref (.tg group)).deref (.tg group) from rfl, ledger_deref,
    ledger_ref, Ledger.count_count]
  exact Ledger.count_zero _ _

/-- The identifier was made by a group of the process. -/
def MadeBy (K : Platform) (tgid : Pid) (id : BitVec 64) : Prop :=
  ∃ uniq, 0 < uniq ∧ uniq ≤ xpmemMaxUniqId ∧ id = packId K tgid uniq

theorem MadeBy.positive {tgid : Pid} {id : BitVec 64}
    (made : MadeBy K tgid id) (positive : 0 < tgid.toInt) :
    0 < id.toInt := by
  obtain ⟨uniq, nonzero, bounded, rfl⟩ := made
  exact packId_toInt_pos K positive nonzero bounded

theorem MadeBy.idToTgid {tgid : Pid} {id : BitVec 64}
    (made : MadeBy K tgid id) : idToTgid K id = tgid := by
  obtain ⟨uniq, _, _, rfl⟩ := made
  exact idToTgid_packId K tgid uniq

/-- A new segment on the list of a group. -/
structure NewSeg (s t : State K) (group : TgPtr) : Prop where
  ledger : t.ledger = s.ledger.addSeg group s.nextSeg
  groups : SameGroups s t
  live : (t.seg s.nextSeg).destroying = false

theorem xpmemMakeSegid_cases (s : State K) (group : TgPtr) :
    (xpmemMakeSegid s group).1.ledger = s.ledger ∧
      SameGroups s (xpmemMakeSegid s group).1 := by
  refine ⟨ledger_xpmemMakeSegid s group, ?_⟩
  unfold xpmemMakeSegid
  extract_lets uniq
  split
  · exact .of_shape rfl
  · dsimp only
    apply SameGroups.modTg <;> rfl

/-- The last step of `xpmem_make`, with the reference it has taken. -/
theorem newSeg_linkSeg {group : TgPtr}
    (ledger : t.ledger = s.ledger.count (.tg group) 1)
    (groups : SameGroups s t) (next : t.nextSeg = s.nextSeg)
    (segid : BitVec 64) (vaddr size : Nat) (permitType : BitVec 32)
    (permitValue : BitVec 64) :
    NewSeg s ((linkSeg t group segid vaddr size permitType
      permitValue).xpmemTgDeref group) group := by
  have linked := ledger_linkSeg t group segid vaddr size permitType
    permitValue
  rw [ledger, next, Ledger.count_addSeg (by simp)] at linked
  have same : SameGroups t (linkSeg t group segid vaddr size permitType
      permitValue) := by
    unfold linkSeg
    extract_lets seg one two
    have first : SameGroups t two := ⟨rfl, fun _ => ⟨rfl, rfl⟩⟩
    refine first.trans ?_
    apply SameGroups.modTg <;> rfl
  have live : ((linkSeg t group segid vaddr size permitType
      permitValue).seg s.nextSeg).destroying = false := by
    simp [linkSeg, State.modTg, State.modSeg, next]
  generalize linkSeg t group segid vaddr size permitType permitValue =
    made at *
  constructor
  · rw [show made.xpmemTgDeref group = made.deref (.tg group) from rfl,
      ledger_deref, linked, Ledger.count_count]
    exact Ledger.count_zero _ _
  · exact (groups.trans same).trans
      (.of_shape (made.shape_deref (.tg group)))
  · have kept := congrArg (fun u => (u.seg s.nextSeg).destroying)
      (made.shape_deref (.tg group))
    exact kept.trans live

/-- What `xpmem_make` returns, with the ledger it leaves. -/
def Makes (s : State K) (current : Task) :
    State K × Except Errno (BitVec 64) → Prop
  | (t, .error _) => t.ledger = s.ledger
  | (t, .ok segid) =>
      ∃ group, s.findTg current.tgid false = some group ∧
        MadeBy K (s.tg group).tgid segid ∧ NewSeg s t group

theorem makes_xpmemMake (s : State K) (current : Task)
    (vaddr size : BitVec 64) (permitType : BitVec 32)
    (permitValue : BitVec 64) (oom : Bool) :
    Makes s current
      (xpmemMake s current vaddr size permitType permitValue oom) := by
  unfold xpmemMake
  split
  · exact rfl
  · split
    · exact rfl
    · rename_i group found
      extract_lets referred
      have entered : referred.ledger = s.ledger.count (.tg group) 1 :=
        ledger_ref s (.tg group)
      have refused : (referred.xpmemTgDeref group).ledger = s.ledger :=
        ledger_tgRef_tgDeref s group
      split
      · exact refused
      · rename_i length _
        split
        · exact refused
        · obtain ⟨ledger, groups⟩ := xpmemMakeSegid_cases referred group
          have left {t : State K} (same : t.ledger = referred.ledger) :
              (t.xpmemTgDeref group).ledger = s.ledger := by
            rw [show t.xpmemTgDeref group = t.deref (.tg group) from rfl,
              ledger_deref, same, entered, Ledger.count_count]
            exact Ledger.count_zero _ _
          split
          · rename_i counted equal
            rw [equal] at ledger
            exact left ledger
          · rename_i counted segid equal
            rw [equal] at ledger groups
            split
            · exact left ledger
            · obtain ⟨bounded, made, _⟩ := makeSegid_eq
                (show (xpmemMakeSegid referred group).2 = some segid by
                  rw [equal])
              have tgid : (referred.tg group).tgid = (s.tg group).tgid :=
                ((SameGroups.of_shape (s.shape_ref (.tg group))).tg
                  group).1
              rw [tgid] at made
              refine ⟨group, found, ⟨_, Nat.succ_pos _, bounded, made⟩, ?_⟩
              have next : counted.nextSeg = s.nextSeg := by
                rw [xpmemMakeSegid_nextSeg equal]
                rfl
              exact newSeg_linkSeg (by rw [ledger, entered])
                ((SameGroups.of_shape (s.shape_ref (.tg group))).trans
                  groups) next ..

theorem ledger_xpmemRemoveSeg {seg : SegPtr}
    (live : (s.seg seg).destroying = false) (segTg : TgPtr) :
    Always (xpmemRemoveSeg s segTg seg) fun t =>
      t.ledger =
        (s.ledger.removeSeg segTg seg).count (.seg seg) (-1) := by
  unfold xpmemRemoveSeg
  rw [live, if_neg Bool.false_ne_true]
  extract_lets flagged
  have same : flagged.ledger = s.ledger := ledger_flag s (.seg seg) true
  refine .map ((spares_xpmemClearPTEsRange flagged seg _ _ false).mono
    fun cleared spares => ?_)
  rw [show (unlinkSeg cleared segTg seg).xpmemSegDeref seg =
    (unlinkSeg cleared segTg seg).deref (.seg seg) from rfl, ledger_deref,
    ledger_unlinkSeg, spares.ledger, same]

theorem ledger_xpmemRemove {current : Task} {segid : BitVec 64}
    {group : TgPtr} {seg : SegPtr} (positive : 0 < segid.toInt)
    (found : s.findTg (idToTgid K segid) false = some group)
    (own : current.tgid = (s.tg group).tgid)
    (listed : s.findSeg group segid = some seg) :
    Always (xpmemRemove s current segid) fun removed =>
      removed.1.ledger =
        (s.ledger.removeSeg group seg).count (.seg seg) (-1) := by
  unfold xpmemRemove
  rw [if_neg (by omega), found]
  dsimp -zeta only
  extract_lets referred
  have groups := SameGroups.of_shape (s.shape_ref (.tg group))
  have tgid : (referred.tg group).tgid = (s.tg group).tgid :=
    (groups.tg group).1
  rw [tgid, if_neg (not_not.mpr own),
    show referred.findSeg group segid = some seg by
      rw [findSeg_xpmemTgRef, listed]]
  have live : ((referred.xpmemSegRef seg).seg seg).destroying = false := by
    have flagged := List.find?_some listed
    simp only [Bool.and_eq_true, Bool.not_eq_true'] at flagged
    have kept := congrArg (fun u => (u.seg seg).destroying)
      (((referred.shape_ref (.seg seg))).trans (s.shape_ref (.tg group)))
    exact kept.trans flagged.2
  refine .map ((ledger_xpmemRemoveSeg live group).mono
    fun removed ledger => ?_)
  have before : (referred.xpmemSegRef seg).ledger =
      (s.ledger.count (.tg group) 1).count (.seg seg) 1 := by
    rw [show referred.xpmemSegRef seg = referred.ref (.seg seg) from rfl,
      ledger_ref, show referred = s.ref (.tg group) from rfl, ledger_ref]
  rw [before] at ledger
  change ((removed.deref (.seg seg)).deref (.tg group)).ledger = _
  rw [ledger_deref, ledger_deref, ledger]
  simp [Ledger.count_removeSeg, Ledger.count_comm _ (.seg seg) (.tg group)]

/-- If an ioctl fails, nothing is left of it. -/
def FailsClean (s : State K) (result : State K × Ret) : Prop :=
  ∀ errno, result.2 = .error errno → NoTrace s result.1

theorem failsClean_ioctlMake (named : Named s) {current : Task}
    (positive : 0 < current.tgid.toInt) (vaddr size : BitVec 64)
    (permitType : BitVec 32) (permitValue : BitVec 64) (env : IoctlEnv) :
    Always (ioctlMake s current vaddr size permitType permitValue env)
      (FailsClean s) := by
  have makes := makes_xpmemMake s current vaddr size permitType permitValue
    env.oom
  have start : Keeps (.call False) s s := .refl s
  have keeps := start.xpmemMake current vaddr size permitType permitValue
    env.oom
  unfold ioctlMake
  cases made : xpmemMake s current vaddr size permitType permitValue
      env.oom with
  | mk t result =>
      rw [made] at makes keeps
      cases result with
      | error error => exact .some fun _ _ => .inl makes
      | ok segid =>
          dsimp only
          split
          · exact .some nofun
          · obtain ⟨group, found, identified, new⟩ := makes
            obtain ⟨used, id, owner⟩ := xpmemMake_eq_ok made
            rw [found] at owner
            have holder := Option.some.inj owner
            have tgid := (findTg_eq_some found).2.1
            rw [tgid] at identified
            have after : Named t := keeps.invariant Named named
              fun _ _ named change => named.change change
            have listed := after.segs.find_eq used
            change (t.tg (t.seg s.nextSeg).tg).segList.find? _ = _
              at listed
            rw [← holder] at listed
            have fresh : s.nextSeg ∉ s.ledger.segs group := fun member =>
              lt_irrefl _ (named.segs.listed group 0 _ member).1
            have removes := @ledger_xpmemRemove K t current segid group
              s.nextSeg (identified.positive positive)
              (by rw [identified.idToTgid, new.groups.findTg, found])
              (by rw [(new.groups.tg group).1, tgid])
              (by
                rw [← id]
                refine listed.trans ?_
                change (if (t.seg s.nextSeg).destroying = true then none
                  else some s.nextSeg) = some s.nextSeg
                rw [new.live, if_neg Bool.false_ne_true])
            refine .map (removes.mono fun removed ledger _ _ => .inr ?_)
            refine ⟨.seg s.nextSeg, lt_irrefl _, ?_⟩
            rw [ledger, new.ledger]
            exact agreesBut_seg s.ledger fresh

/-! ## Getting a permit -/

/-- A new permit on a segment, and the references it holds. -/
structure NewAp (s t : State K) (seg : SegPtr) (segTg apTg : TgPtr)
    (apid : BitVec 64) : Prop where
  ledger : t.ledger =
    ((s.ledger.addAp seg (apTg, xpmemApHashtableIndex K apid)
      s.nextAp).count (.tg segTg) 1).count (.seg seg) 1
  groups : SameGroups s t
  owner : (t.seg seg).tg = (s.seg seg).tg
  target : (t.ap s.nextAp).seg = seg
  live : (t.ap s.nextAp).destroying = false
  unattached : (t.ap s.nextAp).attList = []

/-- What `xpmem_get` returns, with the ledger it leaves. -/
def Issues (s : State K) (current : Task) :
    State K × Except Errno (BitVec 64) → Prop
  | (t, .error _) => t.ledger = s.ledger
  | (t, .ok apid) =>
      ∃ segTg seg apTg, seg ∈ s.ledger.segs segTg ∧
        s.findTg current.tgid false = some apTg ∧
        MadeBy K (s.tg apTg).tgid apid ∧ NewAp s t seg segTg apTg apid

theorem newAp_linkAp {seg : SegPtr} {segTg apTg : TgPtr}
    (ledger : t.ledger = ((s.ledger.count (.tg segTg) 1).count (.seg seg)
      1).count (.tg apTg) 1)
    (groups : SameGroups s t) (next : t.nextAp = s.nextAp)
    (owner : (t.seg seg).tg = (s.seg seg).tg) (apid : BitVec 64)
    (mode : BitVec 32) :
    NewAp s ((linkAp t seg apTg apid mode).xpmemTgDeref apTg) seg segTg
      apTg apid := by
  have linked := ledger_linkAp t seg apTg apid mode
  rw [ledger, next, Ledger.count_addAp (by simp),
    Ledger.count_addAp (by simp), Ledger.count_addAp (by simp)] at linked
  have same : SameGroups t (linkAp t seg apTg apid mode) := by
    unfold linkAp
    extract_lets permit one two three index
    have first : SameGroups t three := ⟨rfl, fun _ => ⟨rfl, rfl⟩⟩
    refine first.trans ?_
    apply SameGroups.modTg <;> rfl
  have record : ((linkAp t seg apTg apid mode).ap s.nextAp).seg = seg ∧
      ((linkAp t seg apTg apid mode).ap s.nextAp).destroying = false ∧
      ((linkAp t seg apTg apid mode).ap s.nextAp).attList = [] := by
    simp [linkAp, State.modTg, State.modSeg, State.modAp, next]
  have holder : ((linkAp t seg apTg apid mode).seg seg).tg =
      (t.seg seg).tg := by
    simp [linkAp, State.modTg, State.modSeg, State.modAp]
  generalize linkAp t seg apTg apid mode = made at *
  have shape := made.shape_deref (.tg apTg)
  constructor
  · rw [show made.xpmemTgDeref apTg = made.deref (.tg apTg) from rfl,
      ledger_deref, linked, Ledger.count_count]
    exact Ledger.count_zero _ _
  · exact (groups.trans same).trans (.of_shape shape)
  · have kept := congrArg (fun u => (u.seg seg).tg) shape
    exact (kept.trans holder).trans owner
  · have kept := congrArg (fun u => (u.ap s.nextAp).seg) shape
    exact kept.trans record.1
  · have kept := congrArg (fun u => (u.ap s.nextAp).destroying) shape
    exact kept.trans record.2.1
  · have kept := congrArg (fun u => (u.ap s.nextAp).attList) shape
    exact kept.trans record.2.2

theorem xpmemMakeApid_cases (s : State K) (group : TgPtr) :
    (xpmemMakeApid s group).1.ledger = s.ledger ∧
      SameGroups s (xpmemMakeApid s group).1 ∧
      (xpmemMakeApid s group).1.seg = s.seg := by
  refine ⟨ledger_xpmemMakeApid s group, ?_⟩
  unfold xpmemMakeApid
  extract_lets uniq
  split
  · exact ⟨.of_shape rfl, rfl⟩
  · refine ⟨?_, rfl⟩
    dsimp only
    apply SameGroups.modTg <;> rfl

/-- The part of `xpmem_get` that holds references to the segment. -/
theorem issues_getPermitted {current : Task} {seg : SegPtr}
    {segTg : TgPtr} (listed : seg ∈ s.ledger.segs segTg)
    (flags : BitVec 32) (oom : Bool) :
    Issues s current (getPermitted
      ((s.ref (.tg segTg)).ref (.seg seg)) current seg segTg flags oom) := by
  have shape : ((s.ref (.tg segTg)).ref (.seg seg)).shape = s.shape := by
    rw [State.shape_ref, State.shape_ref]
  have ledger : ((s.ref (.tg segTg)).ref (.seg seg)).ledger =
      (s.ledger.count (.tg segTg) 1).count (.seg seg) 1 := by
    rw [ledger_ref, ledger_ref]
  have next : ((s.ref (.tg segTg)).ref (.seg seg)).nextAp = s.nextAp :=
    rfl
  generalize (s.ref (.tg segTg)).ref (.seg seg) = entered at *
  have groups : SameGroups s entered := .of_shape shape
  -- label by label, the references are given back
  have left {u : State K} (same : u.ledger = entered.ledger) :
      ((u.xpmemSegDeref seg).xpmemTgDeref segTg).ledger = s.ledger := by
    change ((u.deref (.seg seg)).deref (.tg segTg)).ledger = _
    rw [ledger_deref, ledger_deref, same, ledger]
    simp
  unfold getPermitted
  split
  · exact left rfl
  · rename_i apTg found
    rw [groups.findTg] at found
    extract_lets referred
    have counted : referred.ledger = entered.ledger.count (.tg apTg) 1 :=
      ledger_ref entered (.tg apTg)
    have shared : referred.shape = s.shape :=
      (entered.shape_ref (.tg apTg)).trans shape
    obtain ⟨kept, same, segs⟩ := xpmemMakeApid_cases referred apTg
    have dropped {u : State K} (same : u.ledger = referred.ledger) :
        (u.xpmemTgDeref apTg).ledger = entered.ledger := by
      change (u.deref (.tg apTg)).ledger = _
      rw [ledger_deref, same, counted]
      simp
    split
    · rename_i made equal
      rw [equal] at kept
      exact left (dropped kept)
    · rename_i made apid equal
      rw [equal] at kept same segs
      split
      · exact left (dropped kept)
      · obtain ⟨bounded, identified, _⟩ := makeApid_eq
          (show (xpmemMakeApid referred apTg).2 = some apid by rw [equal])
        have tgid : (referred.tg apTg).tgid = (s.tg apTg).tgid :=
          ((SameGroups.of_shape shared).tg apTg).1
        rw [tgid] at identified
        refine ⟨segTg, seg, apTg, listed, found,
          ⟨_, Nat.succ_pos _, bounded, identified⟩, ?_⟩
        refine newAp_linkAp (by rw [kept, counted, ledger])
          ((SameGroups.of_shape shared).trans same) ?_ ?_ apid flags
        · rw [xpmemMakeApid_nextAp equal]
          exact next
        · have owner := congrArg (fun u => (u.seg seg).tg) shared
          rw [segs]
          exact owner

theorem issues_xpmemGet (s : State K) (current : Task) (cred : Cred)
    (segid : BitVec 64) (flags permitType : BitVec 32)
    (permitValue : BitVec 64) (oom : Bool) :
    Issues s current (xpmemGet s current cred segid flags permitType
      permitValue oom) := by
  unfold xpmemGet
  split
  · exact rfl
  · split
    · exact rfl
    · split
      · exact rfl
      · split
        · exact rfl
        · rename_i segTg found
          extract_lets referred
          split
          · exact ledger_tgRef_tgDeref s segTg
          · rename_i seg listed
            rw [findSeg_xpmemTgRef] at listed
            extract_lets entered
            split
            · exact issues_getPermitted (List.mem_of_find?_eq_some listed)
                flags oom
            · change ((entered.deref (.seg seg)).deref (.tg segTg)).ledger =
                s.ledger
              rw [ledger_deref, ledger_deref,
                show entered = (s.ref (.tg segTg)).ref (.seg seg) from rfl,
                ledger_ref, ledger_ref]
              simp

/-- The ledger after a permit without attachments is released. -/
def releasedLedger (s : State K) (apTg : TgPtr) (permit : ApPtr) : Ledger :=
  let seg := (s.ap permit).seg
  let slot := (apTg, xpmemApHashtableIndex K (s.ap permit).apid)
  (((s.ledger.removeAp seg slot permit).count (.seg seg) (-1)).count
    (.tg (s.seg seg).tg) (-1)).count (.ap permit) (-1)

theorem ledger_xpmemReleaseAp {permit : ApPtr}
    (live : (s.ap permit).destroying = false)
    (unattached : (s.ap permit).attList = []) (current : Task)
    (apTg : TgPtr) :
    Always (xpmemReleaseAp s current apTg permit) fun t =>
      t.ledger = releasedLedger s apTg permit := by
  unfold xpmemReleaseAp
  rw [live, if_neg Bool.false_ne_true]
  extract_lets flagged
  have record : (flagged.ap permit).attList = [] ∧
      (flagged.ap permit).seg = (s.ap permit).seg ∧
      (flagged.ap permit).apid = (s.ap permit).apid := by
    simp [flagged, State.modAp, unattached]
  have same : flagged.ledger = s.ledger := ledger_flag s (.ap permit) true
  have segs : flagged.seg = s.seg := rfl
  clear_value flagged
  rw [record.1]
  refine .map ?_
  unfold detachAll
  dsimp only [List.length_nil]
  rw [if_pos record.1]
  refine .some ?_
  have released : (unlinkAp flagged apTg permit).ledger =
      s.ledger.removeAp (s.ap permit).seg
        (apTg, xpmemApHashtableIndex K (s.ap permit).apid) permit := by
    rw [ledger_unlinkAp, same, record.2.1, record.2.2]
  have target : ((unlinkAp flagged apTg permit).ap permit).seg =
      (s.ap permit).seg := by
    rw [← record.2.1]
    simp [unlinkAp, State.modAp, State.modTg, State.modSeg]
  have owner : ((unlinkAp flagged apTg permit).seg (s.ap permit).seg).tg =
      (s.seg (s.ap permit).seg).tg := by
    rw [← segs]
    simp only [unlinkAp, State.modAp, State.modTg, State.modSeg,
      Function.update_apply]
    split <;> simp_all
  generalize unlinkAp flagged apTg permit = unlinked at *
  change (((unlinked.deref (.seg (unlinked.ap permit).seg)).deref
    (.tg (unlinked.seg (unlinked.ap permit).seg).tg)).deref
      (.ap permit)).ledger = _
  rw [ledger_deref, ledger_deref, ledger_deref, released, target, owner]
  rfl

theorem ledger_xpmemRelease {current : Task} {apid : BitVec 64}
    {group : TgPtr} {permit : ApPtr} (positive : 0 < apid.toInt)
    (found : s.findTg (idToTgid K apid) false = some group)
    (own : current.tgid = (s.tg group).tgid)
    (listed : s.findAp group apid = some permit)
    (unattached : (s.ap permit).attList = []) :
    Always (xpmemRelease s current apid) fun released =>
      released.1.ledger = releasedLedger s group permit := by
  unfold xpmemRelease
  rw [if_neg (by omega), found]
  dsimp -zeta only
  extract_lets referred
  have groups := SameGroups.of_shape (s.shape_ref (.tg group))
  have tgid : (referred.tg group).tgid = (s.tg group).tgid :=
    (groups.tg group).1
  rw [tgid, if_neg (not_not.mpr own),
    show referred.findAp group apid = some permit by
      rw [findAp_xpmemTgRef, listed]]
  dsimp only
  have live : (s.ap permit).destroying = false := by
    simpa using (Option.filter_eq_some_iff.mp listed).2
  have shape : (referred.xpmemApRef permit).shape = s.shape :=
    (referred.shape_ref (.ap permit)).trans (s.shape_ref (.tg group))
  have records : ((referred.xpmemApRef permit).ap permit).shape =
      (s.ap permit).shape :=
    congrArg (fun u => u.ap permit) shape
  have flags := congrArg AccessPermit.destroying records
  have atts := congrArg AccessPermit.attList records
  refine .map ((ledger_xpmemReleaseAp (flags.trans live)
    (atts.trans unattached) current group).mono fun released ledger => ?_)
  change ((released.deref (.ap permit)).deref (.tg group)).ledger = _
  rw [ledger_deref, ledger_deref, ledger]
  have before : (referred.xpmemApRef permit).ledger =
      (s.ledger.count (.tg group) 1).count (.ap permit) 1 := by
    rw [show referred.xpmemApRef permit = referred.ref (.ap permit) from rfl,
      ledger_ref, show referred = s.ref (.tg group) from rfl, ledger_ref]
  have seg := congrArg AccessPermit.seg records
  have id := congrArg AccessPermit.apid records
  change ((referred.xpmemApRef permit).ap permit).seg = (s.ap permit).seg
    at seg
  change ((referred.xpmemApRef permit).ap permit).apid =
    (s.ap permit).apid at id
  have owner := congrArg (fun u => (u.seg (s.ap permit).seg).tg) shape
  change ((referred.xpmemApRef permit).seg (s.ap permit).seg).tg =
    (s.seg (s.ap permit).seg).tg at owner
  simp only [releasedLedger, before, seg, id, owner]
  refine Ledger.ext rfl rfl rfl rfl rfl ?_
  simp only [Ledger.count, Ledger.removeAp, Pi.single_neg]
  abel

theorem failsClean_ioctlGet (named : Named s) (listed : Listed s)
    {current : Task} (positive : 0 < current.tgid.toInt)
    (segid : BitVec 64) (flags permitType : BitVec 32)
    (permitValue : BitVec 64) (env : IoctlEnv) :
    Always (ioctlGet s current segid flags permitType permitValue env)
      (FailsClean s) := by
  have issues := issues_xpmemGet s current env.cred segid flags permitType
    permitValue env.oom
  have start : Keeps (.call True) s s := .refl s
  have keeps := start.xpmemGet trivial current env.cred segid flags
    permitType permitValue env.oom
  unfold ioctlGet
  cases got : xpmemGet s current env.cred segid flags permitType permitValue
      env.oom with
  | mk t result =>
      rw [got] at issues keeps
      cases result with
      | error error => exact .some fun _ _ => .inl issues
      | ok apid =>
          dsimp only
          split
          · exact .some nofun
          · obtain ⟨segTg, seg, apTg, member, found, identified, new⟩ :=
              issues
            have given := xpmemGet_eq_ok got
            have holder := given.group
            rw [found] at holder
            have holder := Option.some.inj holder
            have tgid := (findTg_eq_some found).2.1
            rw [tgid] at identified
            have after : Named t := keeps.invariant Named named
              fun _ _ named change => named.change change
            have used : s.nextAp < t.nextAp := by
              rw [given.next]
              exact Nat.lt_succ_self _
            have lookup : t.findAp apTg apid = some s.nextAp := by
              have first := after.aps.find_filter_eq used
              change (((t.tg (t.ap s.nextAp).tg).apHashtable
                (xpmemApHashtableIndex K (t.ap s.nextAp).apid)).find?
                  _).filter _ = if (t.ap s.nextAp).destroying = true
                    then none else some s.nextAp at first
              rw [← holder, new.live, if_neg Bool.false_ne_true] at first
              rw [← given.apid]
              exact first
            have releases := @ledger_xpmemRelease K t current apid apTg
              s.nextAp (identified.positive positive)
              (by rw [identified.idToTgid, new.groups.findTg, found])
              (by rw [(new.groups.tg apTg).1, tgid]) lookup new.unattached
            refine .map (releases.mono fun released ledger _ _ => .inr ?_)
            refine ⟨.ap s.nextAp, lt_irrefl _, ?_⟩
            have owner : (t.seg seg).tg = segTg :=
              new.owner.trans (named.segs.listed segTg 0 seg member).2
            have fresh : s.nextAp ∉ s.ledger.permits seg := fun member =>
              lt_irrefl _ (listed.permits seg _ member)
            have freshSlot : s.nextAp ∉ s.ledger.slots
                (apTg, xpmemApHashtableIndex K apid) := fun member =>
              lt_irrefl _ (named.aps.listed apTg apid _ member).1
            have back : released.1.ledger =
                ((s.ledger.addAp seg (apTg, xpmemApHashtableIndex K apid)
                  s.nextAp).removeAp seg
                    (apTg, xpmemApHashtableIndex K apid) s.nextAp).count
                      (.ap s.nextAp) (-1) := by
              rw [ledger, releasedLedger, new.ledger, new.target, owner,
                given.apid]
              refine Ledger.ext rfl rfl rfl rfl rfl ?_
              simp only [Ledger.count, Ledger.removeAp, Pi.single_neg]
              abel
            rw [back]
            exact agreesBut_ap s.ledger fresh freshSlot

/-! ## Attaching -/

/-- The area of an attachment in an address space. -/
def Carries (s : State K) (mm : MmPtr) (att : AttPtr) : Prop :=
  ∃ area ∈ s.vmas mm, area.start = (s.att att).atVaddr ∧
    area.stop = (s.att att).atVaddr + (s.att att).atSize ∧
    area.payload.xpmemOps = true ∧ area.payload.privateData = some att

/-- A live attachment of a permit of the process, tied to an area. -/
structure Tied (t : State K) (current : Task) (mm : MmPtr)
    (permit : ApPtr) (att : AttPtr) : Prop where
  live : (t.att att).destroying = false
  target : (t.att att).ap = permit
  own : (t.tg (t.ap permit).tg).tgid = current.tgid
  carries : Carries t mm att

theorem vmMmap_eq_error {current : Task} {mm : MmPtr} {vaddr size : Nat}
    {fixed : Bool} {place : Option Nat} {errno : Errno}
    (mapped : vmMmap s current mm vaddr size fixed place =
      some (t, .error errno)) : t = s := by
  unfold vmMmap at mapped
  split at mapped
  · split at mapped
    · cases mapped
      rfl
    · split at mapped
      · split at mapped
        · cases mapped
          rfl
        · obtain ⟨_, _, equal⟩ := Option.map_eq_some_iff.mp mapped
          cases equal
      · split at mapped
        · cases mapped
        · cases mapped
          rfl
  · cases mapped
    rfl

theorem attachMap_eq_error {current : Task} {mm : MmPtr} {permit : ApPtr}
    {att : AttPtr} {vaddr size : Nat} {place : Option Nat} {errno : Errno}
    (mapped : attachMap s current mm permit att vaddr size place =
      some (t, .error errno)) : t = attachUndo s permit att := by
  unfold attachMap at mapped
  split at mapped
  · cases mapped
    rfl
  · extract_lets fixed at mapped
    split at mapped
    · cases mapped
      rfl
    · obtain ⟨⟨middle, result⟩, mmaps, rest⟩ :=
        Option.bind_eq_some_iff.mp mapped
      cases result with
      | error =>
          cases rest
          rw [vmMmap_eq_error mmaps]
      | ok atVaddr =>
          obtain ⟨_, _, equal⟩ := Option.map_eq_some_iff.mp rest
          cases equal

theorem ledger_attachUndo (s : State K) (permit : ApPtr) (att : AttPtr) :
    (attachUndo s permit att).ledger =
      (s.ledger.removeAtt permit att).count (.att att) (-1) := by
  change ((unlinkAtt (s.flag (.att att) true) permit att).deref
    (.att att)).ledger = _
  rw [ledger_deref, ledger_unlinkAtt, ledger_flag]

theorem carries_attachBind {mm : MmPtr} {att : AttPtr} {area : Vma}
    {size : Nat} (member : area ∈ s.vmas mm)
    (stop : area.stop = area.start + size)
    (length : (s.att att).atSize = size) :
    Carries (attachBind s mm att area.start area) mm att := by
  refine ⟨{ area with payload := { area.payload with
    privateData := some att, pfnmap := true, xpmemOps := true } }, ?_, ?_⟩
  · simp only [State.vmas, attachBind, State.modMm, State.modAtt,
      Function.update_self, Mm.updateVma]
    exact RangeList.mem_mapPayload_iff.mpr ⟨area, member, by simp⟩
  · simp [attachBind, State.modAtt, State.modMm, stop, length]

theorem Carries.clears {mm : MmPtr} {att : AttPtr}
    (carries : Carries s mm att) (clears : Clears s t) :
    Carries t mm att := by
  obtain ⟨area, member, start, stop, tied⟩ := carries
  have start' : (t.att att).atVaddr = (s.att att).atVaddr :=
    congrArg Place.start (congrFun clears.place att)
  have size : (t.att att).atSize = (s.att att).atSize :=
    congrArg Place.size (congrFun clears.place att)
  refine ⟨area, ?_, ?_, ?_, tied⟩
  · rw [clears.vmas]
    exact member
  · rw [start, start']
  · rw [stop, start', size]

theorem Tied.shape {current : Task} {mm : MmPtr} {permit : ApPtr}
    {att : AttPtr} (tied : Tied t current mm permit att)
    (same : u.shape = t.shape) : Tied u current mm permit att where
  live := (congrArg (fun v => (v.att att).destroying) same).trans tied.live
  target := (congrArg (fun v => (v.att att).ap) same).trans tied.target
  own := by
    have holder := congrArg (fun v => (v.ap permit).tg) same
    change (u.ap permit).tg = (t.ap permit).tg at holder
    rw [holder]
    exact (congrArg (fun v => (v.tg (t.ap permit).tg).tgid) same).trans
      tied.own
  carries := tied.carries.clears (.of_shape same)

/-- What `xpmem_attach` returns, with the ledger it leaves. -/
def Attempts (s : State K) (current : Task) (mm : MmPtr)
    (permit : ApPtr) : State K × Except Errno Nat → Prop
  | (t, .error _) =>
      t.ledger = s.ledger ∨
        AgreesBut s.ledger t.ledger (.att s.nextAtt)
  | (t, .ok _) =>
      t.ledger = s.ledger.addAtt permit s.nextAtt ∧
        Tied t current mm permit s.nextAtt

/-- The last steps of an attachment that succeeds. -/
theorem tied_attachBind {current : Task} {mm : MmPtr} {permit : ApPtr}
    {segVaddr length : Nat} {area : Vma}
    (maps : Mapped (attachLink s permit mm segVaddr length) t mm
      area.start length)
    (member : area ∈ t.vmas mm) (stop : area.stop = area.start + length)
    (own : current.tgid = (s.tg (s.ap permit).tg).tgid) :
    Tied (attachBind t mm s.nextAtt area.start area) current mm permit
      s.nextAtt := by
  have objects : (attachBind t mm s.nextAtt area.start area).objects =
      (attachLink s permit mm segVaddr length).objects :=
    (State.objects_attachBind ..).trans maps.objects
  obtain ⟨live, target, holder⟩ :
      ((attachLink s permit mm segVaddr length).att
        s.nextAtt).destroying = false ∧
      ((attachLink s permit mm segVaddr length).att s.nextAtt).ap =
        permit ∧
      ((attachLink s permit mm segVaddr length).ap permit).tg =
        (s.ap permit).tg := by
    simp [attachLink, State.modAtt, State.modAp, State.xpmemAttRef]
  have size : (t.att s.nextAtt).atSize = length := by
    have same := congrArg Place.size (congrFun maps.place s.nextAtt)
    refine same.trans ?_
    simp [State.place, attachLink, State.modAtt, State.modAp,
      State.xpmemAttRef]
  have carries := carries_attachBind member stop size
  generalize attachBind t mm s.nextAtt area.start area = bound at *
  refine ⟨?_, ?_, ?_, carries⟩
  · exact (congrArg (fun v => (v.att s.nextAtt).destroying)
      objects).trans live
  · exact (congrArg (fun v => (v.att s.nextAtt).ap) objects).trans target
  · have same := (congrArg (fun v => (v.ap permit).tg) objects).trans holder
    change (bound.ap permit).tg = (s.ap permit).tg at same
    rw [same, own]
    exact congrArg (fun v => (v.tg (s.ap permit).tg).tgid) objects

theorem attempts_attachChecked {permit : ApPtr}
    (fresh : s.nextAtt ∉ s.ledger.atts permit) {vaddr : Nat}
    (aligned : vaddr % pageSize = 0) (current : Task) (mm : MmPtr)
    (seg : SegPtr) (segTg : TgPtr) (offset : BitVec 64) (size : Nat)
    (env : AttachEnv) :
    Always (attachChecked s current mm permit seg segTg offset size vaddr
      env) (Attempts s current mm permit) := by
  unfold attachChecked
  split
  · exact .some (.inl rfl)
  · split
    · exact .some (.inl rfl)
    · rename_i segVaddr passed
      extract_lets length att
      split
      · exact .some (.inl rfl)
      · split
        · exact .some (.inl rfl)
        · refine .map fun mapped maps => ?_
          have linked := ledger_attachLink s permit mm segVaddr length
          obtain ⟨t, result⟩ := mapped
          cases result with
          | error errno =>
              rw [attachMap_eq_error maps]
              refine .inr ?_
              have undone := ledger_attachUndo
                (attachLink s permit mm segVaddr length) permit att
              rw [linked] at undone
              change AgreesBut s.ledger ((attachUndo _ permit att).deref
                (.att att)).ledger (.att att)
              rw [ledger_deref, undone, Ledger.count_removeAtt,
                show att = s.nextAtt from rfl, Ledger.count_count,
                Ledger.count_count]
              exact agreesBut_att s.ledger fresh
          | ok address =>
              obtain ⟨middle, area, atVaddr, mmaps, member, start, stop, same,
                _⟩ := attachMap_eq_ok aligned maps
              subst same start
              have tied := tied_attachBind mmaps member stop
                (validateAccess_eq_ok passed).1
              constructor
              · change ((attachBind middle mm att area.start area).deref
                  (.att att)).ledger = _
                rw [ledger_deref, ledger_attachBind, ledger_eq_of_graph
                  (State.graph_eq_of_objects mmaps.objects) mmaps.refcnt,
                  linked, show att = s.nextAtt from rfl,
                  Ledger.count_count]
                exact Ledger.count_zero _ _
              · exact tied.shape (State.shape_deref _ (.att att))

/-- The references `xpmem_attach` takes, and how it gives them back. -/
def attachRefs (ledger : Ledger) (apTg : TgPtr) (permit : ApPtr)
    (seg : SegPtr) (segTg : TgPtr) : Ledger :=
  (((ledger.count (.tg apTg) 1).count (.ap permit) 1).count (.seg seg)
    1).count (.tg segTg) 1

def attachDerefs (ledger : Ledger) (apTg : TgPtr) (permit : ApPtr)
    (seg : SegPtr) (segTg : TgPtr) : Ledger :=
  (((ledger.count (.ap permit) (-1)).count (.tg apTg) (-1)).count (.seg seg)
    (-1)).count (.tg segTg) (-1)

theorem attachDerefs_attachRefs (ledger : Ledger) (apTg : TgPtr)
    (permit : ApPtr) (seg : SegPtr) (segTg : TgPtr) :
    attachDerefs (attachRefs ledger apTg permit seg segTg) apTg permit seg
      segTg = ledger := by
  cases ledger
  simp only [attachDerefs, attachRefs, Ledger.count, Pi.single_neg,
    Ledger.mk.injEq, true_and]
  abel

/-- What `xpmem_attach` has done when it returns. -/
def AttachOutcome (s : State K) (current : Task) (mm : MmPtr) :
    State K × Except Errno Nat → Prop
  | (t, .error _) => NoTrace s t
  | (t, .ok _) =>
      ∃ permit, t.ledger = s.ledger.addAtt permit s.nextAtt ∧
        Tied t current mm permit s.nextAtt

theorem attachOutcome_xpmemAttach (listed : Listed s) (current : Task)
    (mm : MmPtr) (apid offset size vaddr : BitVec 64) (env : AttachEnv) :
    Always (xpmemAttach s current mm apid offset size vaddr env)
      (AttachOutcome s current mm) := by
  unfold xpmemAttach
  extract_lets fixed length
  split
  · exact .some (.inl rfl)
  · split
    · exact .some (.inl rfl)
    · split
      · exact .some (.inl rfl)
      · rename_i aligned
        simp only [not_or, not_not] at aligned
        split
        · exact .some (.inl rfl)
        · rename_i apTg owner
          extract_lets referred
          split
          · exact .some (.inl (ledger_tgRef_tgDeref s apTg))
          · rename_i permit lookup
            extract_lets permitted seg shared segTg taken
            have ledger : taken.ledger =
                attachRefs s.ledger apTg permit seg segTg := by
              change ((((s.ref (.tg apTg)).ref (.ap permit)).ref
                (.seg seg)).ref (.tg segTg)).ledger = _
              rw [ledger_ref, ledger_ref, ledger_ref, ledger_ref]
              rfl
            have next : taken.nextAtt = s.nextAtt := rfl
            clear_value taken
            have fresh : taken.nextAtt ∉ taken.ledger.atts permit := by
              rw [ledger, next]
              exact fun member =>
                lt_irrefl _ (listed.atts permit _ member)
            refine .map ((attempts_attachChecked fresh aligned.1 current mm
              seg segTg offset length env).mono fun attached attempts => ?_)
            obtain ⟨t, result⟩ := attached
            have final : ((((t.xpmemApDeref permit).xpmemTgDeref
                apTg).xpmemSegDeref seg).xpmemTgDeref segTg).ledger =
                  attachDerefs t.ledger apTg permit seg segTg := by
              change ((((t.deref (.ap permit)).deref (.tg apTg)).deref
                (.seg seg)).deref (.tg segTg)).ledger = _
              rw [ledger_deref, ledger_deref, ledger_deref, ledger_deref]
              rfl
            cases result with
            | error errno =>
                rcases attempts with same | agrees
                · refine .inl ?_
                  rw [final, same, ledger, attachDerefs_attachRefs]
                · refine .inr ⟨.att s.nextAtt, lt_irrefl _, ?_⟩
                  rw [final, ← attachDerefs_attachRefs s.ledger apTg permit
                    seg segTg, ← ledger, ← next]
                  exact (((agrees.count (by simp) _).count (by simp)
                    _).count (by simp) _).count (by simp) _
            | ok address =>
                obtain ⟨entered, tied⟩ := attempts
                refine ⟨permit, ?_, ?_⟩
                · rw [final, entered, ledger, next, attachRefs,
                    Ledger.count_addAtt (by simp),
                    Ledger.count_addAtt (by simp),
                    Ledger.count_addAtt (by simp),
                    Ledger.count_addAtt (by simp)]
                  exact attachDerefs_attachRefs ..
                · rw [← next]
                  refine tied.shape ?_
                  change ((((t.deref (.ap permit)).deref (.tg apTg)).deref
                    (.seg seg)).deref (.tg segTg)).shape = _
                  rw [State.shape_deref, State.shape_deref,
                    State.shape_deref, State.shape_deref]

/-! ## Detaching what was attached -/

theorem ledger_detachUnlink (mm : MmPtr) (permit : ApPtr) (att : AttPtr)
    {vma : Vma} (member : vma ∈ s.vmas mm) :
    Always (detachUnlink s mm permit att vma) fun t =>
      t.ledger = s.ledger.removeAtt permit att ∧
        (t.att att).atSize = (s.att att).atSize ∧
        Unattached t mm vma.start vma.stop := by
  refine .map (.map fun put _ => ?_)
  have spares := Spares.putPages s (s.ap permit).seg put
  have records := putPages_att s (s.ap permit).seg put
  have areas : vma ∈ (putPages s (s.ap permit).seg put).vmas mm := by
    rw [State.vmas, putPages_mm]
    exact member
  beta_reduce
  generalize putPages s (s.ap permit).seg put = unpinned at *
  extract_lets untied flagged
  refine ⟨?_, ?_, ?_⟩
  · have kept := (Spares.setValid untied att).ledger
    have same : untied.ledger = unpinned.ledger := rfl
    rw [ledger_unlinkAtt, kept, same, spares.ledger]
  · simp [unlinkAtt, State.modAp, flagged, untied, State.modAtt,
      State.modMm, records]
  · intro piece found meets
    change piece ∈ untied.vmas mm at found
    rw [State.vmas_updateVma, Function.update_self] at found
    obtain ⟨old, oldMember, rfl⟩ := RangeList.mem_mapPayload_iff.mp found
    have same : old = vma := RangeList.eq_of_meets oldMember areas meets
    simp [same]

/-- `xpmem_detach` at an address of an attachment takes it out again. -/
theorem ledger_xpmemDetach {current : Task} {mm : MmPtr} {permit : ApPtr}
    {att : AttPtr} (tied : Tied t current mm permit att) {address : Nat}
    (low : (t.att att).atVaddr ≤ address)
    (high : address < (t.att att).atVaddr + (t.att att).atSize) :
    Always (xpmemDetach t current mm address false) fun detached =>
      detached.1.ledger =
        (t.ledger.removeAtt permit att).count (.att att) (-1) := by
  obtain ⟨area, member, start, stop, ops, carries⟩ := tied.carries
  have found : (t.mm mm).vmaAt address = some area :=
    RangeList.containing_eq_some_iff.mpr
      ⟨member, start.le.trans low, by rw [stop]; exact high⟩
  unfold xpmemDetach
  rw [found]
  dsimp -zeta only
  rw [carries]
  dsimp -zeta only
  split
  · rename_i plain
    rw [ops] at plain
    cases plain
  extract_lets counted flagged owner guarded unflagged released
  have shape : counted.shape = t.shape := t.shape_ref (.att att)
  have kept := tied.shape shape
  have target : owner = permit := by
    simpa [owner, flagged, State.modAtt] using kept.target
  have own : (guarded.tg (guarded.ap owner).tg).tgid = current.tgid := by
    have holder : (guarded.ap owner).tg = (counted.ap owner).tg := by
      simp [guarded, State.xpmemApRef, State.modAp, flagged, State.modAtt]
    rw [holder, target]
    exact kept.own
  rw [if_neg Bool.false_ne_true, kept.live, if_neg Bool.false_ne_true,
    own, if_neg (not_not.mpr rfl), target]
  have areas : area ∈ guarded.vmas mm := member
  have size : (guarded.att att).atSize = (t.att att).atSize := by
    simp [guarded, flagged, counted, State.xpmemApRef, State.modAp,
      State.modAtt, State.xpmemAttRef]
  have ledger : guarded.ledger =
      (t.ledger.count (.att att) 1).count (.ap permit) 1 := by
    rw [show guarded = flagged.ref (.ap owner) from rfl, ledger_ref, target,
      show flagged = counted.flag (.att att) true from rfl, ledger_flag,
      show counted = t.ref (.att att) from rfl, ledger_ref]
  clear_value guarded
  refine .bind ((ledger_detachUnlink mm permit att areas).mono ?_)
  rintro cut ⟨unlinked, length, unattached⟩
  have proper : area.start < area.start + (cut.att att).atSize := by
    rw [length, size]
    omega
  have whole : area.start + (cut.att att).atSize = area.stop := by
    rw [length, size, start, stop]
  refine .map ((cuts_vmMunmap current proper ?_).mono fun last cuts => ?_)
  · intro piece meets
    rw [whole] at meets
    obtain ⟨inside, overlaps⟩ := RangeList.mem_meeting_iff.mp meets
    exact .inr (unattached piece inside overlaps)
  · change (((last.deref (.att att)).deref (.ap permit)).deref
      (.att att)).ledger = _
    rw [ledger_deref, ledger_deref, ledger_deref, ledger_eq_of_graph
      (State.graph_eq_of_objects cuts.objects) cuts.refcnt, unlinked, ledger]
    cases t.ledger
    simp only [Ledger.count, Ledger.removeAtt, Pi.single_neg,
      Ledger.mk.injEq, true_and]
    abel

theorem failsClean_ioctlAttach (listed : Listed s) (current : Task)
    (mm : MmPtr) (apid offset size vaddr : BitVec 64) {env : IoctlEnv}
    (alive : env.killed = false) :
    Always (ioctlAttach s current mm apid offset size vaddr env)
      (FailsClean s) := by
  unfold ioctlAttach
  refine .bind fun attached attaches => ?_
  have outcome := (attachOutcome_xpmemAttach listed current mm apid offset
    size vaddr { oom := env.oom, place := env.place }).of_eq attaches
  obtain ⟨t, result⟩ := attached
  cases result with
  | error error => exact .some fun _ _ => outcome
  | ok address =>
      dsimp only
      split
      · exact .some nofun
      · obtain ⟨permit, entered, tied⟩ := outcome
        obtain ⟨found, _⟩ := xpmemAttach_eq_ok attaches
        obtain ⟨_, some, _, _, shown⟩ := xpmemAttach_attached found attaches
        obtain ⟨low, high⟩ := shown.within some
        rw [alive]
        refine .map ((ledger_xpmemDetach tied low high).mono
          fun detached ledger _ _ => .inr ⟨.att s.nextAtt, lt_irrefl _, ?_⟩)
        rw [ledger, entered]
        exact agreesBut_att s.ledger fun member =>
          lt_irrefl _ (listed.atts permit _ member)

/-! ## The ioctls -/

theorem failsClean_xpmemIoctl (named : Named s) (listed : Listed s)
    {current : Task} (positive : 0 < current.tgid.toInt) (mm : MmPtr)
    (creation : Creation) {env : IoctlEnv} (alive : env.killed = false) :
    Always (xpmemIoctl s current mm creation.cmd env) (FailsClean s) := by
  cases creation with
  | make vaddr size permitType permitValue =>
      simp only [Creation.cmd, xpmemIoctl]
      split
      · exact .some fun _ _ => .inl rfl
      · exact failsClean_ioctlMake named positive vaddr size permitType
          permitValue env
  | get segid flags permitType permitValue =>
      simp only [Creation.cmd, xpmemIoctl]
      split
      · exact .some fun _ _ => .inl rfl
      · exact failsClean_ioctlGet named listed positive segid flags
          permitType permitValue env
  | attach apid offset size vaddr =>
      simp only [Creation.cmd, xpmemIoctl]
      split
      · exact .some fun _ _ => .inl rfl
      · exact failsClean_ioctlAttach listed current mm apid offset size
          vaddr alive

/--
An ioctl of a process that creates an object and fails leaves all lists,
reference counts and semaphores as they were, in every state of every run.
-/
theorem Guarded.xpmemIoctl_noTrace {allowed : State K → Op → Prop}
    {events : List (Event (State K) Op Ret)} {guarded after : Guarded K}
    (run : Run step {} allowed events guarded.state) {tgid : Pid}
    {mm : MmPtr} (running : guarded.state.proc tgid = .running mm)
    {creation : Creation} {env : IoctlEnv} (alive : env.killed = false)
    {errno : Errno}
    (failed : guarded.xpmemIoctl ⟨tgid, some mm⟩ mm creation env =
      some (after, .error errno)) :
    NoTrace guarded.state after.state ∧
      ∀ seg < guarded.state.nextSeg, after.sema seg = guarded.sema seg := by
  have positive : 0 < tgid.toInt :=
    positive_of_run run (by rw [running]; nofun)
  have state := guarded.xpmemIoctl_state ⟨tgid, some mm⟩ mm creation env
  rw [failed, Option.map_some] at state
  have clean := (failsClean_xpmemIoctl (Named.of_run run)
    (Listed.of_run run) positive mm creation alive).of_eq state.symm
  exact ⟨clean errno rfl, fun seg used =>
    (guarded.xpmemIoctl_sema _ mm creation env used).of_eq failed⟩

/-- An attachment whose address cannot be written back. -/
theorem Guarded.xpmemIoctl_noTrace_attach :
    ∃ guarded after : Guarded fourLevel,
      guarded.xpmemIoctl ⟨1, some 0⟩ 0 (.attach 0x100000001 0 0x1000 0)
          { place := some 0x20000, putUser := false } =
        some (after, .error .efault) ∧
      NoTrace guarded.state after.state ∧
      ∀ seg < guarded.state.nextSeg,
        after.sema seg = guarded.sema seg := by
  obtain ⟨events, s, run, running, failed⟩ := exists_run
    step ({} : State fourLevel) (fun _ _ => True)
    [.spawn 1, .openDev 1 {}, .mmap 1 0x10000 0x14000 false,
      .ioctl 1 (.make 0x10000 0x2000 1 0o600) {},
      .ioctl 1 (.get 0x100000001 2 1 0) {}]
    (fun _ s => s.proc 1 = .running 0 ∧
      ((Guarded.xpmemIoctl ⟨s, fun _ => {}⟩ ⟨1, some 0⟩ 0
        (.attach 0x100000001 0 0x1000 0)
        { place := some 0x20000, putUser := false }).any fun failed =>
          failed.2 == .error .efault) = true)
    (by decide +kernel)
  rw [Option.any_eq_true] at failed
  obtain ⟨⟨after, result⟩, equal, same⟩ := failed
  cases eq_of_beq same
  exact ⟨⟨s, fun _ => {}⟩, after, equal,
    Guarded.xpmemIoctl_noTrace run running rfl equal⟩

end Xpmem.Driver
