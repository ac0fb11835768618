import Xpmem.Objects.Actions

/-!
# Building operations from actions

Every function of the driver is followed through its text: what it reaches is
reached by actions.  This module has the first pieces: taking and dropping a
reference, the three lookups, and the frame facts for what a reference does
not change.
-/

namespace Xpmem.Driver

open Xpmem.Foundation Xpmem.Kernel Xpmem.Objects

variable {K : Platform} {tidy : Prop} {origin s t : State K}
    {first held : Held}

/-! ## References -/

section Shape

variable (s) (group : TgPtr) (seg : SegPtr) (permit : ApPtr) (att : AttPtr)

@[simp]
theorem shape_xpmemTgRef : (s.xpmemTgRef group).shape = s.shape :=
  s.shape_ref (.tg group)

@[simp]
theorem shape_xpmemSegRef : (s.xpmemSegRef seg).shape = s.shape :=
  s.shape_ref (.seg seg)

@[simp]
theorem shape_xpmemApRef : (s.xpmemApRef permit).shape = s.shape :=
  s.shape_ref (.ap permit)

@[simp]
theorem shape_xpmemAttRef : (s.xpmemAttRef att).shape = s.shape :=
  s.shape_ref (.att att)

@[simp]
theorem shape_xpmemTgDeref : (s.xpmemTgDeref group).shape = s.shape :=
  s.shape_deref (.tg group)

@[simp]
theorem shape_xpmemSegDeref : (s.xpmemSegDeref seg).shape = s.shape :=
  s.shape_deref (.seg seg)

@[simp]
theorem shape_xpmemApDeref : (s.xpmemApDeref permit).shape = s.shape :=
  s.shape_deref (.ap permit)

@[simp]
theorem shape_xpmemAttDeref : (s.xpmemAttDeref att).shape = s.shape :=
  s.shape_deref (.att att)

end Shape

namespace Reaches

/-- An object something in the graph points to may be referenced. -/
theorem ref (reaches : Reaches tidy origin first s held)
    {object : Ref} (owed : 0 < s.graph.owed object) :
    Reaches tidy origin first (s.ref object) (.ref object ::ₘ held) :=
  .act reaches (.ref object (reaches.formed.counted.live_of_owed owed))

theorem tgRef (reaches : Reaches tidy origin first s held)
    {group : TgPtr} (linked : s.graph.Linked (.tg group)) :
    Reaches tidy origin first (s.xpmemTgRef group)
      (.ref (.tg group) ::ₘ held) :=
  reaches.ref (s.graph.owed_pos linked)

theorem segRef (reaches : Reaches tidy origin first s held)
    {seg : SegPtr} (linked : s.graph.Linked (.seg seg)) :
    Reaches tidy origin first (s.xpmemSegRef seg)
      (.ref (.seg seg) ::ₘ held) :=
  reaches.ref (s.graph.owed_pos linked)

theorem apRef (reaches : Reaches tidy origin first s held)
    {permit : ApPtr} (linked : s.graph.Linked (.ap permit)) :
    Reaches tidy origin first (s.xpmemApRef permit)
      (.ref (.ap permit) ::ₘ held) :=
  reaches.ref (s.graph.owed_pos linked)

theorem attRef (reaches : Reaches tidy origin first s held)
    {att : AttPtr} (linked : s.graph.Linked (.att att)) :
    Reaches tidy origin first (s.xpmemAttRef att)
      (.ref (.att att) ::ₘ held) :=
  reaches.ref (s.graph.owed_pos linked)

/-- The segment of a permit and its group may be referenced. -/
theorem sourceRefs (reaches : Reaches tidy origin first s held)
    {permit : ApPtr} (linked : s.graph.Linked (.ap permit)) :
    Reaches tidy origin first
      ((s.xpmemSegRef (s.ap permit).seg).xpmemTgRef
        (s.seg (s.ap permit).seg).tg)
      (.ref (.tg (s.seg (s.ap permit).seg).tg) ::ₘ
        .ref (.seg (s.ap permit).seg) ::ₘ held) := by
  obtain ⟨seg, group⟩ :=
    Graph.owed_pos_of_permit reaches.formed.graph linked
  have graph := State.graph_eq_of_shape
    (shape_xpmemSegRef s (s.ap permit).seg)
  have entered : Reaches tidy origin first
      (s.xpmemSegRef (s.ap permit).seg)
      (.ref (.seg (s.ap permit).seg) ::ₘ held) :=
    reaches.ref seg
  have owed : 0 < (s.xpmemSegRef (s.ap permit).seg).graph.owed
      (.tg (s.seg (s.ap permit).seg).tg) := by
    rw [graph]
    exact group
  exact entered.ref owed

theorem tgDeref {group : TgPtr}
    (reaches : Reaches tidy origin first s (.ref (.tg group) ::ₘ held)) :
    Reaches tidy origin first (s.xpmemTgDeref group) held :=
  .act reaches (.deref (.tg group))

theorem segDeref {seg : SegPtr}
    (reaches : Reaches tidy origin first s (.ref (.seg seg) ::ₘ held)) :
    Reaches tidy origin first (s.xpmemSegDeref seg) held :=
  .act reaches (.deref (.seg seg))

theorem apDeref {permit : ApPtr}
    (reaches : Reaches tidy origin first s (.ref (.ap permit) ::ₘ held)) :
    Reaches tidy origin first (s.xpmemApDeref permit) held :=
  .act reaches (.deref (.ap permit))

theorem attDeref {att : AttPtr}
    (reaches : Reaches tidy origin first s (.ref (.att att) ::ₘ held)) :
    Reaches tidy origin first (s.xpmemAttDeref att) held :=
  .act reaches (.deref (.att att))

/-- Exchange the two tokens taken last. -/
theorem swap {upper lower : Token}
    (reaches : Reaches tidy origin first s (upper ::ₘ lower ::ₘ held)) :
    Reaches tidy origin first s (lower ::ₘ upper ::ₘ held) :=
  reaches.of_eq (Multiset.cons_swap _ _ _)

/-- Bring the third token to the front. -/
theorem third {upper lower last : Token}
    (reaches : Reaches tidy origin first s
      (upper ::ₘ lower ::ₘ last ::ₘ held)) :
    Reaches tidy origin first s (last ::ₘ upper ::ₘ lower ::ₘ held) := by
  refine reaches.of_eq ?_
  rw [Multiset.cons_swap lower last, Multiset.cons_swap upper last]

end Reaches

/-! ## Lookups -/

theorem findTg_eq_some {tgid : Pid} {all : Bool} {group : TgPtr}
    (found : s.findTg tgid all = some group) :
    s.graph.Linked (.tg group) ∧ (s.tg group).tgid = tgid ∧
      (all = false → (s.tg group).destroying = false) := by
  have holds := List.find?_some found
  have member := List.mem_of_find?_eq_some found
  simp only [Bool.and_eq_true, decide_eq_true_eq, Bool.or_eq_true,
    Bool.not_eq_true'] at holds
  refine ⟨?_, holds.1, ?_⟩
  · change group ∈ s.myPart.tgHashtable
      (xpmemTgHashtableIndex (s.tg group).tgid)
    rw [holds.1]
    exact member
  · rintro rfl
    exact holds.2.resolve_left (by simp)

theorem findTg_eq_none {tgid : Pid} {all : Bool} {group : TgPtr}
    (missing : s.findTg tgid all = none)
    (linked : s.graph.Linked (.tg group))
    (same : (s.tg group).tgid = tgid) :
    all = false ∧ (s.tg group).destroying = true := by
  have member : group ∈ s.myPart.tgHashtable
      (xpmemTgHashtableIndex (s.tg group).tgid) := linked
  rw [same] at member
  have fails := List.find?_eq_none.mp missing group member
  simpa [same] using fails

namespace WellFormed

/-- An object whose destruction has not begun is not destroyed. -/
theorem destroyed_eq_false (formed : WellFormed s held) {object : Ref}
    (live : s.graph.destroying object = false) :
    s.graph.destroyed object = false := by
  rw [Bool.eq_false_iff]
  intro destroyed
  have destroying := (formed.graph.done object destroyed).1
  rw [live] at destroying
  cases destroying

theorem findSeg (formed : WellFormed s held) {group : TgPtr}
    {segid : BitVec 64} {seg : SegPtr}
    (found : s.findSeg group segid = some seg) :
    s.graph.Linked (.seg seg) ∧ (s.seg seg).tg = group ∧
      (s.seg seg).segid = segid ∧ (s.seg seg).destroying = false := by
  have holds := List.find?_some found
  have member : seg ∈ s.graph.segs group :=
    List.mem_of_find?_eq_some found
  simp only [Bool.and_eq_true, decide_eq_true_eq,
    Bool.not_eq_true'] at holds
  exact ⟨formed.graph.segs.mem_owner member,
    formed.graph.segs.owned group seg member, holds⟩

theorem findAp (formed : WellFormed s held) {group : TgPtr}
    {apid : BitVec 64} {permit : ApPtr}
    (found : s.findAp group apid = some permit) :
    s.graph.Linked (.ap permit) ∧ (s.ap permit).tg = group ∧
      (s.ap permit).destroying = false := by
  obtain ⟨first, live⟩ := Option.filter_eq_some_iff.mp found
  have member :
      permit ∈ s.graph.slots (group, xpmemApHashtableIndex K apid) :=
    List.mem_of_find?_eq_some first
  have slot := formed.graph.slots.owned _ permit member
  refine ⟨?_, congrArg Prod.fst slot, by simpa using live⟩
  exact (formed.graph.slot_iff permit).mp
    (formed.graph.slots.mem_owner member)

end WellFormed

/-! ## Winding down -/

/--
What detaching, releasing and removing leave alone: processes and groups
stay, and lists only lose members.
-/
structure Winds (s t : State K) : Prop where
  proc : t.proc = s.proc
  hash : t.myPart.tgHashtable = s.myPart.tgHashtable
  notifiers : ∀ mm, (t.mm mm).notifiers = (s.mm mm).notifiers
  tg : ∀ group, (t.tg group).record = (s.tg group).record
  destroyed : ∀ group, (t.tg group).destroyed = (s.tg group).destroyed
  seg : ∀ seg, (t.seg seg).record = (s.seg seg).record
  ap : ∀ permit, (t.ap permit).record = (s.ap permit).record
  att : ∀ att, (t.att att).record = (s.att att).record
  segs : ∀ group, (t.tg group).segList ⊆ (s.tg group).segList
  slots : ∀ group index,
    (t.tg group).apHashtable index ⊆ (s.tg group).apHashtable index

namespace Winds

variable {u : State K}

theorem of_objects (same : t.objects = s.objects) : Winds s t where
  proc := congrArg (fun u => u.proc) same
  hash := congrArg (fun u => u.myPart.tgHashtable) same
  notifiers mm := congrArg (fun u => (u.mm mm).notifiers) same
  tg group := congrArg (fun u => (u.tg group).record) same
  destroyed group := congrArg (fun u => (u.tg group).destroyed) same
  seg seg := congrArg (fun u => (u.seg seg).record) same
  ap permit := congrArg (fun u => (u.ap permit).record) same
  att att := congrArg (fun u => (u.att att).record) same
  segs group := by
    have list : (t.tg group).segList = (s.tg group).segList :=
      congrArg (fun u => (u.tg group).segList) same
    exact list ▸ fun _ member => member
  slots group index := by
    have list : (t.tg group).apHashtable index =
        (s.tg group).apHashtable index :=
      congrArg (fun u => (u.tg group).apHashtable index) same
    exact list ▸ fun _ member => member

theorem of_shape (same : t.shape = s.shape) : Winds s t := by
  apply of_objects
  change t.shape.objects = s.shape.objects
  rw [same]

theorem refl (s : State K) : Winds s s :=
  of_shape rfl

theorem trans (earlier : Winds s t) (later : Winds t u) : Winds s u where
  proc := later.proc.trans earlier.proc
  hash := later.hash.trans earlier.hash
  notifiers mm := (later.notifiers mm).trans (earlier.notifiers mm)
  tg group := (later.tg group).trans (earlier.tg group)
  destroyed group :=
    (later.destroyed group).trans (earlier.destroyed group)
  seg seg := (later.seg seg).trans (earlier.seg seg)
  ap permit := (later.ap permit).trans (earlier.ap permit)
  att att := (later.att att).trans (earlier.att att)
  segs group _ member := earlier.segs group (later.segs group member)
  slots group index _ member :=
    earlier.slots group index (later.slots group index member)

/-- What a change of one group may do. -/
theorem modTg (winds : Winds u s) {group : TgPtr}
    {change : ThreadGroup → ThreadGroup}
    (record : (change (s.tg group)).record = (s.tg group).record)
    (destroyed : (change (s.tg group)).destroyed = (s.tg group).destroyed)
    (segs : (change (s.tg group)).segList ⊆ (s.tg group).segList)
    (slots : ∀ index, (change (s.tg group)).apHashtable index ⊆
      (s.tg group).apHashtable index) :
    Winds u (s.modTg group change) := by
  refine winds.trans ?_
  constructor <;> simp only [State.modTg, Function.update_apply] <;> grind

theorem modSeg (winds : Winds u s) {seg : SegPtr}
    {change : Segment → Segment}
    (record : (change (s.seg seg)).record = (s.seg seg).record) :
    Winds u (s.modSeg seg change) := by
  refine { winds with seg := fun other => ?_ }
  rw [← winds.seg]
  simp only [State.modSeg, Function.update_apply]
  grind

theorem modAp (winds : Winds u s) {permit : ApPtr}
    {change : AccessPermit → AccessPermit}
    (record : (change (s.ap permit)).record = (s.ap permit).record) :
    Winds u (s.modAp permit change) := by
  refine { winds with ap := fun other => ?_ }
  rw [← winds.ap]
  simp only [State.modAp, Function.update_apply]
  grind

theorem modAtt (winds : Winds u s) {att : AttPtr}
    {change : Attachment → Attachment}
    (record : (change (s.att att)).record = (s.att att).record) :
    Winds u (s.modAtt att change) := by
  refine { winds with att := fun other => ?_ }
  rw [← winds.att]
  simp only [State.modAtt, Function.update_apply]
  grind

theorem flag (winds : Winds u s) (object : Ref) (value : Bool) :
    Winds u (s.flag object value) := by
  unfold State.flag
  cases object with
  | tg group =>
      exact winds.modTg rfl rfl (List.Subset.refl _)
        fun _ => List.Subset.refl _
  | seg seg => exact winds.modSeg rfl
  | ap permit => exact winds.modAp rfl
  | att att => exact winds.modAtt rfl

theorem unlinkAtt (winds : Winds u s) (permit : ApPtr) (att : AttPtr) :
    Winds u (unlinkAtt s permit att) :=
  winds.modAp rfl

theorem unlinkAp (winds : Winds u s) (group : TgPtr) (permit : ApPtr) :
    Winds u (unlinkAp s group permit) := by
  simp only [Driver.unlinkAp]
  refine modSeg (modTg (winds.modAp rfl) rfl rfl (List.Subset.refl _)
    fun index => ?_) rfl
  simp only [Function.update_apply]
  split
  · rename_i here
    exact here ▸ List.erase_subset
  · exact List.Subset.refl _

theorem unlinkSeg (winds : Winds u s) (group : TgPtr) (seg : SegPtr) :
    Winds u (unlinkSeg s group seg) := by
  simp only [Driver.unlinkSeg]
  exact modTg (winds.modSeg rfl) rfl rfl List.erase_subset
    fun _ => List.Subset.refl _

theorem tgid (winds : Winds s t) (group : TgPtr) :
    (t.tg group).tgid = (s.tg group).tgid := by
  have same := congrArg ThreadGroup.tgid (winds.tg group)
  exact same

theorem mm (winds : Winds s t) (group : TgPtr) :
    (t.tg group).mm = (s.tg group).mm := by
  have same := congrArg ThreadGroup.mm (winds.tg group)
  exact same

theorem segOf (winds : Winds s t) (att : AttPtr) :
    t.segOf att = s.segOf att := by
  have owner := congrArg Attachment.ap (winds.att att)
  have seg := congrArg AccessPermit.seg (winds.ap (s.att att).ap)
  change (t.att att).ap = (s.att att).ap at owner
  rw [State.segOf, owner]
  exact seg

theorem linked (winds : Winds s t) (group : TgPtr) :
    t.graph.Linked (.tg group) ↔ s.graph.Linked (.tg group) := by
  change group ∈ t.myPart.tgHashtable
      (xpmemTgHashtableIndex (t.tg group).tgid) ↔
    group ∈ s.myPart.tgHashtable
      (xpmemTgHashtableIndex (s.tg group).tgid)
  rw [winds.hash, winds.tgid]

end Winds

/-! ## What is unlinked -/

/-- Objects other than those that are gone stay linked. -/
structure Unlinks (s t : State K) (gone : Ref → Prop) : Prop where
  winds : Winds s t
  linked : ∀ object, ¬ gone object → s.graph.Linked object →
    t.graph.Linked object

namespace Unlinks

variable {u : State K} {gone : Ref → Prop}

theorem of_objects (same : t.objects = s.objects) (gone : Ref → Prop) :
    Unlinks s t gone where
  winds := .of_objects same
  linked object _ linked := by
    rw [State.graph_eq_of_objects same]
    exact linked

theorem of_shape (same : t.shape = s.shape) (gone : Ref → Prop) :
    Unlinks s t gone where
  winds := .of_shape same
  linked object _ linked := by
    rw [State.graph_eq_of_shape same]
    exact linked

theorem refl (s : State K) (gone : Ref → Prop) : Unlinks s s gone :=
  of_shape rfl gone

theorem mono {more : Ref → Prop} (unlinks : Unlinks s t gone)
    (weaker : ∀ object, gone object → more object) :
    Unlinks s t more where
  winds := unlinks.winds
  linked object stays :=
    unlinks.linked object fun here => stays (weaker object here)

theorem trans (earlier : Unlinks s t gone) (later : Unlinks t u gone) :
    Unlinks s u gone where
  winds := earlier.winds.trans later.winds
  linked object stays linked :=
    later.linked object stays (earlier.linked object stays linked)

theorem flag (s : State K) (object : Ref) (value : Bool)
    (gone : Ref → Prop) : Unlinks s (s.flag object value) gone where
  winds := (Winds.refl s).flag object value
  linked other _ linked := by
    rw [State.graph_flag]
    cases other <;> exact linked

theorem unlinkAtt (sound : s.graph.Sound held) (att : AttPtr) :
    Unlinks s (unlinkAtt s (s.att att).ap att) (· = .att att) where
  winds := (Winds.refl s).unlinkAtt _ _
  linked other stays linked := by
    rw [State.graph_unlinkAtt, (Graph.shrinks_dropAtt sound att).linked]
    exact ⟨linked, stays⟩

end Unlinks

end Xpmem.Driver
