import Xpmem.Operations.Sparing
import Xpmem.Runs.Coherence
import Xpmem.Runs.Counters

/-!
# Dropping one attachment

The pages of an attached area are shown by no attachment, since an attachment
shows ordinary areas only.  So the callbacks for an area that a detach unmaps
find nothing to put, and the state after the detach can be written down:
`State.drop` is this state.  Nothing of it depends on what was dropped before,
which is why drops of different attachments commute.
-/

namespace Xpmem.Driver

open Xpmem.Foundation Xpmem.Kernel Xpmem.Objects

variable {K : Platform} {s t : State K} {held : Held} {att : AttPtr}
    {start stop : Nat}

/-! ## The callbacks of a well-formed state -/

theorem WellFormed.listedUnder (formed : WellFormed s held) {seg : SegPtr}
    (listed : ListedUnder s seg att) :
    s.graph.Linked (.att att) ∧ s.segOf att = seg := by
  obtain ⟨permit, granted, member⟩ := listed
  have owner : (s.att att).ap = permit :=
    formed.graph.atts.owned permit att member
  refine ⟨formed.graph.atts.mem_owner member, ?_⟩
  rw [State.segOf, owner]
  exact formed.graph.permits.owned seg permit granted

theorem WellFormed.refcnt_pos (formed : WellFormed s held) {object : Ref}
    (linked : s.graph.Linked object) : 0 < s.refcnt object :=
  (formed.counted.alive object).mp (formed.allocated_of_linked linked)

theorem WellFormed.silent (formed : WellFormed s held) (calm : Calm held)
    (present : s.Bound held att) (straight : s.Straight (s.segOf att))
    (absent : ∀ page ∈ (s.place att).showing start stop,
      s.pte (s.att att).mm page = none) : Silent s att start stop where
  live := formed.att_live calm present.1
  counted := formed.refcnt_pos present.1
  bounds := formed.bounds present
  straight := formed.source_lt present straight
  absent := absent

/-- No attachment of the address space shows the range. -/
def Unshown (s : State K) (mm : MmPtr) (start stop : Nat) : Prop :=
  ∀ att, s.graph.Linked (.att att) → s.sourceMm att = mm →
    ∀ page ∈ (s.place att).showing start stop,
      s.pte (s.att att).mm page = none

theorem WellFormed.silentTg (formed : WellFormed s held) (calm : Calm held)
    (settled : Settled held) (straight : AllStraight s) {mm : MmPtr}
    (unshown : Unshown s mm start stop) {segTg : TgPtr}
    (notified : segTg ∈ (s.mm mm).notifiers) :
    SilentTg s segTg start stop := by
  intro seg member
  have owner : (s.seg seg).tg = segTg :=
    formed.graph.segs.owned segTg seg member
  have linked : s.graph.Linked (.seg seg) :=
    formed.graph.segs.mem_owner member
  have level : s.Straight seg := straight seg (formed.graph.used _ linked)
  refine ⟨formed.seg_live calm linked, formed.refcnt_pos linked, ?_, ?_, ?_⟩
  · have limit := K.taskSize_le
    rw [State.Straight] at level
    omega
  · intro permit granted
    have permitLinked : s.graph.Linked (.ap permit) :=
      formed.graph.permits.mem_owner granted
    refine ⟨formed.refcnt_pos permitLinked, fun att listed => ?_⟩
    obtain ⟨attLinked, segOf⟩ := formed.listedUnder ⟨permit, granted, listed⟩
    have source : s.sourceMm att = mm := by
      rw [State.sourceMm, segOf, owner]
      exact (formed.procs.notifier mm segTg notified).1
    refine formed.silent calm ⟨attLinked, settled att⟩ ?_
      (unshown att attLinked source)
    rw [segOf]
    exact level
  · intro att listed
    obtain ⟨attLinked, segOf⟩ := formed.listedUnder listed
    have window := formed.window_of_straight ⟨attLinked, settled att⟩
      (by rw [segOf]; exact level)
    rw [segOf] at window
    exact window

/-! ## Areas of the driver are not shown -/

theorem Coherent.unshown (coherent : Coherent s held)
    (formed : WellFormed s held) (settled : Settled held)
    (fresh : ∀ mm start stop, .stale mm start stop ∉ held)
    (straight : AllStraight s) {mm : MmPtr} {area : Vma}
    (member : area ∈ s.vmas mm) (ops : area.payload.xpmemOps = true)
    (low : area.start ≤ start) (high : stop ≤ area.stop) :
    Unshown s mm start stop := by
  intro att linked source page shown
  have present : s.Bound held att := ⟨linked, settled att⟩
  have bounds := formed.bounds present
  rw [Place.showing, Finset.mem_filter, Finset.mem_Ico] at shown
  obtain ⟨⟨first, last⟩, above, below⟩ := shown
  cases mapped : s.pte (s.att att).mm page with
  | none => rfl
  | some frame =>
      exfalso
      have leaf : s.leaf att (page - (s.place att).page) = some frame := by
        rw [State.leaf, Nat.add_sub_cancel' first]
        exact mapped
      rcases coherent att present
          (straight _ (formed.seg_used linked)) _ (by omega) frame leaf
        with ⟨_, other, there, ordinary, contains⟩ | ⟨_, _, token, _⟩
      · rw [sourcePage_mul bounds] at contains
        rw [source] at there
        have same := RangeList.eq_of_contains there member contains
          ⟨low.trans above, below.trans_le high⟩
        rw [same, ops] at ordinary
        cases ordinary
      · exact fresh _ _ _ token

/-! ## Unmapping an area that carries no attachment any more -/

/-- A state in which the counters and the segments do not wrap around. -/
structure Steady (s : State K) (held : Held) : Prop where
  formed : WellFormed s held
  coherent : Coherent s held
  straight : AllStraight s
  normal : Normal s

theorem Steady.reaches {more : Held} (steady : Steady s held)
    (reaches : Reaches False s held t more) (straight : AllStraight t)
    (normal : Normal t) : Steady t more where
  formed := reaches.formed
  coherent := reaches.invariant steady.coherent
    fun _ _ _ _ formed act coherent => coherent.of_act act formed
  straight := straight
  normal := normal

/-- Nothing is under way that a callback could notice. -/
structure Peaceful (held : Held) : Prop where
  calm : Calm held
  settled : Settled held
  fresh : ∀ mm start stop, .stale mm start stop ∉ held

theorem Peaceful.cons_ref (peaceful : Peaceful held) {object : Ref} :
    Peaceful (.ref object ::ₘ held) where
  calm := peaceful.calm.cons_ref
  settled := peaceful.settled.cons_ref
  fresh mm start stop token := peaceful.fresh mm start stop (by simpa using token)

/-- Take out the areas that meet `[start, stop)`, none of which is cut. -/
def State.unmapAreas (s : State K) (mm : MmPtr) (start stop : Nat) :
    State K :=
  s.setSpace mm ((s.vmas mm).discard start stop)
    ((s.mm mm).table.clear (start / pageSize) (stop / pageSize))
    (s.nextVma + 1)

theorem unmapRange_eq_unmapAreas {mm : MmPtr} (proper : start < stop)
    (inside : ∀ area ∈ s.vmas mm, area.Meets start stop →
      start ≤ area.start ∧ area.stop ≤ stop) :
    unmapRange s mm start stop proper = s.unmapAreas mm start stop := by
  rw [State.unmapAreas, ← RangeList.carve_eq_discard inside]
  rfl

theorem covered_congr {mm : MmPtr}
    (notifiers : (t.mm mm).notifiers = (s.mm mm).notifiers)
    (segs : ∀ group, (t.tg group).segList = (s.tg group).segList)
    (permits : ∀ seg, (t.seg seg).apList = (s.seg seg).apList)
    (atts : ∀ permit,
      att ∈ (t.ap permit).attList ↔ att ∈ (s.ap permit).attList)
    (place : t.place att = s.place att) :
    Covered t mm start stop att ↔ Covered s mm start stop att := by
  simp only [Covered, CoveredBelow, CoveredUnder, ListedUnder, notifiers,
    segs, permits, atts, place]

theorem covered_of_objects {mm : MmPtr} (objects : t.objects = s.objects)
    (place : t.place = s.place) :
    Covered t mm start stop = Covered s mm start stop := by
  have permits (permit : ApPtr) :
      (t.ap permit).attList = (s.ap permit).attList :=
    congrArg (fun u => (u.ap permit).attList) objects
  funext att
  apply propext
  apply covered_congr
  · exact congrArg (fun u => (u.mm mm).notifiers) objects
  · intro group
    exact congrArg (fun u => (u.tg group).segList) objects
  · intro seg
    exact congrArg (fun u => (u.seg seg).apList) objects
  · intro permit
    rw [permits]
  · rw [place]

theorem covered_of_layout {mm : MmPtr} (same : t.layout = s.layout) :
    Covered t mm start stop = Covered s mm start stop := by
  change Covered t.layout mm start stop = Covered s.layout mm start stop
  rw [same]

theorem covered_unlinkAtt {mm : MmPtr} {permit : ApPtr} {other : AttPtr}
    (apart : other ≠ att) :
    Covered (unlinkAtt s permit att) mm start stop other ↔
      Covered s mm start stop other := by
  refine covered_congr rfl (fun _ => rfl) (fun _ => rfl) ?_ rfl
  intro owner
  by_cases here : owner = permit
  · subst here
    simp [unlinkAtt, State.modAp, List.mem_erase_of_ne apart]
  · simp [unlinkAtt, State.modAp, here]

theorem closeVma_foldlM_of_plain {list : List Vma} {mm : MmPtr}
    (plain : ∀ vma ∈ list, Plain vma.payload) (s : State K) :
    list.foldlM (closeVma mm) s = some s := by
  induction list with
  | nil => rfl
  | cons vma rest induction =>
      obtain ⟨here, later⟩ := List.forall_mem_cons.mp plain
      rw [List.foldlM_cons, closeVma_of_plain here]
      exact induction later

/--
The callbacks for a part of an attached area find nothing to put, whatever
the unmap has cut.
-/
theorem Steady.notify_unmapRange (steady : Steady s held)
    (peaceful : Peaceful held) (reach : K.pgdOrder < 31) {current : Task}
    {mm : MmPtr} (running : s.proc current.tgid = .running mm) {area : Vma}
    (member : area ∈ s.vmas mm) (ops : area.payload.xpmemOps = true)
    (proper : start < stop) (startAligned : start % pageSize = 0)
    (stopAligned : stop % pageSize = 0) (low : area.start ≤ start)
    (high : stop ≤ area.stop) :
    notifyInvalidateRange (unmapRange s mm start stop proper) current mm
        start stop =
      some ((unmapRange s mm start stop proper).lowerFlags
        (Covered s mm start stop)) := by
  obtain ⟨formed, coherent, straight, normal⟩ := steady
  obtain ⟨calm, settled, fresh⟩ := peaceful
  have unshown := coherent.unshown formed settled fresh straight member ops
    low high
  have notifiers : ((unmapRange s mm start stop proper).mm mm).notifiers =
      (s.mm mm).notifiers := by
    simp [unmapRange, State.modMm, Mm.unmap]
  have free :
      ((unmapRange s mm start stop proper).vmas mm).Free start stop := by
    rw [vmas_unmapRange, Function.update_self]
    exact RangeList.carve_free _ _ _ _ proper
  have same : Covered (unmapRange s mm start stop proper) mm start stop =
      Covered s mm start stop :=
    covered_of_objects (s.objects_setSpace mm _ _ _) rfl
  rw [← same]
  refine notifyInvalidateRange_silent ?_ ⟨normal.group, normal.unpinned⟩
    reach ⟨startAligned, stopAligned, proper.le⟩ ?_ free
  · intro segTg notified
    rw [notifiers] at notified
    refine (formed.silentTg calm settled straight unshown notified).fewer
      rfl rfl rfl rfl ?_
    intro space page absent
    change (s.setSpace mm _ ((s.mm mm).table.clear (start / pageSize)
      (stop / pageSize)) _).pte space page = none
    rw [State.pte_setSpace, Function.update_apply]
    split
    · rename_i here
      rw [PageTable.clear_pte]
      split
      · rfl
      · exact here ▸ absent
    · exact absent
  · intro segTg notified
    rw [notifiers] at notified
    obtain ⟨_, _, runs, _⟩ := formed.procs.notifier mm segTg notified
    exact formed.procs.injective _ _ _ runs running

theorem Steady.vmMunmap_eq (steady : Steady s held) (peaceful : Peaceful held)
    (reach : K.pgdOrder < 31) {current : Task} {mm : MmPtr}
    (running : s.proc current.tgid = .running mm) {area : Vma}
    (member : area ∈ s.vmas mm) (ops : area.payload.xpmemOps = true)
    (bald : area.payload.privateData = none) :
    vmMunmap s current mm area.start area.stop =
      some ((s.unmapAreas mm area.start area.stop).lowerFlags
        (Covered s mm area.start area.stop)) := by
  have proper := RangeList.start_lt_stop member
  obtain ⟨startAligned, stopAligned, _⟩ :=
    steady.formed.laid.placed.fits mm area member
  have only (other : Vma) (there : other ∈ s.vmas mm)
      (meets : other.Meets area.start area.stop) : other = area :=
    RangeList.eq_of_meets there member meets
  have cut := @unmapRange_eq_unmapAreas _ s _ _ mm proper (by
    intro other there meets
    rw [only other there meets]
    exact ⟨le_rfl, le_rfl⟩)
  have notified := steady.notify_unmapRange peaceful reach running member
    ops proper startAligned stopAligned le_rfl le_rfl
  unfold Driver.vmMunmap
  rw [dif_pos proper, if_neg]
  · extract_lets removed
    rw [notified, Option.bind_some, closeVma_foldlM_of_plain, cut]
    intro piece found
    obtain ⟨other, meeting, rfl⟩ := List.mem_map.mp found
    obtain ⟨there, meets⟩ := RangeList.mem_meeting_iff.mp meeting
    rw [only other there meets, if_pos ⟨le_rfl, le_rfl⟩]
    exact Or.inr bald
  · intro gap
    rcases gap area member with before | before
    · exact absurd proper (not_lt.mpr before)
    · exact absurd proper (not_lt.mpr before)

/-! ## What one detach takes away -/

/-- What a detach of one attachment takes away. -/
structure Parting where
  att : AttPtr
  permit : ApPtr
  seg : SegPtr
  mm : MmPtr
  start : Nat
  stop : Nat
  put : List (Nat × Frame)
  covered : AttPtr → Prop

namespace State

/-- The pages that a walk over the attachment puts. -/
def putOf (s : State K) (att : AttPtr) : List (Nat × Frame) :=
  mappedPages (s.mm (s.att att).mm).table (s.place att).page
    (int32 (s.place att).pages).toNat

def parting (s : State K) (att : AttPtr) : Parting where
  att := att
  permit := (s.att att).ap
  seg := s.segOf att
  mm := (s.att att).mm
  start := (s.att att).atVaddr
  stop := (s.att att).atVaddr + (s.att att).atSize
  put := s.putOf att
  covered := Covered s (s.att att).mm (s.att att).atVaddr
    ((s.att att).atVaddr + (s.att att).atSize)

/-- The state without what the detach takes away. -/
noncomputable def strip (s : State K) (parting : Parting) : State K :=
  unlinkAtt
    (((putPages s parting.seg parting.put).unmapAreas parting.mm
      parting.start parting.stop).lowerFlags
        fun other => other = parting.att ∨ parting.covered other)
    parting.permit parting.att

/-- The same, with the attachment freed. -/
noncomputable def drop (s : State K) (parting : Parting) : State K :=
  (s.strip parting).modAtt parting.att fun record =>
    { record with
      destroying := true, refcnt := record.refcnt - 1, allocated := false }

/-- Cut an area off from its attachment, and unlink the attachment. -/
def cutOff (s : State K) (mm : MmPtr) (vma : Nat) (permit : ApPtr)
    (att : AttPtr) : State K :=
  unlinkAtt
    ((s.modMm mm fun space => space.updateVma vma fun info =>
      { info with privateData := none }).setValid att false) permit att

/-- The state between the two halves of a detach. -/
def sever (s : State K) (att : AttPtr) (area : Vma) : State K :=
  (putPages s (s.segOf att) (s.putOf att)).cutOff (s.att att).mm
    area.payload.vma (s.att att).ap att

end State

theorem WellFormed.detachUnlink_eq (formed : WellFormed s held)
    (present : s.Bound held att) (reach : K.pgdOrder < 31) (area : Vma) :
    detachUnlink s (s.att att).mm (s.att att).ap att area =
      some (s.sever att area) := by
  have bounds := formed.bounds present
  have walked : s.walk att (s.place att).page (s.place att).pages =
      some (s.putOf att) := by
    apply unpinWalk_of_reach reach
    have limit := K.taskSize_le
    have below := bounds.below
    unfold Place.page Place.pages
    unfold pageSize
    omega
  have unpin := formed.unpinPages_eq present
  rw [walked, Option.map_some] at unpin
  unfold Driver.detachUnlink
  change ((xpmemUnpinPages s (s.segOf att) _ _ _).map _) = _
  rw [unpin]
  rfl

theorem Normal.cutOff (normal : Normal s) (mm : MmPtr) (vma : Nat)
    (permit : ApPtr) (att : AttPtr) :
    Normal (s.cutOff mm vma permit att) :=
  ⟨normal.group, normal.unpinned⟩

theorem AllStraight.putPages (straight : AllStraight s) (seg : SegPtr)
    (put : List (Nat × Frame)) : AllStraight (putPages s seg put) := by
  rw [putPages_eq]
  exact straight

theorem AllStraight.cutOff (straight : AllStraight s) (mm : MmPtr)
    (vma : Nat) (permit : ApPtr) (att : AttPtr) :
    AllStraight (s.cutOff mm vma permit att) :=
  straight

theorem Steady.sever (steady : Steady s (.closing (.att att) ::ₘ held))
    (present : s.Bound held att) (reach : K.pgdOrder < 31) {area : Vma}
    (member : area ∈ s.vmas (s.att att).mm)
    (carries : area.payload.privateData = some att) :
    Steady (s.sever att area) (.ref (.att att) ::ₘ held) := by
  have bound : s.Bound (.closing (.att att) ::ₘ held) att :=
    ⟨present.1, by simpa using present.2⟩
  have reached := ((@Reaches.here _ False _ _ steady.formed).detachUnlink
    present member carries).of_eq
      (steady.formed.detachUnlink_eq bound reach area)
  exact steady.reaches reached.1
    ((steady.straight.putPages _ _).cutOff _ _ _ _)
    ((steady.normal.putPages _ _).cutOff _ _ _ _)

/-- What was done to the area before it is unmapped does not matter. -/
theorem unmapAreas_updateVma {mm : MmPtr} {area : Vma}
    (member : area ∈ s.vmas mm)
    (unique : ∀ other ∈ s.vmas mm,
      other.payload.vma = area.payload.vma → other = area)
    (change : VmaInfo → VmaInfo) :
    (s.modMm mm fun space =>
        space.updateVma area.payload.vma change).unmapAreas mm area.start
          area.stop =
      s.unmapAreas mm area.start area.stop := by
  have proper := RangeList.start_lt_stop member
  have gone := @RangeList.discard_mapPayload _ (s.vmas mm)
    (fun info => if info.vma = area.payload.vma then change info else info)
    area.start area.stop (by
      intro other there apart
      apply if_neg
      intro same
      rw [unique other there same] at apart
      exact apart ⟨proper, proper⟩)
  have areas : (s.modMm mm fun space =>
      space.updateVma area.payload.vma change).vmas mm =
        (s.vmas mm).mapPayload fun info =>
          if info.vma = area.payload.vma then change info else info := by
    simp [State.vmas, State.modMm, Mm.updateVma]
  have table : ((s.modMm mm fun space =>
      space.updateVma area.payload.vma change).mm mm).table =
        (s.mm mm).table := by
    simp [State.modMm, Mm.updateVma]
  rw [State.unmapAreas, areas, gone, table]
  simp [State.unmapAreas, State.setSpace, State.modMm, Mm.updateVma]

theorem covered_cutOff {mm space : MmPtr} {vma : Nat} {permit : ApPtr}
    {other : AttPtr} (apart : other ≠ att) :
    Covered (s.cutOff space vma permit att) mm start stop other ↔
      Covered s mm start stop other := by
  refine (covered_unlinkAtt apart).trans
    (iff_of_eq (congrFun (covered_of_objects ?_ ?_) other))
  · exact (State.objects_modAtt _ _ rfl).trans (State.objects_modMm _ _ rfl)
  · exact State.place_setValid _ _ _

theorem unmapAreas_cutOff {mm : MmPtr} {area : Vma} {permit : ApPtr}
    (member : area ∈ s.vmas mm)
    (unique : ∀ other ∈ s.vmas mm,
      other.payload.vma = area.payload.vma → other = area)
    (covered : AttPtr → Prop) :
    ((s.cutOff mm area.payload.vma permit att).unmapAreas mm area.start
        area.stop).lowerFlags covered =
      unlinkAtt ((s.unmapAreas mm area.start area.stop).lowerFlags
        fun other => other = att ∨ covered other) permit att := by
  have unmapped := unmapAreas_updateVma member unique
    fun info => { info with privateData := none }
  rw [← State.lowerFlags_lowerFlags, ← State.setValid_eq_lowerFlags,
    ← unmapped]
  rfl

/-- The unmapping of an area that was cut off from its attachment. -/
theorem unmapAreas_sever {area : Vma} (member : area ∈ s.vmas (s.att att).mm)
    (unique : ∀ other ∈ s.vmas (s.att att).mm,
      other.payload.vma = area.payload.vma → other = area)
    (occupies : Occupies (s.place att) att area) :
    ((s.sever att area).unmapAreas (s.att att).mm area.start
        area.stop).lowerFlags
      (Covered (s.sever att area) (s.att att).mm area.start area.stop) =
      s.strip (s.parting att) := by
  have start : area.start = (s.att att).atVaddr := occupies.start
  have stop : area.stop = (s.att att).atVaddr + (s.att att).atSize :=
    occupies.stop
  have put : (putPages s (s.segOf att) (s.putOf att)).vmas = s.vmas := by
    unfold State.vmas
    rw [putPages_mm]
  have shape := shape_putPages s (s.segOf att) (s.putOf att)
  unfold State.sever
  rw [unmapAreas_cutOff (by rw [put]; exact member)
    (by rw [put]; exact unique), State.strip]
  simp only [State.parting]
  rw [← stop, ← start]
  congr 1
  refine State.lowerFlags_congr fun other => or_congr_right' fun apart => ?_
  rw [covered_cutOff apart, covered_of_layout
    (State.layout_eq_of_shape shape)]

theorem vmas_cutOff (s : State K) (mm : MmPtr) (vma : Nat)
    (permit : ApPtr) (att : AttPtr) :
    (s.cutOff mm vma permit att).vmas mm =
      (s.vmas mm).mapPayload fun info =>
        if info.vma = vma then { info with privateData := none }
        else info := by
  simp [State.vmas, State.cutOff, unlinkAtt, State.modAp, State.setValid,
    State.modAtt, State.modMm, Mm.updateVma]

theorem exists_mem_vmas_sever {area : Vma} (att : AttPtr)
    (member : area ∈ s.vmas (s.att att).mm) :
    ∃ piece ∈ (s.sever att area).vmas (s.att att).mm,
      piece.start = area.start ∧ piece.stop = area.stop ∧
        piece.payload.xpmemOps = area.payload.xpmemOps ∧
        piece.payload.privateData = none := by
  have areas : (s.sever att area).vmas (s.att att).mm =
      (s.vmas (s.att att).mm).mapPayload fun info =>
        if info.vma = area.payload.vma then
          { info with privateData := none } else info := by
    rw [State.sever, vmas_cutOff, State.vmas, putPages_mm]
    rfl
  refine ⟨{ area with payload := { area.payload with privateData := none } },
    ?_, rfl, rfl, rfl, rfl⟩
  rw [areas]
  refine RangeList.mem_mapPayload_iff.mpr ⟨area, member, ?_⟩
  simp

/-- The common part of `xpmem_detach` and `xpmem_detach_att`. -/
theorem Steady.detach_eq (steady : Steady s (.closing (.att att) ::ₘ held))
    (peaceful : Peaceful held) (present : s.Bound held att)
    (reach : K.pgdOrder < 31) {current : Task}
    (running : s.proc current.tgid = .running (s.att att).mm) {area : Vma}
    (member : area ∈ s.vmas (s.att att).mm)
    (occupies : Occupies (s.place att) att area) :
    ((detachUnlink s (s.att att).mm (s.att att).ap att area).bind
      fun u => vmMunmap u current (s.att att).mm area.start
        (area.start + (u.att att).atSize)) =
      some (s.strip (s.parting att)) := by
  have formed := steady.formed
  have bound : s.Bound (.closing (.att att) ::ₘ held) att :=
    ⟨present.1, by simpa using present.2⟩
  have carries := occupies.privateData
  have unique (other : Vma) (there : other ∈ s.vmas (s.att att).mm)
      (same : other.payload.vma = area.payload.vma) : other = area :=
    formed.laid.placed.identity _ area member other there
      (by rw [carries]; simp) same
  have unlinked := formed.detachUnlink_eq bound reach area
  obtain ⟨_, unlinks, unattached, size⟩ :=
    ((@Reaches.here _ False _ _ formed).detachUnlink present member
      carries).of_eq unlinked
  have later := steady.sever present reach member carries
  rw [unlinked, Option.bind_some, size,
    ← unmapAreas_sever member unique occupies]
  have stop : area.start + (s.att att).atSize = area.stop := by
    rw [occupies.start, occupies.stop]
    rfl
  rw [stop]
  obtain ⟨piece, there, low, high, ops, none⟩ :=
    exists_mem_vmas_sever att member
  have unmapped := later.vmMunmap_eq peaceful.cons_ref reach
    (by rw [unlinks.winds.proc]; exact running) there
    (ops.trans occupies.ops) none
  rw [low, high] at unmapped
  exact unmapped

/-! ## Dropping and counting -/

theorem parting_of_layout (same : t.layout = s.layout) (att : AttPtr) :
    t.parting att = s.parting att := by
  change t.layout.parting att = s.layout.parting att
  rw [same]

/-- Changes of two entries that commute can be made in any order. -/
theorem update_update_comm {α β : Type} [DecidableEq α] (heap : α → β)
    (left right : α) (change other : β → β)
    (comm : ∀ value, other (change value) = change (other value)) :
    Function.update (Function.update heap left (change (heap left))) right
        (other (Function.update heap left (change (heap left)) right)) =
      Function.update (Function.update heap right (other (heap right))) left
        (change (Function.update heap right (other (heap right)) left)) := by
  by_cases same : left = right
  · subst same
    simp [comm]
  · simp only [Function.update_of_ne same,
      Function.update_of_ne (Ne.symm same)]
    exact Function.update_comm same _ _ heap

theorem strip_eq (s : State K) (parting : Parting) :
    s.strip parting =
      { s with
        tg := Function.update s.tg (s.seg parting.seg).tg
          { s.tg (s.seg parting.seg).tg with
            nPinned := int32 ((s.tg (s.seg parting.seg).tg).nPinned -
              parting.put.length) }
        ap := Function.update s.ap parting.permit
          { s.ap parting.permit with
            attList := (s.ap parting.permit).attList.erase parting.att }
        att := (s.lowerFlags fun other =>
          other = parting.att ∨ parting.covered other).att
        mm := Function.update s.mm parting.mm
          { s.mm parting.mm with
            vmas := (s.mm parting.mm).vmas.discard parting.start
              parting.stop
            table := (s.mm parting.mm).table.clear
              (parting.start / pageSize) (parting.stop / pageSize) }
        nextVma := s.nextVma + 1
        pageRefs := fun frame => s.pageRefs frame -
          (parting.put.map Prod.snd).count frame
        myPart :=
          { s.myPart with
            nUnpinned := int32 (s.myPart.nUnpinned +
              parting.put.length) } } := by
  rw [State.strip, putPages_eq]
  rfl

section Strip

variable (s) (parting : Parting)

theorem strip_att : (s.strip parting).att = (s.lowerFlags fun other =>
    other = parting.att ∨ parting.covered other).att := by
  rw [strip_eq]

theorem strip_refcnt_ap (permit : ApPtr) :
    ((s.strip parting).ap permit).refcnt = (s.ap permit).refcnt := by
  rw [strip_eq]
  by_cases here : permit = parting.permit
  · subst here
    simp
  · simp [here]

theorem strip_modAtt {change : Attachment → Attachment}
    (blind : ∀ record, change { record with validPTEs := false } =
      { change record with validPTEs := false }) (att : AttPtr) :
    (s.modAtt att change).strip parting =
      (s.strip parting).modAtt att change := by
  simp only [strip_eq, State.modAtt, State.mk.injEq, true_and, and_true]
  funext other
  by_cases here : other = att
  · subst here
    by_cases lowered : other = parting.att ∨ parting.covered other
    · simp [State.lowerFlags, lowered, blind]
    · simp [State.lowerFlags, lowered]
  · simp [State.lowerFlags, here]

theorem strip_modAp {change : AccessPermit → AccessPermit}
    (blind : ∀ record, change
        { record with attList := record.attList.erase parting.att } =
      { change record with
        attList := (change record).attList.erase parting.att })
    (permit : ApPtr) :
    (s.modAp permit change).strip parting =
      (s.strip parting).modAp permit change := by
  simp only [strip_eq, State.modAp, State.mk.injEq, true_and, and_true]
  refine ⟨update_update_comm s.ap permit parting.permit change
    (fun record => { record with attList := record.attList.erase parting.att })
    fun record => ?_, rfl⟩
  exact (blind record).symm

theorem strip_apRef (permit : ApPtr) :
    (s.xpmemApRef permit).strip parting =
      (s.strip parting).xpmemApRef permit :=
  strip_modAp s parting (fun _ => rfl) permit

theorem strip_tgRef (group : TgPtr) :
    (s.xpmemTgRef group).strip parting =
      (s.strip parting).xpmemTgRef group := by
  simp only [strip_eq, State.xpmemTgRef, State.modTg, State.mk.injEq,
    true_and, and_true]
  exact ⟨update_update_comm s.tg group (s.seg parting.seg).tg
    (fun record => { record with refcnt := record.refcnt + 1 })
    (fun record =>
      { record with nPinned := int32 (record.nPinned - parting.put.length) })
    fun record => rfl, rfl⟩

end Strip

theorem clear_clear (table : PageTable K) (first last low high : Nat) :
    (table.clear first last).clear low high =
      (table.clear low high).clear first last := by
  have same : ((table.clear first last).clear low high).pte =
      ((table.clear low high).clear first last).pte := by
    funext page
    simp only [PageTable.clear_pte]
    split <;> split <;> rfl
  simp only [PageTable.clear, PageTable.mk.injEq, true_and]
  exact same

theorem strip_strip (s : State K) (parting other : Parting) :
    (s.strip parting).strip other = (s.strip other).strip parting := by
  simp only [strip_eq, State.mk.injEq, true_and, and_true]
  refine ⟨?_, ?_, ?_, ?_, ?_, ?_⟩
  · exact update_update_comm s.tg _ _
      (fun record =>
        { record with nPinned := int32 (record.nPinned - parting.put.length) })
      (fun record =>
        { record with nPinned := int32 (record.nPinned - other.put.length) })
      fun record => by simp only [int32_sub_sub, Nat.add_comm]
  · exact update_update_comm s.ap _ _
      (fun record =>
        { record with attList := record.attList.erase parting.att })
      (fun record =>
        { record with attList := record.attList.erase other.att })
      fun record => by simp only [List.erase_comm]
  · change ((s.lowerFlags _).lowerFlags _).att =
      ((s.lowerFlags _).lowerFlags _).att
    rw [State.lowerFlags_lowerFlags, State.lowerFlags_lowerFlags]
    exact congrArg State.att (State.lowerFlags_congr fun _ => or_comm)
  · rw [int32_add_add, int32_add_add, Nat.add_comm]
  · exact update_update_comm s.mm _ _
      (fun space =>
        { space with
          vmas := space.vmas.discard parting.start parting.stop
          table := space.table.clear (parting.start / pageSize)
            (parting.stop / pageSize) })
      (fun space =>
        { space with
          vmas := space.vmas.discard other.start other.stop
          table := space.table.clear (other.start / pageSize)
            (other.stop / pageSize) })
      fun space => by
        simp only [RangeList.discard_discard, clear_clear]
  · funext frame
    omega

theorem modAtt_modAtt (s : State K) (left right : AttPtr)
    {change other : Attachment → Attachment}
    (comm : ∀ record, other (change record) = change (other record)) :
    (s.modAtt left change).modAtt right other =
      (s.modAtt right other).modAtt left change :=
  congrArg (fun records => { s with att := records })
    (update_update_comm s.att left right change other comm)

/-- Detaches of two attachments commute. -/
theorem drop_drop (s : State K) (parting other : Parting) :
    (s.drop parting).drop other = (s.drop other).drop parting := by
  unfold State.drop
  rw [strip_modAtt _ _ fun _ => rfl, strip_modAtt _ _ fun _ => rfl,
    strip_strip, modAtt_modAtt _ _ _ fun _ => rfl]

/-! ## The two functions that detach -/

/-- A detach has begun: the attachment is counted and flagged. -/
def State.begun (s : State K) (att : AttPtr) : State K :=
  (s.xpmemAttRef att).flag (.att att) true

theorem layout_begun (s : State K) (att : AttPtr) :
    (s.begun att).layout = s.layout :=
  (State.layout_flag _ _ _).trans
    (State.layout_eq_of_shape (shape_xpmemAttRef s att))

theorem begun_eq (s : State K) (att : AttPtr) :
    s.begun att = s.modAtt att fun record =>
      { record with refcnt := record.refcnt + 1, destroying := true } := by
  simp [State.begun, State.xpmemAttRef, State.flag, State.modAtt]

theorem linked_begun (s : State K) (att : AttPtr) :
    (s.begun att).graph.Linked (.att att) ↔ s.graph.Linked (.att att) := by
  rw [State.begun, State.graph_flag,
    State.graph_eq_of_shape (shape_xpmemAttRef s att)]
  rfl

theorem Steady.begun (steady : Steady s held) (calm : Calm held)
    (linked : s.graph.Linked (.att att)) :
    Steady (s.begun att)
      (.closing (.att att) ::ₘ .ref (.att att) ::ₘ held) := by
  have live := steady.formed.att_live calm linked
  have counted := (@Reaches.here _ False _ _ steady.formed).attRef linked
  have stays : (s.xpmemAttRef att).graph.Linked (.att att) := by
    rw [State.graph_eq_of_shape (shape_xpmemAttRef s att)]
    exact linked
  have flagged := Reaches.act counted (.flag (.att att) stays (by
    change ((s.xpmemAttRef att).att att).destroying = false
    simpa [State.xpmemAttRef, State.modAtt] using live))
  exact steady.reaches flagged steady.straight
    ⟨steady.normal.group, steady.normal.unpinned⟩

theorem WellFormed.refcnt_eq_one (formed : WellFormed s held)
    (linked : s.graph.Linked (.att att)) (free : .ref (.att att) ∉ held) :
    (s.att att).refcnt = 1 := by
  have count := formed.counted.exact (.att att)
  rw [Graph.owed, Graph.linkCount, if_pos linked,
    Multiset.count_eq_zero_of_notMem free] at count
  exact count

/-- The references that a detach holds are dropped at its end. -/
theorem attDeref_strip (single : (s.att att).refcnt = 1)
    (parting : Parting) (own : parting.att = att) :
    (((s.begun att).strip parting).xpmemAttDeref att).xpmemAttDeref att =
      s.drop parting := by
  subst own
  rw [begun_eq, strip_modAtt _ _ fun _ => rfl]
  have count : ((s.strip parting).att parting.att).refcnt = 1 := by
    rw [strip_att, State.lowerFlags_read Attachment.refcnt fun _ => rfl]
    exact single
  unfold State.drop
  generalize s.strip parting = u at *
  simp [State.xpmemAttDeref, State.modAtt, count]

theorem Steady.detachRound (steady : Steady s held)
    (peaceful : Peaceful held) (reach : K.pgdOrder < 31) {current : Task}
    (running : s.proc current.tgid = .running (s.att att).mm)
    (task : current.mm = some (s.att att).mm)
    (linked : s.graph.Linked (.att att)) (free : .ref (.att att) ∉ held) :
    ((xpmemDetachAtt (s.xpmemAttRef att) current (s.att att).ap att).map
      fun u => u.xpmemAttDeref att) = some (s.drop (s.parting att)) := by
  have begun := steady.begun peaceful.calm linked
  have live := steady.formed.att_live peaceful.calm linked
  obtain ⟨area, member, occupies, contains⟩ :=
    steady.formed.vmaAt ⟨linked, peaceful.settled att⟩
  have record : ((s.begun att).att att).mm = (s.att att).mm ∧
      ((s.begun att).att att).ap = (s.att att).ap ∧
      (s.begun att).place att = s.place att := by
    simp [begun_eq, State.modAtt, State.place]
  have bound : (s.begun att).Bound (.ref (.att att) ::ₘ held) att :=
    ⟨(linked_begun s att).mpr linked,
      by simpa using peaceful.settled att⟩
  have detached := begun.detach_eq peaceful.cons_ref bound reach
    (by rw [record.1]; exact running) (by rw [record.1]; exact member)
    (by rw [record.2.2]; exact occupies)
  rw [parting_of_layout (layout_begun s att), record.1, record.2.1]
    at detached
  have single := steady.formed.refcnt_eq_one linked free
  rw [← attDeref_strip single (s.parting att) rfl]
  have space : ((s.xpmemAttRef att).att att).mm = (s.att att).mm := by
    simp [State.xpmemAttRef, State.modAtt]
  have unflagged : ((s.xpmemAttRef att).att att).destroying = false := by
    simpa [State.xpmemAttRef, State.modAtt] using live
  have found : ((s.begun att).mm (s.att att).mm).vmaAt
      ((s.begun att).att att).atVaddr = some area := by
    have vaddr : ((s.begun att).att att).atVaddr = (s.att att).atVaddr :=
      congrArg Place.start record.2.2
    rw [vaddr]
    exact RangeList.containing_eq_some_iff.mpr ⟨member, contains⟩
  have flagged : ((s.xpmemAttRef att).modAtt att fun record =>
      { record with destroying := true }) = s.begun att := rfl
  obtain ⟨unlinked, cut, unmapped⟩ := Option.bind_eq_some_iff.mp detached
  unfold xpmemDetachAtt
  rw [space, task, if_neg (by simp [unflagged])]
  dsimp only [Option.getD_some]
  rw [flagged, found]
  dsimp only
  rw [cut, Option.bind_some, if_neg (by simp), unmapped]
  rfl

theorem attDeref_ap (s : State K) (att : AttPtr) :
    (s.xpmemAttDeref att).ap = s.ap := by
  unfold State.xpmemAttDeref
  dsimp only
  split
  · rfl
  · rfl

theorem attDeref_apRef (s : State K) (permit : ApPtr) (att : AttPtr) :
    (s.xpmemApRef permit).xpmemAttDeref att =
      (s.xpmemAttDeref att).xpmemApRef permit := by
  unfold State.xpmemAttDeref
  extract_lets referred plain
  have same : (referred.att att).refcnt = (plain.att att).refcnt := rfl
  rw [same]
  split
  · rfl
  · rfl

theorem Steady.guarded {permit : ApPtr}
    (steady : Steady s (.closing (.att att) ::ₘ held))
    (linked : s.graph.Linked (.att att)) (owner : (s.att att).ap = permit) :
    Steady (s.xpmemApRef permit)
      (.closing (.att att) ::ₘ .ref (.ap permit) ::ₘ held) := by
  subst owner
  have counted := ((@Reaches.here _ False _ _ steady.formed).apRef
    (steady.formed.graph.linked_ap linked).1).swap
  exact steady.reaches counted steady.straight
    ⟨steady.normal.group, steady.normal.unpinned⟩

theorem Steady.xpmemDetach_eq (steady : Steady s held)
    (peaceful : Peaceful held) (reach : K.pgdOrder < 31) {current : Task}
    (running : s.proc current.tgid = .running (s.att att).mm)
    (own : (s.tg (s.ap (s.att att).ap).tg).tgid = current.tgid)
    (linked : s.graph.Linked (.att att)) (free : .ref (.att att) ∉ held)
    {vaddr : Nat} (low : (s.att att).atVaddr ≤ vaddr)
    (high : vaddr < (s.att att).atVaddr + (s.att att).atSize) :
    xpmemDetach s current (s.att att).mm vaddr false =
      some (s.drop (s.parting att), .ok ()) := by
  have begun := steady.begun peaceful.calm linked
  have live := steady.formed.att_live peaceful.calm linked
  obtain ⟨area, member, occupies, _⟩ :=
    steady.formed.vmaAt ⟨linked, peaceful.settled att⟩
  have found : (s.mm (s.att att).mm).vmaAt vaddr = some area := by
    refine RangeList.containing_eq_some_iff.mpr ⟨member, ?_, ?_⟩
    · rw [occupies.start]
      exact low
    · rw [occupies.stop]
      exact high
  have single := steady.formed.refcnt_eq_one linked free
  have record : ((s.begun att).att att).mm = (s.att att).mm ∧
      ((s.begun att).att att).ap = (s.att att).ap ∧
      (s.begun att).place att = s.place att := by
    simp [begun_eq, State.modAtt, State.place]
  have guarded := begun.guarded ((linked_begun s att).mpr linked) record.2.1
  have bound : ((s.begun att).xpmemApRef (s.att att).ap).Bound
      (.ref (.ap (s.att att).ap) ::ₘ .ref (.att att) ::ₘ held) att := by
    refine ⟨?_, by simpa using peaceful.settled att⟩
    rw [State.graph_eq_of_shape (shape_xpmemApRef _ _)]
    exact (linked_begun s att).mpr linked
  have space : (((s.begun att).xpmemApRef (s.att att).ap).att att).mm =
      (s.att att).mm := record.1
  have owner : (((s.begun att).xpmemApRef (s.att att).ap).att att).ap =
      (s.att att).ap := record.2.1
  have detached := guarded.detach_eq peaceful.cons_ref.cons_ref bound reach
    (by rw [space]; exact running) (by rw [space]; exact member)
    (by exact record.2.2 ▸ occupies)
  rw [space, owner, parting_of_layout (State.layout_eq_of_shape
    (shape_xpmemApRef _ _)), parting_of_layout (layout_begun s att),
    strip_apRef] at detached
  obtain ⟨unlinked, cut, unmapped⟩ := Option.bind_eq_some_iff.mp detached
  have unflagged : ((s.xpmemAttRef att).att att).destroying = false := by
    simpa [State.xpmemAttRef, State.modAtt] using live
  unfold Driver.xpmemDetach
  rw [found]
  dsimp only
  rw [occupies.privateData]
  dsimp only
  rw [if_neg (by simp [occupies.ops]), if_neg (by simp),
    if_neg (by simp [unflagged])]
  have flagged : ((s.xpmemAttRef att).modAtt att fun record =>
      { record with destroying := true }) = s.begun att := rfl
  have group : (((s.begun att).xpmemApRef (s.att att).ap).tg
      (((s.begun att).xpmemApRef (s.att att).ap).ap
        (s.att att).ap).tg).tgid = current.tgid := by
    simpa [State.xpmemApRef, State.modAp, begun_eq, State.modAtt] using own
  have counted : ((((s.begun att).strip (s.parting att)).xpmemAttDeref
      att).ap (s.att att).ap).refcnt ≠ 0 := by
    rw [attDeref_ap, strip_refcnt_ap]
    exact (steady.formed.refcnt_pos
      (steady.formed.graph.linked_ap linked).1).ne'
  rw [flagged, record.2.1, group, if_neg (by simp), cut, Option.bind_some,
    unmapped, Option.map_some, attDeref_apRef,
    State.apDeref_apRef counted, attDeref_strip single _ rfl]

end Xpmem.Driver
