import Xpmem.Operations.Covering

/-!
# Callbacks that find nothing to put

A callback for a range that no attachment shows puts no page and zaps no
leaf.  What is left of it are the flags: an attachment whose whole window lies
in the range is marked as having no valid PTEs.  `State.lowerFlags` says this
in one step, for all attachments the callback visits.
-/

namespace Xpmem.Driver

open Xpmem.Foundation Xpmem.Kernel Xpmem.Objects

variable {K : Platform} {s t : State K} {att : AttPtr} {start stop : Nat}
    {covered more : AttPtr → Prop}

/-! ## Lowering flags -/

namespace State

open Classical in
/-- The attachments are marked as having no valid PTEs. -/
noncomputable def lowerFlags (s : State K) (covered : AttPtr → Prop) :
    State K :=
  { s with
    att := fun att =>
      if covered att then { s.att att with validPTEs := false }
      else s.att att }

theorem lowerFlags_att_of_not (absent : ¬ covered att) :
    (s.lowerFlags covered).att att = s.att att :=
  if_neg absent

theorem lowerFlags_att_of_covered (present : covered att) :
    (s.lowerFlags covered).att att = { s.att att with validPTEs := false } :=
  if_pos present

/-- What is read of an attachment, apart from its flag. -/
theorem lowerFlags_read {α : Type} (read : Attachment → α)
    (blind : ∀ record, read { record with validPTEs := false } = read record)
    (att : AttPtr) :
    read ((s.lowerFlags covered).att att) = read (s.att att) := by
  by_cases here : covered att
  · rw [lowerFlags_att_of_covered here, blind]
  · rw [lowerFlags_att_of_not here]

theorem lowerFlags_none (absent : ∀ att, ¬ covered att) :
    s.lowerFlags covered = s := by
  have same : (s.lowerFlags covered).att = s.att :=
    funext fun att => lowerFlags_att_of_not (absent att)
  exact congrArg (fun records => { s with att := records }) same

theorem lowerFlags_lowerFlags (s : State K) (covered more : AttPtr → Prop) :
    (s.lowerFlags covered).lowerFlags more =
      s.lowerFlags fun att => covered att ∨ more att := by
  have same : ((s.lowerFlags covered).lowerFlags more).att =
      (s.lowerFlags fun att => covered att ∨ more att).att := by
    funext att
    by_cases first : covered att <;> by_cases second : more att <;>
      simp [lowerFlags, first, second]
  exact congrArg (fun records => { s with att := records }) same

theorem lowerFlags_congr (same : ∀ att, covered att ↔ more att) :
    s.lowerFlags covered = s.lowerFlags more := by
  rw [funext fun att => propext (same att)]

/-- Attachments whose flag is down already do not matter. -/
theorem lowerFlags_eq_of_down
    (same : ∀ att, s.valid att = true → (covered att ↔ more att)) :
    s.lowerFlags covered = s.lowerFlags more := by
  have records : (s.lowerFlags covered).att = (s.lowerFlags more).att := by
    funext att
    cases flag : s.valid att with
    | true =>
        have here := same att flag
        by_cases present : covered att
        · simp [lowerFlags, present, here.mp present]
        · simp [lowerFlags, present, here.not.mp present]
    | false =>
        have down : { s.att att with validPTEs := false } = s.att att := by
          rw [← flag]
          rfl
        simp [lowerFlags, down]
  exact congrArg (fun records => { s with att := records }) records

theorem lowerFlags_of_down
    (down : ∀ att, covered att → s.valid att = false) :
    s.lowerFlags covered = s := by
  have none : s.lowerFlags covered = s.lowerFlags fun _ => False := by
    refine lowerFlags_eq_of_down fun att up => ?_
    constructor
    · intro present
      rw [down att present] at up
      cases up
    · exact False.elim
  rw [none, lowerFlags_none fun _ => id]

theorem setValid_eq_lowerFlags (s : State K) (att : AttPtr) :
    s.setValid att false = s.lowerFlags (· = att) := by
  have records : (s.setValid att false).att =
      (s.lowerFlags (· = att)).att := by
    funext other
    by_cases here : other = att
    · subst here
      simp [setValid, modAtt, lowerFlags]
    · simp [setValid, modAtt, lowerFlags, here]
  exact congrArg (fun records => { s with att := records }) records

@[simp]
theorem place_lowerFlags (s : State K) (covered : AttPtr → Prop) :
    (s.lowerFlags covered).place = s.place := by
  funext att
  exact lowerFlags_read (fun record =>
    (⟨record.mm, record.atVaddr, record.atSize, record.atVma,
      record.vaddr⟩ : Place)) (fun _ => rfl) att

@[simp]
theorem mm_lowerFlags (s : State K) (covered : AttPtr → Prop)
    (att : AttPtr) : ((s.lowerFlags covered).att att).mm = (s.att att).mm :=
  lowerFlags_read Attachment.mm (fun _ => rfl) att

theorem attRef_lowerFlags (s : State K) (covered : AttPtr → Prop)
    (att : AttPtr) :
    (s.lowerFlags covered).xpmemAttRef att =
      (s.xpmemAttRef att).lowerFlags covered := by
  have records : ((s.lowerFlags covered).xpmemAttRef att).att =
      ((s.xpmemAttRef att).lowerFlags covered).att := by
    funext other
    by_cases here : other = att
    · subst here
      by_cases present : covered other <;>
        simp [xpmemAttRef, modAtt, lowerFlags, present]
    · by_cases present : covered other <;>
        simp [xpmemAttRef, modAtt, lowerFlags, present, here]
  exact congrArg (fun records => { s with att := records }) records

/-- A reference that is taken and dropped leaves nothing. -/
theorem attDeref_attRef (counted : (s.att att).refcnt ≠ 0) :
    (s.xpmemAttRef att).xpmemAttDeref att = s := by
  have records : ((s.xpmemAttRef att).modAtt att fun record =>
      { record with refcnt := record.refcnt - 1 }) = s := by
    simp [xpmemAttRef, modAtt]
  rw [xpmemAttDeref, records]
  exact if_pos counted

theorem apDeref_apRef {permit : ApPtr} (counted : (s.ap permit).refcnt ≠ 0) :
    (s.xpmemApRef permit).xpmemApDeref permit = s := by
  have records : ((s.xpmemApRef permit).modAp permit fun record =>
      { record with refcnt := record.refcnt - 1 }) = s := by
    simp [xpmemApRef, modAp]
  rw [xpmemApDeref, records]
  exact if_pos counted

theorem segDeref_segRef {seg : SegPtr} (counted : (s.seg seg).refcnt ≠ 0) :
    (s.xpmemSegRef seg).xpmemSegDeref seg = s := by
  have records : ((s.xpmemSegRef seg).modSeg seg fun record =>
      { record with refcnt := record.refcnt - 1 }) = s := by
    simp [xpmemSegRef, modSeg]
  rw [xpmemSegDeref, records]
  exact if_pos counted

end State

/-! ## Clearing what is not there -/

/-- The counters of pins are values of an `int`. -/
structure Normal (s : State K) : Prop where
  group : ∀ group, int32 (s.tg group).nPinned = (s.tg group).nPinned
  unpinned : int32 s.myPart.nUnpinned = s.myPart.nUnpinned

theorem Normal.putPages_nil (normal : Normal s) (seg : SegPtr) :
    putPages s seg [] = s := by
  rw [putPages_eq]
  simp only [State.modTg, List.length_nil, Nat.cast_zero, sub_zero,
    add_zero, normal.group, normal.unpinned, List.map_nil, List.count_nil,
    Function.update_eq_self]

theorem mappedPages_of_absent {table : PageTable K} {page count : Nat}
    (absent : ∀ other, page ≤ other → other < page + count →
      table.pte other = none) : mappedPages table page count = [] := by
  rw [mappedPages, List.filterMap_eq_nil_iff]
  intro other member
  obtain ⟨low, high⟩ := List.mem_range'_1.mp member
  rw [absent other low high]
  rfl

theorem clear_of_absent {table : PageTable K} {first last : Nat}
    (absent : ∀ other, first ≤ other → other < last →
      table.pte other = none) : table.clear first last = table := by
  have same : (table.clear first last).pte = table.pte := by
    funext other
    rw [PageTable.clear_pte]
    split
    · rename_i inside
      exact (absent other inside.1 inside.2).symm
    · rfl
  cases table
  simp only [PageTable.clear, PageTable.mk.injEq, true_and]
  exact same

theorem zapVmaPtes_of_absent {mm : Mm K} {first count : Nat}
    (absent : ∀ other, first ≤ other → other < first + count →
      mm.table.pte other = none) (area : Vma) :
    mm.zapVmaPtes area (first * pageSize) (count * pageSize) = mm := by
  have size : 0 < pageSize := by decide
  unfold Mm.zapVmaPtes
  split
  · rfl
  · rw [← Nat.add_mul, Nat.mul_div_cancel _ size, Nat.mul_div_cancel _ size,
      clear_of_absent absent]

/-- A callback has nothing to zap where no leaf is, whatever the area. -/
theorem zapPTEsOfAtt_of_absent {first count : Nat}
    (absent : ∀ other, first ≤ other → other < first + count →
      (s.mm (s.att att).mm).table.pte other = none) :
    zapPTEsOfAtt s att (first * pageSize) (count * pageSize) true =
      some s := by
  unfold zapPTEsOfAtt
  extract_lets record zap
  rw [if_pos rfl]
  split
  · rfl
  · rename_i area _
    refine congrArg some ?_
    change s.modMm (s.att att).mm (fun mm => mm.zapVmaPtes area _ _) = s
    rw [State.modMm, zapVmaPtes_of_absent absent, Function.update_eq_self]

/-- A visit of the attachment finds nothing to put. -/
structure Silent (s : State K) (att : AttPtr) (start stop : Nat) :
    Prop where
  live : (s.att att).destroying = false
  counted : 0 < (s.att att).refcnt
  bounds : Bounds K (s.place att)
  straight : (s.place att).source + (s.place att).size < 2 ^ 64
  absent : ∀ page ∈ (s.place att).showing start stop,
    s.pte (s.att att).mm page = none

theorem whole_not_outside {place : Place} (positive : 0 < place.size)
    (whole : place.Whole start stop) : ¬ place.Outside start stop := by
  unfold Place.Whole Place.Outside at *
  omega

namespace Silent

theorem clearAtt (silent : Silent s att start stop) (normal : Normal s)
    (reach : K.pgdOrder < 31) (aligned : PageRange (start, stop)) :
    xpmemClearPTEsOfAtt s att start stop true =
      some (s.lowerFlags fun other =>
        other = att ∧ (s.place att).Whole start stop) := by
  obtain ⟨destroying, _, bounds, straight, absent⟩ := silent
  have limit := K.taskSize_le
  have below := bounds.below
  unfold xpmemClearPTEsOfAtt
  extract_lets record attVaddrEnd invalidateStart invalidateEnd
    offsetStart offsetEnd unpinAt invalidateLen
  have ends : attVaddrEnd = (s.place att).source + (s.place att).size :=
    u64_of_lt straight
  have live : ¬ (true && record.destroying) = true := by
    rw [Bool.true_and, show record.destroying = false from destroying]
    exact Bool.false_ne_true
  rw [if_neg live]
  split
  · rename_i invalid
    have down : s.valid att = false := by
      rw [Bool.not_eq_true'] at invalid
      exact invalid
    rw [State.lowerFlags_of_down]
    rintro other ⟨rfl, _⟩
    exact down
  · split
    · rename_i outside
      rw [State.lowerFlags_none]
      rintro other ⟨rfl, whole⟩
      refine whole_not_outside bounds.positive whole ?_
      unfold Place.Outside
      rw [← ends]
      exact outside
    · rename_i meets
      have within : ¬ (s.place att).Outside start stop := by
        unfold Place.Outside
        rw [← ends]
        exact meets
      obtain ⟨skip, count, pages, low, high, addr, length, showing,
        whole⟩ := clear_range_exact bounds straight aligned within
      have startOffset : offsetStart = skip * pageSize := low
      have stopOffset : offsetEnd = (skip + count) * pageSize := by
        rw [← high, ← ends]
        rfl
      have unpinned :
          unpinAt = ((s.place att).page + skip) * pageSize := by
        change u64 ((s.place att).start + offsetStart) = _
        rw [startOffset, addr]
      have cleared : invalidateLen = count * pageSize := by
        change u64Sub offsetEnd offsetStart = _
        rw [startOffset, stopOffset, length]
      have wholly : offsetStart = 0 ∧ record.atSize = invalidateLen ↔
          (s.place att).Whole start stop := by
        rw [startOffset, cleared]
        exact whole
      have gone (other : Nat) (above : (s.place att).page + skip ≤ other)
          (under : other < (s.place att).page + skip + count) :
          (s.mm (s.att att).mm).table.pte other = none := by
        refine absent other ?_
        rw [showing, Finset.mem_Ico]
        exact ⟨above, under⟩
      have small : count * pageSize < 2 ^ 63 := by
        unfold Place.pages at pages
        unfold pageSize at *
        omega
      have inside : (s.place att).page + skip + count ≤ 2 ^ 50 := by
        unfold Place.page Place.pages at *
        unfold pageSize at *
        omega
      obtain ⟨put, fewer, walked⟩ := unpinWalk_total reach
        (s.mm (s.att att).mm).table inside
      have nothing : mappedPages (s.mm (s.att att).mm).table
          ((s.place att).page + skip) put = [] :=
        mappedPages_of_absent fun other above under =>
          gone other above (by omega)
      rw [unpinned, cleared]
      change ((xpmemUnpinPages s (s.segOf att) (s.att att).mm _ _).bind _) =
        _
      rw [xpmemUnpinPages_eq s _ att small, State.walk, walked, nothing,
        Option.map_some, Option.bind_some, normal.putPages_nil,
        zapPTEsOfAtt_of_absent gone, Option.map_some]
      rw [cleared] at wholly
      split
      · rename_i all
        have covers := wholly.mp all
        change some (s.setValid att false) = _
        rw [State.setValid_eq_lowerFlags]
        refine congrArg some (State.lowerFlags_congr fun other => ?_)
        exact ⟨fun here => ⟨here, covers⟩, And.left⟩
      · rename_i part
        rw [State.lowerFlags_none]
        exact fun _ whole => part (wholly.mpr whole.2)

theorem transfer (silent : Silent s att start stop)
    (fewer : ∀ mm page, s.pte mm page = none → t.pte mm page = none)
    (place : t.place att = s.place att)
    (live : (t.att att).destroying = (s.att att).destroying)
    (counted : 0 < (t.att att).refcnt) : Silent t att start stop := by
  have space : (t.att att).mm = (s.att att).mm := congrArg Place.mm place
  refine ⟨live.trans silent.live, counted, ?_, ?_, ?_⟩
  · rw [place]
    exact silent.bounds
  · rw [place]
    exact silent.straight
  · rw [place, space]
    intro page member
    exact fewer _ page (silent.absent page member)

theorem lowerFlags (silent : Silent s att start stop)
    (covered : AttPtr → Prop) :
    Silent (s.lowerFlags covered) att start stop := by
  refine silent.transfer (fun _ _ => id)
    (congrFun (s.place_lowerFlags covered) att) (State.lowerFlags_read Attachment.destroying (fun _ => rfl) att) ?_
  rw [State.lowerFlags_read Attachment.refcnt fun _ => rfl]
  exact silent.counted

/-- The reference that a visit takes and drops leaves nothing. -/
theorem clearVisitAtt (silent : Silent s att start stop)
    (normal : Normal s) (reach : K.pgdOrder < 31)
    (aligned : PageRange (start, stop)) :
    clearVisitAtt start stop true s att =
      some (s.lowerFlags fun other =>
        other = att ∧ (s.place att).Whole start stop) := by
  unfold Driver.clearVisitAtt
  have place : (s.xpmemAttRef att).place = s.place := by
    funext other
    by_cases here : other = att
    · subst here
      simp [State.place, State.xpmemAttRef, State.modAtt]
    · simp [State.place, State.xpmemAttRef, State.modAtt, here]
  have held : Silent (s.xpmemAttRef att) att start stop := by
    refine silent.transfer (fun _ _ => id) (congrFun place att) ?_ ?_
    · simp [State.xpmemAttRef, State.modAtt]
    · have counted := silent.counted
      simp only [State.xpmemAttRef, State.modAtt, Function.update_self]
      omega
  split
  · rw [held.clearAtt ⟨normal.group, normal.unpinned⟩ reach aligned,
      Option.map_some, place, ← State.attRef_lowerFlags,
      State.attDeref_attRef]
    rw [State.lowerFlags_read Attachment.refcnt fun _ => rfl]
    exact silent.counted.ne'
  · rename_i down
    rw [State.lowerFlags_of_down]
    rintro other ⟨rfl, _⟩
    exact Bool.eq_false_iff.mpr down

end Silent

theorem Normal.lowerFlags (normal : Normal s) (covered : AttPtr → Prop) :
    Normal (s.lowerFlags covered) :=
  ⟨normal.group, normal.unpinned⟩

/-! ## The walks -/

/-- Visits that lower flags one after the other lower all of them. -/
theorem foldlM_lowerFlags {β : Type}
    {visit : State K → β → Option (State K)} {scope : β → AttPtr → Prop}
    {list : List β}
    (visited : ∀ covered, ∀ element ∈ list,
      visit (s.lowerFlags covered) element =
        some ((s.lowerFlags covered).lowerFlags (scope element))) :
    list.foldlM visit s =
      some (s.lowerFlags fun att => ∃ element ∈ list, scope element att) := by
  have folded (rest : List β) (inside : ∀ element ∈ rest, element ∈ list) :
      ∀ covered, rest.foldlM visit (s.lowerFlags covered) =
        some (s.lowerFlags fun att =>
          covered att ∨ ∃ element ∈ rest, scope element att) := by
    induction rest with
    | nil => simp
    | cons element rest induction =>
        intro covered
        have first := visited covered element
          (inside element List.mem_cons_self)
        rw [List.foldlM_cons, first, State.lowerFlags_lowerFlags]
        refine (induction (fun other member =>
          inside other (List.mem_cons_of_mem _ member)) _).trans ?_
        refine congrArg some (State.lowerFlags_congr fun att => ?_)
        simp [or_assoc]
  have whole := folded list (fun _ => id) fun _ => False
  rw [State.lowerFlags_none fun _ => id] at whole
  rw [whole]
  exact congrArg some (State.lowerFlags_congr fun att => by simp)

/-- A walk over the permit finds nothing to put. -/
structure SilentAp (s : State K) (permit : ApPtr) (start stop : Nat) :
    Prop where
  counted : 0 < (s.ap permit).refcnt
  atts : ∀ att ∈ (s.ap permit).attList, Silent s att start stop

theorem SilentAp.clearVisitAp {permit : ApPtr}
    (silent : SilentAp s permit start stop) (normal : Normal s)
    (reach : K.pgdOrder < 31) (aligned : PageRange (start, stop)) :
    clearVisitAp start stop true s permit =
      some (s.lowerFlags fun att => ∃ other ∈ (s.ap permit).attList,
        att = other ∧ (s.place other).Whole start stop) := by
  have list : ((s.xpmemApRef permit).ap permit).attList =
      (s.ap permit).attList := by
    simp [State.xpmemApRef, State.modAp]
  have walked : xpmemClearPTEsOfAp (s.xpmemApRef permit) permit start stop
      true = some ((s.xpmemApRef permit).lowerFlags fun att =>
        ∃ other ∈ (s.ap permit).attList,
          att = other ∧ (s.place other).Whole start stop) := by
    unfold xpmemClearPTEsOfAp
    rw [list]
    refine foldlM_lowerFlags fun covered att member => ?_
    have here : Silent (s.xpmemApRef permit) att start stop :=
      (silent.atts att member).transfer (fun _ _ => id) rfl rfl
        (silent.atts att member).counted
    have normal : Normal (s.xpmemApRef permit) :=
      ⟨normal.group, normal.unpinned⟩
    rw [(here.lowerFlags covered).clearVisitAtt (normal.lowerFlags covered)
      reach aligned, State.place_lowerFlags]
    rfl
  unfold Driver.clearVisitAp
  rw [walked, Option.map_some]
  exact congrArg some
    (@State.apDeref_apRef _ (s.lowerFlags _) permit silent.counted.ne')

/-- A walk over the segment finds nothing to put. -/
structure SilentSeg (s : State K) (seg : SegPtr) (start stop : Nat) :
    Prop where
  live : (s.seg seg).destroying = false
  counted : 0 < (s.seg seg).refcnt
  straight : (s.seg seg).vaddr + (s.seg seg).size < 2 ^ 64
  permits : ∀ permit ∈ (s.seg seg).apList, SilentAp s permit start stop
  windows : ∀ att, ListedUnder s seg att →
    (s.seg seg).vaddr ≤ (s.place att).source ∧
      (s.place att).source + (s.place att).size ≤
        (s.seg seg).vaddr + (s.seg seg).size

/-- The callback lowers the flags of what it covers. -/
def CoveredUnder (s : State K) (seg : SegPtr) (start stop : Nat)
    (att : AttPtr) : Prop :=
  ListedUnder s seg att ∧ (s.place att).Whole start stop

theorem SilentSeg.invalidateVisitSeg {seg : SegPtr}
    (silent : SilentSeg s seg start stop) (normal : Normal s)
    (reach : K.pgdOrder < 31) (aligned : PageRange (start, stop)) :
    invalidateVisitSeg start stop s seg =
      some (s.lowerFlags (CoveredUnder s seg start stop)) := by
  have list : ((s.xpmemSegRef seg).seg seg).apList =
      (s.seg seg).apList := by
    simp [State.xpmemSegRef, State.modSeg]
  have walked : xpmemClearPTEsRange (s.xpmemSegRef seg) seg start stop
      true = some ((s.xpmemSegRef seg).lowerFlags
        (CoveredUnder s seg start stop)) := by
    unfold xpmemClearPTEsRange
    rw [list]
    have folded := @foldlM_lowerFlags _ (s.xpmemSegRef seg) _
      (Driver.clearVisitAp start stop true)
      (fun permit att => ∃ other ∈ (s.ap permit).attList,
        att = other ∧ (s.place other).Whole start stop)
      (s.seg seg).apList ?_
    · rw [folded]
      refine congrArg some (State.lowerFlags_congr fun att => ?_)
      constructor
      · rintro ⟨permit, granted, other, member, rfl, whole⟩
        exact ⟨⟨permit, granted, member⟩, whole⟩
      · rintro ⟨⟨permit, granted, member⟩, whole⟩
        exact ⟨permit, granted, att, member, rfl, whole⟩
    · intro covered permit granted
      obtain ⟨counted, atts⟩ := silent.permits permit granted
      have here : SilentAp ((s.xpmemSegRef seg).lowerFlags covered) permit
          start stop := by
        refine ⟨counted, fun att member => Silent.lowerFlags ?_ covered⟩
        exact (atts att member).transfer (fun _ _ => id) rfl rfl
          (atts att member).counted
      have normal : Normal (s.xpmemSegRef seg) :=
        ⟨normal.group, normal.unpinned⟩
      rw [here.clearVisitAp (normal.lowerFlags covered) reach aligned,
        State.place_lowerFlags]
      rfl
  unfold Driver.invalidateVisitSeg
  rw [silent.live, if_neg Bool.false_ne_true]
  extract_lets segStart segEnd
  have ends : segEnd = (s.seg seg).vaddr + (s.seg seg).size :=
    u64_of_lt silent.straight
  split
  · rw [walked, Option.map_some]
    exact congrArg some
      (@State.segDeref_segRef _ (s.lowerFlags _) seg silent.counted.ne')
  · rename_i apart
    rw [State.lowerFlags_none]
    rintro att ⟨listed, low, high⟩
    obtain ⟨above, below⟩ := silent.windows att listed
    refine apart ⟨?_, ?_⟩
    · omega
    · exact above.trans (by omega)

theorem SilentSeg.lowerFlags {seg : SegPtr}
    (silent : SilentSeg s seg start stop) (covered : AttPtr → Prop) :
    SilentSeg (s.lowerFlags covered) seg start stop where
  live := silent.live
  counted := silent.counted
  straight := silent.straight
  permits permit granted :=
    ⟨(silent.permits permit granted).counted, fun att member =>
      ((silent.permits permit granted).atts att member).lowerFlags covered⟩
  windows att listed := by
    rw [State.place_lowerFlags]
    exact silent.windows att listed

/-- The attachments of a group's segments that the callback covers. -/
def CoveredBelow (s : State K) (segTg : TgPtr) (start stop : Nat)
    (att : AttPtr) : Prop :=
  ∃ seg ∈ (s.tg segTg).segList, CoveredUnder s seg start stop att

/-- The callback of a group finds nothing to put. -/
def SilentTg (s : State K) (segTg : TgPtr) (start stop : Nat) : Prop :=
  ∀ seg ∈ (s.tg segTg).segList, SilentSeg s seg start stop

/-- With fewer leaves there is still nothing to put. -/
theorem SilentTg.fewer {segTg : TgPtr}
    (silent : SilentTg s segTg start stop) (tg : t.tg = s.tg)
    (segs : t.seg = s.seg) (permits : t.ap = s.ap) (atts : t.att = s.att)
    (fewer : ∀ mm page, s.pte mm page = none → t.pte mm page = none) :
    SilentTg t segTg start stop := by
  have place : t.place = s.place := by
    funext att
    rw [State.place, atts]
    rfl
  intro seg listed
  rw [tg] at listed
  obtain ⟨live, counted, straight, silent, windows⟩ := silent seg listed
  refine ⟨segs ▸ live, segs ▸ counted, segs ▸ straight, ?_, ?_⟩
  · intro permit granted
    rw [segs] at granted
    obtain ⟨counted, silent⟩ := silent permit granted
    refine ⟨permits ▸ counted, fun att member => ?_⟩
    rw [permits] at member
    exact (silent att member).transfer fewer (congrFun place att)
      (congrArg (fun records => (records att).destroying) atts)
      (atts ▸ (silent att member).counted)
  · intro att member
    unfold ListedUnder at member
    rw [segs, permits] at member
    rw [segs, place]
    exact windows att member

theorem SilentTg.invalidatePTEsRange {segTg : TgPtr}
    (silent : SilentTg s segTg start stop) (normal : Normal s)
    (reach : K.pgdOrder < 31) (aligned : PageRange (start, stop)) :
    xpmemInvalidatePTEsRange s segTg start stop =
      some (s.lowerFlags (CoveredBelow s segTg start stop)) := by
  unfold xpmemInvalidatePTEsRange
  refine foldlM_lowerFlags fun covered seg member => ?_
  rw [((silent seg member).lowerFlags covered).invalidateVisitSeg
    (normal.lowerFlags covered) reach aligned]
  refine congrArg some (State.lowerFlags_congr fun att => ?_)
  rw [CoveredUnder, CoveredUnder, State.place_lowerFlags]
  rfl

theorem filter_find_of_free {list : RangeList VmaInfo}
    (free : list.Free start stop) :
    (list.find start).filter (fun area => area.start < stop) = none := by
  cases found : list.find start with
  | none => rfl
  | some area =>
      have member := List.mem_of_find?_eq_some found
      have above := List.find?_some found
      rw [decide_eq_true_eq] at above
      rcases free area member with before | after
      · exact absurd above (not_lt.mpr before)
      · rw [Option.filter_some, if_neg]
        simpa using after

/-- Nothing is mapped in the range, so its pages are those of no area. -/
theorem SilentTg.invalidateRange {current : Task} {segTg : TgPtr}
    {mm : MmPtr} (silent : SilentTg s segTg start stop)
    (normal : Normal s) (reach : K.pgdOrder < 31)
    (aligned : PageRange (start, stop))
    (context : (s.tg segTg).tgid = current.tgid)
    (free : (s.vmas mm).Free start stop) :
    xpmemInvalidateRange s current segTg mm start stop =
      some (s.lowerFlags (CoveredBelow s segTg start stop)) := by
  have low : roundStart start = start := by
    rw [roundStart, if_neg]
    exact not_not.mpr aligned.1
  have high : roundStop stop = stop := by
    rw [roundStop, if_neg]
    exact not_not.mpr aligned.2.1
  unfold xpmemInvalidateRange
  rw [if_neg (not_not.mpr context)]
  simp only [low, high]
  have gap := filter_find_of_free free
  rw [State.vmas] at gap
  rw [Mm.findVma, gap]
  exact silent.invalidatePTEsRange normal reach aligned

/-- The attachments that the callbacks for an address space cover. -/
def Covered (s : State K) (mm : MmPtr) (start stop : Nat)
    (att : AttPtr) : Prop :=
  ∃ segTg ∈ (s.mm mm).notifiers, CoveredBelow s segTg start stop att

theorem notifyInvalidateRange_silent {current : Task} {mm : MmPtr}
    (silent : ∀ segTg ∈ (s.mm mm).notifiers,
      SilentTg s segTg start stop) (normal : Normal s)
    (reach : K.pgdOrder < 31) (aligned : PageRange (start, stop))
    (context : ∀ segTg ∈ (s.mm mm).notifiers,
      (s.tg segTg).tgid = current.tgid)
    (free : (s.vmas mm).Free start stop) :
    notifyInvalidateRange s current mm start stop =
      some (s.lowerFlags (Covered s mm start stop)) := by
  unfold notifyInvalidateRange
  refine foldlM_lowerFlags fun covered segTg member => ?_
  have here : SilentTg (s.lowerFlags covered) segTg start stop :=
    fun seg listed => (silent segTg member seg listed).lowerFlags covered
  rw [here.invalidateRange (normal.lowerFlags covered) reach aligned
    (context segTg member) free]
  refine congrArg some (State.lowerFlags_congr fun att => ?_)
  simp only [CoveredBelow, CoveredUnder, State.place_lowerFlags]
  rfl

end Xpmem.Driver
