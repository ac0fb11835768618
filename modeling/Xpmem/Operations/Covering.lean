import Xpmem.Operations.Invalidating
import Xpmem.Operations.Translation

/-!
# What a callback covers

`xpmem_invalidate_range` rounds a range of source addresses to pages, clips it
against the areas of the source address space and clears what the attachments
of each segment show of it.  The call is followed here from any state, whether
or not operations lead to it: it returns, the leaves that show the range in
ordinary memory are gone, and no other leaf was zapped or put.
-/

namespace Xpmem.Driver

open Xpmem.Foundation Xpmem.Kernel Xpmem.Objects

variable {K : Platform} {s t u : State K} {start stop : Nat}

/-! ## Zapping some leaves -/

/--
Leaves were zapped and put: only permitted ones, each put at most once, and a
flag for leaves is gone only where no leaf is left.
-/
structure Strikes (permitted : MmPtr → Nat → Prop) (s t : State K) :
    Prop where
  clears : Clears s t
  kept : ∀ mm page, ¬ permitted mm page → t.pte mm page = s.pte mm page
  put : ∃ put : Finset (MmPtr × Nat),
    (∀ leaf ∈ put, permitted leaf.1 leaf.2 ∧
      (s.pte leaf.1 leaf.2).isSome = true ∧
        t.pte leaf.1 leaf.2 = none) ∧
    ∀ frame, t.pageRefs frame = s.pageRefs frame -
      (put.filter fun leaf => s.pte leaf.1 leaf.2 = some frame).card
  flags : ∀ att, s.valid att = true → t.valid att = false →
    ∀ index < (s.place att).pages, t.leaf att index = none

namespace Strikes

variable {permitted wider : MmPtr → Nat → Prop}

theorem of_shape (same : t.shape = s.shape)
    (refs : t.pageRefs = s.pageRefs) : Strikes permitted s t where
  clears := .of_shape same
  kept mm page _ := congrFun (congrFun (congrArg (fun u => u.pte) same) mm)
    page
  put := ⟨∅, by simp, by simp [refs]⟩
  flags att flagged gone := by
    have valid : t.valid = s.valid := congrArg (fun u => u.valid) same
    rw [valid, flagged] at gone
    cases gone

theorem refl (s : State K) : Strikes permitted s s :=
  of_shape rfl rfl

theorem mono (strikes : Strikes permitted s t)
    (weaker : ∀ mm page, permitted mm page → wider mm page) :
    Strikes wider s t where
  clears := strikes.clears
  kept mm page out :=
    strikes.kept mm page fun inside => out (weaker mm page inside)
  put := by
    obtain ⟨put, inside, refs⟩ := strikes.put
    exact ⟨put, fun leaf member =>
      ⟨weaker _ _ (inside leaf member).1, (inside leaf member).2⟩, refs⟩
  flags := strikes.flags

theorem trans (earlier : Strikes permitted s t)
    (later : Strikes permitted t u) : Strikes permitted s u where
  clears := earlier.clears.trans later.clears
  kept mm page out :=
    (later.kept mm page out).trans (earlier.kept mm page out)
  put := by
    obtain ⟨put, inside, refs⟩ := earlier.put
    obtain ⟨more, beyond, rest⟩ := later.put
    -- what the second round puts was still there after the first
    have apart : Disjoint put more := by
      rw [Finset.disjoint_left]
      intro leaf member other
      have present := (beyond leaf other).2.1
      rw [(inside leaf member).2.2] at present
      cases present
    have same : ∀ leaf ∈ more,
        s.pte leaf.1 leaf.2 = t.pte leaf.1 leaf.2 := by
      intro leaf member
      obtain ⟨frame, found⟩ :=
        Option.isSome_iff_exists.mp (beyond leaf member).2.1
      rw [found]
      exact earlier.clears.thinner _ _ _ found
    refine ⟨put ∪ more, ?_, fun frame => ?_⟩
    · intro leaf member
      rcases Finset.mem_union.mp member with first | second
      · obtain ⟨allowed, present, gone⟩ := inside leaf first
        exact ⟨allowed, present, later.clears.pte gone⟩
      · obtain ⟨allowed, present, gone⟩ := beyond leaf second
        rw [same leaf second]
        exact ⟨allowed, present, gone⟩
    · have counted : (more.filter fun leaf =>
            t.pte leaf.1 leaf.2 = some frame) =
          more.filter fun leaf => s.pte leaf.1 leaf.2 = some frame := by
        apply Finset.filter_congr
        intro leaf member
        rw [same leaf member]
      rw [rest, refs, counted, Finset.filter_union,
        Finset.card_union_of_disjoint
          (Finset.disjoint_filter_filter apart)]
      push_cast
      omega
  flags att flagged gone index inside := by
    by_cases still : t.valid att = true
    · rw [← earlier.clears.place] at inside
      exact later.flags att still gone index inside
    · exact later.clears.leaf (earlier.flags att flagged
        (Bool.eq_false_iff.mpr still) index inside)

theorem setValid (s : State K) {att : AttPtr}
    (unmapped : ∀ index < (s.place att).pages, s.leaf att index = none) :
    Strikes permitted s (s.setValid att false) where
  clears := .setValid s att
  kept _ _ _ := rfl
  put := ⟨∅, by simp, by simp [State.setValid, State.modAtt]⟩
  flags other flagged gone := by
    rw [s.valid_setValid] at gone
    split at gone
    · rename_i same
      subst same
      exact fun index inside =>
        (Clears.setValid s other).leaf (unmapped index inside)
    · rw [flagged] at gone
      cases gone

/-- A reference held meanwhile does not show. -/
theorem inner (object : Ref)
    (strikes : Strikes permitted (s.ref object) t) :
    Strikes permitted s (t.deref object) := by
  have taken : Strikes permitted s (s.ref object) :=
    of_shape (s.shape_ref object) (by cases object <;> rfl)
  have dropped : Strikes permitted t (t.deref object) := by
    refine of_shape (t.shape_deref object) ?_
    cases object <;>
      simp only [State.deref, State.xpmemTgDeref, State.xpmemSegDeref,
        State.xpmemApDeref, State.xpmemAttDeref] <;>
      split <;> rfl
  exact (taken.trans strikes).trans dropped

theorem pte_zap (s : State K) (seg : SegPtr) (mm : MmPtr)
    (put : List (Nat × Frame)) (page count : Nat) (other : MmPtr)
    (leaf : Nat) :
    ((putPages s seg put).setTable mm
        ((s.mm mm).table.clear page (page + count))).pte other leaf =
      if other = mm ∧ page ≤ leaf ∧ leaf < page + count then none
      else s.pte other leaf := by
  rw [State.pte_setTable]
  by_cases here : other = mm
  · subst here
    rw [Function.update_self, PageTable.clear_pte]
    simp only [true_and]
    rfl
  · rw [Function.update_of_ne here, if_neg fun both => here both.1]
    change ((putPages s seg put).mm other).table.pte leaf = _
    rw [putPages_mm]
    rfl

/-- Zapping a range of pages of which the first ones are put. -/
theorem zap (s : State K) (seg : SegPtr) (mm : MmPtr)
    {page put count : Nat} (fewer : put ≤ count) :
    Strikes (fun other leaf => other = mm ∧ page ≤ leaf ∧
        leaf < page + count) s
      ((putPages s seg (mappedPages (s.mm mm).table page put)).setTable mm
        ((s.mm mm).table.clear page (page + count))) := by
  have refs := putPages_eq s seg (mappedPages (s.mm mm).table page put)
  constructor
  · have clears := Clears.clearTable (putPages s seg
      (mappedPages (s.mm mm).table page put)) mm page (page + count)
    rw [putPages_mm] at clears
    exact (Clears.of_shape (shape_putPages s seg _)).trans clears
  · intro other leaf out
    rw [pte_zap, if_neg out]
  · refine ⟨((Finset.Ico page (page + put)).filter fun leaf =>
      (s.pte mm leaf).isSome = true).image (Prod.mk mm), ?_, ?_⟩
    · intro leaf member
      simp only [Finset.mem_image, Finset.mem_filter,
        Finset.mem_Ico] at member
      obtain ⟨spot, ⟨⟨low, high⟩, present⟩, rfl⟩ := member
      have inside : mm = mm ∧ page ≤ spot ∧ spot < page + count :=
        ⟨rfl, low, by omega⟩
      refine ⟨inside, present, ?_⟩
      rw [pte_zap, if_pos inside]
    · intro frame
      have counted := count_mappedPages (s.mm mm).table page put frame
      have shows (leaf : Nat) : ((s.pte mm leaf).isSome = true ∧
          s.pte mm leaf = some frame) ↔
            (s.mm mm).table.pte leaf = some frame := by
        constructor
        · exact And.right
        · intro found
          exact ⟨Option.isSome_iff_exists.mpr ⟨frame, found⟩, found⟩
      rw [Finset.filter_image,
        Finset.card_image_of_injective _ (Prod.mk_right_injective mm),
        Finset.filter_filter]
      simp only [shows]
      rw [refs]
      change s.pageRefs frame - _ = _
      rw [counted]
      rfl
  · intro att flagged gone
    rw [refs] at gone
    change s.valid att = false at gone
    rw [flagged] at gone
    cases gone

end Strikes

/-! ## One attachment -/

/--
An attachment of a segment that is not being detached, in an area of its own,
with its window in the segment and its flag set while it has leaves.
-/
structure Target (s : State K) (seg : SegPtr) (att : AttPtr) : Prop where
  live : (s.att att).destroying = false
  bounds : Bounds K (s.place att)
  low : (s.seg seg).vaddr ≤ (s.place att).source
  high : (s.place att).source + (s.place att).size ≤
    (s.seg seg).vaddr + (s.seg seg).size
  flagged : ∀ index < (s.place att).pages, s.leaf att index ≠ none →
    s.valid att = true
  seated : ∃ area ∈ s.vmas (s.att att).mm, Seated s att area ∧
    area.payload.privateData = some att

/-- A leaf of an attachment that shows an address of `[start, stop)`. -/
def Showing (s : State K) (att : AttPtr) (start stop : Nat) (mm : MmPtr)
    (page : Nat) : Prop :=
  mm = (s.att att).mm ∧ page ∈ (s.place att).showing start stop

variable {permitted : MmPtr → Nat → Prop} {seg : SegPtr} {att : AttPtr}

theorem Strikes.target (strikes : Strikes permitted s t)
    (target : Target s seg att) : Target t seg att := by
  have clears := strikes.clears
  have flag : (t.att att).destroying = (s.att att).destroying :=
    congrArg (fun u => (u.att att).destroying) clears.objects
  obtain ⟨area, member, seated, own⟩ := target.seated
  constructor
  · rw [flag]
    exact target.live
  · rw [clears.place]
    exact target.bounds
  · rw [clears.place, clears.seg_vaddr]
    exact target.low
  · rw [clears.place, clears.seg_vaddr, clears.seg_size]
    exact target.high
  · intro index inside present
    rw [clears.place] at inside
    have before : s.leaf att index ≠ none := fun gone =>
      present (clears.leaf gone)
    by_contra invalid
    exact present (strikes.flags att (target.flagged index inside before)
      (Bool.eq_false_iff.mpr invalid) index inside)
  · refine ⟨area, ?_, clears.seated seated, own⟩
    rw [clears.att_mm, clears.vmas]
    exact member

theorem Strikes.showing (strikes : Strikes permitted s t) (att : AttPtr)
    (start stop : Nat) :
    Showing t att start stop = Showing s att start stop := by
  funext mm page
  rw [Showing, Showing, strikes.clears.att_mm, strikes.clears.place]

theorem int32_toNat_le (count : Nat) : (int32 count).toNat ≤ count := by
  unfold int32
  omega

/-- Behind the pages that an `int` counts the walk finds nothing. -/
def CountsOut (table : PageTable K) (page count : Nat) : Prop :=
  0 < (int32 count).toNat →
    BarrenBehind table (page + (int32 count).toNat - 1)

/-- The walk puts as many pages as an `int` counts of them. -/
theorem CountsOut.unpinWalk {table : PageTable K} {page count : Nat}
    (counts : CountsOut table page count) (inside : page + count ≤ 2 ^ 50) :
    unpinWalk table walkRounds (page * pageSize) (int32 count) =
      some (mappedPages table page (int32 count).toNat) := by
  rcases lt_or_ge 0 (int32 count) with positive | empty
  · have small : int32 count < 2 ^ 31 := by
      unfold int32
      omega
    have below := int32_toNat_le count
    have whole : int32 count = ((int32 count).toNat : Int) := by omega
    rw [whole, Int.toNat_natCast]
    exact unpinWalk_eq_mappedPages (by omega) (by omega) counts
  · rw [unpinWalk_of_used empty, Int.toNat_of_nonpos empty]
    rfl

theorem unpinWalk_of_reach (reach : K.pgdOrder < 31) (table : PageTable K)
    {page count : Nat} (inside : page + count ≤ 2 ^ 50) :
    unpinWalk table walkRounds (page * pageSize) (int32 count) =
      some (mappedPages table page (int32 count).toNat) :=
  CountsOut.unpinWalk (fun _ =>
    barrenBehind_of_skippedPages_lt (skippedPages_lt reach _ _)) inside

/-- With short top-level entries the walk puts pages of its range only. -/
theorem unpinWalk_total (reach : K.pgdOrder < 31) (table : PageTable K)
    {page count : Nat} (inside : page + count ≤ 2 ^ 50) :
    ∃ put ≤ count, unpinWalk table walkRounds (page * pageSize)
      (int32 count) = some (mappedPages table page put) :=
  ⟨_, int32_toNat_le count, unpinWalk_of_reach reach table inside⟩

/--
The walk over the pages that show the range, if there is one, counts them
out.
-/
def WalkEnds (s : State K) (att : AttPtr) (start stop : Nat) : Prop :=
  s.valid att = true → ∀ first count,
    (s.place att).showing start stop = Finset.Ico first (first + count) →
      CountsOut (s.mm (s.att att).mm).table first count

theorem Strikes.walkEnds (strikes : Strikes permitted s t)
    (ends : WalkEnds s att start stop) : WalkEnds t att start stop := by
  intro flagged first count showing some
  rw [strikes.clears.place] at showing
  rw [strikes.clears.att_mm]
  have counts := ends (strikes.clears.valid att flagged) first count showing
  exact (counts some).thins (strikes.clears.tables _)

theorem Target.clearPages (target : Target s seg att)
    {skip count addr size : Nat}
    (inside : skip + count ≤ (s.place att).pages)
    (counts : CountsOut (s.mm (s.att att).mm).table
      ((s.place att).page + skip) count)
    (first : addr = ((s.place att).page + skip) * pageSize)
    (length : size = count * pageSize) :
    Surely
      ((xpmemUnpinPages s (s.segOf att) (s.att att).mm addr size).bind
        fun unpinned => zapPTEsOfAtt unpinned att addr size true)
      fun t => Strikes (fun mm page => mm = (s.att att).mm ∧
        (s.place att).page + skip ≤ page ∧
          page < (s.place att).page + skip + count) s t ∧
        ∀ index, skip ≤ index → index < skip + count →
          t.leaf att index = none := by
  subst first length
  have limit := K.taskSize_le
  have below := target.bounds.below
  have small : count * pageSize < 2 ^ 63 := by
    unfold Place.pages at inside
    unfold pageSize at *
    omega
  have low : (s.place att).page + skip + count ≤ 2 ^ 50 := by
    unfold Place.page Place.pages at *
    unfold pageSize at *
    omega
  obtain ⟨area, _, seated, _⟩ := target.seated
  have clears := Clears.of_shape (shape_putPages s (s.segOf att)
    (mappedPages (s.mm (s.att att).mm).table ((s.place att).page + skip)
      (int32 count).toNat))
  have place := congrFun clears.place att
  rw [xpmemUnpinPages_eq s _ att small, State.walk, counts.unpinWalk low,
    Option.map_some, Option.bind_some,
    (clears.seated seated).zapPTEsOfAtt_eq
      (by rw [place]; exact target.bounds)
      (by rw [place]; exact Nat.le_add_right _ _)
      (by rw [place]; omega), putPages_att, putPages_mm]
  have strikes := @Strikes.zap K s (s.segOf att) (s.att att).mm
    ((s.place att).page + skip) (int32 count).toNat count
    (int32_toNat_le count)
  refine .some ⟨strikes, fun index low high => ?_⟩
  rw [State.leaf, strikes.clears.att_mm, strikes.clears.place,
    Strikes.pte_zap, if_pos ⟨rfl, by omega, by omega⟩]

/-- A page-aligned range, or one that has lost its end in the rounding. -/
def Spans (start stop : Nat) : Prop :=
  PageRange (start, stop) ∨ stop = 0

theorem Target.clearAtt (target : Target s seg att)
    (ends : WalkEnds s att start stop)
    (straight : (s.seg seg).vaddr + (s.seg seg).size < 2 ^ 64)
    (spans : Spans start stop) :
    Surely (xpmemClearPTEsOfAtt s att start stop true) fun t =>
      Strikes (Showing s att start stop) s t ∧
        t.Wiped att start stop := by
  have bounds := target.bounds
  have shown : (s.place att).source + (s.place att).size < 2 ^ 64 :=
    lt_of_le_of_lt target.high straight
  unfold xpmemClearPTEsOfAtt
  extract_lets record attVaddrEnd invalidateStart invalidateEnd
    offsetStart offsetEnd unpinAt invalidateLen
  have stops : attVaddrEnd = (s.place att).source + (s.place att).size :=
    u64_of_lt shown
  have live : ¬ (true && record.destroying) = true := by
    rw [Bool.true_and, show record.destroying = false from target.live]
    exact Bool.false_ne_true
  rw [if_neg live]
  split
  · rename_i invalid
    refine .some ⟨.refl s, fun index inside _ _ => ?_⟩
    by_contra present
    have flag : record.validPTEs = true :=
      target.flagged index inside present
    rw [flag] at invalid
    cases invalid
  · rename_i valid
    have flag : s.valid att = true := by
      simpa [State.valid, record] using valid
    split
    · rename_i outside
      refine .some ⟨.refl s, fun index inside low high => ?_⟩
      rw [sourcePage_mul bounds] at low high
      exact (unwatched_of_outside bounds shown inside low high
        outside).elim
    · rename_i meets
      have within : ¬ (s.place att).Outside start stop := by
        unfold Place.Outside
        rw [← stops]
        exact meets
      have aligned : PageRange (start, stop) := by
        refine spans.resolve_right fun lost => within (.inr ?_)
        rw [lost, Nat.zero_min]
        exact Nat.zero_le _
      obtain ⟨skip, count, pages, low, high, addr, length, showing,
        whole⟩ := clear_range_exact bounds shown aligned within
      have startOffset : offsetStart = skip * pageSize := low
      have stopOffset : offsetEnd = (skip + count) * pageSize := by
        rw [← high, ← stops]
        rfl
      have unpinned :
          unpinAt = ((s.place att).page + skip) * pageSize := by
        change u64 ((s.place att).start + offsetStart) = _
        rw [startOffset, addr]
      have cleared : invalidateLen = count * pageSize := by
        change u64Sub offsetEnd offsetStart = _
        rw [startOffset, stopOffset, length]
      have wholly : offsetStart = 0 ∧ record.atSize = invalidateLen ↔
          (s.place att).Whole start stop := by
        rw [startOffset, cleared]
        exact whole
      refine .bind_map ((target.clearPages pages (ends flag _ _ showing)
        unpinned cleared).mono ?_)
      rintro zapped ⟨strikes, gone⟩
      have place := congrFun strikes.clears.place att
      have shows : Strikes (Showing s att start stop) s zapped := by
        refine strikes.mono fun mm page => ?_
        rw [Showing, showing, Finset.mem_Ico]
        exact id
      have wiped : zapped.Wiped att start stop := by
        intro index inside after before
        rw [place] at inside
        rw [State.sourcePage, strikes.clears.att_vaddr, ← State.sourcePage,
          sourcePage_mul bounds] at after before
        have member : (s.place att).page + index ∈
            (s.place att).showing start stop := by
          rw [Place.showing, Finset.mem_filter, Finset.mem_Ico,
            Nat.add_sub_cancel_left]
          exact ⟨⟨Nat.le_add_right _ _, by omega⟩, after, before⟩
        rw [showing, Finset.mem_Ico] at member
        exact gone index (by omega) (by omega)
      split
      · rename_i all
        refine ⟨shows.trans (.setValid zapped ?_),
          (Clears.setValid zapped att).wiped wiped⟩
        intro index inside
        rw [place] at inside
        have none : skip * pageSize = 0 ∧
          (s.place att).size = count * pageSize := whole.mpr (wholly.mp all)
        rw [Place.pages, none.2] at inside
        have zero := none.1
        unfold pageSize at zero inside
        exact gone index (by omega) (by omega)
      · exact ⟨shows, wiped⟩

/-! ## The walks -/

theorem Target.clearVisitAtt (target : Target s seg att)
    (ends : WalkEnds s att start stop)
    (straight : (s.seg seg).vaddr + (s.seg seg).size < 2 ^ 64)
    (spans : Spans start stop) :
    Surely (clearVisitAtt start stop true s att) fun t =>
      Strikes (Showing s att start stop) s t ∧
        t.Wiped att start stop := by
  unfold Driver.clearVisitAtt
  split
  · have taken : Strikes (Showing s att start stop) s
        (s.ref (.att att)) :=
      .of_shape (s.shape_ref (.att att)) rfl
    refine .map (((taken.target target).clearAtt (taken.walkEnds ends)
      straight spans).mono ?_)
    rintro cleared ⟨strikes, wiped⟩
    rw [taken.showing] at strikes
    exact ⟨strikes.inner (.att att),
      (Clears.of_shape (cleared.shape_deref (.att att))).wiped wiped⟩
  · rename_i invalid
    refine .some ⟨.refl s, fun index inside _ _ => ?_⟩
    by_contra present
    exact invalid (target.flagged index inside present)

/--
A walk of visits: each strikes leaves that are permitted and wipes the range
from the attachments in its scope.
-/
theorem Strikes.walk (permitted : MmPtr → Nat → Prop) (start stop : Nat)
    {β : Type} {list : List β} {visit : State K → β → Option (State K)}
    (scope : β → AttPtr → Prop)
    (visited : ∀ pre, ∀ element ∈ list, Strikes permitted s pre →
      Surely (visit pre element) fun next =>
        Strikes permitted pre next ∧
          ∀ att, scope element att → next.Wiped att start stop) :
    Surely (list.foldlM visit s) fun t =>
      Strikes permitted s t ∧
        ∀ element ∈ list, ∀ att, scope element att →
          t.Wiped att start stop := by
  refine Surely.foldlM_each (.refl s) fun pre element member earlier => ?_
  refine (visited pre element member earlier).mono ?_
  rintro next ⟨strikes, wiped⟩
  exact ⟨earlier.trans strikes, wiped, fun other before att inside =>
    strikes.clears.wiped (before att inside)⟩

/-- The attachments of a segment. -/
def ListedUnder (s : State K) (seg : SegPtr) (att : AttPtr) : Prop :=
  ∃ permit ∈ (s.seg seg).apList, att ∈ (s.ap permit).attList

theorem Clears.attList (clears : Clears s t) (permit : ApPtr) :
    (t.ap permit).attList = (s.ap permit).attList :=
  congrArg (fun u => (u.ap permit).attList) clears.objects

theorem Clears.apList (clears : Clears s t) (seg : SegPtr) :
    (t.seg seg).apList = (s.seg seg).apList :=
  congrArg (fun u => (u.seg seg).apList) clears.objects

theorem Clears.listedUnder (clears : Clears s t) (seg : SegPtr) :
    ListedUnder t seg = ListedUnder s seg := by
  funext att
  simp only [ListedUnder, clears.apList, clears.attList]

/-- A segment that does not wrap around, with its attachments. -/
structure Surveyed (s : State K) (seg : SegPtr) : Prop where
  straight : (s.seg seg).vaddr + (s.seg seg).size < 2 ^ 64
  targets : ∀ att, ListedUnder s seg att → Target s seg att

theorem Strikes.surveyed (strikes : Strikes permitted s t)
    (surveyed : Surveyed s seg) : Surveyed t seg where
  straight := by
    rw [strikes.clears.seg_vaddr, strikes.clears.seg_size]
    exact surveyed.straight
  targets att listed := by
    rw [strikes.clears.listedUnder] at listed
    exact strikes.target (surveyed.targets att listed)

/--
The attachments of a segment show only permitted leaves of the range, and the
walks over them end there.
-/
def Allows (s : State K) (seg : SegPtr) (start stop : Nat)
    (permitted : MmPtr → Nat → Prop) : Prop :=
  ∀ att, ListedUnder s seg att → WalkEnds s att start stop ∧
    ∀ mm page, Showing s att start stop mm page → permitted mm page

theorem Strikes.allows (strikes : Strikes permitted s t)
    (allows : Allows s seg start stop permitted) :
    Allows t seg start stop permitted := by
  intro att listed
  rw [strikes.clears.listedUnder] at listed
  obtain ⟨ends, inside⟩ := allows att listed
  rw [strikes.showing]
  exact ⟨strikes.walkEnds ends, inside⟩

theorem Surveyed.clearOfAp (surveyed : Surveyed s seg)
    (spans : Spans start stop)
    {permit : ApPtr} (member : permit ∈ (s.seg seg).apList)
    (allows : Allows s seg start stop permitted) :
    Surely (xpmemClearPTEsOfAp s permit start stop true) fun t =>
      Strikes permitted s t ∧
        ∀ att ∈ (s.ap permit).attList, t.Wiped att start stop := by
  unfold xpmemClearPTEsOfAp
  refine (Strikes.walk permitted start stop (fun att other => other = att)
    fun pre att inside strikes => ?_).mono ?_
  · have listed : ListedUnder s seg att := ⟨permit, member, inside⟩
    obtain ⟨ends, permits⟩ := allows att listed
    refine ((strikes.target (surveyed.targets att listed)).clearVisitAtt
      (strikes.walkEnds ends) (strikes.surveyed surveyed).straight
      spans).mono ?_
    rintro next ⟨cleared, wiped⟩
    rw [strikes.showing] at cleared
    refine ⟨cleared.mono permits, ?_⟩
    rintro other rfl
    exact wiped
  · rintro final ⟨strikes, wiped⟩
    exact ⟨strikes, fun att inside => wiped att inside att rfl⟩

theorem Surveyed.clearRange (surveyed : Surveyed s seg)
    (spans : Spans start stop)
    (allows : Allows s seg start stop permitted) :
    Surely (xpmemClearPTEsRange s seg start stop true) fun t =>
      Strikes permitted s t ∧
        ∀ att, ListedUnder s seg att → t.Wiped att start stop := by
  unfold xpmemClearPTEsRange
  refine (Strikes.walk permitted start stop
    (fun permit att => att ∈ (s.ap permit).attList)
    fun pre permit inside strikes => ?_).mono ?_
  · unfold clearVisitAp
    have taken : Strikes permitted pre (pre.ref (.ap permit)) :=
      .of_shape (pre.shape_ref (.ap permit)) rfl
    have since := strikes.trans taken
    refine .map (((since.surveyed surveyed).clearOfAp spans
      (by rw [since.clears.apList]; exact inside)
      (since.allows allows)).mono ?_)
    rintro cleared ⟨later, wiped⟩
    refine ⟨later.inner (.ap permit), fun att member => ?_⟩
    rw [← since.clears.attList] at member
    exact (Clears.of_shape (cleared.shape_deref (.ap permit))).wiped
      (wiped att member)
  · rintro final ⟨strikes, wiped⟩
    exact ⟨strikes, fun att ⟨permit, member, inside⟩ =>
      wiped permit member att inside⟩

/-! ## The segments of a group -/

/-- The segments of a group, none of which is being removed. -/
structure Watching (s : State K) (segTg : TgPtr) : Prop where
  live : ∀ seg ∈ (s.tg segTg).segList, (s.seg seg).destroying = false
  surveyed : ∀ seg ∈ (s.tg segTg).segList, Surveyed s seg

/-- The attachments of the segments of a group. -/
def ListedBelow (s : State K) (segTg : TgPtr) (att : AttPtr) : Prop :=
  ∃ seg ∈ (s.tg segTg).segList, ListedUnder s seg att

theorem Clears.segList (clears : Clears s t) (group : TgPtr) :
    (t.tg group).segList = (s.tg group).segList :=
  congrArg (fun u => (u.tg group).segList) clears.objects

theorem Strikes.watching (strikes : Strikes permitted s t)
    {segTg : TgPtr} (watching : Watching s segTg) : Watching t segTg where
  live seg member := by
    have flag : (t.seg seg).destroying = (s.seg seg).destroying :=
      congrArg (fun u => (u.seg seg).destroying) strikes.clears.objects
    rw [strikes.clears.segList] at member
    rw [flag]
    exact watching.live seg member
  surveyed seg member := by
    rw [strikes.clears.segList] at member
    exact strikes.surveyed (watching.surveyed seg member)

theorem Surveyed.invalidateVisitSeg (surveyed : Surveyed s seg)
    (live : (s.seg seg).destroying = false)
    (spans : Spans start stop)
    (allows : Allows s seg start stop permitted) :
    Surely (invalidateVisitSeg start stop s seg) fun t =>
      Strikes permitted s t ∧
        ∀ att, ListedUnder s seg att → t.Wiped att start stop := by
  unfold Driver.invalidateVisitSeg
  rw [live, if_neg Bool.false_ne_true]
  extract_lets segStart segEnd
  split
  · have taken : Strikes permitted s (s.ref (.seg seg)) :=
      .of_shape (s.shape_ref (.seg seg)) rfl
    refine .map (((taken.surveyed surveyed).clearRange spans
      (taken.allows allows)).mono ?_)
    rintro cleared ⟨strikes, wiped⟩
    refine ⟨strikes.inner (.seg seg), fun att listed => ?_⟩
    rw [← taken.clears.listedUnder] at listed
    exact (Clears.of_shape (cleared.shape_deref (.seg seg))).wiped
      (wiped att listed)
  · rename_i apart
    refine .some ⟨.refl s, fun att listed index inside low high => ?_⟩
    obtain ⟨_, bounds, above, below, _, _⟩ := surveyed.targets att listed
    have finish : segEnd = (s.seg seg).vaddr + (s.seg seg).size :=
      u64_of_lt surveyed.straight
    have whole := bounds.size
    rw [sourcePage_mul bounds] at low high
    rw [finish] at apart
    rw [Place.pages] at inside
    unfold segStart at apart
    unfold pageSize at *
    omega

theorem Watching.invalidatePTEsRange {segTg : TgPtr}
    (watching : Watching s segTg)
    (spans : Spans start stop)
    (allows : ∀ seg ∈ (s.tg segTg).segList,
      Allows s seg start stop permitted) :
    Surely (xpmemInvalidatePTEsRange s segTg start stop) fun t =>
      Strikes permitted s t ∧
        ∀ att, ListedBelow s segTg att → t.Wiped att start stop := by
  unfold xpmemInvalidatePTEsRange
  refine (Strikes.walk permitted start stop (ListedUnder s)
    fun pre seg inside strikes => ?_).mono ?_
  · have same := strikes.watching watching
    have member : seg ∈ (pre.tg segTg).segList := by
      rw [strikes.clears.segList]
      exact inside
    refine ((same.surveyed seg member).invalidateVisitSeg
      (same.live seg member) spans
      (strikes.allows (allows seg inside))).mono ?_
    rintro next ⟨later, wiped⟩
    rw [strikes.clears.listedUnder] at wiped
    exact ⟨later, wiped⟩
  · rintro final ⟨strikes, wiped⟩
    exact ⟨strikes, fun att ⟨seg, member, listed⟩ =>
      wiped seg member att listed⟩

theorem Strikes.listedBelow (strikes : Strikes permitted s t)
    (segTg : TgPtr) : ListedBelow t segTg = ListedBelow s segTg := by
  funext att
  simp only [ListedBelow, strikes.clears.segList,
    strikes.clears.listedUnder]

/-! ## The whole call -/

/-- A page of an attachment shows a source page that meets the range. -/
def MeetsRange (s : State K) (att : AttPtr) (index start stop : Nat) :
    Prop :=
  s.sourcePage att index * pageSize < stop ∧
    start < s.sourcePage att index * pageSize + pageSize

instance (s : State K) (att : AttPtr) (index start stop : Nat) :
    Decidable (MeetsRange s att index start stop) :=
  inferInstanceAs (Decidable (_ ∧ _))

/-- A leaf of an attachment of the group that meets the range. -/
def Touched (s : State K) (segTg : TgPtr) (start stop : Nat) (mm : MmPtr)
    (page : Nat) : Prop :=
  ∃ att, ListedBelow s segTg att ∧ ∃ index < (s.place att).pages,
    mm = (s.att att).mm ∧ page = (s.place att).page + index ∧
      MeetsRange s att index start stop

theorem Watching.target {segTg : TgPtr} (watching : Watching s segTg)
    (listed : ListedBelow s segTg att) : ∃ seg, Target s seg att := by
  obtain ⟨seg, member, below⟩ := listed
  exact ⟨seg, (watching.surveyed seg member).targets att below⟩

/-- Parts of the rounded range show only leaves that meet the range. -/
theorem Watching.allows {segTg : TgPtr} (watching : Watching s segTg)
    {low high lower upper : Nat} (lowAligned : low % pageSize = 0)
    (highAligned : high % pageSize = 0) (lowNear : start < low + pageSize)
    (highNear : high < stop + pageSize) (after : low ≤ lower)
    (before : upper ≤ high)
    (ends : ∀ att, ListedBelow s segTg att →
      WalkEnds s att lower upper) :
    ∀ seg ∈ (s.tg segTg).segList,
      Allows s seg lower upper (Touched s segTg start stop) := by
  refine fun seg member att listed =>
    ⟨ends att ⟨seg, member, listed⟩, ?_⟩
  rintro mm page ⟨here, shows⟩
  have target := (watching.surveyed seg member).targets att listed
  have aligned := target.bounds.source
  rw [Place.showing, Finset.mem_filter, Finset.mem_Ico] at shows
  obtain ⟨⟨inside, below⟩, above, under⟩ := shows
  refine ⟨att, ⟨seg, member, listed⟩, page - (s.place att).page,
    by omega, here, by omega, ?_⟩
  rw [MeetsRange, sourcePage_mul target.bounds]
  unfold pageSize at *
  omega

theorem Watching.invalidateVisitVma {segTg : TgPtr}
    (watching : Watching s segTg) {vma : Vma}
    {low high : Nat} (meets : vma.Meets low high) (proper : low < high)
    (nonempty : vma.start < vma.stop)
    (areaAligned : vma.start % pageSize = 0 ∧ vma.stop % pageSize = 0)
    (lowAligned : low % pageSize = 0) (highAligned : high % pageSize = 0)
    (allows : vma.payload.xpmemOps = false →
      ∀ seg ∈ (s.tg segTg).segList,
        Allows s seg (max vma.start low) (min vma.stop high) permitted) :
    Surely (invalidateVisitVma segTg low high s vma) fun t =>
      Strikes permitted s t ∧ (vma.payload.xpmemOps = false →
        ∀ att, ListedBelow s segTg att →
          t.Wiped att (max vma.start low) (min vma.stop high)) := by
  obtain ⟨after, before⟩ := meets
  unfold Driver.invalidateVisitVma
  split
  · rename_i ops
    refine .some ⟨.refl s, fun plain => ?_⟩
    rw [plain] at ops
    cases ops
  · rename_i ops
    have plain : vma.payload.xpmemOps = false := Bool.not_eq_true _ ▸ ops
    extract_lets vmStart vmEnd
    rw [if_neg (by unfold vmStart; omega), if_neg (by unfold vmEnd; omega)]
    have aligned : PageRange (vmStart, vmEnd) := by
      unfold PageRange vmStart vmEnd
      unfold pageSize at *
      dsimp only
      omega
    refine (watching.invalidatePTEsRange (.inl aligned)
      (allows plain)).mono ?_
    rintro final ⟨strikes, wiped⟩
    exact ⟨strikes, fun _ => wiped⟩

/-- The rounded bounds, when rounding up does not wrap around. -/
theorem round_spec (proper : start < stop)
    (room : stop + pageSize ≤ 2 ^ 64) :
    roundStart start % pageSize = 0 ∧ roundStop stop % pageSize = 0 ∧
      roundStart start ≤ start ∧ start < roundStart start + pageSize ∧
      stop ≤ roundStop stop ∧ roundStop stop < stop + pageSize := by
  unfold roundStart roundStop offsetInPage u64Sub u64
  unfold pageSize at *
  split <;> split <;> omega

/-- What a callback for `[start, stop)` does to the attachments. -/
structure Covers (s t : State K) (segTg : TgPtr) (mm : MmPtr)
    (start stop : Nat) : Prop where
  gone : ∀ att, ListedBelow s segTg att →
    ∀ index < (s.place att).pages, MeetsRange s att index start stop →
      ((∃ area ∈ s.vmas mm, area.payload.xpmemOps = false ∧
          area.Contains (s.sourcePage att index * pageSize)) ∨
        (s.vmas mm).Free start stop) →
      t.leaf att index = none
  kept : ∀ att, ListedBelow s segTg att →
    ∀ index < (s.place att).pages, ¬ MeetsRange s att index start stop →
      t.leaf att index = s.leaf att index
  struck : Strikes (Touched s segTg start stop) s t

/-- A leaf of an attachment is a leaf of no other one. -/
theorem Watching.kept {segTg : TgPtr} (watching : Watching s segTg)
    (strikes : Strikes (Touched s segTg start stop) s t)
    (listed : ListedBelow s segTg att) {index : Nat}
    (inside : index < (s.place att).pages)
    (apart : ¬ MeetsRange s att index start stop) :
    t.leaf att index = s.leaf att index := by
  rw [State.leaf, strikes.clears.att_mm, strikes.clears.place]
  apply strikes.kept
  rintro ⟨other, otherListed, place, below, sameMm, samePage, meets⟩
  obtain ⟨_, target⟩ := watching.target listed
  obtain ⟨_, otherTarget⟩ := watching.target otherListed
  obtain ⟨area, member, seated, own⟩ := target.seated
  obtain ⟨next, nextMember, nextSeated, nextOwn⟩ := otherTarget.seated
  have contains {one : AttPtr} {range : Vma} (sits : Seated s one range)
      (bounds : Bounds K (s.place one)) {spot : Nat}
      (within : spot < (s.place one).pages) :
      range.Contains (((s.place one).page + spot) * pageSize) := by
    have aligned := bounds.start
    rw [Range.Contains, sits.start, sits.stop]
    unfold Place.page Place.pages at *
    unfold pageSize at *
    omega
  have first := contains seated target.bounds inside
  have second := contains nextSeated otherTarget.bounds below
  rw [← samePage] at second
  rw [← sameMm] at nextMember
  have same := RangeList.eq_of_contains member nextMember first second
  rw [← same, own] at nextOwn
  cases nextOwn
  have equal : index = place := by omega
  subst equal
  exact apart meets

/--
The walks over what the attachments of a group show of the rounded range end
there: over all of it, if it meets no area, and over its parts in ordinary
areas.
-/
structure WalksEnd (s : State K) (segTg : TgPtr) (mm : MmPtr)
    (start stop : Nat) : Prop where
  free : (s.vmas mm).Free (roundStart start) (roundStop stop) →
    ∀ att, ListedBelow s segTg att →
      WalkEnds s att (roundStart start) (roundStop stop)
  area : ∀ area ∈ (s.vmas mm).meeting (roundStart start) (roundStop stop),
    area.payload.xpmemOps = false → ∀ att, ListedBelow s segTg att →
      WalkEnds s att (max area.start (roundStart start))
        (min area.stop (roundStop stop))

theorem MeetsRange.rounded {index : Nat}
    (meets : MeetsRange s att index start stop) (proper : start < stop)
    (room : stop + pageSize ≤ 2 ^ 64) :
    roundStart start ≤ s.sourcePage att index * pageSize ∧
      s.sourcePage att index * pageSize < roundStop stop := by
  obtain ⟨aligned, _, lowBelow, _, highAbove, _⟩ := round_spec proper room
  obtain ⟨before, after⟩ := meets
  refine ⟨?_, lt_of_lt_of_le before highAbove⟩
  have near := lt_of_le_of_lt lowBelow after
  unfold pageSize at *
  omega

/-- The callback visits the areas that meet the rounded range. -/
theorem Watching.visitVmas {segTg : TgPtr} {mm : MmPtr}
    (watching : Watching s segTg)
    (areas : ∀ area ∈ s.vmas mm,
      area.start % pageSize = 0 ∧ area.stop % pageSize = 0)
    (proper : start < stop) (room : stop + pageSize ≤ 2 ^ 64)
    (ends : WalksEnd s segTg mm start stop) :
    Surely (((s.mm mm).vmas.meeting (roundStart start)
        (roundStop stop)).foldlM (Driver.invalidateVisitVma segTg
          (roundStart start) (roundStop stop)) s) fun t =>
      Strikes (Touched s segTg start stop) s t ∧
      ∀ vma ∈ (s.mm mm).vmas.meeting (roundStart start) (roundStop stop),
        vma.payload.xpmemOps = false → ∀ att, ListedBelow s segTg att →
          t.Wiped att (max vma.start (roundStart start))
            (min vma.stop (roundStop stop)) := by
  obtain ⟨lowAligned, highAligned, lowBelow, lowNear, highAbove,
    highNear⟩ := round_spec proper room
  refine .foldlM_each (.refl s) fun pre vma member strikes => ?_
  obtain ⟨old, meets⟩ := RangeList.mem_meeting_iff.mp member
  have allows (plain : vma.payload.xpmemOps = false) (seg : SegPtr)
      (inside : seg ∈ (pre.tg segTg).segList) :
      Allows pre seg (max vma.start (roundStart start))
        (min vma.stop (roundStop stop)) (Touched s segTg start stop) := by
    rw [strikes.clears.segList] at inside
    exact strikes.allows (watching.allows lowAligned highAligned lowNear
      highNear (Nat.le_max_right _ _) (Nat.min_le_right _ _)
      (ends.area vma member plain) seg inside)
  refine ((strikes.watching watching).invalidateVisitVma meets
    (lt_of_le_of_lt lowBelow (lt_of_lt_of_le proper highAbove))
    (RangeList.start_lt_stop old) (areas vma old) lowAligned highAligned
    allows).mono ?_
  rintro next ⟨later, wiped⟩
  rw [strikes.listedBelow] at wiped
  exact ⟨strikes.trans later, wiped, fun other before plain att listed =>
    later.clears.wiped (before plain att listed)⟩

theorem Watching.covers {current : Task} {segTg : TgPtr}
    {mm : MmPtr} (watching : Watching s segTg)
    (context : (s.tg segTg).tgid = current.tgid)
    (areas : ∀ area ∈ s.vmas mm,
      area.start % pageSize = 0 ∧ area.stop % pageSize = 0)
    (proper : start < stop) (room : stop + pageSize ≤ 2 ^ 64)
    (ends : WalksEnd s segTg mm start stop) :
    ∃ t, xpmemInvalidateRange s current segTg mm start stop = some t ∧
      Covers s t segTg mm start stop := by
  obtain ⟨lowAligned, highAligned, lowBelow, lowNear, highAbove,
    highNear⟩ := round_spec proper room
  -- the kept leaves follow from what may be struck, so two goals are left
  suffices covered : Surely
      (xpmemInvalidateRange s current segTg mm start stop) fun t =>
        Strikes (Touched s segTg start stop) s t ∧
        ∀ att, ListedBelow s segTg att →
          ∀ index < (s.place att).pages,
            MeetsRange s att index start stop →
            ((∃ area ∈ s.vmas mm, area.payload.xpmemOps = false ∧
                area.Contains (s.sourcePage att index * pageSize)) ∨
              (s.vmas mm).Free start stop) →
            t.leaf att index = none by
    obtain ⟨final, returned, strikes, gone⟩ := covered
    exact ⟨final, returned, gone, fun att listed index inside =>
      watching.kept strikes listed inside, strikes⟩
  unfold xpmemInvalidateRange
  rw [if_neg (not_not.mpr context)]
  dsimp only
  split
  · rename_i nowhere
    have aligned : PageRange (roundStart start, roundStop stop) :=
      ⟨lowAligned, highAligned, lowBelow.trans (proper.le.trans highAbove)⟩
    refine (watching.invalidatePTEsRange (.inl aligned)
      (watching.allows lowAligned highAligned lowNear highNear le_rfl
        le_rfl (ends.free (RangeList.free_of_find nowhere)))).mono ?_
    rintro final ⟨strikes, wiped⟩
    refine ⟨strikes, fun att listed index inside meets _ => ?_⟩
    obtain ⟨above, below⟩ := meets.rounded proper room
    rw [← strikes.clears.place] at inside
    apply wiped att listed index inside <;>
      rw [State.sourcePage, strikes.clears.att_vaddr]
    · exact above
    · exact below
  · rename_i first found
    refine (watching.visitVmas areas proper room ends).mono ?_
    rintro final ⟨strikes, wiped⟩
    refine ⟨strikes, fun att listed index inside meets either => ?_⟩
    obtain ⟨above, below⟩ := meets.rounded proper room
    rcases either with ⟨area, member, plain, contains⟩ | free
    · have meeting : area ∈ (s.mm mm).vmas.meeting (roundStart start)
          (roundStop stop) := by
        refine RangeList.mem_meeting_iff.mpr ⟨member, ?_, ?_⟩
        · exact lt_of_le_of_lt above contains.2
        · exact lt_of_le_of_lt contains.1 below
      rw [← strikes.clears.place] at inside
      apply wiped area meeting plain att listed index inside <;>
        rw [State.sourcePage, strikes.clears.att_vaddr]
      · exact max_le contains.1 above
      · exact lt_min contains.2 below
    · -- an aligned area that meets the rounded range meets the range
      obtain ⟨member, finishes, begins⟩ := RangeList.meets_of_find found
      obtain ⟨startAligned, stopAligned⟩ := areas first member
      have apart := free first member
      unfold pageSize at *
      omega

/-- There is nothing that a callback for the range has to clear. -/
def Cleared (s : State K) (segTg : TgPtr) (mm : MmPtr)
    (start stop : Nat) : Prop :=
  ∀ att, ListedBelow s segTg att →
    ∀ index < (s.place att).pages, MeetsRange s att index start stop →
      ((∃ area ∈ s.vmas mm, area.payload.xpmemOps = false ∧
          area.Contains (s.sourcePage att index * pageSize)) ∨
        (s.vmas mm).Free start stop) →
      s.leaf att index = none

theorem roundStop_of_last_page (bounded : stop < 2 ^ 64)
    (tight : 2 ^ 64 < stop + pageSize) : roundStop stop = 0 := by
  unfold roundStop offsetInPage u64
  unfold pageSize at *
  split <;> omega

/-- An end in the last page is lost in the rounding: nothing is cleared. -/
theorem Watching.spares {current : Task} {segTg : TgPtr} {mm : MmPtr}
    (watching : Watching s segTg)
    (context : (s.tg segTg).tgid = current.tgid)
    (bounded : stop < 2 ^ 64) (tight : 2 ^ 64 < stop + pageSize) :
    Surely (xpmemInvalidateRange s current segTg mm start stop)
      (Strikes (fun _ _ => False) s) := by
  unfold xpmemInvalidateRange
  rw [if_neg (not_not.mpr context), roundStop_of_last_page bounded tight]
  have unseen (att : AttPtr) :
      (s.place att).showing (roundStart start) 0 = ∅ := by
    simp [Place.showing]
  have nowhere : ((s.mm mm).findVma (roundStart start)).filter
      (fun vma => vma.start < 0) = none := by
    simp
  simp only [nowhere]
  refine (watching.invalidatePTEsRange (.inr rfl) ?_).mono
    fun _ both => both.1
  refine fun seg _ att _ => ⟨fun _ first count showing some => ?_, ?_⟩
  · rw [unseen, eq_comm, Finset.Ico_eq_empty_iff] at showing
    have empty : count = 0 := by omega
    subst empty
    cases some
  · rintro mm page ⟨_, shows⟩
    rw [unseen] at shows
    cases shows

end Xpmem.Driver
