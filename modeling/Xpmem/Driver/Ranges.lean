import Xpmem.Driver.Naming

/-!
# Ranges of segments and windows

`xpmem_make` and `xpmem_validate_access` compare the end of a range with a
bound after a sum in 64 bits.  `segmentSize` and `InSegment` say what the two
checks are for, with sums that do not wrap around; the checks agree with them
where the sum fits into 64 bits, and where it does not exactly when something
else refuses the range.
-/

namespace Xpmem.Driver

open Xpmem.Foundation Xpmem.Kernel

variable {K : Platform} {s : State K}

/-! ## Segments -/

/--
The size of the segment that is asked for with these bounds, if there is one:
whole pages below the limit, or all that is left below the limit.
-/
def segmentSize (addrLimit vaddr size : Nat) : Option Nat :=
  if vaddr % pageSize ≠ 0 then none
  else if 0 < size ∧ size % pageSize = 0 ∧ vaddr + size ≤ addrLimit then
    some size
  else if size = xpmemMaxaddrSize ∧ vaddr < addrLimit then
    some (addrLimit - vaddr)
  else none

/-- The alignment check of `xpmem_make`. -/
def makeAligned (vaddr size : Nat) : Bool :=
  offsetInPage vaddr = 0 ∧ offsetInPage size = 0

/-- Both checks of `xpmem_make` on a range that fits into 64 bits. -/
theorem makeSize_filter_eq {addrLimit vaddr size : Nat}
    (limitAligned : addrLimit % pageSize = 0) (limitPositive : 0 < addrLimit)
    (limitSmall : addrLimit < 2 ^ 64) (positive : 0 < size)
    (straight : vaddr + size < 2 ^ 64) :
    (makeSize addrLimit vaddr size).filter (makeAligned vaddr) =
      segmentSize addrLimit vaddr size := by
  unfold makeSize segmentSize
  rw [u64_of_lt straight]
  by_cases beyond : addrLimit < vaddr + size
  · rw [if_pos beyond]
    by_cases whole : size = xpmemMaxaddrSize
    · -- all of memory is asked for from address 0 on
      have zero : vaddr = 0 := by
        unfold xpmemMaxaddrSize at whole
        omega
      have left : u64Sub addrLimit vaddr = addrLimit := by
        rw [zero, u64Sub_of_le (Nat.zero_le _) limitSmall, Nat.sub_zero]
      have odd : ¬(0 < size ∧ size % pageSize = 0 ∧
          vaddr + size ≤ addrLimit) := by
        omega
      rw [if_neg (by simpa using whole), left, if_neg (by simp [zero]),
        if_neg odd, if_pos ⟨whole, by omega⟩, zero]
      simp [makeAligned, offsetInPage, limitAligned]
    · rw [if_pos whole]
      split_ifs <;> first | rfl | omega
  · rw [if_neg beyond]
    have small : size ≠ xpmemMaxaddrSize := by
      unfold xpmemMaxaddrSize
      unfold pageSize at limitAligned
      omega
    by_cases aligned : vaddr % pageSize = 0 ∧ size % pageSize = 0
    · rw [if_neg (by simp [aligned.1]),
        if_pos ⟨positive, aligned.2, by omega⟩]
      simp [makeAligned, offsetInPage, aligned]
    · have refused : makeAligned vaddr size = false :=
        decide_eq_false aligned
      rw [Option.filter_some, refused]
      split_ifs <;> first | rfl | omega

/--
The bounds on which `xpmem_make` is not led astray: where the sum does not fit
into 64 bits, the start is not at a page, or the sum that is left is beyond
the limit and the size is not that of all memory.
-/
def MakeFits (addrLimit vaddr size : Nat) : Prop :=
  2 ^ 64 ≤ vaddr + size → vaddr % pageSize = 0 →
    (size % pageSize = 0 → addrLimit < vaddr + size - 2 ^ 64) ∧
      (size = xpmemMaxaddrSize → vaddr = addrLimit)

theorem makeSize_filter_eq_iff {addrLimit vaddr size : Nat}
    (limitAligned : addrLimit % pageSize = 0) (limitPositive : 0 < addrLimit)
    (limitSmall : addrLimit < 2 ^ 64) (vaddrSmall : vaddr < 2 ^ 64)
    (sizeSmall : size < 2 ^ 64) (positive : 0 < size) :
    (makeSize addrLimit vaddr size).filter (makeAligned vaddr) =
        segmentSize addrLimit vaddr size ↔
      MakeFits addrLimit vaddr size := by
  rcases Nat.lt_or_ge (vaddr + size) (2 ^ 64) with straight | wraps
  · have fits : MakeFits addrLimit vaddr size := fun wraps => by omega
    simp only [fits, iff_true]
    exact makeSize_filter_eq limitAligned limitPositive limitSmall positive
      straight
  by_cases start : vaddr % pageSize = 0
  · have sum : u64 (vaddr + size) = vaddr + size - 2 ^ 64 := by
      unfold u64
      omega
    have outside : ¬(0 < size ∧ size % pageSize = 0 ∧
        vaddr + size ≤ addrLimit) := by
      omega
    simp only [MakeFits, wraps, start, true_implies, makeSize, sum,
      segmentSize, outside, if_false, ne_eq, not_true_eq_false]
    by_cases whole : size = xpmemMaxaddrSize
    · -- the limit is not at the page behind it, and the size at no page
      have odd : size % pageSize ≠ 0 := by
        rw [whole]
        decide
      have left : u64Sub addrLimit vaddr % pageSize = 0 := by
        unfold u64Sub pageSize at *
        omega
      have last : vaddr ≠ addrLimit + 1 := by
        unfold pageSize at *
        omega
      simp only [whole, true_and, not_true_eq_false, if_false, true_implies]
      rw [← whole]
      split_ifs <;>
        (simp_all [makeAligned, offsetInPage, xpmemMaxaddrSize]; omega)
    · simp only [whole, false_and, if_false, not_false_eq_true, if_true,
        false_implies, and_true]
      split_ifs <;> simp_all [makeAligned, offsetInPage]
      omega
  · have fits : MakeFits addrLimit vaddr size :=
      fun _ aligned => absurd aligned start
    simp only [fits, iff_true, segmentSize, start, ne_eq,
      not_false_eq_true, if_true, Option.filter_eq_none_iff]
    intro length _
    simp [makeAligned, offsetInPage, start]

/-- The new segment has these bounds and is on the list of its group. -/
structure MakesSegment (s t : State K) (group : TgPtr)
    (vaddr size : Nat) : Prop where
  next : t.nextSeg = s.nextSeg + 1
  vaddr : (t.seg s.nextSeg).vaddr = vaddr
  size : (t.seg s.nextSeg).size = size
  segList : (t.tg group).segList = (s.tg group).segList ++ [s.nextSeg]
  others : ∀ seg, seg ≠ s.nextSeg → t.seg seg = s.seg seg

/-- No segment was created. -/
structure MakesNone (s t : State K) : Prop where
  next : t.nextSeg = s.nextSeg
  seg : t.seg = s.seg
  segList : ∀ group, (t.tg group).segList = (s.tg group).segList

theorem segList_xpmemTgRef (s : State K) (group other : TgPtr) :
    ((s.xpmemTgRef group).tg other).segList = (s.tg other).segList := by
  by_cases here : other = group
  · subst other
    simp [State.xpmemTgRef, State.modTg]
  · simp [State.xpmemTgRef, State.modTg, here]

theorem segList_xpmemTgDeref (s : State K) (group other : TgPtr) :
    ((s.xpmemTgDeref group).tg other).segList = (s.tg other).segList := by
  simp only [State.xpmemTgDeref, State.kfreeTg]
  by_cases here : other = group
  · subst other
    split <;> simp [State.modTg]
  · split <;> simp [State.modTg, here]

theorem makesNone_refs (s : State K) (group : TgPtr) :
    MakesNone s ((s.xpmemTgRef group).xpmemTgDeref group) := by
  obtain ⟨seg, _, next, _⟩ :=
    xpmemTgDeref_objects (s.xpmemTgRef group) group
  refine ⟨next, seg, fun other => ?_⟩
  rw [segList_xpmemTgDeref, segList_xpmemTgRef]

/-- Linking a segment, and dropping the reference to its group after that. -/
theorem makesSegment_linkSeg (s : State K) (group : TgPtr)
    (segid : BitVec 64) (vaddr size : Nat) (permitType : BitVec 32)
    (permitValue : BitVec 64) :
    MakesSegment s
      ((linkSeg s group segid vaddr size permitType
        permitValue).xpmemTgDeref group) group vaddr size := by
  obtain ⟨seg, _, next, _⟩ := xpmemTgDeref_objects
    (linkSeg s group segid vaddr size permitType permitValue) group
  refine ⟨?_, ?_, ?_, ?_, fun other old => ?_⟩
  · rw [next]
    rfl
  · rw [seg]
    simp [linkSeg, State.modSeg, State.modTg]
  · rw [seg]
    simp [linkSeg, State.modSeg, State.modTg]
  · rw [segList_xpmemTgDeref]
    simp [linkSeg, State.modSeg, State.modTg]
  · rw [seg]
    simp [linkSeg, State.modSeg, State.modTg, old]

theorem uniqSegid_xpmemTgRef (s : State K) (group : TgPtr) :
    ((s.xpmemTgRef group).tg group).uniqSegid =
      (s.tg group).uniqSegid := by
  simp [State.xpmemTgRef, State.modTg]

theorem xpmemMakeSegid_of_lt {group : TgPtr}
    (available : (s.tg group).uniqSegid < xpmemMaxUniqId) :
    xpmemMakeSegid s group =
      (s.modTg group fun tg =>
          { tg with uniqSegid := (s.tg group).uniqSegid + 1 },
        some (packId K (s.tg group).tgid
          ((s.tg group).uniqSegid + 1))) := by
  simp only [xpmemMakeSegid]
  rw [if_neg (Nat.not_lt.mpr available)]

/-- The reference and the counter that come first do not matter. -/
theorem MakesSegment.of_counted {t : State K} {group : TgPtr}
    {uniq vaddr size : Nat}
    (makes : MakesSegment ((s.xpmemTgRef group).modTg group fun tg =>
      { tg with uniqSegid := uniq }) t group vaddr size) :
    MakesSegment s t group vaddr size where
  next := makes.next
  vaddr := makes.vaddr
  size := makes.size
  segList := by
    have same := makes.segList
    simpa [State.xpmemTgRef, State.modTg] using same
  others := makes.others

theorem segmentSize_bounds {addrLimit vaddr size length : Nat}
    (accepted : segmentSize addrLimit vaddr size = some length) :
    0 < length ∧ vaddr + length ≤ addrLimit := by
  unfold segmentSize at accepted
  split_ifs at accepted <;> cases accepted <;> omega

/-- What `xpmem_make` does once its checks have left this size, if any. -/
def MakesSize (s : State K) (current : Task) (group : TgPtr)
    (vaddr size permitValue : BitVec 64) : Option Nat → Prop
  | some length => ∃ t segid, xpmemMake s current vaddr size xpmemPermitMode
        permitValue false = (t, .ok segid) ∧
      MakesSegment s t group vaddr.toNat length
  | none => ∃ t, xpmemMake s current vaddr size xpmemPermitMode permitValue
        false = (t, .error .einval) ∧
      MakesNone s t

theorem MakesSize.unique {current : Task} {group : TgPtr}
    {vaddr size permitValue : BitVec 64} {first second : Option Nat}
    (one : MakesSize s current group vaddr size permitValue first)
    (other : MakesSize s current group vaddr size permitValue second) :
    first = second := by
  cases first <;> cases second <;>
    simp only [MakesSize] at one other
  · rfl
  · obtain ⟨t, refused, _⟩ := one
    obtain ⟨t', segid, made, _⟩ := other
    simp [refused] at made
  · obtain ⟨t, segid, made, _⟩ := one
    obtain ⟨t', refused, _⟩ := other
    simp [refused] at made
  · obtain ⟨t, segid, made, makes⟩ := one
    obtain ⟨t', segid', again, makes'⟩ := other
    obtain ⟨rfl, _⟩ := Prod.ext_iff.mp (made.symm.trans again)
    rw [← makes.size, ← makes'.size]

section

variable {current : Task} {group : TgPtr}
  {vaddr size permitValue : BitVec 64}

theorem makesSize_zero :
    MakesSize s current group vaddr 0 permitValue none := by
  refine ⟨s, ?_, rfl, rfl, fun _ => rfl⟩
  simp [xpmemMake]

/-- Of a size that is not 0 the two checks decide. -/
theorem makesSize_filter
    (found : s.findTg current.tgid false = some group)
    (valid : permitValue &&& ~~~0o777 = 0)
    (available : (s.tg group).uniqSegid < xpmemMaxUniqId)
    (vaddr : BitVec 64) (nonempty : size ≠ 0) :
    MakesSize s current group vaddr size permitValue
      ((makeSize (s.tg group).addrLimit vaddr.toNat size.toNat).filter
        (makeAligned vaddr.toNat)) := by
  have limit : ((s.xpmemTgRef group).tg group).addrLimit =
      (s.tg group).addrLimit := by
    simp [State.xpmemTgRef, State.modTg]
  have passed : ¬(xpmemPermitMode ≠ xpmemPermitMode ∨
      permitValue &&& ~~~0o777 ≠ 0 ∨ size = 0) := by
    rintro (differs | invalid | zero)
    · exact differs rfl
    · exact invalid valid
    · exact nonempty zero
  cases made : makeSize (s.tg group).addrLimit vaddr.toNat size.toNat with
  | none =>
      refine ⟨_, ?_, makesNone_refs s group⟩
      simp only [xpmemMake, if_neg passed, found, limit, made]
  | some length =>
      rw [Option.filter_some]
      by_cases aligned : makeAligned vaddr.toNat length = true
      · have counted : ((s.xpmemTgRef group).tg group).uniqSegid <
            xpmemMaxUniqId := by
          rw [uniqSegid_xpmemTgRef]
          exact available
        have page : ¬(offsetInPage vaddr.toNat ≠ 0 ∨
            offsetInPage length ≠ 0) := by
          have both := of_decide_eq_true aligned
          simp [both]
        rw [if_pos aligned]
        simp only [MakesSize, xpmemMake, if_neg passed, found, limit, made,
          if_neg page, xpmemMakeSegid_of_lt counted]
        exact ⟨_, _, rfl,
          (makesSegment_linkSeg _ group _ _ _ _ _).of_counted⟩
      · have page : offsetInPage vaddr.toNat ≠ 0 ∨
            offsetInPage length ≠ 0 := by
          by_contra both
          simp only [not_or, not_not] at both
          exact aligned (decide_eq_true both)
        rw [if_neg aligned]
        refine ⟨_, ?_, makesNone_refs s group⟩
        simp only [xpmemMake, if_neg passed, found, limit, made, if_pos page]

/--
`xpmem_make` creates the segment that is asked for, and none where none is,
exactly on the bounds that fit.
-/
theorem xpmemMake_exact
    (found : s.findTg current.tgid false = some group)
    (limitAligned : (s.tg group).addrLimit % pageSize = 0)
    (limitPositive : 0 < (s.tg group).addrLimit)
    (limitSmall : (s.tg group).addrLimit < 2 ^ 64)
    (valid : permitValue &&& ~~~0o777 = 0)
    (available : (s.tg group).uniqSegid < xpmemMaxUniqId) :
    (∀ length,
      segmentSize (s.tg group).addrLimit vaddr.toNat size.toNat =
        some length →
      0 < length ∧ vaddr.toNat + length ≤ (s.tg group).addrLimit) ∧
    (MakesSize s current group vaddr size permitValue
        (segmentSize (s.tg group).addrLimit vaddr.toNat size.toNat) ↔
      MakeFits (s.tg group).addrLimit vaddr.toNat size.toNat) := by
  refine ⟨fun _ => segmentSize_bounds, ?_⟩
  by_cases empty : size = 0
  · subst size
    have refused : segmentSize (s.tg group).addrLimit vaddr.toNat
        (0 : BitVec 64).toNat = none := by
      simp [segmentSize, xpmemMaxaddrSize]
    have straight := vaddr.isLt
    rw [refused]
    refine ⟨fun _ wraps => ?_, fun _ => makesSize_zero⟩
    simp at wraps
    omega
  have positive : 0 < size.toNat := by
    rw [Nat.pos_iff_ne_zero]
    exact fun zero => empty (BitVec.eq_of_toNat_eq zero)
  have made := makesSize_filter found valid available vaddr empty
  rw [← makeSize_filter_eq_iff limitAligned limitPositive limitSmall
    vaddr.isLt size.isLt positive]
  constructor
  · intro asked
    exact made.unique asked
  · intro same
    rw [← same]
    exact made

end

/-- A process shares four pages. -/
theorem xpmemMake_exact_pages :
    ∃ (events : _) (s : State fourLevel),
      Run step {} (fun _ _ => True) events s ∧
      ∃ t segid, xpmemMake s ⟨1, some 0⟩ 0x10000 0x4000 xpmemPermitMode
          0o600 false = (t, .ok segid) ∧
        MakesSegment s t 0 0x10000 0x4000 := by
  obtain ⟨events, s, run, found, limit, uniq⟩ := exists_run
    step ({} : State fourLevel) (fun _ _ => True)
    [.spawn 1, .openDev 1 {}]
    (fun _ s => s.findTg 1 false = some 0 ∧
      (s.tg 0).addrLimit = 2 ^ 47 - 4096 ∧ (s.tg 0).uniqSegid = 0)
    (by decide +kernel)
  have made := @xpmemMake_exact fourLevel s ⟨1, some 0⟩ 0 0x10000 0x4000
    0o600 found (by rw [limit]; decide) (by rw [limit]; decide)
    (by rw [limit]; decide) (by decide) (by rw [uniq]; decide)
  rw [limit, show segmentSize (2 ^ 47 - 4096) (0x10000 : BitVec 64).toNat
    (0x4000 : BitVec 64).toNat = some 0x4000 by decide] at made
  exact ⟨events, s, run, made.2.mpr (fun wraps => by simp at wraps)⟩

/--
Two pages at the end of the 64-bit range are accepted, and the rest of the
address space from its second page on is not.
-/
theorem xpmemMake_wraps :
    ∃ (events : _) (s : State fourLevel),
      Run step {} (fun _ _ => True) events s ∧
      s.findTg 1 false = some 0 ∧
      segmentSize (s.tg 0).addrLimit (0xfffffffffffff000 : BitVec 64).toNat
        (0x2000 : BitVec 64).toNat = none ∧
      (xpmemMake s ⟨1, some 0⟩ 0xfffffffffffff000 0x2000 xpmemPermitMode
        0o600 false).2.isOk = true ∧
      segmentSize (s.tg 0).addrLimit (0x1000 : BitVec 64).toNat
        (0xffffffffffffffff : BitVec 64).toNat = some (2 ^ 47 - 8192) ∧
      (xpmemMake s ⟨1, some 0⟩ 0x1000 0xffffffffffffffff xpmemPermitMode
        0o600 false).2.isOk = false :=
  exists_run step ({} : State fourLevel) (fun _ _ => True)
    [.spawn 1, .openDev 1 {}] _ (by decide +kernel)

/-! ## Windows -/

/-- The window lies in the segment, with sums that do not wrap around. -/
def InSegment (segSize : Nat) (offset : Int) (size : Nat) : Prop :=
  0 < size ∧ 0 ≤ offset ∧ offset + size ≤ segSize

/-- The addresses from `address` on are those of the window. -/
structure WindowAt (segVaddr segSize : Nat) (offset : Int)
    (size address : Nat) : Prop where
  /-- Each of them is one of the segment, also when that wraps around. -/
  inside : ∀ index < size, ∃ place < segSize,
    (place : Int) = offset + index ∧
      u64 (address + index) = u64 (segVaddr + place)
  straight : segVaddr + segSize ≤ 2 ^ 64 →
    (address : Int) = segVaddr + offset ∧ segVaddr ≤ address ∧
      address + size ≤ segVaddr + segSize

theorem windowAt_of_inSegment {segVaddr segSize offset size : Nat}
    (window : InSegment segSize offset size) :
    WindowAt segVaddr segSize offset size (u64 (segVaddr + offset)) := by
  obtain ⟨positive, _, fits⟩ := window
  constructor
  · intro index below
    refine ⟨offset + index, by omega, by push_cast; rfl, ?_⟩
    unfold u64
    omega
  · intro straight
    rw [u64_of_lt (by omega)]
    refine ⟨by push_cast; rfl, by omega, by omega⟩

/-- The end of the window does not come back around into the segment. -/
def WindowFits (segSize : Nat) (offset : Int) (size : Nat) : Prop :=
  0 ≤ offset → 2 ^ 64 ≤ offset + size → segSize + 2 ^ 64 < offset + size

/-- `xpmem_validate_access` has this result on the window, as it should. -/
def ValidatesAs (seg : Segment) (offset : Int) (size : Nat)
    (result : Except Errno Nat) : Prop :=
  (result.isOk = true ↔ InSegment seg.size offset size) ∧
    ∀ address, result = .ok address →
      WindowAt seg.vaddr seg.size offset size address

theorem ValidatesAs.of_ok_iff {seg : Segment} {offset : Nat} {size : Nat}
    {result : Except Errno Nat}
    (ok : ∀ address, result = .ok address →
      address = u64 (seg.vaddr + offset)) :
    ValidatesAs seg offset size result ↔
      (result.isOk = true ↔ InSegment seg.size offset size) := by
  refine ⟨And.left, fun exact => ⟨exact, fun address accepted => ?_⟩⟩
  rw [ok address accepted]
  refine windowAt_of_inSegment (exact.mp ?_)
  rw [accepted]
  rfl

/--
`xpmem_validate_access` lets a permit's owner pass exactly where the window
lies in the segment, and gives its address, if and only if the window's end
does not come back around into the segment.
-/
theorem xpmemValidateAccess_exact {current : Task} {permit : ApPtr}
    {offset size : BitVec 64} {mode : BitVec 32}
    (own : current.tgid = (s.tg (s.ap permit).tg).tgid)
    (permitted : ¬(mode = xpmemRdwr ∧ (s.ap permit).mode = xpmemRdonly))
    (bounded : (s.seg (s.ap permit).seg).size < 2 ^ 64) :
    ValidatesAs (s.seg (s.ap permit).seg) offset.toInt size.toNat
        (xpmemValidateAccess s current permit offset size.toNat mode) ↔
      WindowFits (s.seg (s.ap permit).seg).size offset.toInt size.toNat := by
  have passed : ¬(current.tgid ≠ (s.tg (s.ap permit).tg).tgid ∨
      (mode = xpmemRdwr ∧ (s.ap permit).mode = xpmemRdonly)) := by
    rintro (foreign | denied)
    · exact foreign own
    · exact permitted denied
  simp only [xpmemValidateAccess, if_neg passed]
  by_cases negative : offset.toInt < 0
  · rw [if_pos (Or.inl negative)]
    have fits : WindowFits (s.seg (s.ap permit).seg).size offset.toInt
        size.toNat :=
      fun positive => by omega
    simp only [fits, iff_true]
    refine ⟨⟨fun ok => ?_, fun window => ?_⟩, fun _ ok => by cases ok⟩
    · cases ok
    · exact absurd window.2.1 (by omega)
  · have same : offset.toInt = offset.toNat := by
      rw [BitVec.toInt_eq_toNat_cond] at negative ⊢
      split at negative <;> omega
    have sizeSmall := size.isLt
    have offsetSmall := offset.isLt
    rw [same, ValidatesAs.of_ok_iff]
    · rcases Nat.lt_or_ge (offset.toNat + size.toNat) (2 ^ 64) with
        straight | wraps
      · rw [u64_of_lt straight]
        split_ifs <;> simp [InSegment, WindowFits, Except.isOk,
          Except.toBool] <;> omega
      · have sum : u64 (offset.toNat + size.toNat) =
            offset.toNat + size.toNat - 2 ^ 64 := by
          unfold u64
          omega
        rw [sum]
        split_ifs <;> simp [InSegment, WindowFits, Except.isOk,
          Except.toBool] <;> omega
    · intro address accepted
      split_ifs at accepted
      cases accepted
      rfl

instance (segSize : Nat) (offset : Int) (size : Nat) :
    Decidable (InSegment segSize offset size) :=
  inferInstanceAs (Decidable (_ ∧ _ ∧ _))

/-- The owner of a permit asks for the second page of its segment. -/
theorem xpmemValidateAccess_exact_page :
    ∃ (events : _) (s : State fourLevel),
      Run step {} (fun _ _ => True) events s ∧
      (xpmemValidateAccess s ⟨1, none⟩ 0 0x1000 (0x1000 : BitVec 64).toNat
        xpmemRdwr).isOk = true := by
  obtain ⟨events, s, run, own, mode, size, window⟩ := exists_run
    step ({} : State fourLevel) (fun _ _ => True)
    [.spawn 1, .openDev 1 {}, .ioctl 1 (.make 0x10000 0x4000 1 0o600) {},
      .ioctl 1 (.get 0x100000001 2 1 0) {}]
    (fun _ s => 1 = (s.tg (s.ap 0).tg).tgid ∧ (s.ap 0).mode = xpmemRdwr ∧
      (s.seg (s.ap 0).seg).size = 0x4000 ∧
      InSegment (s.seg (s.ap 0).seg).size (0x1000 : BitVec 64).toInt
        (0x1000 : BitVec 64).toNat)
    (by decide +kernel)
  have exact := @xpmemValidateAccess_exact fourLevel s ⟨1, none⟩ 0 0x1000
    0x1000 xpmemRdwr own (by rw [mode]; decide) (by rw [size]; decide)
  have fits := exact.mpr (fun _ wraps => absurd wraps (by decide))
  exact ⟨events, s, run, fits.1.mpr window⟩

/-- A window that ends far behind the segment is let pass. -/
theorem xpmemValidateAccess_wraps :
    ∃ (events : _) (s : State fourLevel),
      Run step {} (fun _ _ => True) events s ∧
      (s.tg (s.ap 0).tg).tgid = 1 ∧ (s.ap 0).mode = xpmemRdwr ∧
      (xpmemValidateAccess s ⟨1, none⟩ 0 0x1000
        (0xfffffffffffff000 : BitVec 64).toNat xpmemRdwr).isOk = true ∧
      ¬InSegment (s.seg (s.ap 0).seg).size (0x1000 : BitVec 64).toInt
        (0xfffffffffffff000 : BitVec 64).toNat :=
  exists_run step ({} : State fourLevel) (fun _ _ => True)
    [.spawn 1, .openDev 1 {}, .ioctl 1 (.make 0x10000 0x4000 1 0o600) {},
      .ioctl 1 (.get 0x100000001 2 1 0) {}] _ (by decide +kernel)

end Xpmem.Driver
