import Xpmem.Runs.Coherence
import Mathlib.Logic.Relation

/-!
# Unmapping a part of an attachment

When a part of an attached area is unmapped and the areas that remain carry
the attachment still, `xpmem_close_handler` sets the range of the attachment
to the area that remains.  It does not move the source address, so that the
translation of addresses stays only if the area that remains begins where the
attachment did.
-/

namespace Xpmem.Driver

open Xpmem.Foundation Xpmem.Kernel Xpmem.Objects

variable {K : Platform} {s t : State K} {mm : MmPtr} {att : AttPtr}
    {vma : Vma}

/-- The area carries the attachment. -/
def CarriesAtt (att : AttPtr) (area : Vma) : Prop :=
  area.payload.privateData = some att

instance (area : Vma) : Decidable (CarriesAtt att area) :=
  inferInstanceAs (Decidable (_ = _))

/--
The part `vma` of an attachment is gone: what remains of it are the piece
below and the piece above.
-/
structure Cut (s : State K) (mm : MmPtr) (att : AttPtr) (vma : Vma) :
    Prop where
  carries : CarriesAtt att vma
  live : (s.att att).destroying = false
  proper : vma.start < vma.stop
  low : (s.att att).atVaddr ≤ vma.start
  high : vma.stop ≤ (s.att att).atVaddr + (s.att att).atSize
  part : ¬ (vma.start = (s.att att).atVaddr ∧
    vma.stop = (s.att att).atVaddr + (s.att att).atSize)
  limit : (s.att att).atVaddr + (s.att att).atSize ≤ K.taskSize
  pieces : ∀ area ∈ (s.mm mm).vmas.ranges, CarriesAtt att area →
    (area.start = (s.att att).atVaddr ∧ area.stop = vma.start) ∨
      (area.start = vma.stop ∧
        area.stop = (s.att att).atVaddr + (s.att att).atSize)

/-- The range of an attachment is the one area that carries it. -/
def State.Carried (s : State K) (mm : MmPtr) (att : AttPtr) : Prop :=
  ∃ area ∈ (s.mm mm).vmas, CarriesAtt att area ∧
    (s.att att).atVaddr = area.start ∧
    (s.att att).atVaddr + (s.att att).atSize = area.stop ∧
    ∀ other ∈ (s.mm mm).vmas, CarriesAtt att other → other = area

instance : Decidable (Cut s mm att vma) :=
  decidable_of_iff
    (CarriesAtt att vma ∧ (s.att att).destroying = false ∧
      vma.start < vma.stop ∧ (s.att att).atVaddr ≤ vma.start ∧
      vma.stop ≤ (s.att att).atVaddr + (s.att att).atSize ∧
      ¬ (vma.start = (s.att att).atVaddr ∧
        vma.stop = (s.att att).atVaddr + (s.att att).atSize) ∧
      (s.att att).atVaddr + (s.att att).atSize ≤ K.taskSize ∧
      ∀ area ∈ (s.mm mm).vmas.ranges, CarriesAtt att area →
        (area.start = (s.att att).atVaddr ∧ area.stop = vma.start) ∨
          (area.start = vma.stop ∧
            area.stop = (s.att att).atVaddr + (s.att att).atSize))
    ⟨fun ⟨carries, live, proper, low, high, part, limit, pieces⟩ =>
        ⟨carries, live, proper, low, high, part, limit, pieces⟩,
      fun ⟨carries, live, proper, low, high, part, limit, pieces⟩ =>
        ⟨carries, live, proper, low, high, part, limit, pieces⟩⟩

instance : Decidable (s.Carried mm att) :=
  inferInstanceAs (Decidable (∃ area ∈ (s.mm mm).vmas.ranges,
    CarriesAtt att area ∧ (s.att att).atVaddr = area.start ∧
      (s.att att).atVaddr + (s.att att).atSize = area.stop ∧
      ∀ other ∈ (s.mm mm).vmas.ranges, CarriesAtt att other → other = area))

/-- What the handler makes of a cut. -/
structure Mends (s t : State K) (mm : MmPtr) (att : AttPtr) (first : Nat) :
    Prop where
  carried : t.Carried mm att
  vaddr : (t.att att).vaddr = (s.att att).vaddr
  atVaddr : (t.att att).atVaddr = first

theorem Cut.stop_eq (cut : Cut s mm att vma) :
    u64 ((s.att att).atVaddr + (s.att att).atSize) =
      (s.att att).atVaddr + (s.att att).atSize := by
  have := cut.limit
  have := K.taskSize_le
  exact u64_of_lt (by omega)

/-- The second half of the handler. -/
theorem mends_of_remaining {u : State K} {first : Nat}
    (vaddr : (u.att att).vaddr = (s.att att).vaddr)
    (pieces : ∀ area ∈ (u.mm mm).vmas, CarriesAtt att area →
      area.start = first)
    (closed : (match (u.mm mm).vmaAt first with
      | none => none
      | some remaining =>
          if remaining.payload.privateData ≠ some att then none
          else
            some (u.modAtt att fun record =>
              { record with
                atVaddr := remaining.start
                atSize := remaining.stop - remaining.start })) = some t) :
    Mends s t mm att first := by
  split at closed
  · cases closed
  · rename_i area found
    split at closed
    · cases closed
    · rename_i carries
      rw [not_not] at carries
      cases closed
      obtain ⟨member, contains⟩ := RangeList.containing_eq_some_iff.mp found
      have start := pieces area member carries
      have alone : ∀ other ∈ (u.mm mm).vmas, CarriesAtt att other →
          other = area := by
        intro other otherMember otherCarries
        have same := pieces other otherMember otherCarries
        have proper := RangeList.start_lt_stop otherMember
        exact RangeList.eq_of_contains otherMember member
          ⟨same.le, same ▸ proper⟩ contains
      have proper := RangeList.start_lt_stop member
      refine ⟨⟨area, member, carries, ?_, ?_, alone⟩, ?_, ?_⟩ <;>
        simp only [State.modAtt, Function.update_self]
      · omega
      · exact vaddr
      · exact start

/-- The handler is on the head of the attachment. -/
theorem Cut.mends_head (cut : Cut s mm att vma)
    (head : vma.start = (s.att att).atVaddr)
    (closed : closeFixup s mm att vma = some t) :
    Mends s t mm att vma.stop := by
  simp only [closeFixup, remainingVaddr, if_pos head, Option.bind_some]
    at closed
  refine mends_of_remaining rfl ?_ closed
  intro area member carries
  rcases cut.pieces area member carries with ⟨low, high⟩ | ⟨low, _⟩
  · have := RangeList.start_lt_stop member
    omega
  · exact low

/-- The handler is on another part of the attachment. -/
theorem Cut.mends_rest (cut : Cut s mm att vma)
    (rest : vma.start ≠ (s.att att).atVaddr)
    (closed : closeFixup s mm att vma = some t) :
    Mends s t mm att (s.att att).atVaddr := by
  simp only [closeFixup, remainingVaddr, if_neg rest, cut.stop_eq]
    at closed
  split at closed
  · -- the tail goes, and a piece above it would be empty
    rename_i tail
    refine mends_of_remaining rfl ?_ closed
    intro area member carries
    rcases cut.pieces area member carries with ⟨low, _⟩ | ⟨low, high⟩
    · exact low
    · have := RangeList.start_lt_stop member
      omega
  · split at closed
    · cases closed
    · rename_i upper found
      split at closed
      · cases closed
      · rename_i carries
        rw [not_not] at carries
        obtain ⟨member, contains⟩ :=
          RangeList.containing_eq_some_iff.mp found
        refine mends_of_remaining ?_ ?_ closed
        · rfl
        · -- the handler has taken the attachment from the piece above
          intro area changed areaCarries
          simp only [State.modMm, Function.update_self, Mm.updateVma]
            at changed
          obtain ⟨old, oldMember, rfl⟩ :=
            RangeList.mem_mapPayload_iff.mp changed
          simp only [CarriesAtt] at areaCarries
          split at areaCarries
          · cases areaCarries
          · rename_i differs
            rcases cut.pieces old oldMember areaCarries with
              ⟨low, _⟩ | ⟨low, high⟩
            · exact low
            · have proper := RangeList.start_lt_stop oldMember
              have same := RangeList.eq_of_contains oldMember member
                ⟨low.le, low ▸ proper⟩ contains
              exact absurd (congrArg (fun area => area.payload.vma) same)
                differs

/-! ## The handler -/

theorem att_xpmemAttRef (s : State K) (att : AttPtr) :
    (s.xpmemAttRef att).att att =
      { s.att att with refcnt := (s.att att).refcnt + 1 } :=
  Function.update_self ..

theorem Cut.attRef (cut : Cut s mm att vma) :
    Cut (s.xpmemAttRef att) mm att vma := by
  obtain ⟨carries, live, proper, low, high, part, limit, pieces⟩ := cut
  refine ⟨carries, ?_, proper, ?_, ?_, ?_, ?_, ?_⟩ <;>
    rw [att_xpmemAttRef]
  · exact live
  · exact low
  · exact high
  · exact part
  · exact limit
  · exact pieces

theorem Mends.attDeref {first : Nat} (mends : Mends s t mm att first) :
    Mends s (t.xpmemAttDeref att) mm att first := by
  have same := shape_xpmemAttDeref t att
  have record : ((t.xpmemAttDeref att).att att).shape = (t.att att).shape :=
    congrArg (fun u => u.att att) same
  have spaces : (t.xpmemAttDeref att).mm = t.mm :=
    congrArg (fun u => u.mm) same
  obtain ⟨⟨area, member, carries, start, stop, alone⟩, vaddr, atVaddr⟩ :=
    mends
  refine ⟨⟨area, ?_, carries, ?_, ?_, ?_⟩, ?_, ?_⟩
  · rw [spaces]
    exact member
  · exact (congrArg Attachment.atVaddr record).trans start
  · have size := congrArg Attachment.atSize record
    have vaddr := congrArg Attachment.atVaddr record
    change ((t.xpmemAttDeref att).att att).atSize = _ at size
    change ((t.xpmemAttDeref att).att att).atVaddr = _ at vaddr
    rw [size, vaddr]
    exact stop
  · rw [spaces]
    exact alone
  · exact (congrArg Attachment.vaddr record).trans vaddr
  · exact (congrArg Attachment.atVaddr record).trans atVaddr

/-- The handler on a part of an attachment comes to the second half. -/
theorem Cut.closeHandler_eq (cut : Cut s mm att vma) :
    xpmemCloseHandler mm s vma =
      (closeFixup (s.xpmemAttRef att) mm att vma).map fun t =>
        t.xpmemAttDeref att := by
  have counted := cut.attRef
  have inner : ¬ (vma.start = ((s.xpmemAttRef att).att att).atVaddr ∧
      vma.stop - vma.start = ((s.xpmemAttRef att).att att).atSize) := by
    rintro ⟨start, size⟩
    have proper := counted.proper
    exact counted.part ⟨start, by omega⟩
  unfold xpmemCloseHandler
  split
  · rename_i missing
    rw [show _ = some att from cut.carries] at missing
    cases missing
  · rename_i other found
    rw [show _ = some att from cut.carries] at found
    cases found
    simp only [counted.live, Bool.false_eq_true, if_false, if_neg inner]

/-- What the handler does to a part of an attachment. -/
theorem Cut.mends (cut : Cut s mm att vma)
    (closed : xpmemCloseHandler mm s vma = some t) :
    Mends s t mm att
      (if vma.start = (s.att att).atVaddr then vma.stop
        else (s.att att).atVaddr) := by
  rw [cut.closeHandler_eq] at closed
  obtain ⟨mended, fixed, rfl⟩ := Option.map_eq_some_iff.mp closed
  have record := att_xpmemAttRef s att
  have mends : Mends (s.xpmemAttRef att) mended mm att
      (if vma.start = (s.att att).atVaddr then vma.stop
        else (s.att att).atVaddr) := by
    split
    · rename_i head
      exact cut.attRef.mends_head (by rw [record]; exact head) fixed
    · rename_i rest
      have mends := cut.attRef.mends_rest (by rw [record]; exact rest) fixed
      rw [record] at mends
      exact mends
  obtain ⟨carried, vaddr, atVaddr⟩ := mends.attDeref
  rw [record] at vaddr
  exact ⟨carried, vaddr, atVaddr⟩

/--
The fix-up keeps the translation of an address unless the part begins where
the attachment does; then it shifts every address.
-/
theorem Cut.sourceAddr_eq_iff (cut : Cut s mm att vma)
    (closed : xpmemCloseHandler mm s vma = some t) (addr : Nat) :
    t.sourceAddr att addr = s.sourceAddr att addr ↔
      vma.start ≠ (s.att att).atVaddr := by
  have mends := cut.mends closed
  rw [State.sourceAddr, mends.vaddr, mends.atVaddr, State.sourceAddr]
  split
  · -- two bases below `2 ^ 62` differ modulo `2 ^ 64`
    rename_i head
    have proper := cut.proper
    have high := cut.high
    have limit := cut.limit
    have bound := K.taskSize_le
    unfold u64 u64Sub
    omega
  · rename_i rest
    exact iff_of_true rfl rest

/-! ## Sequences of unmaps -/

/--
A part of an attachment other than its head is unmapped: the kernel takes it
out of the address space and calls the handler on it.
-/
def UnmapsPart (mm : MmPtr) (att : AttPtr) (s t : State K) : Prop :=
  ∃ (taken : State K) (vma : Vma),
    (taken.att att).vaddr = (s.att att).vaddr ∧
      (taken.att att).atVaddr = (s.att att).atVaddr ∧
      Cut taken mm att vma ∧ vma.start ≠ (taken.att att).atVaddr ∧
      xpmemCloseHandler mm taken vma = some t

theorem sourceAddr_of_unmapsPart (unmaps : UnmapsPart mm att s t)
    (addr : Nat) :
    t.sourceAddr att addr = s.sourceAddr att addr ∧ t.Carried mm att := by
  obtain ⟨taken, vma, vaddr, atVaddr, cut, rest, closed⟩ := unmaps
  refine ⟨((cut.sourceAddr_eq_iff closed addr).mpr rest).trans ?_,
    (cut.mends closed).carried⟩
  rw [State.sourceAddr, vaddr, atVaddr, State.sourceAddr]

/--
However many parts other than the head are unmapped, every address is
translated as before, and the range is the area that carries the attachment.
-/
theorem sourceAddr_of_parts_unmapped
    (unmaps : Relation.TransGen (UnmapsPart mm att) s t) :
    (∀ addr, t.sourceAddr att addr = s.sourceAddr att addr) ∧
      t.Carried mm att := by
  induction unmaps with
  | single part =>
      exact ⟨fun addr => (sourceAddr_of_unmapsPart part addr).1,
        (sourceAddr_of_unmapsPart part 0).2⟩
  | tail _ part induction =>
      refine ⟨fun addr => ?_, (sourceAddr_of_unmapsPart part 0).2⟩
      exact (sourceAddr_of_unmapsPart part addr).1.trans (induction.1 addr)

/--
The kernel takes a range out of an address space.  A copy of an area keeps
its private data, as the handler asserts.
-/
def State.takeOut (s : State K) (mm : MmPtr) (start stop : Nat)
    (proper : start < stop) : State K :=
  { s.modMm mm fun mm =>
      mm.unmap (fun info => { info with vma := s.nextVma }) start stop
        proper with
    nextVma := s.nextVma + 1 }

/-- Unmap a part other than the head, where the handler can. -/
def State.unmapPart (s : State K) (mm : MmPtr) (att : AttPtr) (area : Vma)
    (proper : area.start < area.stop) : Option (State K) :=
  let taken := s.takeOut mm area.start area.stop proper
  if Cut taken mm att area ∧ area.start ≠ (s.att att).atVaddr then
    xpmemCloseHandler mm taken area
  else none

theorem unmapsPart_of_unmapPart {proper : vma.start < vma.stop}
    (unmapped : s.unmapPart mm att vma proper = some t) :
    UnmapsPart mm att s t := by
  rw [State.unmapPart] at unmapped
  split at unmapped
  · rename_i cut
    exact ⟨s.takeOut mm vma.start vma.stop proper, vma, rfl, rfl, cut.1,
      cut.2, unmapped⟩
  · cases unmapped

/-- A page in the middle of an attachment is unmapped, then its tail. -/
theorem sourceAddr_of_middle_and_tail :
    ∃ (s t : State fourLevel),
      Relation.TransGen (UnmapsPart 1 0) s t ∧
        t.sourceAddr 0 0x20800 = s.sourceAddr 0 0x20800 ∧ t.Carried 1 0 := by
  obtain ⟨events, s, _, unmapped⟩ := exists_run
    step ({} : State fourLevel) (fun _ _ => True)
    [.spawn 1, .openDev 1 {}, .mmap 1 0x10000 0x14000 false,
      .ioctl 1 (.make 0x10000 0x4000 1 0o666) {}, .spawn 2, .openDev 2 {},
      .ioctl 2 (.get 0x100000001 2 1 0) {},
      .ioctl 2 (.attach 0x100000002 0 0x4000 0) { place := some 0x20000 }]
    (fun _ s =>
      ((s.unmapPart 1 0 ⟨0x22000, 0x23000, ⟨9, true, true, some 0⟩⟩
        (by decide)).bind fun u =>
          u.unmapPart 1 0 ⟨0x21000, 0x22000, ⟨9, true, true, some 0⟩⟩
            (by decide)).isSome = true)
    (by decide +kernel)
  obtain ⟨t, unmapped⟩ := Option.isSome_iff_exists.mp unmapped
  obtain ⟨u, middle, tail⟩ := Option.bind_eq_some_iff.mp unmapped
  have both : Relation.TransGen (UnmapsPart 1 0) s t :=
    .tail (.single (unmapsPart_of_unmapPart middle))
      (unmapsPart_of_unmapPart tail)
  have parts := sourceAddr_of_parts_unmapped both
  exact ⟨s, t, both, parts.1 0x20800, parts.2⟩

/--
When the head of an attachment is unmapped and the rest carries it still, the
handler moves the attachment but not its source.  When the open handler has
taken the attachment from the head, the close handler moves neither, and the
range is not the area that remains.
-/
theorem sourceAddr_shifts_of_head_unmapped :
    (∃ (s t : State fourLevel) (vma : Vma),
      Cut s 1 0 vma ∧ xpmemCloseHandler 1 s vma = some t ∧
        (t.att 0).atVaddr ≤ 0x22000 ∧
        0x22000 < (t.att 0).atVaddr + (t.att 0).atSize ∧
        t.sourceAddr 0 0x22000 ≠ s.sourceAddr 0 0x22000) ∧
      ∃ (events : _) (s : State fourLevel),
        Run step {} (fun _ _ => True) events s ∧ s.liveAtt 0 = true ∧
          ¬ s.Carried 1 0 := by
  constructor
  · obtain ⟨events, s, _, cut, closed⟩ := exists_run
      step ({} : State fourLevel) (fun _ _ => True)
      [.spawn 1, .openDev 1 {}, .mmap 1 0x10000 0x14000 false,
        .ioctl 1 (.make 0x10000 0x4000 1 0o666) {}, .spawn 2, .openDev 2 {},
        .ioctl 2 (.get 0x100000001 2 1 0) {},
        .ioctl 2 (.attach 0x100000002 0 0x4000 0) { place := some 0x20000 }]
      (fun _ s =>
        Cut (s.takeOut 1 0x20000 0x21000 (by decide)) 1 0
            ⟨0x20000, 0x21000, ⟨9, true, true, some 0⟩⟩ ∧
          (xpmemCloseHandler 1 (s.takeOut 1 0x20000 0x21000 (by decide))
              ⟨0x20000, 0x21000, ⟨9, true, true, some 0⟩⟩).any (fun t =>
            (t.att 0).atVaddr ≤ 0x22000 ∧
            0x22000 < (t.att 0).atVaddr + (t.att 0).atSize ∧
            t.sourceAddr 0 0x22000 ≠
              (s.takeOut 1 0x20000 0x21000 (by decide)).sourceAddr 0
                0x22000) = true)
      (by decide +kernel)
    generalize s.takeOut 1 0x20000 0x21000 _ = u at cut closed
    cases returned : xpmemCloseHandler 1 u
        ⟨0x20000, 0x21000, ⟨9, true, true, some 0⟩⟩ with
    | none =>
        rw [returned] at closed
        cases closed
    | some t =>
        rw [returned] at closed
        exact ⟨u, t, _, cut, returned, of_decide_eq_true closed⟩
  · exact exists_run step ({} : State fourLevel) (fun _ _ => True)
      [.spawn 1, .openDev 1 {}, .mmap 1 0x10000 0x14000 false,
        .ioctl 1 (.make 0x10000 0x4000 1 0o666) {}, .spawn 2, .openDev 2 {},
        .ioctl 2 (.get 0x100000001 2 1 0) {},
        .ioctl 2 (.attach 0x100000002 0 0x4000 0) { place := some 0x20000 },
        .munmap 2 0x20000 0x21000]
      _ (by decide +kernel)

end Xpmem.Driver
