import Xpmem.Operations.Basic

/-!
# Mapping beside XPMEM areas

`vm_mmap` of a range that no XPMEM area meets takes plain areas away and adds
an XPMEM area.  The notifiers it calls change no area, and there is nothing
for the close handler to do, so the attachments keep the areas they have.
This holds in every state of the driver.
-/

namespace Xpmem.Concurrent.Attaching

open Foundation Kernel Driver

variable {K : Platform} {s t r : State K} {mm : MmPtr}

/-! ## What the notifiers leave alone -/

/-- Where an attachment is, and whether it is being destroyed. -/
def spot (att : Attachment) : Attachment where
  mm := att.mm
  atVaddr := att.atVaddr
  atSize := att.atSize
  atVma := att.atVma
  destroying := att.destroying

/-- The areas are the same, and the attachments are where they were. -/
structure Stays (s t : State K) : Prop where
  vmas : t.vmas = s.vmas
  spot : ∀ att, spot (t.att att) = spot (s.att att)
  nextAtt : t.nextAtt = s.nextAtt
  nextVma : t.nextVma = s.nextVma

namespace Stays

theorem of_shape (same : t.shape = s.shape) : Stays s t where
  vmas := congrArg (fun u => u.vmas) same
  spot att := congrArg (fun u => Attaching.spot (u.att att)) same
  nextAtt := congrArg (fun u => u.nextAtt) same
  nextVma := congrArg (fun u => u.nextVma) same

theorem refl (s : State K) : Stays s s :=
  of_shape rfl

theorem trans (earlier : Stays s t) (later : Stays t r) : Stays s r where
  vmas := later.vmas.trans earlier.vmas
  spot att := (later.spot att).trans (earlier.spot att)
  nextAtt := later.nextAtt.trans earlier.nextAtt
  nextVma := later.nextVma.trans earlier.nextVma

theorem modMm (mm : MmPtr) {change : Mm K → Mm K}
    (same : (change (s.mm mm)).vmas = (s.mm mm).vmas) :
    Stays s (s.modMm mm change) where
  vmas := by
    funext other
    by_cases here : other = mm
    · simp [State.vmas, State.modMm, here, same]
    · simp [State.vmas, State.modMm, here]
  spot _ := rfl
  nextAtt := rfl
  nextVma := rfl

theorem zapPTEsOfAtt (att : AttPtr) (addr size : Nat) (fromMmu : Bool) :
    Always (zapPTEsOfAtt s att addr size fromMmu) (Stays s) := by
  have zaps (vma : Vma) : Stays s (s.modMm (s.att att).mm fun mm =>
      mm.zapVmaPtes vma addr size) := by
    refine modMm _ ?_
    unfold Mm.zapVmaPtes
    split <;> rfl
  simp only [Driver.zapPTEsOfAtt]
  split
  · split
    · exact .some (refl s)
    · exact .some (zaps _)
  · exact .map fun _ _ => zaps _

theorem clearPTEsOfAtt (att : AttPtr) (start stop : Nat)
    (fromMmu : Bool) :
    Always (xpmemClearPTEsOfAtt s att start stop fromMmu) (Stays s) := by
  simp only [xpmemClearPTEsOfAtt]
  split
  · exact .some (refl s)
  · split
    · exact .some (refl s)
    · split
      · exact .some (refl s)
      · refine .bind (.map fun put _ => ?_)
        have unpinned : Stays s (putPages s (s.ap (s.att att).ap).seg put) :=
          of_shape (shape_putPages s _ put)
        refine .map ((zapPTEsOfAtt att _ _ fromMmu).mono ?_)
        intro zapped zaps
        have cleared := unpinned.trans zaps
        split
        · refine cleared.trans ⟨rfl, fun other => ?_, rfl, rfl⟩
          by_cases same : other = att
          · simp [State.modAtt, same, Attaching.spot]
          · simp [State.modAtt, same]
        · exact cleared

theorem clearPTEsRange (seg : SegPtr) (start stop : Nat)
    (fromMmu : Bool) :
    Always (xpmemClearPTEsRange s seg start stop fromMmu) (Stays s) := by
  refine .foldlM (refl s) fun pre permit _ before => ?_
  have entered := before.trans (of_shape (shape_xpmemApRef pre permit))
  refine .map ((Always.foldlM entered fun now att _ here => ?_).mono
    fun after there => there.trans
      (of_shape (shape_xpmemApDeref after permit)))
  simp only [clearVisitAtt]
  split
  · refine .map ((clearPTEsOfAtt att start stop fromMmu).mono ?_)
    intro after clears
    exact ((here.trans (of_shape (shape_xpmemAttRef now att))).trans
      clears).trans (of_shape (shape_xpmemAttDeref after att))
  · exact .some here

theorem invalidatePTEsRange (segTg : TgPtr) (start stop : Nat) :
    Always (xpmemInvalidatePTEsRange s segTg start stop) (Stays s) := by
  refine .foldlM (refl s) fun pre seg _ before => ?_
  simp only [invalidateVisitSeg]
  split
  · exact .some before
  · split
    · refine .map ((clearPTEsRange seg start stop true).mono ?_)
      intro after clears
      exact ((before.trans (of_shape (shape_xpmemSegRef pre seg))).trans
        clears).trans (of_shape (shape_xpmemSegDeref after seg))
    · exact .some before

theorem notify (current : Task) (mm : MmPtr) (start stop : Nat) :
    Always (notifyInvalidateRange s current mm start stop) (Stays s) := by
  refine .foldlM (refl s) fun pre segTg _ before => ?_
  simp only [xpmemInvalidateRange]
  split
  · exact .some before
  · split
    · exact (invalidatePTEsRange segTg _ _).mono
        fun _ after => before.trans after
    · refine .foldlM before fun now vma _ here => ?_
      simp only [invalidateVisitVma]
      split
      · exact .some here
      · split
        · exact .some here
        · split
          · exact .some here
          · exact (invalidatePTEsRange segTg _ _).mono
              fun _ after => here.trans after

end Stays

/-! ## Mapping where no XPMEM area is -/

/-- The structure of an XPMEM area is that of no other area. -/
structure Distinct (s : State K) (mm : MmPtr) : Prop where
  vma_lt : ∀ area ∈ s.vmas mm, area.payload.vma < s.nextVma
  identity : ∀ area ∈ s.vmas mm, ∀ other ∈ s.vmas mm,
    area.payload.xpmemOps = true →
      other.payload.vma = area.payload.vma → other = area

/-- No XPMEM area meets the range. -/
def Open (s : State K) (mm : MmPtr) (start stop : Nat) : Prop :=
  ∀ area ∈ s.vmas mm, area.Meets start stop →
    area.payload.xpmemOps = false

instance (s : State K) (mm : MmPtr) (start stop : Nat) :
    Decidable (Open s mm start stop) :=
  inferInstanceAs (Decidable (∀ area ∈ (s.mm mm).vmas.ranges, _))

/-- A change of the areas of `mm` that loses no XPMEM area. -/
structure Spares (s t : State K) (mm : MmPtr) : Prop where
  spot : ∀ att, spot (t.att att) = spot (s.att att)
  nextAtt : t.nextAtt = s.nextAtt
  kept : ∀ area ∈ s.vmas mm, area.payload.xpmemOps = true →
    area ∈ t.vmas mm
  distinct : Distinct s mm → Distinct t mm

theorem Stays.distinct (stays : Stays s t) (distinct : Distinct s mm) :
    Distinct t mm := by
  constructor
  · rw [stays.vmas, stays.nextVma]
    exact distinct.vma_lt
  · rw [stays.vmas]
    exact distinct.identity

theorem Stays.spares (stays : Stays s t) (mm : MmPtr) : Spares s t mm where
  spot := stays.spot
  nextAtt := stays.nextAtt
  kept area member _ := by
    rw [stays.vmas]
    exact member
  distinct := stays.distinct

theorem Spares.trans (earlier : Spares s t mm) (later : Spares t r mm) :
    Spares s r mm where
  spot att := (later.spot att).trans (earlier.spot att)
  nextAtt := later.nextAtt.trans earlier.nextAtt
  kept area member ops := later.kept area (earlier.kept area member ops) ops
  distinct distinct := later.distinct (earlier.distinct distinct)

theorem xpmemOps_copyVma (s : State K) (info : VmaInfo) :
    (copyVma s info).xpmemOps = info.xpmemOps := by
  simp only [copyVma, xpmemOpenHandler]
  grind

/-- What an unmap leaves is an old area, or a part of a plain one. -/
theorem mem_unmapRange {start stop : Nat} {proper : start < stop}
    (isOpen : Open s mm start stop) {piece : Vma}
    (member : piece ∈ (unmapRange s mm start stop proper).vmas mm) :
    ∃ old ∈ s.vmas mm, piece = old ∨
      (old.payload.xpmemOps = false ∧ piece.payload.xpmemOps = false ∧
        (piece.payload.vma = old.payload.vma ∨
          piece.payload.vma = s.nextVma)) := by
  rw [vmas_unmapRange, Function.update_self] at member
  obtain ⟨old, oldMember, part⟩ := RangeList.mem_carve_iff.mp member
  refine ⟨old, oldMember, ?_⟩
  by_cases meets : old.Meets start stop
  · have plain := isOpen old oldMember meets
    refine .inr ⟨plain, ?_⟩
    rcases RangeList.payload_of_remains part with same | ⟨_, _, copied⟩
    · rw [same]
      exact ⟨plain, .inl rfl⟩
    · rw [copied, xpmemOps_copyVma]
      refine ⟨plain, .inr ?_⟩
      simp only [copyVma, xpmemOpenHandler]
      grind
  · rw [RangeList.remains, if_neg meets, List.mem_singleton] at part
    exact .inl part

theorem Spares.unmapRange {start stop : Nat} {proper : start < stop}
    (isOpen : Open s mm start stop) :
    Spares s (unmapRange s mm start stop proper) mm where
  spot _ := rfl
  nextAtt := rfl
  kept area member ops := by
    have apart : ¬ area.Meets start stop := by
      intro meets
      rw [isOpen area member meets] at ops
      cases ops
    rw [vmas_unmapRange, Function.update_self, RangeList.mem_carve_iff]
    refine ⟨area, member, ?_⟩
    rw [RangeList.remains, if_neg apart]
    exact List.mem_singleton_self area
  distinct distinct := by
    constructor
    · intro piece member
      change piece.payload.vma < s.nextVma + 1
      obtain ⟨old, oldMember, part⟩ := mem_unmapRange isOpen member
      have below := distinct.vma_lt old oldMember
      rcases part with rfl | ⟨_, _, same | new⟩ <;> omega
    · intro area member other otherMember ops same
      obtain ⟨old, oldMember, part⟩ := mem_unmapRange isOpen member
      obtain ⟨left, leftMember, piece⟩ := mem_unmapRange isOpen otherMember
      have below := distinct.vma_lt old oldMember
      have identity := distinct.identity old oldMember left leftMember
      grind

/-- Areas without the operations of the driver are closed by nobody. -/
theorem foldlM_closeVma {areas : List Vma}
    (plain : ∀ area ∈ areas, area.payload.xpmemOps = false)
    (mm : MmPtr) : areas.foldlM (closeVma mm) s = some s := by
  induction areas with
  | nil => rfl
  | cons area areas induction =>
      have first : closeVma mm s area = some s := by
        simp [closeVma, plain area List.mem_cons_self]
      rw [List.foldlM_cons, first]
      exact induction fun other member =>
        plain other (List.mem_cons_of_mem _ member)

theorem Spares.vmMunmap {start stop : Nat} (proper : start < stop)
    (isOpen : Open s mm start stop) (current : Task) :
    Always (vmMunmap s current mm start stop) fun t =>
      Spares s t mm ∧ (t.vmas mm).Free start stop := by
  unfold Driver.vmMunmap
  rw [dif_pos proper]
  split
  · rename_i free
    exact .some ⟨(Stays.refl s).spares mm, free⟩
  · refine .bind ((Stays.notify current mm start stop).mono ?_)
    intro notified stays
    rw [foldlM_closeVma]
    · refine .some ⟨(Spares.unmapRange isOpen).trans (stays.spares mm), ?_⟩
      rw [stays.vmas, vmas_unmapRange, Function.update_self]
      exact RangeList.carve_free _ _ _ _ proper
    · intro piece removed
      obtain ⟨old, meeting, rfl⟩ := List.mem_map.mp removed
      obtain ⟨member, meets⟩ := RangeList.mem_meeting_iff.mp meeting
      have plain := isOpen old member meets
      split
      · exact plain
      · rw [xpmemOps_copyVma]
        exact plain

/-- A new XPMEM area, which no attachment is tied to. -/
structure Fresh (s t : State K) (mm : MmPtr) (start stop : Nat) : Prop where
  spares : Spares s t mm
  area : ∃ area ∈ t.vmas mm, area.start = start ∧ area.stop = stop ∧
    area.payload.xpmemOps = true ∧ area.payload.privateData = none
  apart : ∀ area ∈ s.vmas mm, area.payload.xpmemOps = true →
    area.start ≠ start

theorem Fresh.addVma {start stop : Nat} (proper : start < stop)
    (free : (s.vmas mm).Free start stop) :
    Fresh s (addVma s mm start stop proper true) mm start stop := by
  have vmas : (Driver.addVma s mm start stop proper true).vmas mm =
      (s.vmas mm).insert
        ⟨start, stop, ⟨s.nextVma, true, false, none⟩⟩ proper := by
    rw [addVma_eq, State.vmas_setSpace, Function.update_self]
    rfl
  have mem_iff (area : Vma) :
      area ∈ (Driver.addVma s mm start stop proper true).vmas mm ↔
        area = ⟨start, stop, ⟨s.nextVma, true, false, none⟩⟩ ∨
          area ∈ s.vmas mm := by
    rw [vmas]
    exact RangeList.mem_insert_iff free
  refine ⟨⟨fun _ => rfl, rfl, ?_, ?_⟩, ?_, ?_⟩
  · intro area member _
    exact (mem_iff area).mpr (.inr member)
  · intro distinct
    constructor
    · intro area member
      change area.payload.vma < s.nextVma + 1
      rcases (mem_iff area).mp member with rfl | old
      · exact Nat.lt_succ_self _
      · exact (distinct.vma_lt area old).trans (Nat.lt_succ_self _)
    · intro area member other otherMember ops same
      rcases (mem_iff area).mp member with rfl | old <;>
        rcases (mem_iff other).mp otherMember with rfl | otherOld
      · rfl
      · exact ((distinct.vma_lt other otherOld).ne same).elim
      · exact ((distinct.vma_lt area old).ne same.symm).elim
      · exact distinct.identity area old other otherOld ops same
  · exact ⟨_, (mem_iff _).mpr (.inl rfl), rfl, rfl, rfl, rfl⟩
  · intro area member _ same
    have nonempty := RangeList.start_lt_stop member
    have beside := free area member
    omega

theorem Fresh.of_spares {start stop : Nat} (spares : Spares s t mm)
    (fresh : Fresh t r mm start stop) : Fresh s r mm start stop where
  spares := spares.trans fresh.spares
  area := fresh.area
  apart area member ops := fresh.apart area (spares.kept area member ops) ops

/-- `vm_mmap` maps a fresh area, unless it fails. -/
theorem vmMmap_fresh {vaddr size : Nat} {fixed : Bool}
    (isOpen : fixed = true → Open s mm vaddr (vaddr + size))
    (place : Option Nat) (current : Task) :
    Always (vmMmap s current mm vaddr size fixed place) fun mapped =>
      (∀ error, mapped.2 = .error error → mapped.1 = s) ∧
        ∀ atVaddr, mapped.2 = .ok atVaddr →
          Fresh s mapped.1 mm atVaddr (atVaddr + size) := by
  have failed (error : Errno) : Always (some (s, Except.error error))
      fun mapped : State K × Except Errno Nat =>
        (∀ error, mapped.2 = .error error → mapped.1 = s) ∧
          ∀ atVaddr, mapped.2 = .ok atVaddr →
            Fresh s mapped.1 mm atVaddr (atVaddr + size) :=
    .some ⟨fun _ _ => rfl, nofun⟩
  unfold vmMmap
  split
  · split
    · exact failed _
    · split
      · split
        · exact failed _
        · rename_i fixed _
          refine .map ((Spares.vmMunmap (by omega) (isOpen fixed)
            current).mono ?_)
          rintro unmapped ⟨spares, free⟩
          refine ⟨nofun, ?_⟩
          rintro _ ⟨⟩
          exact (Fresh.addVma _ free).of_spares spares
      · split
        · rename_i fits
          refine .some ⟨nofun, ?_⟩
          rintro _ ⟨⟩
          exact .addVma _ fits.2.2
        · exact failed _
  · exact failed _

end Xpmem.Concurrent.Attaching
