import Xpmem.Operations.Clearing

/-!
# Notifier callbacks

What `xpmem_invalidate_range` and the kernel's calls of it reach.  After the
callbacks for a range whose frames have changed, no attachment shows any of
these frames: the range has either no area left, or lies in one ordinary
area.
-/

namespace Xpmem.Driver

open Xpmem.Foundation Xpmem.Kernel Xpmem.Objects

variable {K : Platform} {tidy : Prop} {origin s t : State K}
    {first held : Held} {start stop : Nat}

/-- Page-aligned bounds suit every attachment. -/
theorem suits_of_lt (startAligned : start % pageSize = 0)
    (stopAligned : stop % pageSize = 0) (proper : start < stop)
    (scope : AttPtr → Prop) : Suits s held start stop scope :=
  ⟨startAligned, stopAligned, fun _ _ _ => Or.inl proper.le⟩

theorem State.Wiped.mono {att : AttPtr} {low high : Nat}
    (wiped : s.Wiped att low high) (below : low ≤ start)
    (above : stop ≤ high) : s.Wiped att start stop :=
  fun index inside after before =>
    wiped index inside (le_trans below after) (lt_of_lt_of_le before above)

/-! ## The segments of a group -/

/-- The segment of the attachment is one of the group, and not going away. -/
def Watches (s : State K) (segTg : TgPtr) (att : AttPtr) : Prop :=
  s.segOf att ∈ (s.tg segTg).segList ∧
    (s.seg (s.segOf att)).destroying = false

theorem Clears.watches (clears : Clears s t) {segTg : TgPtr}
    {att : AttPtr} : Watches t segTg att ↔ Watches s segTg att := by
  have segList : (t.tg segTg).segList = (s.tg segTg).segList :=
    congrArg (fun u => (u.tg segTg).segList) clears.objects
  have flag : (t.seg (s.segOf att)).destroying =
      (s.seg (s.segOf att)).destroying :=
    congrArg (fun u => (u.seg (s.segOf att)).destroying) clears.objects
  rw [Watches, Watches, clears.segOf, segList, flag]

theorem Reaches.invalidateVisitSeg
    (reaches : Reaches tidy origin first s held)
    (ready : Ready tidy s held true) {seg : SegPtr}
    (linked : s.graph.Linked (.seg seg))
    (startAligned : start % pageSize = 0)
    (stopAligned : stop % pageSize = 0) (proper : start < stop) :
    Always (invalidateVisitSeg start stop s seg)
      (Walked tidy origin first s held
        (fun att => s.segOf att = seg ∧ (s.seg seg).destroying = false)
        start stop true) := by
  unfold Driver.invalidateVisitSeg
  split
  · rename_i going
    refine .some (Walked.stay reaches ?_)
    rintro att ⟨_, live⟩
    exact Bool.noConfusion (live.symm.trans going)
  · extract_lets segStart segEnd
    split
    · obtain ⟨entered, readied, suited⟩ := reaches.enter ready
        (suits_of_lt startAligned stopAligned proper
          fun att => (s.ref (.seg seg)).segOf att = seg)
        (reaches.formed.counted.live_of_owed (s.graph.owed_pos linked))
      refine .map ((entered.clearRange readied suited).mono ?_)
      intro cleared walked
      refine (Walked.inner (.seg seg) walked).mono ?_
      rintro att ⟨shown, _⟩ _
      exact shown
    · rename_i apart
      refine .some (Walked.stay reaches ?_)
      rintro att ⟨rfl, _⟩ ⟨present, straight, _⟩ index inside low high
      have formed := reaches.formed
      have window := formed.window_of_straight present straight
      have bounds := formed.bounds present
      have aligned := bounds.size
      have limit := K.taskSize_le
      have below : (s.seg (s.segOf att)).vaddr +
        (s.seg (s.segOf att)).size ≤ K.taskSize := straight
      rw [sourcePage_mul bounds] at low high
      have finish : segEnd = (s.seg (s.segOf att)).vaddr +
          (s.seg (s.segOf att)).size := u64_of_lt (by omega)
      rw [finish] at apart
      rw [Place.pages] at inside
      unfold segStart at apart
      unfold pageSize at *
      omega

theorem Reaches.invalidatePTEsRange
    (reaches : Reaches tidy origin first s held)
    (ready : Ready tidy s held true) (segTg : TgPtr)
    (startAligned : start % pageSize = 0)
    (stopAligned : stop % pageSize = 0) (proper : start < stop) :
    Always (xpmemInvalidatePTEsRange s segTg start stop)
      (Walked tidy origin first s held (Watches s segTg) start stop
        true) := by
  refine (reaches.walkAll
    (fun seg att => s.segOf att = seg ∧ (s.seg seg).destroying = false)
    fun pre seg member sweeps => ?_).mono fun final walked =>
      walked.mono ?_
  · have linked : pre.graph.Linked (.seg seg) := by
      rw [sweeps.clears.graph]
      exact reaches.formed.graph.segs.mem_owner member
    have flag : (pre.seg seg).destroying = (s.seg seg).destroying :=
      congrArg (fun u => (u.seg seg).destroying) sweeps.clears.objects
    refine (sweeps.reaches.invalidateVisitSeg
      (ready.clears sweeps.clears) linked startAligned stopAligned
      proper).mono fun next walked => walked.mono ?_
    rintro att inside _
    rw [sweeps.clears.segOf, flag]
    exact inside
  · rintro att ⟨member, live⟩ _
    exact ⟨s.segOf att, member, rfl, live⟩

/-! ## One group -/

/-- The frames of a range were changed in a way callbacks can follow. -/
structure Exposed (s : State K) (mm : MmPtr) (start stop : Nat) : Prop
    where
  startAligned : start % pageSize = 0
  stopAligned : stop % pageSize = 0
  areas : (s.vmas mm).Free start stop ∨
    ∃ area ∈ s.vmas mm, area.payload.xpmemOps = false ∧
      area.start ≤ start ∧ stop ≤ area.stop

theorem roundStart_spec (small : start < 2 ^ 64) :
    roundStart start % pageSize = 0 ∧ roundStart start ≤ start := by
  unfold roundStart offsetInPage
  split
  · rw [u64Sub_of_le (Nat.mod_le _ _) small]
    unfold pageSize
    omega
  · unfold pageSize at *
    omega

theorem roundStop_spec (below : stop ≤ K.taskSize) :
    roundStop stop % pageSize = 0 ∧ stop ≤ roundStop stop ∧
      roundStop stop ≤ K.taskSize := by
  have aligned := K.taskSize_aligned
  have limit := K.taskSize_le
  unfold roundStop offsetInPage
  split
  · unfold u64
    unfold pageSize at *
    omega
  · unfold pageSize at *
    omega

theorem roundStart_of_aligned (aligned : start % pageSize = 0) :
    roundStart start = start := by
  rw [roundStart, offsetInPage, aligned, if_neg (by simp)]

theorem roundStop_of_aligned (aligned : stop % pageSize = 0) :
    roundStop stop = stop := by
  rw [roundStop, offsetInPage, aligned, if_neg (by simp)]

/-- One area of the range, when it is an ordinary one. -/
theorem Reaches.invalidateVisitVma
    (reaches : Reaches tidy origin first s held)
    (ready : Ready tidy s held true) (segTg : TgPtr) {mm : MmPtr}
    {vma : Vma} (member : vma ∈ s.vmas mm) {low high : Nat}
    (meets : vma.Meets low high) (lowAligned : low % pageSize = 0)
    (highAligned : high % pageSize = 0) (proper : low < high) :
    Always (invalidateVisitVma segTg low high s vma)
      (Walked tidy origin first s held
        (fun att => vma.payload.xpmemOps = false ∧ Watches s segTg att)
        (max vma.start low) (min vma.stop high) true) := by
  have nonempty := RangeList.start_lt_stop member
  obtain ⟨startAligned, stopAligned, _⟩ :=
    reaches.formed.laid.placed.fits mm vma member
  obtain ⟨after, before⟩ := meets
  have clippedStart : max vma.start low % pageSize = 0 := by
    rcases max_choice vma.start low with equal | equal <;>
      rw [equal] <;> assumption
  have clippedStop : min vma.stop high % pageSize = 0 := by
    rcases min_choice vma.stop high with equal | equal <;>
      rw [equal] <;> assumption
  unfold Driver.invalidateVisitVma
  split
  · rename_i ops
    refine .some (Walked.stay reaches ?_)
    rintro att ⟨plain, _⟩
    exact Bool.noConfusion (plain.symm.trans ops)
  · extract_lets vmStart vmEnd
    split
    · rename_i empty
      exact absurd empty (by unfold vmStart; omega)
    · split
      · rename_i empty
        exact absurd empty (by unfold vmEnd; omega)
      · exact (reaches.invalidatePTEsRange ready segTg clippedStart
          clippedStop (by omega)).mono
            fun final walked => walked.mono fun att inside _ => inside.2

theorem Reaches.invalidateRange
    (reaches : Reaches tidy origin first s held)
    (ready : Ready tidy s held true) (current : Task) (segTg : TgPtr)
    (mm : MmPtr) (proper : start < stop) (below : stop ≤ K.taskSize) :
    Always (xpmemInvalidateRange s current segTg mm start stop)
      (Walked tidy origin first s held
        (fun att => Exposed s mm start stop ∧
          (s.tg segTg).tgid = current.tgid ∧ Watches s segTg att)
        start stop true) := by
  have limit := K.taskSize_le
  obtain ⟨lowAligned, lowBelow⟩ :=
    roundStart_spec (show start < 2 ^ 64 by omega)
  obtain ⟨highAligned, highAbove, _⟩ := roundStop_spec below
  unfold xpmemInvalidateRange
  split
  · rename_i foreign
    refine .some (Walked.stay reaches ?_)
    rintro att ⟨_, same, _⟩
    exact (foreign same).elim
  · extract_lets low high
    split
    · refine (reaches.invalidatePTEsRange ready segTg lowAligned
        highAligned (by omega)).mono fun final walked =>
          ⟨walked.sweeps, ?_⟩
      rintro att ⟨_, _, watches⟩ visible
      exact (walked.wiped att watches visible).mono lowBelow highAbove
    · rename_i area found
      have folded :
          Always
            (((s.mm mm).vmas.meeting low high).foldlM
              (Driver.invalidateVisitVma segTg low high) s)
            fun final => Sweeps tidy origin first s held final ∧
              (∀ vma ∈ (s.mm mm).vmas.meeting low high, ∀ att,
                vma.payload.xpmemOps = false → Watches s segTg att →
                Visible s held att true →
                  final.Wiped att (max vma.start low)
                    (min vma.stop high)) ∧ _ :=
        .foldlM_each ⟨reaches, .refl s⟩ fun pre vma member sweeps => ?_
      · refine folded.mono ?_
        rintro final ⟨sweeps, wiped, _⟩
        refine ⟨sweeps, ?_⟩
        rintro att ⟨exposed, _, watches⟩ visible
        have lowEq : low = start := roundStart_of_aligned exposed.startAligned
        have highEq : high = stop := roundStop_of_aligned exposed.stopAligned
        rcases exposed.areas with free | ⟨vma, member, plain, before, after⟩
        · obtain ⟨member, ends, begins⟩ := RangeList.meets_of_find found
          have apart := free area member
          omega
        · have meeting : vma ∈ (s.mm mm).vmas.meeting low high :=
            RangeList.mem_meeting_iff.mpr ⟨member, by omega, by omega⟩
          exact (wiped vma meeting att plain watches visible).mono
            (by omega) (by omega)
      · obtain ⟨old, meets⟩ := RangeList.mem_meeting_iff.mp member
        have same : vma ∈ pre.vmas mm := by
          rw [sweeps.clears.vmas]
          exact old
        refine (sweeps.reaches.invalidateVisitVma
          (ready.clears sweeps.clears) segTg same meets lowAligned
          highAligned (by omega)).mono fun next walked =>
            ⟨sweeps.trans walked.sweeps, ?_, ?_⟩
        · intro att plain watches visible
          exact walked.wiped att
            ⟨plain, sweeps.clears.watches.mpr watches⟩
            (sweeps.clears.visible visible)
        · intro other earlier att plain watches visible
          exact walked.sweeps.clears.wiped
            (earlier att plain watches visible)

/-! ## All groups -/

/-- The group is told of changes made by the current task. -/
def Notified (s : State K) (current : Task) (mm : MmPtr) (att : AttPtr) :
    Prop :=
  ∃ segTg ∈ (s.mm mm).notifiers,
    (s.tg segTg).tgid = current.tgid ∧ Watches s segTg att

theorem Reaches.notify (reaches : Reaches tidy origin first s held)
    (ready : Ready tidy s held true) (current : Task) (mm : MmPtr)
    (proper : start < stop) (below : stop ≤ K.taskSize) :
    Always (notifyInvalidateRange s current mm start stop)
      (Walked tidy origin first s held
        (fun att => Exposed s mm start stop ∧ Notified s current mm att)
        start stop true) := by
  refine (reaches.walkAll
    (fun segTg att => Exposed s mm start stop ∧
      (s.tg segTg).tgid = current.tgid ∧ Watches s segTg att)
    fun pre segTg _ sweeps => ?_).mono fun final walked =>
      walked.mono ?_
  · refine (sweeps.reaches.invalidateRange (ready.clears sweeps.clears)
      current segTg mm proper below).mono fun next walked =>
        walked.mono ?_
    rintro att ⟨exposed, same, watches⟩ _
    have tgid : (pre.tg segTg).tgid = (s.tg segTg).tgid :=
      congrArg (fun u => (u.tg segTg).tgid) sweeps.clears.objects
    refine ⟨?_, tgid.trans same, sweeps.clears.watches.mpr watches⟩
    refine ⟨exposed.startAligned, exposed.stopAligned, ?_⟩
    rw [sweeps.clears.vmas]
    exact exposed.areas
  · rintro att ⟨exposed, segTg, member, same, watches⟩ _
    exact ⟨segTg, member, exposed, same, watches⟩

/-- No attachment and no segment is on its way out. -/
structure Calm (held : Held) : Prop where
  att : ∀ att, .closing (.att att) ∉ held
  seg : ∀ seg, .closing (.seg seg) ∉ held

theorem WellFormed.att_live (formed : WellFormed s held)
    (calm : Calm held) {att : AttPtr}
    (linked : s.graph.Linked (.att att)) :
    (s.att att).destroying = false := by
  rw [Bool.eq_false_iff]
  intro destroying
  rcases formed.graph.closing (.att att) destroying with gone | token
  · exact gone linked
  · exact calm.att att token

theorem WellFormed.seg_live (formed : WellFormed s held)
    (calm : Calm held) {seg : SegPtr}
    (linked : s.graph.Linked (.seg seg)) :
    (s.seg seg).destroying = false := by
  rw [Bool.eq_false_iff]
  intro destroying
  rcases formed.graph.closing (.seg seg) destroying with gone | token
  · exact gone linked
  · exact calm.seg seg token

/-- The group of a linked segment of a running process is notified. -/
theorem WellFormed.notified (formed : WellFormed s held)
    (calm : Calm held) {current : Task} {mm : MmPtr}
    (running : s.proc current.tgid = .running mm) {att : AttPtr}
    (linked : s.graph.Linked (.seg (s.segOf att)))
    (source : s.sourceMm att = mm) : Notified s current mm att := by
  obtain ⟨groupLinked, live⟩ := formed.graph.linked_tg_of_seg linked
  have home : (s.tg (s.seg (s.segOf att)).tg).mm = mm := source
  have runs := formed.procs.running _ groupLinked live
  have member := formed.procs.registered _ groupLinked live
  have flag := formed.seg_live calm linked
  refine ⟨(s.seg (s.segOf att)).tg, ?_, ?_, linked, flag⟩
  · rw [← home]
    exact member
  · rw [← home] at running
    exact formed.procs.injective _ _ _ runs running

/-- After the callbacks no attachment shows a frame of the range. -/
theorem Reaches.notifyClears (reaches : Reaches tidy origin first s held)
    (ready : Ready tidy s held true) (calm : Calm held) {current : Task}
    {mm : MmPtr} (running : s.proc current.tgid = .running mm)
    (proper : start < stop) (below : stop ≤ K.taskSize)
    (exposed : Exposed s mm start stop) :
    Always (notifyInvalidateRange s current mm start stop) fun t =>
      Sweeps tidy origin first s held t ∧
        t.Cleared held mm start stop := by
  have formed := reaches.formed
  refine (reaches.notify ready current mm proper below).mono ?_
  intro final walked
  have clears := walked.sweeps.clears
  refine ⟨walked.sweeps, fun att present straight source => ?_⟩
  rw [clears.bound] at present
  rw [clears.segOf, clears.straight] at straight
  have sourceMm : s.sourceMm att = mm := by
    rw [← source, State.sourceMm, State.sourceMm, clears.segOf]
    have tg : (final.seg (s.segOf att)).tg = (s.seg (s.segOf att)).tg :=
      congrArg (fun u => (u.seg (s.segOf att)).tg) clears.objects
    rw [tg]
    exact (congrArg (fun u => (u.tg (s.seg (s.segOf att)).tg).mm)
      clears.objects).symm
  by_cases linked : s.graph.Linked (.seg (s.segOf att))
  · exact walked.wiped att
      ⟨exposed, formed.notified calm running linked sourceMm⟩
      ⟨present, straight, fun _ => formed.att_live calm present.1⟩
  · have destroyed :=
      formed.graph.ended _ (formed.seg_used present.1) linked
    intro index inside _ _
    rw [clears.place] at inside
    exact clears.leaf
      (formed.laid.revoked att present destroyed straight index inside)

end Xpmem.Driver
