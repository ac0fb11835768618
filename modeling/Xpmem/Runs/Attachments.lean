import Xpmem.Runs.Exiting

/-!
# Attachments and their areas

As long as user space does not cut the area of an attachment, the record of
every live attachment describes the area it is tied to.  Once a segment is
removed, or its owner has exited, nothing of it is mapped any more, and
nothing maps it again.
-/

namespace Xpmem.Driver

open Xpmem.Foundation Xpmem.Kernel Xpmem.Objects

variable {K : Platform} {s t : State K} {held : Held}
    {events : List (Event (State K) Op Ret)}

theorem WellFormed.bound_of_liveAtt (formed : WellFormed s 0)
    {att : AttPtr} (live : s.liveAtt att = true) : s.Bound 0 att := by
  rw [State.liveAtt, Bool.and_eq_true, Bool.not_eq_true'] at live
  exact ⟨formed.linked_of_live (.att att) live, by simp⟩

/-! ## Records and areas -/

/-- The area `at_vma` points to. -/
def State.areaOf (s : State K) (att : AttPtr) : Option Vma :=
  (s.att att).atVma.bind (s.mm (s.att att).mm).vmaOf

/-- What `xpmem_detach_att` asserts of an attachment and its area. -/
def State.RecordMatches (s : State K) (att : AttPtr) : Prop :=
  ∃ area ∈ s.areaOf att,
    area.start = (s.att att).atVaddr ∧
      area.stop = (s.att att).atVaddr + (s.att att).atSize ∧
      area.payload.privateData = some att

instance (s : State K) (att : AttPtr) : Decidable (s.RecordMatches att) :=
  decidable_of_iff
    (∃ area ∈ (s.areaOf att).toList,
      area.start = (s.att att).atVaddr ∧
        area.stop = (s.att att).atVaddr + (s.att att).atSize ∧
        area.payload.privateData = some att)
    (by simp [State.RecordMatches])

theorem WellFormed.recordMatches (formed : WellFormed s held)
    {att : AttPtr} (present : s.Bound held att) : s.RecordMatches att := by
  obtain ⟨area, member, occupies⟩ := formed.laid.placed.area att present
  have carried : area.payload.privateData ≠ none := by
    simp [occupies.privateData]
  have vma : (s.att att).atVma = some area.payload.vma := occupies.vma
  refine ⟨area, ?_, occupies.start, occupies.stop, occupies.privateData⟩
  rw [State.areaOf, vma, Option.bind_some, Option.mem_def]
  obtain ⟨other, found⟩ : ∃ other,
      (s.mm (s.att att).mm).vmaOf area.payload.vma = some other := by
    rw [← Option.isSome_iff_exists, Mm.vmaOf, List.find?_isSome]
    exact ⟨area, member, by simp⟩
  have same := List.find?_some found
  rw [decide_eq_true_eq] at same
  rw [found, formed.laid.placed.identity _ area member other
    (List.mem_of_find?_eq_some found) carried same]

/-- The record of every live attachment describes its area. -/
theorem recordMatches_of_run
    (run : Run step {} (Orderly False) events s) :
    ∀ att, s.liveAtt att = true → s.RecordMatches att := by
  intro att live
  have formed := WellFormed.of_run run
  exact formed.recordMatches (formed.bound_of_liveAtt live)

/-- Of two attachments one is detached. -/
theorem recordMatches_of_two_attachments :
    ∃ (events : _) (s : State fourLevel),
      Run step {} (Orderly False) events s ∧ s.liveAtt 0 = true ∧
        s.RecordMatches 0 := by
  obtain ⟨events, s, run, live⟩ := exists_run
    step ({} : State fourLevel) (fun _ op => op.Free)
    [.spawn 1, .openDev 1 {}, .mmap 1 0x10000 0x14000 false,
      .ioctl 1 (.make 0x10000 0x4000 1 0o666) {}, .spawn 2, .openDev 2 {},
      .ioctl 2 (.get 0x100000001 2 1 0) {},
      .ioctl 2 (.attach 0x100000002 0 0x4000 0) { place := some 0x20000 },
      .ioctl 2 (.attach 0x100000002 0 0x1000 0) { place := some 0x30000 },
      .ioctl 2 (.detach 0x30000) {}]
    (fun _ s => s.liveAtt 0 = true) (by decide +kernel)
  have orderly := run.mono fun pre _ free => free.orderly pre
  exact ⟨events, s, orderly, live, recordMatches_of_run orderly 0 live⟩

/--
The user unmaps the first page of an attached region.  The area starts a page
later, the attachment does not.
-/
theorem not_recordMatches_of_munmap :
    ∃ (events : _) (s : State fourLevel),
      Run step {} (fun _ _ => True) events s ∧ s.liveAtt 0 = true ∧
        ¬ s.RecordMatches 0 :=
  exists_run step ({} : State fourLevel) (fun _ _ => True)
    [.spawn 1, .openDev 1 {}, .mmap 1 0x10000 0x14000 false,
      .ioctl 1 (.make 0x10000 0x4000 1 0o666) {}, .spawn 2, .openDev 2 {},
      .ioctl 2 (.get 0x100000001 2 1 0) {},
      .ioctl 2 (.attach 0x100000002 0 0x4000 0) { place := some 0x20000 },
      .munmap 2 0x20000 0x21000]
    _ (by decide +kernel)

/-! ## Revocation -/

/-- The event removes a segment, or is the exit of its owner. -/
def Revokes (seg : SegPtr) (event : Event (State K) Op Ret) : Prop :=
  match event.action with
  | .ioctl _ (.remove segid) _ =>
      event.result = .value 0 ∧ event.pre.resolveSeg segid = some seg
  | .exitMm tgid =>
      seg < event.pre.nextSeg ∧ event.pre.Hashed (event.pre.seg seg).tg ∧
        (event.pre.tg (event.pre.seg seg).tg).tgid = tgid
  | _ => False

instance (seg : SegPtr) :
    (event : Event (State K) Op Ret) → Decidable (Revokes seg event)
  | ⟨pre, .ioctl _ (.remove segid) _, result, _⟩ =>
      inferInstanceAs (Decidable
        (result = .value 0 ∧ pre.resolveSeg segid = some seg))
  | ⟨pre, .exitMm tgid, _, _⟩ =>
      @instDecidableAnd _ _ (Nat.decLt _ _) (inferInstanceAs (Decidable
        (pre.Hashed (pre.seg seg).tg ∧
          (pre.tg (pre.seg seg).tg).tgid = tgid)))
  | ⟨_, .ioctl _ .version _, _, _⟩ | ⟨_, .ioctl _ (.make _ _ _ _) _, _, _⟩
  | ⟨_, .ioctl _ (.get _ _ _ _) _, _, _⟩
  | ⟨_, .ioctl _ (.release _) _, _, _⟩
  | ⟨_, .ioctl _ (.attach _ _ _ _) _, _, _⟩
  | ⟨_, .ioctl _ (.detach _) _, _, _⟩ | ⟨_, .ioctl _ .forkBegin _, _, _⟩
  | ⟨_, .ioctl _ .forkEnd _, _, _⟩ | ⟨_, .ioctl _ .unknown _, _, _⟩
  | ⟨_, .spawn _, _, _⟩ | ⟨_, .openDev _ _, _, _⟩ | ⟨_, .closeDev _, _, _⟩
  | ⟨_, .exitFiles _, _, _⟩ | ⟨_, .fault _ _ _, _, _⟩
  | ⟨_, .unpin _ _, _, _⟩ | ⟨_, .invalidate _ _ _, _, _⟩
  | ⟨_, .munmap _ _ _, _, _⟩ | ⟨_, .mprotect _ _ _, _, _⟩
  | ⟨_, .mmap _ _ _ _, _, _⟩ | ⟨_, .touch _ _ _, _, _⟩
  | ⟨_, .replace _ _ _ _, _, _⟩ | ⟨_, .freeTable _ _ _, _, _⟩ =>
      inferInstanceAs (Decidable False)

/-- A segment that is on no list any more is destroyed. -/
theorem destroyed_of_unlinked {seg : SegPtr} (formed : WellFormed s held)
    (used : seg < s.nextSeg) (unlinked : ¬ s.graph.Linked (.seg seg)) :
    (s.seg seg).destroyed = true :=
  formed.graph.ended (.seg seg) used unlinked

theorem destroyed_of_remove {tgid : Pid} {segid : BitVec 64}
    {env : IoctlEnv} {seg : SegPtr} (formed : WellFormed s 0)
    (taken : step s (.ioctl tgid (.remove segid) env) =
      some (t, .value 0))
    (resolved : s.resolveSeg segid = some seg) :
    seg < t.nextSeg ∧ (t.seg seg).destroyed = true := by
  simp only [step, asTask, xpmemIoctl] at taken
  split at taken
  · split at taken
    · cases taken
    · rename_i mm running _
      rw [Option.map_eq_some_iff] at taken
      obtain ⟨⟨final, outcome⟩, removed, equal⟩ := taken
      simp only [Prod.mk.injEq] at equal
      obtain ⟨rfl, value⟩ := equal
      obtain ⟨reaches, unlinked⟩ :=
        (@Reaches.remove K False _ _ _ _ (.here formed) _
          ⟨by simp, by simp⟩ (by simp [Settled]) segid).of_eq removed
      have succeeded : outcome = .ok () := by
        cases outcome with
        | ok => rfl
        | error => cases value
      have used : seg < s.nextSeg := by
        rw [State.resolveSeg, Option.bind_eq_some_iff] at resolved
        obtain ⟨group, _, listed⟩ := resolved
        exact formed.graph.used (.seg seg) (formed.findSeg listed).1
      have still : seg < final.nextSeg :=
        lt_of_lt_of_le used (Ages.of_reaches reaches).nextSeg
      exact ⟨still, destroyed_of_unlinked reaches.formed still
        (unlinked succeeded seg resolved)⟩
  · cases taken

theorem destroyed_of_exit {seg : SegPtr} {ret : Ret}
    (formed : WellFormed s 0) (hashed : s.Hashed (s.seg seg).tg)
    (used : seg < s.nextSeg)
    (taken : step s (.exitMm (s.tg (s.seg seg).tg).tgid) =
      some (t, ret)) :
    seg < t.nextSeg ∧ (t.seg seg).destroyed = true := by
  obtain ⟨mm, running, exited⟩ := exitMm_of_step taken
  obtain ⟨reaches, ended, leaves⟩ :=
    (@Reaches.exitMm K False s _ mm formed running).of_eq exited
  have ages := Ages.of_reaches reaches
  have still : seg < t.nextSeg := lt_of_lt_of_le used ages.nextSeg
  refine ⟨still, destroyed_of_unlinked reaches.formed still fun linked => ?_⟩
  obtain ⟨owner, alive⟩ := reaches.formed.graph.linked_tg_of_seg linked
  change t.graph.Linked (.tg (t.seg seg).tg) at owner
  change (t.tg (t.seg seg).tg).destroyed = false at alive
  rw [ages.seg_tg used] at owner alive
  rw [ended _ owner] at alive
  · cases alive
  · rw [leaves.mm]
    exact formed.running_of_linked hashed running

theorem Revokes.destroyed {seg : SegPtr} {event : Event (State K) Op Ret}
    (revokes : Revokes seg event) (formed : WellFormed event.pre 0)
    (taken : step event.pre event.action =
      some (event.post, event.result)) :
    seg < event.post.nextSeg ∧ (event.post.seg seg).destroyed = true := by
  unfold Revokes at revokes
  split at revokes
  · rename_i tgid segid env action
    rw [action, revokes.1] at taken
    exact destroyed_of_remove formed taken revokes.2
  · rename_i tgid action
    obtain ⟨used, hashed, own⟩ := revokes
    rw [action, ← own] at taken
    exact destroyed_of_exit formed hashed used taken
  · exact revokes.elim

/-- Every page of a place is in its range. -/
theorem WellFormed.unmapped (formed : WellFormed s held) {att : AttPtr}
    (present : s.Bound held att)
    (unmapped : (s.place att).Unmapped s.pte) :
    (s.mm (s.att att).mm).Unmapped (s.att att).atVaddr
      ((s.att att).atVaddr + (s.att att).atSize) := by
  obtain ⟨start, size, _, _⟩ := formed.laid.placed.aligned present
  intro addr low high
  change (s.att att).atVaddr % pageSize = 0 at start
  change (s.att att).atSize % pageSize = 0 at size
  have page := unmapped (addr / pageSize - (s.place att).page) (by
    change addr / pageSize - (s.att att).atVaddr / pageSize <
      (s.att att).atSize / pageSize
    unfold pageSize at *
    omega)
  have index : (s.place att).page +
      (addr / pageSize - (s.place att).page) = addr / pageSize := by
    change (s.att att).atVaddr / pageSize +
      (addr / pageSize - (s.att att).atVaddr / pageSize) = addr / pageSize
    unfold pageSize at *
    omega
  rw [index] at page
  exact page

/--
Once a segment was removed, or its owner has exited, none of its attachments
has a page that is mapped, whatever happens later.
-/
theorem revoked_of_run {seg : SegPtr} {event : Event (State K) Op Ret}
    (run : Run step {} (Orderly False) events s)
    (member : event ∈ events) (revokes : Revokes seg event)
    (straight : s.Straight seg) :
    ∀ att, s.liveAtt att = true → s.segOf att = seg →
      (s.mm (s.att att).mm).Unmapped (s.att att).atVaddr
        ((s.att att).atVaddr + (s.att att).atSize) := by
  have ended : seg < s.nextSeg ∧ (s.seg seg).destroyed = true := by
    refine run.persists
      (fun s => seg < s.nextSeg ∧ (s.seg seg).destroyed = true)
      member ?_ ?_
    · obtain ⟨⟨before, earlier⟩, _, taken⟩ := run.event_of_mem member
      exact revokes.destroyed (.of_run earlier) taken
    · rintro before pre op post ret _ ⟨used, destroyed⟩ _ taken
      have recorded := (Recorded.step pre op).of_eq taken
      exact ⟨lt_of_lt_of_le used recorded.nextSeg,
        recorded.segDestroyed seg used destroyed⟩
  have formed := WellFormed.of_run run
  rintro att live rfl
  have present := formed.bound_of_liveAtt live
  exact formed.unmapped present
    (formed.laid.revoked att present ended.2 straight)

/-- A page of the segment is mapped when its owner removes it. -/
theorem revoked_of_mapped_page :
    ∃ (events : _) (s : State fourLevel),
      Run step {} (Orderly False) events s ∧
        (∃ event ∈ events,
          Revokes 0 event ∧ (event.pre.mm 1).frameAt 0x21000 = some 7) ∧
        s.liveAtt 0 = true ∧ (s.mm 1).Unmapped 0x20000 0x24000 := by
  obtain ⟨events, s, run, event, live, place⟩ := exists_run
    step ({} : State fourLevel) (fun _ op => op.Free)
    [.spawn 1, .openDev 1 {}, .mmap 1 0x10000 0x14000 false,
      .ioctl 1 (.make 0x10000 0x4000 1 0o666) {}, .spawn 2, .openDev 2 {},
      .ioctl 2 (.get 0x100000001 2 1 0) {},
      .ioctl 2 (.attach 0x100000002 0 0x4000 0) { place := some 0x20000 },
      .fault 2 0x21000 ⟨false, false, .page 7, true, true⟩,
      .ioctl 1 (.remove 0x100000001) {},
      .fault 2 0x21000 ⟨false, false, .page 7, true, true⟩]
    (fun events s =>
      (∃ event ∈ events,
        Revokes 0 event ∧ (event.pre.mm 1).frameAt 0x21000 = some 7) ∧
      s.liveAtt 0 = true ∧ s.segOf 0 = 0 ∧
        (s.seg 0).vaddr + (s.seg 0).size ≤ fourLevel.taskSize ∧
        ((s.att 0).mm, (s.att 0).atVaddr, (s.att 0).atSize) =
          (1, 0x20000, 0x4000))
    (by decide +kernel)
  have orderly := run.mono fun pre _ free => free.orderly pre
  obtain ⟨segOf, straight, place⟩ := place
  obtain ⟨first, member, revokes, mapped⟩ := event
  have unmapped :=
    revoked_of_run orderly member revokes straight 0 live segOf
  simp only [Prod.mk.injEq] at place
  rw [place.1, place.2.1, place.2.2] at unmapped
  exact ⟨events, s, orderly, ⟨first, member, revokes, mapped⟩, live,
    unmapped⟩

end Xpmem.Driver
