import Xpmem.Driver.Naming
import Xpmem.Operations.Stepping

/-!
# Links and references

Between the operations of an orderly run every object that is not being
destroyed is on its lists exactly once, and its reference count is the number
of its links and of the permits that keep it.  A thread group is therefore
freed only after everything that points to it is gone.
-/

namespace Xpmem.Driver

open Xpmem.Foundation Xpmem.Kernel Xpmem.Objects

variable {K : Platform} {tidy : Prop} {s t : State K} {held more : Held}

/-! ## Live objects -/

namespace State

/-- The permits on a segment. -/
def permitsOnSeg (s : State K) (seg : SegPtr) : Finset ApPtr :=
  (Finset.range s.nextAp).filter fun permit =>
    s.liveAp permit = true ∧ (s.ap permit).seg = seg

/-- The permits on the segments of a group. -/
def permitsOnTg (s : State K) (group : TgPtr) : Finset ApPtr :=
  (Finset.range s.nextAp).filter fun permit =>
    s.liveAp permit = true ∧ (s.seg (s.ap permit).seg).tg = group

instance (s : State K) (group : TgPtr) : Decidable (s.Hashed group) :=
  inferInstanceAs (Decidable (_ ∈ _))

/-- The object exists and is not being destroyed. -/
def Live (s : State K) (object : Ref) : Prop :=
  s.allocated object = true ∧ s.graph.destroying object = false

end State

namespace WellFormed

theorem linked_of_live (formed : WellFormed s held) (object : Ref)
    (live : s.Live object) : s.graph.Linked object :=
  formed.graph.linked_of_live (formed.counted.used object live.1) live.2

theorem allocated_of_linked (formed : WellFormed s held) {object : Ref}
    (linked : s.graph.Linked object) : s.allocated object = true :=
  formed.counted.live_of_owed (s.graph.owed_pos linked)

theorem destroying_of_linked (formed : WellFormed s 0) {object : Ref}
    (linked : s.graph.Linked object) (kind : ∀ group, object ≠ .tg group) :
    s.graph.destroying object = false := by
  rw [Bool.eq_false_iff]
  intro destroying
  rcases formed.graph.closing object destroying with gone | token
  · cases object with
    | tg group => exact kind group rfl
    | seg | ap | att => exact gone linked
  · simp at token

theorem liveAp_iff (formed : WellFormed s 0) (permit : ApPtr) :
    s.liveAp permit = true ↔ s.graph.Linked (.ap permit) := by
  rw [State.liveAp, Bool.and_eq_true, Bool.not_eq_true']
  constructor
  · intro live
    exact formed.linked_of_live (.ap permit) live
  · intro linked
    exact ⟨formed.allocated_of_linked linked,
      formed.destroying_of_linked linked nofun⟩

/-- The permits on a list are the live permits of its segment. -/
theorem apList_toFinset (formed : WellFormed s 0) (seg : SegPtr) :
    (s.seg seg).apList.toFinset = s.permitsOnSeg seg := by
  ext permit
  rw [List.mem_toFinset, State.permitsOnSeg, Finset.mem_filter,
    Finset.mem_range, formed.liveAp_iff]
  constructor
  · intro member
    have owner : (s.ap permit).seg = seg :=
      formed.graph.permits.owned seg permit member
    have linked : s.graph.Linked (.ap permit) :=
      formed.graph.permits.mem_owner member
    exact ⟨formed.graph.used _ linked, linked, owner⟩
  · rintro ⟨_, linked, rfl⟩
    exact linked

theorem length_apList (formed : WellFormed s 0) (seg : SegPtr) :
    (s.seg seg).apList.length = (s.permitsOnSeg seg).card := by
  rw [← formed.apList_toFinset seg]
  exact (List.toFinset_card_of_nodup
    (formed.graph.permits.nodup seg)).symm

theorem permitsOn_eq (formed : WellFormed s 0) (group : TgPtr) :
    s.graph.permitsOn group = s.permitsOnTg group := by
  refine Finset.filter_congr fun permit _ => ?_
  rw [formed.liveAp_iff]
  rfl

theorem refcnt_eq_owed (formed : WellFormed s 0) (object : Ref) :
    s.refcnt object = s.graph.owed object := by
  simpa using formed.counted.exact object

/-- A segment is on its group's list until it is destroyed. -/
theorem linked_seg_iff (formed : WellFormed s 0) {seg : SegPtr}
    (used : seg < s.nextSeg) :
    s.graph.Linked (.seg seg) ↔ (s.seg seg).destroyed = false := by
  rw [Bool.eq_false_iff]
  constructor
  · intro linked destroyed
    have begun := (formed.graph.done (.seg seg) destroyed).1
    rw [formed.destroying_of_linked linked nofun] at begun
    cases begun
  · intro present
    by_contra unlinked
    exact present (formed.graph.ended (.seg seg) used unlinked)

end WellFormed

/-! ## Exact accounts -/

/-- Every live object is linked once, and every count is exact. -/
structure Accounted (s : State K) : Prop where
  seg : ∀ seg, s.liveSeg seg = true →
    (s.tg (s.seg seg).tg).segList.count seg = 1
  ap : ∀ permit, s.liveAp permit = true →
    (s.seg (s.ap permit).seg).apList.count permit = 1 ∧
      ((s.tg (s.ap permit).tg).apHashtable
        (xpmemApHashtableIndex K (s.ap permit).apid)).count permit = 1
  att : ∀ att, s.liveAtt att = true →
    (s.ap (s.att att).ap).attList.count att = 1
  segRefcnt : ∀ seg < s.nextSeg,
    (s.seg seg).refcnt =
      (if (s.seg seg).destroyed = true then 0 else 1) +
        (s.permitsOnSeg seg).card
  tgRefcnt : ∀ group < s.nextTg,
    (s.tg group).refcnt =
      (if s.Hashed group then 1 else 0) + (s.permitsOnTg group).card
  apRefcnt : ∀ permit, s.liveAp permit = true → (s.ap permit).refcnt = 1
  attRefcnt : ∀ att, s.liveAtt att = true → (s.att att).refcnt = 1

theorem WellFormed.accounted (formed : WellFormed s 0) :
    Accounted s where
  seg := by
    intro seg live
    rw [State.liveSeg, Bool.and_eq_true, Bool.not_eq_true'] at live
    have linked := formed.linked_of_live (.seg seg) live
    exact List.count_eq_one_of_mem (formed.graph.segs.nodup _) linked
  ap := by
    intro permit live
    have linked := (formed.liveAp_iff permit).mp live
    have slot := (formed.graph.slot_iff permit).mpr linked
    exact ⟨List.count_eq_one_of_mem (formed.graph.permits.nodup _) linked,
      List.count_eq_one_of_mem
        (formed.graph.slots.nodup (s.graph.apSlot permit)) slot⟩
  att := by
    intro att live
    rw [State.liveAtt, Bool.and_eq_true, Bool.not_eq_true'] at live
    have linked := formed.linked_of_live (.att att) live
    exact List.count_eq_one_of_mem (formed.graph.atts.nodup _) linked
  segRefcnt := by
    intro seg used
    have count := formed.refcnt_eq_owed (.seg seg)
    rw [State.refcnt, Graph.owed, Graph.linkCount] at count
    rw [count, ← formed.length_apList, Nat.cast_add]
    congr 1
    by_cases destroyed : (s.seg seg).destroyed = true <;>
      simp [formed.linked_seg_iff used, destroyed]
  tgRefcnt := by
    intro group used
    have count := formed.refcnt_eq_owed (.tg group)
    rw [State.refcnt, Graph.owed, Graph.linkCount,
      formed.permitsOn_eq] at count
    rw [count, Nat.cast_add, Nat.cast_ite]
    rfl
  apRefcnt := by
    intro permit live
    have linked := (formed.liveAp_iff permit).mp live
    have count := formed.refcnt_eq_owed (.ap permit)
    rw [Graph.owed, Graph.linkCount, if_pos linked] at count
    exact count
  attRefcnt := by
    intro att live
    rw [State.liveAtt, Bool.and_eq_true, Bool.not_eq_true'] at live
    have linked := formed.linked_of_live (.att att) live
    have count := formed.refcnt_eq_owed (.att att)
    rw [Graph.owed, Graph.linkCount, if_pos linked] at count
    exact count

/-- Links and references are exact after every operation of a run. -/
theorem accounted_of_run {events : List (Event (State K) Op Ret)}
    (run : Run step {} (Orderly False) events s) : Accounted s :=
  (WellFormed.of_run run).accounted

/-- A permit on the segment of another group, and an attachment of it. -/
theorem accounted_of_shared_segment :
    ∃ (events : _) (s : State fourLevel),
      Run step {} (Orderly False) events s ∧ s.liveAtt 0 = true ∧
        Accounted s := by
  obtain ⟨events, s, run, live⟩ := exists_run
    step ({} : State fourLevel) (fun _ op => op.Free)
    [.spawn 1, .openDev 1 {}, .mmap 1 0x10000 0x14000 false,
      .ioctl 1 (.make 0x10000 0x4000 1 0o666) {}, .spawn 2, .openDev 2 {},
      .ioctl 2 (.get 0x100000001 2 1 0) {},
      .ioctl 2 (.attach 0x100000002 0 0x1000 0) { place := some 0x20000 }]
    (fun _ s => s.liveAtt 0 = true) (by decide +kernel)
  have orderly := run.mono fun pre _ free => free.orderly pre
  exact ⟨events, s, orderly, live, accounted_of_run orderly⟩

/-! ## What a group leaves when it is freed -/

/-- What the assertions of `xpmem_tg_deref` ask of a group that is freed. -/
def TgFree.Clean (report : TgFree) : Prop :=
  report.destroyed = true ∧ report.segListEmpty = true ∧
    report.bucketsEmpty = true ∧ report.noSegment = true ∧
    report.noPermit = true ∧ report.noAttachment = true

instance (report : TgFree) : Decidable report.Clean :=
  inferInstanceAs (Decidable (_ ∧ _))

theorem tgFrees_putPages (s : State K) (seg : SegPtr)
    (put : List (Nat × Frame)) :
    (putPages s seg put).tgFrees = s.tgFrees := by
  rw [putPages_eq]
  rfl

/-- Only the last reference to a group leaves a report. -/
theorem tgFrees_of_act (act : Act tidy s held t more) :
    t.tgFrees = s.tgFrees ∨
      ∃ group, held = .ref (.tg group) ::ₘ more ∧
        s.refcnt (.tg group) = 1 ∧
        t.tgFrees = s.tgFrees ++
          [(s.modTg group fun tg =>
            { tg with refcnt := tg.refcnt - 1 }).tgFreeReport group] := by
  cases act with
  | @minor _ _ same =>
      exact Or.inl (congrArg State.tgFrees same :
        t.main.tgFrees = s.main.tgFrees)
  | deref object =>
      cases object with
      | tg group =>
          simp only [State.deref, State.xpmemTgDeref]
          split
          · exact Or.inl rfl
          · rename_i last
            refine Or.inr ⟨group, rfl, ?_, rfl⟩
            simp only [State.modTg, Function.update_self, ne_eq,
              not_not] at last
            rw [State.refcnt]
            omega
      | seg | ap | att =>
          left
          simp only [State.deref, State.xpmemSegDeref, State.xpmemApDeref,
            State.xpmemAttDeref]
          split <;> rfl
  | ref object | flag object => cases object <;> exact Or.inl rfl
  | @untie _ att _ put | @clear _ att _ _ put =>
      exact Or.inl (tgFrees_putPages s (s.segOf att) put)
  | stray seg put => exact Or.inl (tgFrees_putPages s seg put)
  | putBack seg page frame =>
      exact Or.inl (tgFrees_putPages s seg [(page, frame)])
  | _ => exact Or.inl rfl

namespace WellFormed

variable {group : TgPtr}

/-- The last reference to a group is dropped when nothing keeps it. -/
theorem unowed_of_last
    (formed : WellFormed s (.ref (.tg group) ::ₘ held))
    (last : s.refcnt (.tg group) = 1) :
    s.graph.owed (.tg group) = 0 := by
  have count := formed.counted.exact (.tg group)
  rw [last, Multiset.count_cons_self] at count
  omega

theorem unlinked_of_unowed (unowed : s.graph.owed (.tg group) = 0) :
    ¬ s.graph.Linked (.tg group) := by
  intro linked
  have positive := s.graph.owed_pos linked
  omega

/-- A linked permit does not point to a group that nothing keeps. -/
theorem apPointsTo_of_unowed (formed : WellFormed s held)
    (unowed : s.graph.owed (.tg group) = 0) {permit : ApPtr}
    (linked : s.graph.Linked (.ap permit)) :
    s.apPointsTo permit group = false := by
  rw [State.apPointsTo, Bool.or_eq_false_iff, decide_eq_false_iff_not,
    decide_eq_false_iff_not]
  constructor
  · rintro rfl
    exact unlinked_of_unowed unowed
      (formed.graph.linked_tg_of_ap linked).1
  · rintro rfl
    exact (Graph.owed_pos_of_permit formed.graph linked).2.ne' unowed

/-- A group that nothing keeps is freed with nothing left. -/
theorem clean_of_unowed (formed : WellFormed s held)
    (used : group < s.nextTg) (unowed : s.graph.owed (.tg group) = 0) :
    (s.tgFreeReport group).Clean := by
  have unlinked := unlinked_of_unowed unowed
  have destroyed : (s.tg group).destroyed = true :=
    formed.graph.ended (.tg group) used unlinked
  obtain ⟨_, segs, slots⟩ := formed.graph.done (.tg group) destroyed
  refine ⟨destroyed, ?_, ?_, ?_, ?_, ?_⟩
  · rw [State.tgFreeReport, List.isEmpty_iff]
    exact segs
  · simp only [State.tgFreeReport, List.all_eq_true, List.isEmpty_iff]
    exact fun index _ => slots index
  · simp only [State.tgFreeReport, List.all_eq_true, Bool.not_eq_true',
      Bool.and_eq_false_imp, decide_eq_false_iff_not, State.liveSeg,
      Bool.and_eq_true]
    rintro seg _ live rfl
    have linked := formed.linked_of_live (.seg seg) live
    exact unlinked (formed.graph.linked_tg_of_seg linked).1
  · simp only [State.tgFreeReport, List.all_eq_true, Bool.not_eq_true',
      Bool.and_eq_false_imp, State.liveAp, Bool.and_eq_true]
    intro permit _ live
    have linked := formed.linked_of_live (.ap permit) live
    exact formed.apPointsTo_of_unowed unowed linked
  · simp only [State.tgFreeReport, List.all_eq_true, Bool.not_eq_true',
      Bool.and_eq_false_imp, State.liveAtt, Bool.and_eq_true]
    intro att _ live
    have linked := formed.linked_of_live (.att att) live
    exact formed.apPointsTo_of_unowed unowed
      (formed.graph.linked_ap linked).1

end WellFormed

theorem tgFreeReport_dropRef (s : State K) (group : TgPtr) :
    (s.modTg group fun tg =>
      { tg with refcnt := tg.refcnt - 1 }).tgFreeReport group =
        s.tgFreeReport group := by
  simp only [State.tgFreeReport, State.modTg, Function.update_self]
  rfl

/-- Every group that an action frees is freed with nothing left. -/
theorem clean_of_act (formed : WellFormed s held)
    (act : Act tidy s held t more)
    (clean : ∀ report ∈ s.tgFrees, report.Clean) :
    ∀ report ∈ t.tgFrees, report.Clean := by
  rcases tgFrees_of_act act with same | ⟨group, rfl, last, frees⟩
  · rw [same]
    exact clean
  · rw [frees, tgFreeReport_dropRef]
    intro report member
    rcases List.mem_append.mp member with earlier | new
    · exact clean report earlier
    · rw [List.mem_singleton] at new
      subst new
      have alive := formed.counted.live_of_held
        (Multiset.mem_cons_self (.ref (.tg group)) more)
      exact formed.clean_of_unowed (formed.counted.used _ alive)
        (formed.unowed_of_last last)

/-- No orderly run frees a group that something still points to. -/
theorem tgFrees_clean_of_run {events : List (Event (State K) Op Ret)}
    (run : Run step {} (Orderly False) events s) :
    ∀ report ∈ s.tgFrees, report.Clean := by
  refine invariant_of_run
    (fun s _ => ∀ report ∈ s.tgFrees, report.Clean) run nofun ?_
  intro s held t more formed act clean
  exact clean_of_act formed act clean

/-- A group is freed after its process has exited. -/
theorem tgFrees_clean_of_exit :
    ∃ (events : _) (s : State fourLevel),
      Run step {} (Orderly False) events s ∧ s.tgFrees ≠ [] ∧
        ∀ report ∈ s.tgFrees, report.Clean := by
  obtain ⟨events, s, run, freed⟩ := exists_run
    step ({} : State fourLevel) (fun _ op => op.Free)
    [.spawn 1, .openDev 1 {}, .mmap 1 0x10000 0x14000 false,
      .ioctl 1 (.make 0x10000 0x4000 1 0o666) {}, .exitMm 1, .exitFiles 1]
    (fun _ s => s.tgFrees ≠ []) (by decide +kernel)
  have orderly := run.mono fun pre _ free => free.orderly pre
  exact ⟨events, s, orderly, freed, tgFrees_clean_of_run orderly⟩

/--
Closing the device takes the group out of the hash table first; the release
callback then does not find it, and the group is freed with its segment.
-/
theorem tgFrees_of_close :
    ∃ (events : _) (s : State fourLevel),
      Run step {} (fun _ _ => True) events s ∧
        ∃ report ∈ s.tgFrees, report.destroyed = false ∧
          report.segListEmpty = false ∧ report.noSegment = false :=
  exists_run step ({} : State fourLevel) (fun _ _ => True)
    [.spawn 1, .openDev 1 {}, .mmap 1 0x10000 0x14000 false,
      .ioctl 1 (.make 0x10000 0x4000 1 0o666) {}, .closeDev 1]
    _ (by decide +kernel)

end Xpmem.Driver
