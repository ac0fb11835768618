import Xpmem.Foundation.Run
import Xpmem.Operations.Creating
import Xpmem.Operations.Exiting
import Xpmem.Operations.Faulting

/-!
# Orderly steps

A step is orderly when user space neither closes the device while it runs nor
cuts the area of an attachment.  What an orderly step does is a sequence of
actions, so well-formed states stay well-formed in every orderly run.  A tidy
step leaves the areas of attachments to the driver altogether, and the pages
it pins can be inserted.
-/

namespace Xpmem.Driver

open Xpmem.Foundation Xpmem.Kernel Xpmem.Objects

variable {K : Platform} {tidy : Prop} {origin s t : State K}
    {first held : Held}

/-- What keeps states well-formed, and pins counted if `tidy` holds. -/
def Orderly (tidy : Prop) (s : State K) : Op → Prop
  | .closeDev tgid => s.findTg tgid true = none
  | .munmap tgid start stop =>
      ∀ mm, s.proc tgid = .running mm → Spared s mm start stop ∧
        (tidy → Unattached s mm start stop)
  | .mprotect tgid start stop =>
      ∀ mm, s.proc tgid = .running mm →
        Outside s mm start ∧ Outside s mm stop
  | .ioctl tgid cmd env =>
      tidy → ∀ mm, s.proc tgid = .running mm →
        Walkably s ⟨tgid, some mm⟩ mm env cmd
  | .fault _ _ env => tidy → env.pfnValid = true ∧ env.remapOk = true
  | .freeTable tgid index level =>
      tidy → ∀ mm, s.proc tgid = .running mm → ∀ att, s.Bound 0 att →
        (s.att att).mm = mm →
          Walkable ((s.mm mm).table.free index level) (s.place att).page
            (s.place att).pages
  | _ => True

/-- An operation that is orderly in every state. -/
def Op.Free : Op → Prop
  | .closeDev _ => False
  | .munmap _ _ _ => False
  | .mprotect _ _ _ => False
  | _ => True

instance (op : Op) : Decidable op.Free := by
  cases op <;> unfold Op.Free <;> infer_instance

theorem Op.Free.orderly {op : Op} (free : op.Free) (s : State K) :
    Orderly False s op := by
  cases op <;> first | exact free.elim | exact trivial | exact False.elim

/-! ## Changes of an address space -/

/-- Attached areas are where they were when the attachments are. -/
theorem Outside.congr {mm : MmPtr} {addr : Nat}
    (outside : Outside s mm addr) (formed : WellFormed s 0)
    (after : WellFormed t 0) (bound : t.Bound 0 = s.Bound 0)
    (place : t.place = s.place) : Outside t mm addr := by
  intro area member carried
  obtain ⟨att, carries⟩ := Option.ne_none_iff_exists'.mp carried
  obtain ⟨present, home, occupies⟩ :=
    after.laid.placed.attached mm area member att carries
  rw [bound] at present
  rw [congrFun place att] at home occupies
  obtain ⟨old, oldMember, before⟩ := formed.laid.placed.area att present
  rw [home] at oldMember
  rw [occupies.stop, ← before.stop, occupies.start, ← before.start]
  exact outside old oldMember (by simp [before.privateData])

theorem objects_splitVma (s : State K) (mm : MmPtr)
    (lower upper : VmaInfo → VmaInfo) (addr : Nat) :
    (splitVma s mm lower upper addr).objects = s.objects :=
  s.objects_setSpace mm ((s.mm mm).vmas.splitAt lower upper addr)
    (s.mm mm).table (s.nextVma + 1)

theorem Reaches.mprotect (formed : WellFormed s 0) {current : Task}
    {mm : MmPtr} {start stop : Nat} (range : userRange K start stop = true)
    (low : Outside s mm start) (high : Outside s mm stop) :
    Always (sysMprotect s current mm start stop) fun t =>
      Reaches tidy s 0 t 0 := by
  simp only [userRange, Bool.and_eq_true, decide_eq_true_eq] at range
  obtain ⟨⟨⟨startAligned, stopAligned⟩, proper⟩, below⟩ := range
  have begun : Reaches tidy s 0 s 0 := .here formed
  have lower : Reaches tidy s 0 (splitVma s mm (copyVma s) id start) 0 :=
    .act begun (.splitVma startAligned low (renews_copyVma s)
      (renews_id s))
  have objects := objects_splitVma s mm (copyVma s) id start
  have kept : Outside (splitVma s mm (copyVma s) id start) mm stop :=
    high.congr formed lower.formed (State.bound_of_objects objects 0) rfl
  have upper : Reaches tidy s 0 (splitEnds s mm start stop) 0 :=
    .act lower (.splitVma stopAligned kept (renews_id _)
      (renews_copyVma _))
  have settled : Settled 0 := by simp [Settled]
  exact (upper.notify (settled.ready _ _ _) current mm proper below).mono
    fun _ walked => walked.sweeps.reaches

theorem Reaches.touch (formed : WellFormed s 0) {mm : MmPtr} {vaddr : Nat}
    {frame : Frame} :
    Always (touchPage s mm vaddr frame) fun t => Reaches tidy s 0 t 0 := by
  unfold touchPage
  split
  · exact .none
  · rename_i area found
    split
    · exact .none
    · rename_i passed
      simp only [not_or, Bool.not_eq_true, not_not] at passed
      exact .some (.act (.here formed) (.populate
        (formed.ordinary found passed.1) passed.2.2 passed.2.1))

theorem Reaches.replace (formed : WellFormed s 0) {current : Task}
    {mm : MmPtr} (running : s.proc current.tgid = .running mm)
    {start stop : Nat} (range : userRange K start stop = true)
    {frames : Nat → Option Frame} :
    Always (replaceFrames s current mm start stop frames) fun t =>
      Reaches tidy s 0 t 0 := by
  simp only [userRange, Bool.and_eq_true, decide_eq_true_eq] at range
  obtain ⟨⟨⟨startAligned, stopAligned⟩, proper⟩, below⟩ := range
  unfold replaceFrames
  split
  · exact .none
  rename_i area found
  obtain ⟨member, contains⟩ := RangeList.containing_eq_some_iff.mp found
  split
  · exact .none
  rename_i passed
  simp only [not_or, Bool.not_eq_true, not_lt] at passed
  obtain ⟨plain, high, positive⟩ := passed
  have assigned : Reaches tidy s 0
      (s.setTable mm ((s.mm mm).table.assign frames (pagesOf start stop)))
      (.stale mm start stop ::ₘ 0) := by
    refine .act (.here formed) (.assign member plain contains.1 high
      startAligned stopAligned ?_)
    intro page listed zero
    exact positive (List.mem_map.mpr ⟨page, listed, zero⟩)
  have exposed : Exposed (s.setTable mm
      ((s.mm mm).table.assign frames (pagesOf start stop))) mm start
        stop := by
    refine ⟨startAligned, stopAligned, .inr ⟨area, ?_, plain, contains.1,
      high⟩⟩
    rw [State.vmas_setTable]
    exact member
  have settled : Settled (.stale mm start stop ::ₘ 0) := by simp [Settled]
  have calm : Calm (.stale mm start stop ::ₘ 0) := ⟨by simp, by simp⟩
  refine (assigned.notifyClears (settled.ready _ _ _) calm running proper
    below exposed).mono ?_
  rintro final ⟨sweeps, cleared⟩
  refine .act sweeps.reaches (.settle fun att present => ?_)
  exact cleared att ⟨present.1, by simp⟩

theorem Reaches.mmap (formed : WellFormed s 0) {mm : MmPtr}
    {start stop : Nat} (proper : start < stop)
    (range : userRange K start stop = true)
    (free : (s.mm mm).vmas.Free start stop) (dev : Bool) :
    Reaches tidy s 0 (Driver.addVma s mm start stop proper dev) 0 := by
  simp only [userRange, Bool.and_eq_true, decide_eq_true_eq] at range
  exact .act (.here formed) (.addVma proper dev range.1.1.1 range.1.1.2
    range.2 free)

/-! ## Steps -/

theorem Reaches.step (formed : WellFormed s 0) {op : Op}
    (orderly : Orderly tidy s op) :
    Always (step s op) fun taken => Reaches tidy s 0 taken.1 0 := by
  have start : Reaches tidy s 0 s 0 := .here formed
  have calm : Calm 0 := ⟨by simp, by simp⟩
  have settled : Settled 0 := by simp [Settled]
  cases op with
  | spawn tgid =>
      simp only [Driver.step]
      split
      · rename_i free
        exact .some (.act start (.spawn free.1 (by simp)))
      · exact .none
  | openDev tgid env =>
      simp only [Driver.step]
      exact always_asTask fun mm running =>
        .some (start.openDev (by simp) running (by simp) env)
  | closeDev tgid =>
      simp only [Driver.step]
      refine always_asTask fun mm running => .map ?_
      unfold xpmemFlush
      rw [show s.findTg tgid true = none from orderly]
      exact .some start
  | exitMm tgid =>
      simp only [Driver.step]
      exact always_asTask fun mm running => .map
        ((Reaches.exitMm formed running).mono fun _ left => left.1)
  | exitFiles tgid =>
      simp only [Driver.step]
      split
      · rename_i exiting
        exact .map (Reaches.exitFiles formed exiting)
      · exact .none
  | ioctl tgid cmd env =>
      simp only [Driver.step]
      exact always_asTask fun mm running => Reaches.ioctl formed running
        cmd env fun neat => orderly neat mm running
  | fault tgid vaddr env =>
      simp only [Driver.step]
      refine always_asTask fun mm running => ?_
      split
      · exact .none
      · rename_i area found
        split
        · exact .none
        · rename_i passed
          simp only [not_or] at passed
          exact .map (Reaches.fault formed found passed.2 orderly)
  | unpin tgid stopped => exact .map (start.unpinProcfs settled tgid stopped)
  | invalidate tgid low high =>
      simp only [Driver.step]
      refine always_asTask fun mm running => ?_
      split
      · rename_i proper
        exact .map ((start.notify (settled.ready _ _ _) _ mm proper.1
          proper.2).mono fun _ walked => walked.sweeps.reaches)
      · exact .none
  | munmap tgid low high =>
      simp only [Driver.step]
      refine always_asTask fun mm running => ?_
      obtain ⟨spared, kept⟩ := orderly mm running
      split
      · rename_i range
        simp only [userRange, Bool.and_eq_true, decide_eq_true_eq] at range
        exact .map ((start.vmMunmap running calm settled.unborn
          range.1.2 range.1.1.1 range.1.1.2 range.2 spared
          fun neat => (kept neat).lostAtts_eq_nil).mono
            fun _ unmapped => unmapped.1)
      · exact .none
  | mprotect tgid low high =>
      simp only [Driver.step]
      refine always_asTask fun mm running => ?_
      obtain ⟨lower, upper⟩ := orderly mm running
      split
      · rename_i range
        exact .map (Reaches.mprotect formed range lower upper)
      · exact .none
  | mmap tgid low high dev =>
      simp only [Driver.step]
      refine always_asTask fun mm running => ?_
      split
      · rename_i proper
        split
        · rename_i passed
          exact .some (Reaches.mmap formed proper passed.1 passed.2 dev)
        · exact .none
      · exact .none
  | touch tgid vaddr frame =>
      simp only [Driver.step]
      exact always_asTask fun mm running => .map (Reaches.touch formed)
  | replace tgid low high frames =>
      simp only [Driver.step]
      refine always_asTask fun mm running => ?_
      split
      · rename_i range
        exact .map (Reaches.replace formed running range)
      · exact .none
  | freeTable tgid index level =>
      simp only [Driver.step]
      exact always_asTask fun mm running => .some (.act start
        (.freeTable mm index level fun neat => orderly neat mm running))

/-! ## Orderly runs -/

theorem sound_init : ({} : State K).graph.Sound 0 where
  hash := ⟨fun _ => List.nodup_nil, nofun⟩
  segs := ⟨fun _ => List.nodup_nil, nofun⟩
  permits := ⟨fun _ => List.nodup_nil, nofun⟩
  slots := ⟨fun _ => List.nodup_nil, nofun⟩
  atts := ⟨fun _ => List.nodup_nil, nofun⟩
  slot_iff _ := ⟨nofun, nofun⟩
  used object linked := by cases object <;> cases linked
  fresh object _ := by
    cases object with
    | tg => exact ⟨⟨rfl, fun _ => rfl⟩, rfl, rfl⟩
    | seg | ap | att => exact ⟨by trivial, rfl, rfl⟩
  closing object flagged := by cases object <;> cases flagged
  marked object token := by simp at token
  once object := by simp
  ended object used := by
    cases object <;> exact absurd used (Nat.not_lt_zero _)
  done object flagged := by cases object <;> cases flagged

theorem owed_init (object : Ref) :
    ({} : State K).graph.owed object = 0 := by
  cases object with
  | tg group =>
      have on : ({} : State K).graph.permitsOn group = ∅ := rfl
      have unlinked : ¬ ({} : State K).graph.Linked (.tg group) :=
        List.not_mem_nil
      rw [Graph.owed, on, Graph.linkCount, if_neg unlinked]
      rfl
  | seg | ap | att =>
      simp [Graph.owed, Graph.linkCount, Graph.Linked, State.graph]

theorem wellFormed_init : WellFormed ({} : State K) 0 where
  graph := sound_init
  counted :=
    { exact := fun object => by
        rw [owed_init]
        cases object <;> rfl
      alive := fun object => by cases object <;> exact ⟨nofun, nofun⟩
      used := fun object alive => by cases object <;> cases alive }
  procs :=
    { running := nofun
      leaving := nofun
      unique := nofun
      registered := nofun
      notifier := nofun
      injective := nofun
      mm_lt := nofun }
  laid :=
    { placed := ⟨nofun, nofun, nofun, nofun, nofun⟩
      mapped := ⟨nofun, nofun, nofun⟩
      home := nofun
      window := nofun
      ranges := fun _ used => absurd used (Nat.not_lt_zero _)
      limit := fun _ used => absurd used (Nat.not_lt_zero _)
      revoked := nofun }

/-- An orderly run from a well-formed state ends in one. -/
theorem WellFormed.later {events : List (Event (State K) Op Ret)}
    (formed : WellFormed s 0)
    (run : Run Driver.step s (Orderly tidy) events t) :
    WellFormed t 0 := by
  refine run.invariant (fun s => WellFormed s 0) formed ?_
  intro pre op post ret formed orderly taken
  exact ((Reaches.step formed orderly).of_eq taken).formed

/-- Every state of an orderly run is well-formed. -/
theorem WellFormed.of_run {events : List (Event (State K) Op Ret)}
    (run : Run Driver.step {} (Orderly tidy) events s) :
    WellFormed s 0 :=
  wellFormed_init.later run

/-- What every action keeps holds in every state of an orderly run. -/
theorem invariant_of_run (property : State K → Held → Prop)
    {events : List (Event (State K) Op Ret)}
    (run : Run Driver.step {} (Orderly tidy) events s)
    (holds : property {} 0)
    (kept : ∀ s held t more, WellFormed s held →
      Act tidy s held t more → property s held → property t more) :
    property s 0 := by
  have both : WellFormed s 0 ∧ property s 0 := by
    refine run.invariant (fun s => WellFormed s 0 ∧ property s 0)
      ⟨wellFormed_init, holds⟩ ?_
    rintro pre op post ret ⟨formed, before⟩ orderly taken
    have reaches := (Reaches.step formed orderly).of_eq taken
    exact ⟨reaches.formed, reaches.invariant before kept⟩
  exact both.2

end Xpmem.Driver
