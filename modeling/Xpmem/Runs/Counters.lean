import Xpmem.Operations.Hushing
import Xpmem.Operations.Stepping

/-!
# The counters of pinned pages

The driver counts pinned pages in four places: for each group, for all
processes together the pages pinned and the pages unpinned, and in the pages
themselves.  Only two actions touch these numbers: a page is pinned for a
group, or pages are put.
-/

namespace Xpmem.Driver

open Xpmem.Foundation Xpmem.Kernel Xpmem.Objects

variable {K : Platform} {tidy : Prop} {s t : State K} {held more : Held}

/-! ## The four counters -/

/-- The numbers that count pinned pages. -/
structure Counters where
  group : TgPtr → Int
  pinned : Int
  unpinned : Int
  refs : Frame → Int

namespace Counters

/-- One page is pinned for a group. -/
def pin (counters : Counters) (group : TgPtr) (frame : Frame) :
    Counters where
  group := Function.update counters.group group
    (int32 (counters.group group + 1))
  pinned := int32 (counters.pinned + 1)
  unpinned := counters.unpinned
  refs := Function.update counters.refs frame (counters.refs frame + 1)

/-- Pages of a group are put. -/
def put (counters : Counters) (group : TgPtr) (frames : Multiset Frame) :
    Counters where
  group := Function.update counters.group group
    (int32 (counters.group group - frames.card))
  pinned := counters.pinned
  unpinned := int32 (counters.unpinned + frames.card)
  refs frame := counters.refs frame - frames.count frame

end Counters

namespace State

/-- The counters of a state. -/
def counters (s : State K) : Counters where
  group group := (s.tg group).nPinned
  pinned := s.myPart.nPinned
  unpinned := s.myPart.nUnpinned
  refs := s.pageRefs

theorem counters_modTg (s : State K) (group : TgPtr)
    {change : ThreadGroup → ThreadGroup}
    (same : (change (s.tg group)).nPinned = (s.tg group).nPinned) :
    (s.modTg group change).counters = s.counters := by
  simp only [counters, modTg, Counters.mk.injEq, and_true]
  funext other
  rw [Function.update_apply]
  split
  · rename_i here
    rw [here, same]
  · rfl

theorem counters_countPin (s : State K) (group : TgPtr) (frame : Frame) :
    (s.countPin group frame).counters = s.counters.pin group frame := by
  simp only [counters, countPin, Counters.pin, modTg, Counters.mk.injEq,
    and_true]
  funext other
  rw [Function.update_apply, Function.update_apply]
  split <;> rfl

theorem counters_putPages (s : State K) (seg : SegPtr)
    (put : List (Nat × Frame)) :
    (putPages s seg put).counters =
      s.counters.put (s.seg seg).tg ↑(put.map Prod.snd) := by
  rw [putPages_eq]
  simp only [counters, Counters.put, modTg, Counters.mk.injEq,
    Multiset.coe_card, List.length_map, Multiset.coe_count, and_true]
  funext other
  rw [Function.update_apply, Function.update_apply]
  split <;> rfl

theorem counters_kfreeTg (s : State K) (group : TgPtr) :
    (s.kfreeTg group).counters = s.counters := by
  change (s.modTg group fun tg =>
    { tg with allocated := false }).counters = s.counters
  rw [counters_modTg]
  rfl

theorem counters_ref (s : State K) (object : Ref) :
    (s.ref object).counters = s.counters := by
  cases object with
  | tg group =>
      rw [ref, xpmemTgRef, counters_modTg]
      rfl
  | seg | ap | att => rfl

theorem counters_deref (s : State K) (object : Ref) :
    (s.deref object).counters = s.counters := by
  cases object with
  | tg group =>
      simp only [deref, xpmemTgDeref]
      split
      · rw [counters_modTg]
        rfl
      · rw [counters_kfreeTg, counters_modTg]
        rfl
  | seg | ap | att =>
      simp only [deref, xpmemSegDeref, xpmemApDeref, xpmemAttDeref]
      split <;> rfl

theorem counters_unlinkAp (s : State K) (group : TgPtr) (permit : ApPtr) :
    (unlinkAp s group permit).counters = s.counters := by
  have outer (u : State K) (seg : SegPtr) (change : Segment → Segment) :
      (u.modSeg seg change).counters = u.counters := rfl
  rw [unlinkAp, outer, counters_modTg] <;> rfl

theorem counters_flag (s : State K) (object : Ref) (value : Bool) :
    (s.flag object value).counters = s.counters := by
  cases object with
  | tg group =>
      rw [flag, counters_modTg]
      rfl
  | seg | ap | att => rfl

end State

/-! ## Counters stay values of an `int` -/

theorem Normal.of_counters (normal : Normal s)
    (same : t.counters = s.counters) : Normal t where
  group group := by
    have count := congrArg (fun counters => counters.group group) same
    change (t.tg group).nPinned = (s.tg group).nPinned at count
    rw [count]
    exact normal.group group
  unpinned := by
    have count := congrArg Counters.unpinned same
    change t.myPart.nUnpinned = s.myPart.nUnpinned at count
    rw [count]
    exact normal.unpinned

theorem Normal.putPages (normal : Normal s) (seg : SegPtr)
    (put : List (Nat × Frame)) : Normal (putPages s seg put) := by
  rw [putPages_eq]
  constructor
  · intro group
    by_cases here : group = (s.seg seg).tg
    · subst here
      simp [State.modTg, int32]
    · simpa [State.modTg, here] using normal.group group
  · simp [int32]

theorem Normal.countPin (normal : Normal s) (group : TgPtr)
    (frame : Frame) : Normal (s.countPin group frame) := by
  refine ⟨fun other => ?_, normal.unpinned⟩
  by_cases here : other = group
  · subst here
    simp [State.countPin, State.modTg, int32]
  · simpa [State.countPin, State.modTg, here] using normal.group other

theorem Normal.linkTg (normal : Normal s) (tgid : Pid) (mm : MmPtr)
    (cred : Cred) : Normal (linkTg s tgid mm cred) := by
  refine ⟨fun group => ?_, normal.unpinned⟩
  by_cases new : group = s.nextTg
  · subst new
    simp [Driver.linkTg, State.modTg, State.modMm, int32]
  · simpa [Driver.linkTg, State.modTg, State.modMm, new] using
      normal.group group

theorem Normal.of_act (act : Act tidy s held t more) (normal : Normal s) :
    Normal t := by
  cases act with
  | minor same =>
      exact normal.of_counters (congrArg (fun u => u.counters) same)
  | ref object => exact normal.of_counters (s.counters_ref object)
  | deref object => exact normal.of_counters (s.counters_deref object)
  | flag object => exact normal.of_counters (s.counters_flag object true)
  | openTg => exact normal.linkTg _ _ _
  | makeSeg =>
      refine normal.of_counters ?_
      rw [linkSeg, State.counters_modTg] <;> rfl
  | getAp =>
      refine normal.of_counters ?_
      rw [linkAp, State.counters_modTg] <;> rfl
  | unlinkAp => exact normal.of_counters (State.counters_unlinkAp s _ _)
  | unlinkSeg =>
      refine normal.of_counters ?_
      rw [unlinkSeg, State.counters_modTg] <;> rfl
  | finishTg =>
      refine normal.of_counters ?_
      rw [State.counters_modTg]
      rfl
  | untie | clear | stray | putBack =>
      exact (normal.putPages _ _).of_counters rfl
  | pin frame => exact normal.countPin _ frame
  | unflag | linkAtt | unlinkAtt | unhash | bind | setValid | leak | populate
  | insert | mismatch | assign | freeTable | addVma | splitVma | unmap
  | settle | wipe | spawn | leave | hush | exiting | gone =>
      exact normal.of_counters rfl

/-- In every run the counters are values of an `int`. -/
theorem normal_of_run {events : List (Event (State K) Op Ret)}
    (run : Run step {} (Orderly tidy) events s) : Normal s :=
  invariant_of_run (fun s _ => Normal s) run
    ⟨fun _ => by simp [int32], by simp [int32]⟩
    fun _ _ _ _ _ act normal => normal.of_act act

end Xpmem.Driver
