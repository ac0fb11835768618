import Xpmem.Operations.Covering
import Xpmem.Operations.Stepping

/-!
# Walks that return

A walk over page tables, lists or areas has no result when it runs into a
`BUG_ON` or never ends.  From a well-formed state none gets that far: walks
end where their ranges end, and every area they look up is there.
-/

namespace Xpmem.Driver

open Xpmem.Foundation Xpmem.Kernel Xpmem.Objects

variable {K : Platform} {s t : State K} {held : Held}

/-! ## Clearing -/

/-- Attachments that have lost their area have kept its bounds. -/
def Sized (s : State K) (held : Held) : Prop :=
  ∀ att, .bare att ∈ held → s.valid att = true → Bounds K (s.place att)

theorem Sized.clears (sized : Sized s held) (clears : Clears s t) :
    Sized t held := by
  intro att bare valid
  rw [clears.place]
  exact sized att bare (clears.valid att valid)

theorem Sized.cons_ref (sized : Sized s held) (object : Ref) :
    Sized s (.ref object ::ₘ held) :=
  fun att bare => sized att (by simpa using bare)

theorem Settled.sized (settled : Settled held) (s : State K) :
    Sized s held :=
  fun att bare => absurd bare (settled att)

/-- What a walk over attachments needs. -/
structure Clearable (s : State K) (held : Held) (start stop : Nat)
    (fromMmu : Bool) (scope : AttPtr → Prop) : Prop where
  ready : Ready False s held fromMmu
  sized : Sized s held
  suits : Suits s held start stop scope
  proper : fromMmu = true → start ≤ stop

section Walks

variable {start stop : Nat} {fromMmu : Bool} {scope : AttPtr → Prop}

namespace Clearable

theorem clears (clearable : Clearable s held start stop fromMmu scope)
    (clears : Clears s t) : Clearable t held start stop fromMmu scope where
  ready := clearable.ready.clears clears
  sized := clearable.sized.clears clears
  suits := clearable.suits.clears clears
  proper := clearable.proper

theorem cons_ref (clearable : Clearable s held start stop fromMmu scope)
    (object : Ref) :
    Clearable s (.ref object ::ₘ held) start stop fromMmu scope where
  ready := clearable.ready.cons_ref object
  sized := clearable.sized.cons_ref object
  suits := clearable.suits.cons_ref object
  proper := clearable.proper

theorem enter (clearable : Clearable s held start stop fromMmu scope)
    (object : Ref) :
    Clearable (s.ref object) (.ref object ::ₘ held) start stop fromMmu
      scope :=
  (clearable.clears (.of_shape (s.shape_ref object))).cons_ref object

theorem mono {wider : AttPtr → Prop}
    (clearable : Clearable s held start stop fromMmu wider)
    (weaker : ∀ att, scope att → wider att) :
    Clearable s held start stop fromMmu scope where
  ready := clearable.ready
  sized := clearable.sized
  suits := clearable.suits.mono weaker
  proper := clearable.proper

end Clearable

end Walks

section Callbacks

variable {start stop : Nat}

end Callbacks

/-! ## Unmapping -/

/-- An area is closed when it is the one its attachment has recorded. -/
theorem Closes.returns {area : Vma} {att : AttPtr}
    (closes : Closes s area att)
    (carries : area.payload.privateData = some att) (mm : MmPtr) :
    Returns (closeVma mm s area) := by
  unfold closeVma xpmemCloseHandler
  rw [if_pos closes.ops, carries]
  dsimp only
  have fields : (s.xpmemAttRef att).att att =
      { s.att att with refcnt := (s.att att).refcnt + 1 } := by
    simp [State.xpmemAttRef, State.modAtt]
  have whole : area.start = (s.att att).atVaddr ∧
      area.stop - area.start = (s.att att).atSize :=
    ⟨closes.start.symm, closes.size.symm⟩
  rw [fields, if_neg (by simp [closes.live]), if_pos whole]
  exact .some

theorem Closes.drops {area : Vma} {att gone : AttPtr}
    (closes : Closes s area att) (drops : Drops s t (· = gone))
    (stays : att ≠ gone) : Closes t area att := by
  have shape := drops.att att stays
  exact
    { ops := closes.ops
      linked := drops.linked stays closes.linked
      live := (congrArg Attachment.destroying shape).trans closes.live
      start := (congrArg Attachment.atVaddr shape).trans closes.start
      size := (congrArg Attachment.atSize shape).trans closes.size }

/-- The attachment is off the permit's list, which has gained nothing. -/
def Detached (s : State K) (permit : ApPtr) (att : AttPtr) (t : State K) :
    Prop :=
  att ∉ (t.ap permit).attList ∧
    (t.ap permit).attList ⊆ (s.ap permit).attList

theorem Keeps.attList_subset (keeps : Keeps .quiet s t) (permit : ApPtr) :
    (t.ap permit).attList ⊆ (s.ap permit).attList := by
  refine keeps.invariant
    (fun u => (u.ap permit).attList ⊆ (s.ap permit).attList)
    (List.Subset.refl _) ?_
  intro pre post subset change
  cases change with
  | rest _ _ same => rw [same]; exact subset
  | ap other _ _ atts =>
      by_cases here : permit = other
      · subst here
        intro att member
        exact subset (atts att (by simpa [State.modAp] using member))
      · simpa [State.modAp, here] using subset
  | tg | seg | att => exact subset
  | attachLink yes | makeApid yes | linkAp yes | unlinkAp yes
  | makeSegid yes | linkSeg yes | unlinkSeg yes | linkTg yes =>
      exact yes.elim

theorem Detached.keeps {permit : ApPtr} {att : AttPtr} {u : State K}
    (detached : Detached s permit att t) (keeps : Keeps .quiet t u) :
    Detached s permit att u :=
  ⟨fun member => detached.1 (keeps.attList_subset permit member),
    fun _ member => detached.2 (keeps.attList_subset permit member)⟩

end Xpmem.Driver
