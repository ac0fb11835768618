import Xpmem.Driver.Clear
import Xpmem.Foundation.ListWalk

/-!
# The loops over shared lists

Revocation, recall and invalidation go through `seg->ap_list`,
`ap->att_list` and `tg->seg_list` in four loops of one form.  Each drops its
lock while it works on an element that passes its filter, and starts over at
the head of the list when the element was taken out meanwhile.

An element is put on its list once, by the call that allocates it, and the
loop has a reference to the element it works on.  So what others insert in a
gap is not on the list, and is not that element.
-/

namespace Xpmem.Concurrent

open Xpmem.Foundation Xpmem.Kernel Xpmem.Driver

variable {K : Platform}

/-- The loops that drop the lock of their list. -/
inductive ListLoop where
  /-- In `xpmem_clear_PTEs_of_ap`. -/
  | clearPTEsOfAp (permit : ApPtr)
  /-- In `xpmem_clear_PTEs_range`. -/
  | clearPTEsRange (seg : SegPtr)
  /-- In `xpmem_recall_PFNs_of_tg`. -/
  | recallPFNsOfTg (segTg : TgPtr)
  /-- In `xpmem_invalidate_PTEs_range`. -/
  | invalidatePTEsRange (segTg : TgPtr) (start stop : Nat)

namespace ListLoop

/-- The list a loop goes through. -/
def list (s : State K) : ListLoop → List Nat
  | .clearPTEsOfAp permit => (s.ap permit).attList
  | .clearPTEsRange seg => (s.seg seg).apList
  | .recallPFNsOfTg segTg => (s.tg segTg).segList
  | .invalidatePTEsRange segTg _ _ => (s.tg segTg).segList

/-- The elements a loop drops the lock for. -/
def passes (s : State K) : ListLoop → Nat → Bool
  | .clearPTEsOfAp _, att => (s.att att).validPTEs
  | .clearPTEsRange _, _ => true
  | .recallPFNsOfTg _, seg => !(s.seg seg).destroying
  | .invalidatePTEsRange _ start stop, seg =>
      !(s.seg seg).destroying &&
        (start ≤ u64 ((s.seg seg).vaddr + (s.seg seg).size) &&
          (s.seg seg).vaddr ≤ stop)

/-- The loop, with what others do in its gaps. -/
def walk (s : State K) (loop : ListLoop)
    (gaps : List (List (ListChange Nat))) : ListWalk Nat :=
  .start (.ofList (loop.list s)) (loop.passes s) gaps

end ListLoop

/--
A loop comes to an end, goes on only from elements that are on its list, and
visits each element that is on the list and passes all the time.
-/
theorem listLoop_complete (s : State K) (loop : ListLoop)
    (gaps : List (List (ListChange Nat)))
    (nodup : (loop.list s).Nodup)
    (proper : ∀ rounds, ((loop.walk s gaps).after rounds).Proper) :
    (loop.walk s gaps).Complete :=
  ListWalk.complete_of_proper
    (ListWalk.on_start (Links.holds_ofList nodup) (loop.passes s) gaps)
    rfl proper

/-- Three permits of a segment. -/
def threePermits : State fourLevel :=
  ({} : State fourLevel).modSeg 0 fun seg => { seg with apList := [0, 1, 2] }

/--
The loop visits permit 0, then permit 1, which is taken out meanwhile, and
starts over.
-/
def restarting : ListWalk Nat :=
  (ListLoop.clearPTEsRange 0).walk threePermits
    [[], [.remove 1, .insert 3], [.remove 0]]

theorem restarting_complete :
    restarting.Complete ∧ 2 ∈ (restarting.after 20).visited := by
  have ends : (restarting.after 20).place = .done := by
    decide +kernel
  have complete : restarting.Complete :=
    listLoop_complete threePermits (.clearPTEsRange 0) _ (by decide)
      (ListWalk.forall_iterate ends (by decide +kernel))
  refine ⟨complete, complete.visits (fun rounds => ?_) ends⟩
  obtain ⟨⟨hops, _, found⟩, passes⟩ := @ListWalk.forall_iterate _ _ _
    (fun walk => (∃ hops < 4, walk.links.next^[hops] none = some 2) ∧
      walk.passes 2 = true) 20 ends (by decide +kernel) rounds
  exact ⟨⟨hops, found⟩, passes⟩

end Xpmem.Concurrent
