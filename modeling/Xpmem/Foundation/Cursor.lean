import Mathlib.Data.List.Nodup
import Mathlib.Order.Nat

/-!
# Walking a list that others change

A walk over a list lets go of the list at each element, and others may append
to the list or take elements out meanwhile.  When the walk comes back it goes
on behind the element it visited, or starts over if that element is gone.
-/

namespace Xpmem.Foundation

universe u

variable {α : Type u} [DecidableEq α]

/-- What a walk that is at `cursor` has still ahead of it. -/
def rest (cursor : Option α) (list : List α) : List α :=
  match cursor with
  | none => list
  | some current =>
      if current ∈ list then (list.dropWhile (· ≠ current)).tail else list

theorem rest_suffix (cursor : Option α) (list : List α) :
    rest cursor list <:+ list := by
  unfold rest
  split
  · exact List.suffix_rfl
  · split
    · exact (List.tail_suffix _).trans (List.dropWhile_suffix _)
    · exact List.suffix_rfl

theorem mem_of_mem_rest {cursor : Option α} {list : List α} {element : α}
    (member : element ∈ rest cursor list) : element ∈ list :=
  (rest_suffix cursor list).subset member

omit [DecidableEq α] in
theorem notMem_front {front later : List α} {current : α}
    (nodup : (front ++ current :: later).Nodup) : current ∉ front := by
  rw [List.nodup_middle, List.nodup_cons] at nodup
  exact fun member => nodup.1 (List.mem_append_left _ member)

theorem rest_append_cons {front later : List α} {current : α}
    (new : current ∉ front) :
    rest (some current) (front ++ current :: later) = later := by
  have within : current ∈ front ++ current :: later := by simp
  simp only [rest]
  rw [if_pos within, List.dropWhile_append_of_pos]
  · simp
  · intro element member
    simpa using ne_of_mem_of_not_mem member new

theorem rest_of_notMem {list : List α} {current : α}
    (gone : current ∉ list) : rest (some current) list = list :=
  if_neg gone

/-- The walk moves on to an element that was ahead. -/
theorem rest_of_rest_eq {cursor : Option α} {list skipped later : List α}
    {next : α} (nodup : list.Nodup)
    (left : rest cursor list = skipped ++ next :: later) :
    rest (some next) list = later := by
  obtain ⟨front, same⟩ := rest_suffix cursor list
  rw [left, ← List.append_assoc] at same
  rw [← same] at nodup ⊢
  exact rest_append_cons (notMem_front nodup)

theorem rest_of_rest_eq_cons {cursor : Option α} {list later : List α}
    {next : α} (nodup : list.Nodup) (left : rest cursor list = next :: later) :
    rest (some next) list = later :=
  rest_of_rest_eq nodup (left.trans (List.nil_append _).symm)

theorem mem_rest_append {fresh element current : α} {list : List α}
    (nodup : list.Nodup) (differs : current ≠ fresh)
    (ahead : element ∈ rest (some current) list) :
    element ∈ rest (some current) (list ++ [fresh]) := by
  by_cases within : current ∈ list
  · obtain ⟨front, later, rfl⟩ := List.append_of_mem within
    have new := notMem_front nodup
    rw [rest_append_cons new] at ahead
    rw [List.append_assoc, List.cons_append, rest_append_cons new]
    exact List.mem_append_left _ ahead
  · rw [rest_of_notMem within] at ahead
    rw [rest_of_notMem (by simp [within, differs])]
    exact List.mem_append_left _ ahead

theorem mem_rest_erase {gone element current : α} {list : List α}
    (nodup : list.Nodup) (ahead : element ∈ rest (some current) list)
    (member : element ∈ list.erase gone) :
    element ∈ rest (some current) (list.erase gone) := by
  by_cases within : current ∈ list
  · obtain ⟨front, later, rfl⟩ := List.append_of_mem within
    have new := notMem_front nodup
    rw [rest_append_cons new] at ahead
    by_cases visited : gone = current
    · rw [visited, rest_of_notMem nodup.not_mem_erase]
      exact visited ▸ member
    · by_cases passed : gone ∈ front
      · rw [List.erase_append_left _ passed,
          rest_append_cons (mt List.mem_of_mem_erase new)]
        exact ahead
      · have other : element ≠ gone := (nodup.mem_erase_iff.mp member).1
        rw [List.erase_append_right _ passed,
          List.erase_cons_tail (by simpa using Ne.symm visited),
          rest_append_cons new]
        exact (List.mem_erase_of_ne other).mpr ahead
  · rw [rest_of_notMem (mt List.mem_of_mem_erase within)]
    exact member

/-- What others do to a list whose next new element is `fresh`. -/
inductive Relisted (fresh : α) (list : List α) : List α → Prop where
  | same : Relisted fresh list list
  | append : Relisted fresh list (list ++ [fresh])
  | erase (gone : α) : Relisted fresh list (list.erase gone)

/-- What was ahead and is still in the list is still ahead. -/
theorem Relisted.mem_rest {fresh element : α} {list list' : List α}
    {cursor : Option α} (relisted : Relisted fresh list list')
    (nodup : list.Nodup) (old : cursor ≠ some fresh)
    (ahead : element ∈ rest cursor list) (member : element ∈ list') :
    element ∈ rest cursor list' := by
  cases cursor with
  | none => exact member
  | some current =>
      have differs : current ≠ fresh := fun same => old (congrArg some same)
      cases relisted with
      | same => exact ahead
      | append => exact mem_rest_append nodup differs ahead
      | erase gone => exact mem_rest_erase nodup ahead member

end Xpmem.Foundation
