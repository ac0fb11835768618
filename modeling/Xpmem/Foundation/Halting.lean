import Mathlib.Data.Finset.Card
import Mathlib.Data.Nat.Find
import Mathlib.Logic.Function.Iterate

/-!
# Loops over finitely many states

A loop that repeats one function comes to its end in as many rounds as it has
states, or never.
-/

namespace Xpmem.Foundation

variable {α : Type*} {f : α → α} {done : α → Prop} {states : Finset α}
  {start : α}

theorem iterate_mem (inside : start ∈ states)
    (closed : ∀ state ∈ states, f state ∈ states) (rounds : Nat) :
    f^[rounds] start ∈ states := by
  induction rounds with
  | zero => exact inside
  | succ rounds induction =>
      rw [Function.iterate_succ_apply']
      exact closed _ induction

/-- A loop that ends does not come to a state twice. -/
theorem exists_rounds_le_card (inside : start ∈ states)
    (closed : ∀ state ∈ states, f state ∈ states)
    (ends : ∃ rounds, done (f^[rounds] start)) :
    ∃ rounds ≤ states.card, done (f^[rounds] start) := by
  classical
  refine ⟨Nat.find ends, ?_, Nat.find_spec ends⟩
  by_contra long
  rw [not_le] at long
  obtain ⟨one, low, two, high, differ, same⟩ :=
    Finset.exists_ne_map_eq_of_card_lt_of_maps_to
      (s := Finset.range (states.card + 1))
      (by rw [Finset.card_range]; exact Nat.lt_succ_self _)
      (fun rounds _ => iterate_mem inside closed rounds)
  rw [Finset.mem_range] at low high
  -- from the second visit on the loop runs as it did from the first
  have shortcut {early late : Nat} (order : early < late)
      (before : late ≤ states.card)
      (equal : f^[early] start = f^[late] start) : False := by
    apply Nat.find_min ends (m := Nat.find ends - late + early) (by omega)
    rw [Function.iterate_add_apply, equal, ← Function.iterate_add_apply,
      Nat.sub_add_cancel (by omega)]
    exact Nat.find_spec ends
  rcases Nat.lt_or_gt_of_ne differ with first | second
  · exact shortcut first (by omega) same
  · exact shortcut second (by omega) same.symm

end Xpmem.Foundation
