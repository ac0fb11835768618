import Mathlib.Algebra.BigOperators.Group.Finset.Basic
import Mathlib.Algebra.Order.BigOperators.Group.Multiset
import Mathlib.Data.Multiset.Filter

/-!
# The values of a table, with multiplicity

A table has a value or nothing at every index.  `tally` collects the values
at the indices of an interval, each as often as it stands there.  Clearing a
part of the interval takes the values of that part away, and filling an empty
entry adds one value.
-/

namespace Xpmem.Foundation

variable {α : Type*} {table other : Nat → Option α} {start count : Nat}

/-- The values at the indices `[start, start + count)`. -/
def tally (table : Nat → Option α) (start count : Nat) : Multiset α :=
  ↑((List.range' start count).filterMap table)

theorem mem_tally {value : α} :
    value ∈ tally table start count ↔
      ∃ index, (start ≤ index ∧ index < start + count) ∧
        table index = some value := by
  simp [tally, List.mem_range'_1]

theorem tally_congr
    (same : ∀ index, start ≤ index → index < start + count →
      other index = table index) :
    tally other start count = tally table start count := by
  apply congrArg Multiset.ofList
  apply List.filterMap_congr
  intro index member
  obtain ⟨low, high⟩ := List.mem_range'_1.mp member
  exact same index low high

theorem tally_eq_zero
    (empty : ∀ index, start ≤ index → index < start + count →
      table index = none) :
    tally table start count = 0 := by
  apply Multiset.eq_zero_of_forall_notMem
  intro value member
  obtain ⟨index, ⟨low, high⟩, found⟩ := mem_tally.mp member
  rw [empty index low high] at found
  cases found

theorem tally_add (table : Nat → Option α) (start first second : Nat) :
    tally table start (first + second) =
      tally table start first + tally table (start + first) second := by
  rw [tally, ← List.range'_append_1, List.filterMap_append]
  rfl

/-- A table without its entries in `[first, first + width)`. -/
def clearTable (table : Nat → Option α) (first width : Nat) :
    Nat → Option α :=
  fun index =>
    if first ≤ index ∧ index < first + width then none else table index

theorem clearTable_of_outside {first width index : Nat}
    (outside : index < first ∨ first + width ≤ index) :
    clearTable table first width index = table index := by
  rw [clearTable, if_neg]
  omega

/-- What clearing a part of an interval takes away is what stood there. -/
theorem tally_clearTable {first width : Nat} (low : start ≤ first)
    (high : first + width ≤ start + count) :
    tally table start count =
      tally (clearTable table first width) start count +
        tally table first width := by
  obtain ⟨before, rfl⟩ := Nat.exists_eq_add_of_le low
  obtain ⟨after, rfl⟩ : ∃ after, count = before + width + after :=
    ⟨count - (before + width), by omega⟩
  have lower :
      tally (clearTable table (start + before) width) start before =
        tally table start before := by
    apply tally_congr
    intro index _ below
    exact clearTable_of_outside (Or.inl below)
  have upper :
      tally (clearTable table (start + before) width)
          (start + (before + width)) after =
        tally table (start + (before + width)) after := by
    apply tally_congr
    intro index above _
    exact clearTable_of_outside (Or.inr (by omega))
  have middle :
      tally (clearTable table (start + before) width) (start + before)
        width = 0 := by
    apply tally_eq_zero
    intro index above below
    exact if_pos ⟨above, below⟩
  rw [tally_add, tally_add, tally_add, tally_add, lower, upper, middle,
    add_zero, add_right_comm]

/-- A value that is put where nothing stood is counted once more. -/
theorem tally_update {index : Nat} {value : α} (low : start ≤ index)
    (high : index < start + count) (absent : table index = none) :
    tally (Function.update table index (some value)) start count =
      value ::ₘ tally table start count := by
  have cleared :
      clearTable (Function.update table index (some value)) index 1 =
        table := by
    funext place
    by_cases here : place = index
    · subst here
      rw [absent]
      exact if_pos ⟨le_rfl, Nat.lt_succ_self place⟩
    · rw [clearTable_of_outside (by omega), Function.update_of_ne here]
  have single :
      tally (Function.update table index (some value)) index 1 =
        {value} := by
    simp [tally]
  have split := @tally_clearTable _
    (Function.update table index (some value)) start count index 1 low high
  rw [split, cleared, single, add_comm, Multiset.singleton_add]

theorem card_tally (table : Nat → Option α) (start count : Nat) :
    (tally table start count).card =
      ((Finset.range count).filter fun index =>
        (table (start + index)).isSome).card := by
  induction count with
  | zero => rfl
  | succ count induction =>
      rw [tally_add, Multiset.card_add, induction, Finset.range_add_one,
        Finset.filter_insert]
      cases found : table (start + count) <;> simp [tally, found]

theorem count_tally [DecidableEq α] (table : Nat → Option α)
    (start count : Nat) (value : α) :
    (tally table start count).count value =
      ((Finset.range count).filter fun index =>
        table (start + index) = some value).card := by
  induction count with
  | zero => rfl
  | succ count induction =>
      rw [tally_add, Multiset.count_add, induction, Finset.range_add_one,
        Finset.filter_insert]
      cases found : table (start + count) with
      | none => simp [tally, found]
      | some other =>
          by_cases same : other = value
          · simp [tally, found, same]
          · simp [tally, found, same, Ne.symm same]

end Xpmem.Foundation
