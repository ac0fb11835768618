import Mathlib.Data.List.Nodup
import Mathlib.Logic.Function.Basic

/-!
# Lists of objects that know their list

A system keeps its objects on lists, one list for each owner, and every
object records its owner.  `Registered` says that the lists and the records
agree: no list has an element twice, and an element is on no list but that of
its owner.  Adding an object at the end of one list and taking an object off
its list keep the agreement.
-/

namespace Xpmem.Foundation

universe u v

variable {ι : Type u} {α : Type v}

/-- The lists of all owners agree with what the elements record. -/
structure Registered (list : ι → List α) (owner : α → ι) : Prop where
  nodup : ∀ index, (list index).Nodup
  owned : ∀ index element, element ∈ list index → owner element = index

namespace Registered

variable {list : ι → List α} {owner : α → ι}

theorem mem_owner (registered : Registered list owner)
    {index : ι} {element : α} (member : element ∈ list index) :
    element ∈ list (owner element) := by
  rw [registered.owned index element member]
  exact member

variable [DecidableEq ι]

theorem mem_append_iff (list : ι → List α) (index other : ι)
    (element member : α) :
    member ∈ Function.update list index (list index ++ [element]) other ↔
      member ∈ list other ∨ other = index ∧ member = element := by
  by_cases same : other = index
  · subst other
    simp
  · simp [same]

/-- Add a new element at the end of the list of its owner. -/
theorem append [DecidableEq α] (registered : Registered list owner)
    {index : ι} {element : α} (absent : ∀ other, element ∉ list other) :
    Registered
      (Function.update list index (list index ++ [element]))
      (Function.update owner element index) where
  nodup other := by
    by_cases same : other = index
    · subst other
      rw [Function.update_self, List.nodup_append]
      refine ⟨registered.nodup index, by simp, ?_⟩
      intro first firstMember second secondMember
      rw [List.mem_singleton] at secondMember
      subst second
      intro equal
      subst first
      exact absent index firstMember
    · rw [Function.update_of_ne same]
      exact registered.nodup other
  owned other member listed := by
    rcases (mem_append_iff list index other element member).mp listed with
      old | ⟨same, equal⟩
    · have distinct : member ≠ element := by
        intro equal
        subst member
        exact absent other old
      rw [Function.update_of_ne distinct]
      exact registered.owned other member old
    · subst member
      rw [Function.update_self]
      exact same.symm

theorem mem_erase_iff [DecidableEq α]
    (registered : Registered list owner)
    (index other : ι) (element member : α) :
    member ∈ Function.update list index ((list index).erase element)
        other ↔
      member ∈ list other ∧ ¬ (other = index ∧ member = element) := by
  by_cases same : other = index
  · subst other
    rw [Function.update_self, (registered.nodup index).mem_erase_iff]
    constructor
    · rintro ⟨distinct, old⟩
      exact ⟨old, fun both => distinct both.2⟩
    · rintro ⟨old, neither⟩
      exact ⟨fun equal => neither ⟨rfl, equal⟩, old⟩
  · simp [same]

/-- Take an element off a list. -/
theorem erase [DecidableEq α] (registered : Registered list owner)
    (index : ι) (element : α) :
    Registered
      (Function.update list index ((list index).erase element)) owner where
  nodup other := by
    by_cases same : other = index
    · subst other
      rw [Function.update_self]
      exact (registered.nodup index).erase element
    · rw [Function.update_of_ne same]
      exact registered.nodup other
  owned other member listed :=
    registered.owned other member
      ((registered.mem_erase_iff index other element member).mp listed).1

end Registered

end Xpmem.Foundation
