import Mathlib.Logic.Relation
import Mathlib.Order.Defs.Unbundled

/-!
# Programs that lock in an order

A program is a list of actions on locks.  It is `Safe` for an order when it
asks for a lock only after the locks that it holds, except for requests that
are excused, and ends with none held.  Threads that wait for a lock only
after those that they hold never wait for each other in a cycle.
-/

namespace Xpmem.Foundation.LockOrder

universe u v

variable {κ : Type u}

/-- What a program does to a lock, alone or with other readers. -/
inductive Action (κ : Type u) where
  | lock (lock : κ) (reads : Bool)
  /-- An attempt that never waits, and how it ends. -/
  | tryLock (lock : κ) (reads : Bool) (taken : Bool)
  | unlock (lock : κ)
deriving DecidableEq

section Safe

variable [DecidableEq κ] (before : κ → κ → Prop)
    (excused : List κ → κ → Prop)

/-- The program locks in order, starting with the locks held. -/
def Safe : List κ → List (Action κ) → Prop
  | held, [] => held = []
  | held, .lock lock _ :: rest =>
      ((∀ other ∈ held, before other lock) ∨ excused held lock) ∧
        Safe (lock :: held) rest
  | held, .tryLock lock _ taken :: rest =>
      Safe (if taken then lock :: held else held) rest
  | held, .unlock lock :: rest => Safe (held.erase lock) rest

/-- The program may come before any that is safe with the same locks. -/
def Keeps (held : List κ) (program : List (Action κ)) : Prop :=
  ∀ rest, Safe before excused held rest →
    Safe before excused held (program ++ rest)

variable {before excused} {held : List κ}

theorem Keeps.nil : Keeps before excused held [] :=
  fun _ => id

theorem Keeps.append {first second : List (Action κ)}
    (one : Keeps before excused held first)
    (two : Keeps before excused held second) :
    Keeps before excused held (first ++ second) := by
  intro rest safe
  rw [List.append_assoc]
  exact one _ (two rest safe)

theorem Keeps.flatMap {α : Type v} {programs : α → List (Action κ)}
    {items : List α}
    (each : ∀ item ∈ items, Keeps before excused held (programs item)) :
    Keeps before excused held (items.flatMap programs) := by
  induction items with
  | nil => exact .nil
  | cons item items induction =>
      rw [List.flatMap_cons]
      exact (each item List.mem_cons_self).append
        (induction fun other member =>
          each other (List.mem_cons_of_mem item member))

/-- A program inside a lock taken in order. -/
theorem Keeps.within {lock : κ} {reads : Bool}
    {program : List (Action κ)}
    (ordered : (∀ other ∈ held, before other lock) ∨ excused held lock)
    (inside : Keeps before excused (lock :: held) program) :
    Keeps before excused held
      (.lock lock reads :: program ++ [.unlock lock]) := by
  intro rest safe
  have after : Safe before excused (lock :: held) (.unlock lock :: rest) := by
    change Safe before excused ((lock :: held).erase lock) rest
    rwa [List.erase_cons_head]
  refine ⟨ordered, ?_⟩
  simpa using inside _ after

theorem Keeps.safe {program : List (Action κ)}
    (keeps : Keeps before excused [] program) :
    Safe before excused [] program := by
  simpa using keeps [] rfl

/-- Giving up all locks held. -/
theorem safe_map_unlock {locks : List κ} (all : held.Perm locks) :
    Safe before excused held (locks.map .unlock) := by
  induction locks generalizing held with
  | nil => exact all.eq_nil
  | cons lock locks induction =>
      apply induction
      have erased := all.erase lock
      rwa [List.erase_cons_head] at erased

end Safe

/-! ## Waiting in a cycle -/

section Cycle

variable {ι : Type v} {held : ι → List κ} {waiting : ι → Option κ}

/-- The thread waits for a lock that the other holds. -/
def WaitsFor (held : ι → List κ) (waiting : ι → Option κ)
    (name other : ι) : Prop :=
  ∃ lock, waiting name = some lock ∧ lock ∈ held other

variable {before : κ → κ → Prop}

/-- Along a chain of waiting threads the locks waited for ascend. -/
theorem before_of_waitsFor [IsTrans κ before]
    (ordered : ∀ name lock, waiting name = some lock →
      ∀ other ∈ held name, before other lock)
    {name other : ι} {lock last : κ}
    (chain : Relation.TransGen (WaitsFor held waiting) name other)
    (first : waiting name = some lock) (final : waiting other = some last) :
    before lock last := by
  induction chain generalizing last with
  | single edge =>
      obtain ⟨asked, waits, holds⟩ := edge
      rw [first] at waits
      cases waits
      exact ordered _ last final lock holds
  | tail _ edge induction =>
      obtain ⟨asked, waits, holds⟩ := edge
      exact IsTrans.trans _ _ _ (induction waits)
        (ordered _ last final asked holds)

/-- Threads that lock in order do not wait in a cycle. -/
theorem not_cycle [IsStrictOrder κ before]
    (ordered : ∀ name lock, waiting name = some lock →
      ∀ other ∈ held name, before other lock) (name : ι) :
    ¬ Relation.TransGen (WaitsFor held waiting) name name := by
  intro cycle
  obtain ⟨middle, edge, _⟩ := Relation.TransGen.head'_iff.mp cycle
  obtain ⟨lock, waits, _⟩ := edge
  exact irrefl lock (before_of_waitsFor ordered cycle waits waits)

end Cycle

end Xpmem.Foundation.LockOrder
