import Mathlib.Algebra.Order.BigOperators.Group.List
import Xpmem.Foundation.Threads

/-!
# Pins and PTEs of attachments

`xpmem_fault_handler` pins a page of the source and then inserts its PTE;
`xpmem_clear_PTEs_of_att`, called from the MMU notifier or from a recall or a
removal, and `xpmem_detach` put the pages of a range and then zap or unmap
it.  Threads make these steps one at a time, under the mutexes `att->mutex`
and `att->invalidate_mutex` of the attachment.  A clear from the notifier and
one from a recall or a removal hold different mutexes: where both walk one
attachment at a time, both may put the same page.

Pages of an attachment are numbered from zero.  A pin is the reference that
one call of `get_user_pages_remote` took, for one page of one attachment.
-/

namespace Xpmem.Concurrent.Paging

open Foundation

universe u

/-- A page of an attachment. -/
structure Slot where
  att : Nat
  page : Nat
deriving DecidableEq

/-- A pin, and what became of it. -/
structure Pin where
  slot : Slot
  frame : Nat
  /-- A PTE was inserted for it. -/
  inserted : Bool := false
  /-- How often `put_page` was called for it. -/
  put : Nat := 0
deriving DecidableEq

/-- What an attachment is for the threads at work on it. -/
structure Attachment where
  mutex : Bool := false
  invalidateMutex : Bool := false
  destroying : Bool := false
  validPTEs : Bool := false
  /--
  Detached by a process that exits, with the mapping left to the kernel's
  `exit_mmap`.
  -/
  left : Bool := false

/-- What the threads share. -/
structure Shared where
  att : Nat → Attachment := fun _ => {}
  /-- The PTEs present, each as the number of the pin taken for it. -/
  pte : Slot → Option Nat := fun _ => none
  /-- The pins taken so far. -/
  pins : List Pin := []

/-- Who clears PTEs. -/
inductive Clearer where
  /-- `xpmem_clear_PTEs_of_att` with `from_mmu`. -/
  | notifier
  /-- The same from a recall or a removal. -/
  | recall
  /-- `xpmem_detach`, or `xpmem_detach_att` with or without `current->mm`. -/
  | detach (exiting : Bool)
deriving DecidableEq

/-- The pages of an attachment that are cleared, and by whom. -/
structure Task where
  clearer : Clearer
  att : Nat
  first : Nat
  last : Nat
deriving DecidableEq

/-- Where a thread is. -/
inductive Place where
  | idle
  -- `xpmem_fault_handler` with `att->mutex` held: the tests, and after
  -- `xpmem_ensure_valid_PFN` the flag, the release of the segment, the
  -- look-up of the old PFN and `remap_pfn_range`
  | faultTest (slot : Slot)
  | faultPin (slot : Slot)
  | faultFlag (slot : Slot) (pin : Nat)
  | faultUpRead (slot : Slot) (pin : Nat)
  | faultLook (slot : Slot) (pin : Nat)
  | faultInsert (slot : Slot) (pin : Nat)
  | faultUnlock (att : Nat)
  -- `xpmem_detach` with `att->mutex` held: the flag, and the test of the
  -- caller's thread group
  | detachMark (task : Task)
  | detachOwner (task : Task)
  -- the test of `XPMEM_FLAG_VALIDPTEs`
  | clearTest (task : Task)
  -- `xpmem_unpin_pages` at a page, before and after it has read the PTE
  | unpin (task : Task) (page : Nat)
  | put (task : Task) (page : Nat) (pin : Nat)
  -- `zap_vma_ptes` at a page
  | zap (task : Task) (page : Nat)
  -- the flag, and the locks
  | clearFlag (task : Task)
  | clearUnlock (task : Task)
  | detachUnlink (task : Task)
  -- `vm_munmap`
  | munmap (task : Task)
deriving DecidableEq

/-- What a thread does next, where its place leaves that open. -/
inductive Choice where
  | fault (slot : Slot)
  | clear (task : Task)
  /-- The kernel tears down the address space of an exited process. -/
  | exitMmap (att : Nat)
  /-- `get_user_pages_remote` finds a frame. -/
  | page (frame : Nat)
  /-- Goes on; `yes` when a call succeeds that can fail. -/
  | go (yes : Bool)
deriving DecidableEq

namespace Shared

/-- Changes an attachment. -/
def modAtt (s : Shared) (att : Nat) (change : Attachment → Attachment) :
    Shared :=
  { s with att := Function.update s.att att (change (s.att att)) }

/-- Changes a pin. -/
def modPin (s : Shared) (pin : Nat) (change : Pin → Pin) : Shared :=
  { s with pins := s.pins.modify pin change }

/-- Takes away the PTEs of an attachment. -/
def unmap (s : Shared) (att : Nat) : Shared :=
  { s with pte := fun slot => if slot.att = att then none else s.pte slot }

theorem att_modAtt (s : Shared) (att : Nat)
    (change : Attachment → Attachment) (other : Nat) :
    (s.modAtt att change).att other =
      if other = att then change (s.att att) else s.att other := by
  unfold modAtt
  exact Function.update_apply ..

end Shared

/-- Unlocks what `xpmem_clear_PTEs_of_att` holds. -/
def Attachment.unlock (clearer : Clearer) (att : Attachment) : Attachment :=
  match clearer with
  | .notifier => { att with invalidateMutex := false }
  | .recall | .detach _ => { att with mutex := false }

variable (pages : Nat → Nat)

/-- One step of a thread. -/
def act (s : Shared) : Place → Choice → Option (Shared × Place)
  | .idle, .fault slot =>
      if (s.att slot.att).mutex then none
      else some (s.modAtt slot.att ({ · with mutex := true }),
        .faultTest slot)
  | .faultTest slot, .go alive =>
      if (s.att slot.att).destroying || !alive ||
          !decide (slot.page < pages slot.att) then
        some (s, .faultUnlock slot.att)
      else some (s, .faultPin slot)
  | .faultPin slot, .page frame =>
      some ({ s with pins := s.pins ++ [{ slot, frame }] },
        .faultFlag slot s.pins.length)
  | .faultPin slot, .go _ => some (s, .faultUnlock slot.att)
  | .faultFlag slot pin, .go _ =>
      some (s.modAtt slot.att ({ · with validPTEs := true }),
        .faultUpRead slot pin)
  | .faultUpRead slot pin, .go _ => some (s, .faultLook slot pin)
  | .faultLook slot pin, .go valid =>
      -- a frame without a `struct page` is left as it is
      if !valid then some (s, .faultUnlock slot.att)
      else if (s.pte slot).isSome then
        some (s.modPin pin fun taken => { taken with put := taken.put + 1 },
          .faultUnlock slot.att)
      else some (s, .faultInsert slot pin)
  | .faultInsert slot pin, .go mapped =>
      if !mapped then some (s, .faultUnlock slot.att)
      else some ({ s.modPin pin ({ · with inserted := true }) with
        pte := Function.update s.pte slot (some pin) },
        .faultUnlock slot.att)
  | .faultUnlock att, .go _ =>
      some (s.modAtt att ({ · with mutex := false }), .idle)
  | .idle, .clear task =>
      -- the range is cut to the attachment
      let last := min task.last (pages task.att)
      match task.clearer with
      | .notifier =>
          if (s.att task.att).invalidateMutex then none
          else if (s.att task.att).destroying then some (s, .idle)
          else some (s.modAtt task.att ({ · with invalidateMutex := true }),
            .clearTest { task with last })
      | .recall =>
          if (s.att task.att).mutex then none
          else some (s.modAtt task.att ({ · with mutex := true }),
            .clearTest { task with last })
      | .detach _ =>
          if (s.att task.att).mutex then none
          else some (s.modAtt task.att ({ · with mutex := true }),
            .detachMark { task with first := 0, last := pages task.att })
  | .detachMark task, .go _ =>
      -- under `invalidate_mutex`
      if (s.att task.att).invalidateMutex then none
      else if (s.att task.att).destroying then some (s, .clearUnlock task)
      else some (s.modAtt task.att ({ · with destroying := true }),
        .detachOwner task)
  | .detachOwner task, .go own =>
      if !own then
        some (s.modAtt task.att ({ · with destroying := false }),
          .clearUnlock task)
      else some (s, .unpin task task.first)
  | .clearTest task, .go _ =>
      if (s.att task.att).validPTEs && decide (task.first < task.last) then
        some (s, .unpin task task.first)
      else some (s, .clearUnlock task)
  | .unpin task page, .go _ =>
      if page < task.last then
        match s.pte ⟨task.att, page⟩ with
        | some pin => some (s, .put task page pin)
        | none => some (s, .unpin task (page + 1))
      else match task.clearer with
        | .detach _ => some (s, .detachUnlink task)
        | .notifier | .recall => some (s, .zap task task.first)
  | .put task page pin, .go _ =>
      some (s.modPin pin fun taken => { taken with put := taken.put + 1 },
        .unpin task (page + 1))
  | .zap task page, .go _ =>
      if page < task.last then
        some ({ s with
          pte := Function.update s.pte ⟨task.att, page⟩ none },
          .zap task (page + 1))
      else some (s, .clearFlag task)
  | .clearFlag task, .go _ =>
      if task.first = 0 && task.last = pages task.att then
        some (s.modAtt task.att ({ · with validPTEs := false }),
          .clearUnlock task)
      else some (s, .clearUnlock task)
  | .clearUnlock task, .go _ =>
      some (s.modAtt task.att (Attachment.unlock task.clearer), .idle)
  | .detachUnlink task, .go _ =>
      if task.clearer = .detach true then
        some (s.modAtt task.att
          ({ · with validPTEs := false, left := true, mutex := false }),
          .idle)
      else some (s.modAtt task.att
        ({ · with validPTEs := false, mutex := false }), .munmap task)
  | .munmap task, .go _ => some (s.unmap task.att, .idle)
  | .idle, .exitMmap att =>
      if (s.att att).left then some (s.unmap att, .idle) else none
  | _, _ => none

/-! ## Who is at work on an attachment -/

/-- The task is that of a detach. -/
def Task.detaches (task : Task) : Prop :=
  ∃ exiting, task.clearer = .detach exiting

/-- A walk is at a page of its range, and a detach has a task of its own. -/
def Place.ordered (pages : Nat → Nat) : Place → Prop
  | .unpin task page => task.first ≤ page ∧ page ≤ task.last
  | .zap task page =>
      task.first ≤ page ∧ page ≤ task.last ∧ ¬ task.detaches
  | .put task page _ => task.first ≤ page ∧ page < task.last
  | .clearTest task => task.last ≤ pages task.att ∧ ¬ task.detaches
  | .detachMark task | .detachOwner task =>
      task.first ≤ task.last ∧ task.detaches
  | .detachUnlink task | .munmap task => task.detaches
  | _ => True

variable {pages} {s next : Shared} {place place' : Place} {choice : Choice}

theorem ordered_act (moved : act pages s place choice = some (next, place'))
    (ordered : place.ordered pages) : place'.ordered pages := by
  revert moved
  fun_cases act pages s place choice <;> intro moved <;>
    simp only [Option.some.injEq, Prod.mk.injEq, reduceCtorEq] at moved <;>
    obtain ⟨rfl, rfl⟩ := moved <;>
    simp_all [Place.ordered, Task.detaches] <;>
    omega

/-- The thread holds `att->mutex`. -/
def Place.locks (att : Nat) : Place → Prop
  | .faultTest slot | .faultPin slot | .faultFlag slot _
  | .faultUpRead slot _ | .faultLook slot _ | .faultInsert slot _ =>
      slot.att = att
  | .faultUnlock other => other = att
  | .detachMark task | .detachOwner task | .detachUnlink task =>
      task.att = att
  | .clearTest task | .unpin task _ | .put task _ _ | .zap task _
  | .clearFlag task | .clearUnlock task =>
      task.att = att ∧ task.clearer ≠ .notifier
  | .idle | .munmap _ => False

/-- The thread holds `att->invalidate_mutex` to clear PTEs. -/
def Place.invalidates (att : Nat) : Place → Prop
  | .clearTest task | .unpin task _ | .put task _ _ | .zap task _
  | .clearFlag task | .clearUnlock task =>
      task.att = att ∧ task.clearer = .notifier
  | _ => False

/-- The thread has set `XPMEM_FLAG_DESTROYING` and detaches. -/
def Place.detaches (att : Nat) : Place → Prop
  | .detachOwner task | .detachUnlink task | .munmap task => task.att = att
  | .unpin task _ | .put task _ _ => task.att = att ∧ task.detaches
  | _ => False

/-- The thread puts, zaps or unmaps pages of the attachment. -/
def Place.works (att : Nat) : Place → Prop
  | .unpin task _ | .put task _ _ | .zap task _ | .detachUnlink task
  | .munmap task => task.att = att
  | _ => False

theorem mutex_act (moved : act pages s place choice = some (next, place'))
    (att : Nat) :
    Threads.LockStep (s.att att).mutex (place.locks att)
      (next.att att).mutex (place'.locks att) := by
  revert moved
  fun_cases act pages s place choice <;> intro moved <;>
    simp only [Option.some.injEq, Prod.mk.injEq, reduceCtorEq] at moved <;>
    obtain ⟨rfl, rfl⟩ := moved <;>
    rw [Threads.lockStep_iff] <;>
    simp only [Shared.att_modAtt, Place.locks, Shared.modPin, Shared.unmap,
      Attachment.unlock] <;>
    grind

theorem invalidateMutex_act
    (moved : act pages s place choice = some (next, place'))
    (ordered : place.ordered pages) (att : Nat) :
    Threads.LockStep (s.att att).invalidateMutex (place.invalidates att)
      (next.att att).invalidateMutex (place'.invalidates att) := by
  revert moved
  fun_cases act pages s place choice <;> intro moved <;>
    simp only [Option.some.injEq, Prod.mk.injEq, reduceCtorEq] at moved <;>
    obtain ⟨rfl, rfl⟩ := moved <;>
    rw [Threads.lockStep_iff] <;>
    simp only [Shared.att_modAtt, Place.invalidates, Shared.modPin,
      Shared.unmap, Attachment.unlock] <;>
    grind [Place.ordered, Task.detaches]

theorem destroying_act
    (moved : act pages s place choice = some (next, place'))
    (ordered : place.ordered pages) (att : Nat) :
    Threads.LockStep (s.att att).destroying (place.detaches att)
      (next.att att).destroying (place'.detaches att) := by
  revert moved
  fun_cases act pages s place choice <;> intro moved <;>
    simp only [Option.some.injEq, Prod.mk.injEq, reduceCtorEq] at moved <;>
    obtain ⟨rfl, rfl⟩ := moved <;>
    rw [Threads.lockStep_iff] <;>
    simp only [Shared.att_modAtt, Place.detaches, Shared.modPin,
      Shared.unmap, Attachment.unlock] <;>
    grind [Place.ordered, Task.detaches]

/-- A detach starts when no notifier clears, and the other way round. -/
theorem marked_act (moved : act pages s place choice = some (next, place'))
    (ordered : place.ordered pages) (att : Nat) :
    (place'.invalidates att →
      (next.att att).destroying = (s.att att).destroying ∧
        (place.invalidates att ∨ (s.att att).destroying = false)) ∧
      ((next.att att).destroying = true →
        (s.att att).destroying = true ∨
          (s.att att).invalidateMutex = false) := by
  revert moved
  fun_cases act pages s place choice <;> intro moved <;>
    simp only [Option.some.injEq, Prod.mk.injEq, reduceCtorEq] at moved <;>
    obtain ⟨rfl, rfl⟩ := moved <;>
    simp only [Shared.att_modAtt, Place.invalidates, Shared.modPin,
      Shared.unmap, Attachment.unlock] <;>
    grind [Place.ordered, Task.detaches]

/-- How a thread comes to work on an attachment, and how it leaves it. -/
theorem works_act (moved : act pages s place choice = some (next, place'))
    (att : Nat) :
    (place'.works att → place.works att ∨
      (∃ task, place = .clearTest task ∧ task.att = att) ∨
      ∃ task, place = .detachOwner task ∧ task.att = att) ∧
      ((next.att att).left = true → (s.att att).left = true ∨
        place.detaches att ∧ place.works att ∧ ¬ place'.detaches att ∧
          ¬ place'.works att ∧
          (next.att att).destroying = (s.att att).destroying) := by
  revert moved
  fun_cases act pages s place choice <;> intro moved <;>
    simp only [Option.some.injEq, Prod.mk.injEq, reduceCtorEq] at moved <;>
    obtain ⟨rfl, rfl⟩ := moved <;>
    simp only [Shared.att_modAtt, Place.works, Place.detaches,
      Shared.modPin, Shared.unmap, Attachment.unlock] <;>
    grind

/-! ## What a step does to pins and PTEs -/

/-- The pin that a fault has taken and not used yet. -/
def Place.hand : Place → Option (Slot × Nat)
  | .faultFlag slot pin | .faultUpRead slot pin | .faultLook slot pin
  | .faultInsert slot pin => some (slot, pin)
  | _ => none

/-- The pin that `xpmem_unpin_pages` has found and not put yet. -/
def Place.found : Place → Option (Slot × Nat)
  | .put task page pin => some (⟨task.att, page⟩, pin)
  | _ => none

/-- The page is put, and its PTE yet to be zapped or unmapped. -/
def Place.clears (slot : Slot) : Place → Prop
  | .unpin task page | .put task page _ =>
      slot.att = task.att ∧ task.first ≤ slot.page ∧ slot.page < page
  | .zap task page =>
      slot.att = task.att ∧ page ≤ slot.page ∧ slot.page < task.last
  | .detachUnlink task | .munmap task => slot.att = task.att
  | _ => False

/-- All that a step does to pins and PTEs. -/
inductive Effect (s : Shared) (place : Place) :
    Shared → Place → Prop where
  | quiet {next : Shared} {place' : Place}
      (pte : next.pte = s.pte) (pins : next.pins = s.pins)
      (left : ∀ att, (s.att att).left = true → (next.att att).left = true)
      (hand : place'.hand = none ∨ place'.hand = place.hand)
      (found : ∀ slot pin, place'.found = some (slot, pin) →
        s.pte slot = some pin ∧ place.works slot.att ∧ ¬ place.clears slot)
      (clears : ∀ slot, place.clears slot →
        place'.clears slot ∨ (next.att slot.att).left = true) :
      Effect s place next place'
  | pin {place' : Place} (slot : Slot) (frame : Nat)
      (hand : place'.hand = some (slot, s.pins.length))
      (found : place'.found = none)
      (clears : ∀ slot, ¬ place.clears slot) :
      Effect s place { s with pins := s.pins ++ [{ slot, frame }] } place'
  | put {place' : Place} (slot : Slot) (pin : Nat)
      (holds : place.found = some (slot, pin) ∨
        place.hand = some (slot, pin))
      (hand : place'.hand = none) (found : place'.found = none)
      (now : place.found = some (slot, pin) → place'.clears slot)
      (clears : ∀ slot, place.clears slot → place'.clears slot) :
      Effect s place
        (s.modPin pin fun taken => { taken with put := taken.put + 1 })
        place'
  | insert {place' : Place} (slot : Slot) (pin : Nat)
      (holds : place.hand = some (slot, pin))
      (hand : place'.hand = none) (found : place'.found = none)
      (clears : ∀ slot, ¬ place.clears slot) :
      Effect s place { s.modPin pin ({ · with inserted := true }) with
        pte := Function.update s.pte slot (some pin) } place'
  | remove {next : Shared} {place' : Place} (gone : Slot → Prop)
      (pte : ∀ slot, ¬ gone slot → next.pte slot = s.pte slot)
      (empty : ∀ slot, gone slot → next.pte slot = none)
      (pins : next.pins = s.pins) (att : next.att = s.att)
      (hand : place'.hand = none) (found : place'.found = none)
      (clears : ∀ slot, place.clears slot →
        gone slot ∨ place'.clears slot) :
      Effect s place next place'

theorem left_modAtt (att : Nat) (change : Attachment → Attachment)
    (kept : (change (s.att att)).left = (s.att att).left ∨
      (change (s.att att)).left = true)
    (other : Nat) (left : (s.att other).left = true) :
    ((s.modAtt att change).att other).left = true := by
  rw [s.att_modAtt]
  split
  next equal =>
    rcases kept with same | set
    · rw [same, ← equal, left]
    · exact set
  next => exact left

theorem left_unlock (clearer : Clearer) (att : Attachment) :
    (att.unlock clearer).left = att.left := by
  cases clearer <;> rfl

theorem act_effect (moved : act pages s place choice = some (next, place'))
    (ordered : place.ordered pages) : Effect s place next place' := by
  revert moved
  fun_cases act pages s place choice <;> intro moved <;>
    simp only [Option.some.injEq, Prod.mk.injEq, reduceCtorEq] at moved <;>
    obtain ⟨rfl, rfl⟩ := moved
  case case5 slot frame =>
    exact .pin slot frame rfl rfl fun _ => id
  case case10 slot pin _ _ _ =>
    exact .put slot pin (.inr rfl) rfl rfl nofun fun _ => False.elim
  case case13 slot pin _ _ =>
    exact .insert slot pin rfl rfl rfl fun _ => id
  case case34 task page pin _ =>
    refine .put ⟨task.att, page⟩ pin (.inl rfl) rfl rfl ?_ ?_ <;>
      simp_all [Place.ordered, Place.clears]
    omega
  case case35 task page _ _ =>
    refine .remove (· = ⟨task.att, page⟩)
      (fun slot other => Function.update_of_ne other _ _)
      (fun slot same => same ▸ Function.update_self _ _ _)
      rfl rfl rfl rfl ?_
    rintro ⟨att, other⟩ ⟨rfl, low, high⟩
    rcases low.eq_or_lt with rfl | later
    · exact .inl rfl
    · exact .inr ⟨rfl, later, high⟩
  case case42 task _ =>
    exact .remove (·.att = task.att) (fun slot other => if_neg other)
      (fun slot same => if_pos same) rfl rfl rfl rfl fun _ => .inl
  case case43 att _ =>
    exact .remove (·.att = att) (fun slot other => if_neg other)
      (fun slot same => if_pos same) rfl rfl rfl rfl fun _ => False.elim
  case case39 task _ =>
    exact .quiet rfl rfl (left_modAtt _ _ (.inl (left_unlock _ _)))
      (.inl rfl) nofun fun _ => False.elim
  case case40 task _ _ =>
    refine .quiet rfl rfl (left_modAtt _ _ (.inr rfl)) (.inl rfl) nofun ?_
    rintro ⟨att, page⟩ rfl
    exact .inr (by simp [Shared.att_modAtt])
  -- the rest leave pins and PTEs as they are
  all_goals
    refine .quiet rfl rfl ?_ ?_ ?_ ?_
    · first
      | exact fun _ => id
      | exact left_modAtt _ _ (.inl rfl)
    · simp [Place.hand]
    · simp_all [Place.found, Place.works, Place.clears]
    · simp_all [Place.clears, Place.ordered]
      try omega

/-! ## What a run keeps of pins and PTEs -/

section Runs

variable {ι : Type u} [DecidableEq ι]

/--
An operation is alone at work on an attachment.  Mutexes and flags see to that
but for two clears, one from the notifier.
-/
structure Alone (s : Shared) (thread : ι → Place) : Prop where
  mutex (att : Nat) :
    Threads.Exclusive (s.att att).mutex (Place.locks att) thread
  invalidate (att : Nat) :
    Threads.Exclusive (s.att att).invalidateMutex (Place.invalidates att)
      thread
  detaching (att : Nat) :
    Threads.Exclusive (s.att att).destroying (Place.detaches att) thread
  marked {name : ι} {att : Nat} (clears : (thread name).invalidates att) :
    (s.att att).destroying = false
  left {att : Nat} (left : (s.att att).left = true) :
    (s.att att).destroying = true ∧
      ∀ name, ¬ (thread name).detaches att ∧ ¬ (thread name).works att
  unique {name other : ι} {att : Nat} (works : (thread name).works att)
    (also : (thread other).works att) : name = other

/-- The clear that is at its test of `XPMEM_FLAG_VALIDPTEs`. -/
def Place.testing : Place → Option Task
  | .clearTest task => some task
  | _ => none

/--
A clear goes on from its test of `XPMEM_FLAG_VALIDPTEs` only when no other
operation puts, zaps or unmaps pages of the attachment.
-/
def Separate (s : Threads ι Shared Place) (move : ι × Choice) : Prop :=
  ∀ task ∈ (s.thread move.1).testing,
    (s.shared.att task.att).left = false ∧
      ∀ name, ¬ (s.thread name).works task.att

/-- Whoever works on an attachment holds a lock of it. -/
theorem holds_of_works {att : Nat} (ordered : place.ordered pages)
    (works : place.works att) :
    place.invalidates att ∨ place.detaches att ∨ place.locks att := by
  cases place <;> simp only [Place.works] at works <;>
    simp only [Place.invalidates, Place.detaches, Place.locks, works] <;>
    tauto

omit [DecidableEq ι] in
/-- No other operation works where a detach comes to work. -/
theorem Alone.not_works_of_detach {thread : ι → Place} {name other : ι}
    {task : Task} (alone : Alone s thread)
    (ordered : (thread other).ordered pages)
    (here : thread name = .detachOwner task)
    (works : (thread other).works task.att) : other = name := by
  have detaches : (thread name).detaches task.att := by rw [here]; rfl
  rcases holds_of_works ordered works with clears | also | locks
  · have set := (alone.detaching task.att).held_of_owns detaches
    rw [alone.marked clears] at set
    cases set
  · exact (alone.detaching task.att).unique also detaches
  · exact (alone.mutex task.att).unique locks (by rw [here]; rfl)

theorem Alone.act_marked {thread : ι → Place} {name other : ι} {att : Nat}
    (alone : Alone s thread) (ordered : (thread name).ordered pages)
    (moved : act pages s (thread name) choice = some (next, place))
    (clears : (Function.update thread name place other).invalidates att) :
    (next.att att).destroying = false := by
  obtain ⟨own, others⟩ := marked_act moved ordered att
  by_cases equal : other = name
  · rw [equal, Function.update_self] at clears
    obtain ⟨same, before | unset⟩ := own clears
    · rw [same, alone.marked before]
    · rw [same, unset]
  · rw [Function.update_of_ne equal] at clears
    have held := (alone.invalidate att).held_of_owns clears
    have unset := alone.marked clears
    grind

theorem Alone.act_left {thread : ι → Place} {name : ι} {att : Nat}
    (alone : Alone s thread) (ordered : (thread name).ordered pages)
    (separate : Separate ⟨s, thread⟩ (name, choice))
    (moved : act pages s (thread name) choice = some (next, place))
    (left : (next.att att).left = true) :
    (next.att att).destroying = true ∧ ∀ other,
      ¬ (Function.update thread name place other).detaches att ∧
        ¬ (Function.update thread name place other).works att := by
  obtain ⟨enters, leaves⟩ := works_act moved att
  rcases leaves left with before |
    ⟨detaches, works, undetached, unworked, same⟩
  · obtain ⟨set, idle⟩ := alone.left before
    have own := idle name
    have mover : ¬ place.works att := fun works => by
      rcases enters works with before' | ⟨task, here, rfl⟩ | ⟨task, here, rfl⟩
      · exact own.2 before'
      · have kept := (separate task (by simp [here, Place.testing])).1
        rw [before] at kept
        cases kept
      · exact own.1 (by rw [here]; rfl)
    have step := destroying_act moved ordered att
    rw [Threads.lockStep_iff] at step
    refine ⟨by grind, fun other => ?_⟩
    by_cases equal : other = name
    · rw [equal, Function.update_self]
      exact ⟨by grind, mover⟩
    · rw [Function.update_of_ne equal]
      exact idle other
  · refine ⟨by rw [same, (alone.detaching att).held_of_owns detaches],
      fun other => ?_⟩
    by_cases equal : other = name
    · rw [equal, Function.update_self]
      exact ⟨undetached, unworked⟩
    · rw [Function.update_of_ne equal]
      exact ⟨fun also => equal ((alone.detaching att).unique also detaches),
        fun also => equal (alone.unique also works)⟩

theorem Alone.act_unique {thread : ι → Place} {name first second : ι}
    {att : Nat} (alone : Alone s thread)
    (ordered : ∀ name, (thread name).ordered pages)
    (separate : Separate ⟨s, thread⟩ (name, choice))
    (moved : act pages s (thread name) choice = some (next, place))
    (works : (Function.update thread name place first).works att)
    (also : (Function.update thread name place second).works att) :
    first = second := by
  -- no other thread works where the mover does after the step
  have mover (other : ι) (differs : other ≠ name) (here : place.works att)
      (there : (thread other).works att) : False := by
    rcases (works_act moved att).1 here with before | ⟨task, at_, rfl⟩ |
      ⟨task, at_, rfl⟩
    · exact differs (alone.unique there before)
    · exact (separate _ (by simp [at_, Place.testing])).2 other there
    · exact differs (alone.not_works_of_detach (ordered other) at_ there)
  by_cases one : first = name <;> by_cases two : second = name
  · rw [one, two]
  · rw [one, Function.update_self] at works
    rw [Function.update_of_ne two] at also
    exact (mover second two works also).elim
  · rw [Function.update_of_ne one] at works
    rw [two, Function.update_self] at also
    exact (mover first one also works).elim
  · rw [Function.update_of_ne one] at works
    rw [Function.update_of_ne two] at also
    exact alone.unique works also

theorem Alone.act {thread : ι → Place} {name : ι} (alone : Alone s thread)
    (ordered : ∀ name, (thread name).ordered pages)
    (separate : Separate ⟨s, thread⟩ (name, choice))
    (moved : act pages s (thread name) choice = some (next, place)) :
    Alone next (Function.update thread name place) where
  mutex att := (alone.mutex att).update (mutex_act moved att)
  invalidate att := (alone.invalidate att).update
    (invalidateMutex_act moved (ordered name) att)
  detaching att := (alone.detaching att).update
    (destroying_act moved (ordered name) att)
  marked := alone.act_marked (ordered name) moved
  left := alone.act_left (ordered name) separate moved
  unique := alone.act_unique ordered separate moved

/-- The page is put by an operation that goes on to take its PTE away. -/
def Clearing (s : Shared) (thread : ι → Place) (slot : Slot) : Prop :=
  (s.att slot.att).left = true ∨ ∃ name, (thread name).clears slot

theorem works_of_clears {slot : Slot} (clears : place.clears slot) :
    place.works slot.att := by
  cases place <;> simp_all [Place.clears, Place.works]

theorem works_of_found {slot : Slot} {pin : Nat}
    (found : place.found = some (slot, pin)) : place.works slot.att := by
  cases place <;> simp_all [Place.found, Place.works]
  rw [← found.1]

omit [DecidableEq ι] in
/-- A page that a walk has not reached is put by nobody. -/
theorem Alone.not_clearing {thread : ι → Place} {name : ι} {slot : Slot}
    (alone : Alone s thread) (works : (thread name).works slot.att)
    (ahead : ¬ (thread name).clears slot) : ¬ Clearing s thread slot := by
  rintro (left | ⟨other, clears⟩)
  · exact ((alone.left left).2 name).2 works
  · rw [alone.unique (works_of_clears clears) works] at clears
    exact ahead clears

/--
Pins and PTEs agree: what a PTE, a fault and a walk refer to is a pin of
their page, that of a fault or a walk is not put, that of a PTE is put only by
an operation that goes on to take the PTE away, and none is put twice.
-/
structure Agrees (s : Shared) (thread : ι → Place) : Prop where
  pte {slot : Slot} {pin : Nat} (present : s.pte slot = some pin) :
    ∃ taken, s.pins[pin]? = some taken ∧ taken.slot = slot ∧
      taken.inserted = true ∧ (taken.put ≠ 0 → Clearing s thread slot)
  hand {name : ι} {slot : Slot} {pin : Nat}
    (holds : (thread name).hand = some (slot, pin)) :
    ∃ taken, s.pins[pin]? = some taken ∧ taken.slot = slot ∧
      taken.inserted = false ∧ taken.put = 0
  found {name : ι} {slot : Slot} {pin : Nat}
    (holds : (thread name).found = some (slot, pin)) :
    ∃ taken, s.pins[pin]? = some taken ∧ taken.slot = slot ∧
      taken.inserted = true ∧ taken.put = 0
  own {name other : ι} {slot slot' : Slot} {pin : Nat}
    (holds : (thread name).hand = some (slot, pin))
    (also : (thread other).hand = some (slot', pin)) : name = other
  once {pin : Nat} {taken : Pin} (at_ : s.pins[pin]? = some taken) :
    taken.put ≤ 1

omit [DecidableEq ι] in
/-- A pin in a fault's hand has no PTE yet. -/
theorem Agrees.not_inserted {thread : ι → Place} {name : ι} {slot : Slot}
    {pin : Nat} {taken : Pin} (agrees : Agrees s thread)
    (held : (thread name).hand = some (slot, pin))
    (at_ : s.pins[pin]? = some taken) : ¬ taken.inserted = true := by
  obtain ⟨same, again, _, fresh, _⟩ := agrees.hand held
  rw [at_] at again
  cases again
  exact Bool.eq_false_iff.mp fresh

omit [DecidableEq ι] in
/-- The pin of a PTE that a walk has read is in no fault's hand. -/
theorem Agrees.hand_ne_found {thread : ι → Place} {one two : ι}
    {slot slot' : Slot} {pin pin' : Nat} (agrees : Agrees s thread)
    (held : (thread one).hand = some (slot, pin))
    (read : (thread two).found = some (slot', pin')) : pin ≠ pin' := by
  rintro rfl
  obtain ⟨taken, at_, _, inserted, _⟩ := agrees.found read
  exact agrees.not_inserted held at_ inserted

theorem Clearing.update {thread : ι → Place} {name : ι} {slot : Slot}
    (clearing : Clearing s thread slot)
    (left : (s.att slot.att).left = true → (next.att slot.att).left = true)
    (clears : (thread name).clears slot →
      place.clears slot ∨ (next.att slot.att).left = true) :
    Clearing next (Function.update thread name place) slot := by
  rcases clearing with kept | ⟨other, working⟩
  · exact .inl (left kept)
  · by_cases equal : other = name
    · subst other
      rcases clears working with still | kept
      · exact .inr ⟨name, by rwa [Function.update_self]⟩
      · exact .inl kept
    · exact .inr ⟨other, by rwa [Function.update_of_ne equal]⟩

theorem getElem?_pins_modPin (pin other : Nat) (change : Pin → Pin) :
    (s.modPin pin change).pins[other]? =
      if pin = other then s.pins[other]?.map change
      else s.pins[other]? := by
  unfold Shared.modPin
  rw [List.getElem?_modify]
  split <;> simp

/-- A step in which no pin is put, taken or inserted. -/
theorem Agrees.quiet {thread : ι → Place} {name : ι}
    (agrees : Agrees s thread) (pins : next.pins = s.pins)
    (left : ∀ att, (s.att att).left = true → (next.att att).left = true)
    (pte : ∀ slot pin, next.pte slot = some pin → s.pte slot = some pin)
    (hand : place.hand = none ∨ place.hand = (thread name).hand)
    (found : ∀ slot pin, place.found = some (slot, pin) →
      s.pte slot = some pin ∧ ¬ Clearing s thread slot)
    (clears : ∀ slot pin, next.pte slot = some pin →
      (thread name).clears slot →
        place.clears slot ∨ (next.att slot.att).left = true) :
    Agrees next (Function.update thread name place) := by
  have hands (other : ι) (slot : Slot) (pin : Nat)
      (holds : (Function.update thread name place other).hand =
        some (slot, pin)) : (thread other).hand = some (slot, pin) := by
    rcases hand with none | same
    · exact (Threads.of_update_eq_some none holds).2
    · by_cases equal : other = name
      · rwa [equal, Function.update_self, same, ← equal] at holds
      · rwa [Function.update_of_ne equal] at holds
  refine ⟨fun {slot pin} present => ?_, fun holds => ?_,
    fun {other slot pin} holds => ?_, fun holds also => ?_,
    fun at_ => agrees.once (pins ▸ at_)⟩
  · obtain ⟨taken, at_, same, inserted, put⟩ :=
      agrees.pte (pte slot pin present)
    exact ⟨taken, pins ▸ at_, same, inserted, fun done =>
      (put done).update (left _) (clears slot pin present)⟩
  · rw [pins]
    exact agrees.hand (hands _ _ _ holds)
  · rw [pins]
    by_cases equal : other = name
    · rw [equal, Function.update_self] at holds
      obtain ⟨present, idle⟩ := found slot pin holds
      obtain ⟨taken, at_, same, inserted, put⟩ := agrees.pte present
      exact ⟨taken, at_, same, inserted, not_not.mp (mt put idle)⟩
    · rw [Function.update_of_ne equal] at holds
      exact agrees.found holds
  · exact agrees.own (hands _ _ _ holds) (hands _ _ _ also)

/-- A fault takes a pin. -/
theorem Agrees.pin {thread : ι → Place} {name : ι} {slot : Slot}
    (agrees : Agrees s thread) (frame : Nat)
    (hand : place.hand = some (slot, s.pins.length))
    (found : place.found = none)
    (clears : ∀ slot, ¬ (thread name).clears slot) :
    Agrees { s with pins := s.pins ++ [{ slot, frame }] }
      (Function.update thread name place) := by
  have kept {pin : Nat} {taken : Pin} (at_ : s.pins[pin]? = some taken) :
      (s.pins ++ [{ slot := slot, frame := frame }])[pin]? = some taken :=
    (List.getElem?_append_left (List.getElem?_eq_some_iff.mp at_).1).trans at_
  refine ⟨fun {other pin} present => ?_, fun {other slot' pin} holds => ?_,
    fun holds => ?_, fun {first second slot₁ slot₂ pin} holds also => ?_,
    fun {pin taken} at_ => ?_⟩
  · obtain ⟨taken, at_, same, inserted, put⟩ := agrees.pte present
    exact ⟨taken, kept at_, same, inserted, fun done =>
      (put done).update id fun working => (clears other working).elim⟩
  · by_cases equal : other = name
    · rw [equal, Function.update_self, hand] at holds
      cases holds
      exact ⟨{ slot, frame }, by simp, rfl, rfl, rfl⟩
    · rw [Function.update_of_ne equal] at holds
      obtain ⟨taken, at_, facts⟩ := agrees.hand holds
      exact ⟨taken, kept at_, facts⟩
  · obtain ⟨taken, at_, facts⟩ :=
      agrees.found (Threads.of_update_eq_some found holds).2
    exact ⟨taken, kept at_, facts⟩
  · -- the number of the new pin is that of no pin in a hand
    have fresh (other : ι) (slot' : Slot)
        (holds : (thread other).hand = some (slot', s.pins.length)) :
        False := by
      obtain ⟨taken, at_, _⟩ := agrees.hand holds
      simp at at_
    by_cases one : first = name <;> by_cases two : second = name
    · rw [one, two]
    · rw [one, Function.update_self, hand] at holds
      rw [Function.update_of_ne two] at also
      cases holds
      exact (fresh second slot₂ also).elim
    · rw [two, Function.update_self, hand] at also
      rw [Function.update_of_ne one] at holds
      cases also
      exact (fresh first slot₁ holds).elim
    · rw [Function.update_of_ne one] at holds
      rw [Function.update_of_ne two] at also
      exact agrees.own holds also
  · rcases List.mem_append.mp (List.mem_of_getElem? at_) with old | new
    · obtain ⟨pin, at_⟩ := List.mem_iff_getElem?.mp old
      exact agrees.once at_
    · rw [List.mem_singleton.mp new]
      exact Nat.zero_le 1

/-- What a change of one pin leaves of the others. -/
theorem Agrees.modPin {thread : ι → Place} {name : ι} {slot : Slot}
    {pin : Nat} (agrees : Agrees s thread) (change : Pin → Pin)
    (put : ∀ taken, taken.put = 0 → (change taken).put ≤ 1)
    (holds : (thread name).found = some (slot, pin) ∨
      (thread name).hand = some (slot, pin))
    (sole : ∀ other slot', (thread other).found = some (slot', pin) →
      (thread name).found = some (slot, pin) → other = name)
    (hand : place.hand = none) (found : place.found = none)
    (pte : ∀ slot' pin', next.pte slot' = some pin' →
      ∃ taken, (s.modPin pin change).pins[pin']? = some taken ∧
        taken.slot = slot' ∧ taken.inserted = true ∧
        (taken.put ≠ 0 →
          Clearing next (Function.update thread name place) slot'))
    (pins : next.pins = (s.modPin pin change).pins) :
    Agrees next (Function.update thread name place) := by
  have unput : ∃ taken, s.pins[pin]? = some taken ∧ taken.put = 0 := by
    rcases holds with read | held
    · obtain ⟨taken, at_, _, _, unput⟩ := agrees.found read
      exact ⟨taken, at_, unput⟩
    · obtain ⟨taken, at_, _, _, unput⟩ := agrees.hand held
      exact ⟨taken, at_, unput⟩
  refine ⟨fun present => pins ▸ pte _ _ present,
    fun {other slot' pin'} holds' => ?_, fun {other slot' pin'} holds' => ?_,
    fun holds' also => ?_, fun {pin' taken} at_ => ?_⟩
  · obtain ⟨others, holds'⟩ := Threads.of_update_eq_some hand holds'
    obtain ⟨taken, at_, facts⟩ := agrees.hand holds'
    have different : pin ≠ pin' := by
      rcases holds with read | held
      · exact (agrees.hand_ne_found holds' read).symm
      · rintro rfl
        exact others (agrees.own holds' held)
    exact ⟨taken, by rwa [pins, getElem?_pins_modPin, if_neg different],
      facts⟩
  · obtain ⟨others, holds'⟩ := Threads.of_update_eq_some found holds'
    obtain ⟨taken, at_, facts⟩ := agrees.found holds'
    have different : pin ≠ pin' := by
      rcases holds with read | held
      · rintro rfl
        exact others (sole other slot' holds' read)
      · exact agrees.hand_ne_found held holds'
    exact ⟨taken, by rwa [pins, getElem?_pins_modPin, if_neg different],
      facts⟩
  · exact agrees.own (Threads.of_update_eq_some hand holds').2
      (Threads.of_update_eq_some hand also).2
  · rw [pins, getElem?_pins_modPin] at at_
    split at at_
    · obtain ⟨old, at_', zero⟩ := unput
      subst pin'
      rw [at_'] at at_
      cases at_
      exact put old zero
    · exact agrees.once at_

theorem Agrees.put {thread : ι → Place} {name : ι} {slot : Slot} {pin : Nat}
    (agrees : Agrees s thread)
    (holds : (thread name).found = some (slot, pin) ∨
      (thread name).hand = some (slot, pin))
    (sole : ∀ other slot', (thread other).found = some (slot', pin) →
      (thread name).found = some (slot, pin) → other = name)
    (hand : place.hand = none) (found : place.found = none)
    (now : (thread name).found = some (slot, pin) → place.clears slot)
    (clears : ∀ slot, (thread name).clears slot → place.clears slot) :
    Agrees (s.modPin pin fun taken => { taken with put := taken.put + 1 })
      (Function.update thread name place) := by
  refine agrees.modPin _ (fun _ zero => by rw [zero]) holds sole hand found
    ?_ rfl
  intro slot' pin' present
  obtain ⟨taken, at_, same, inserted, put⟩ := agrees.pte present
  rw [getElem?_pins_modPin, at_]
  by_cases equal : pin = pin'
  · subst pin'
    rw [if_pos rfl]
    refine ⟨_, rfl, same, inserted, fun _ => .inr ⟨name, ?_⟩⟩
    rw [Function.update_self]
    rcases holds with read | held
    · obtain ⟨read', at_', same', _⟩ := agrees.found read
      rw [at_] at at_'
      cases at_'
      rw [← same, same']
      exact now read
    · exact (agrees.not_inserted held at_ inserted).elim
  · rw [if_neg equal]
    exact ⟨taken, rfl, same, inserted, fun done =>
      (put done).update id fun working => .inl (clears slot' working)⟩

theorem Agrees.insert {thread : ι → Place} {name : ι} {slot : Slot}
    {pin : Nat} (agrees : Agrees s thread)
    (holds : (thread name).hand = some (slot, pin))
    (hand : place.hand = none) (found : place.found = none)
    (clears : ∀ slot, ¬ (thread name).clears slot) :
    Agrees { s.modPin pin ({ · with inserted := true }) with
        pte := Function.update s.pte slot (some pin) }
      (Function.update thread name place) := by
  obtain ⟨held, at_, same, _, unput⟩ := agrees.hand holds
  refine agrees.modPin ({ · with inserted := true })
    (fun _ zero => zero.le.trans (Nat.zero_le 1)) (.inr holds)
    (fun other slot' read own => ?_) hand found ?_ rfl
  · exact (agrees.hand_ne_found holds own rfl).elim
  intro slot' pin' present
  change Function.update s.pte slot (some pin) slot' = some pin' at present
  rw [getElem?_pins_modPin]
  by_cases equal : slot' = slot
  · subst slot'
    rw [Function.update_self] at present
    cases present
    rw [if_pos rfl, at_]
    exact ⟨_, rfl, same, rfl, fun done => absurd unput done⟩
  · rw [Function.update_of_ne equal] at present
    obtain ⟨taken, at_', same', inserted, put⟩ := agrees.pte present
    have different : pin ≠ pin' := by
      rintro rfl
      exact agrees.not_inserted holds at_' inserted
    rw [if_neg different]
    exact ⟨taken, at_', same', inserted, fun done =>
      (put done).update id fun working => (clears slot' working).elim⟩

theorem Agrees.effect {thread : ι → Place} {name : ι}
    (agrees : Agrees s thread) (alone : Alone s thread)
    (effect : Effect s (thread name) next place) :
    Agrees next (Function.update thread name place) := by
  cases effect with
  | quiet pte pins left hand found clears =>
      refine agrees.quiet pins left (fun _ _ present => pte ▸ present) hand
        (fun slot pin read => ?_) fun slot _ _ => clears slot
      obtain ⟨present, works, ahead⟩ := found slot pin read
      exact ⟨present, alone.not_clearing works ahead⟩
  | pin slot frame hand found clears =>
      exact agrees.pin frame hand found clears
  | put slot pin holds hand found now clears =>
      refine agrees.put holds (fun other slot' read own => ?_) hand found now
        clears
      obtain ⟨taken, at_, same, _⟩ := agrees.found own
      obtain ⟨taken', at_', same', _⟩ := agrees.found read
      rw [at_] at at_'
      cases at_'
      exact alone.unique (works_of_found read)
        (works_of_found (same'.symm.trans same ▸ own))
  | insert slot pin holds hand found clears =>
      exact agrees.insert holds hand found clears
  | remove gone pte empty pins att hand found clears =>
      have stays (slot : Slot) (pin : Nat)
          (present : next.pte slot = some pin) : ¬ gone slot := fun removed =>
        by simp [empty slot removed] at present
      refine agrees.quiet pins (fun _ => att ▸ id) ?_ (.inl hand) ?_ ?_
      · intro slot pin present
        rw [← pte slot (stays slot pin present)]
        exact present
      · intro slot pin read
        simp [found] at read
      · intro slot pin present working
        rcases clears slot working with removed | still
        · exact (stays slot pin present removed).elim
        · exact .inl still

/-- The runs of any number of threads, all idle at first. -/
abbrev Runs (pages : Nat → Nat)
    (allowed : Threads ι Shared Place → ι × Choice → Prop)
    (events : List (Event (Threads ι Shared Place) (ι × Choice) Unit))
    (s : Threads ι Shared Place) : Prop :=
  Run (Threads.step fun _ : ι => act pages) (.still {} .idle) allowed events s

variable {events : List (Event (Threads ι Shared Place) (ι × Choice) Unit)}
    {allowed : Threads ι Shared Place → ι × Choice → Prop}

instance (att : Nat) : (place : Place) → Decidable (place.works att)
  | .unpin task _ | .put task _ _ | .zap task _ | .detachUnlink task
  | .munmap task => inferInstanceAs (Decidable (task.att = att))
  | .idle | .faultTest _ | .faultPin _ | .faultFlag _ _ | .faultUpRead _ _
  | .faultLook _ _ | .faultInsert _ _ | .faultUnlock _ | .detachMark _
  | .detachOwner _ | .clearTest _ | .clearFlag _ | .clearUnlock _ =>
      inferInstanceAs (Decidable False)

instance [Fintype ι] (s : Threads ι Shared Place) (move : ι × Choice) :
    Decidable (Separate s move) :=
  inferInstanceAs (Decidable (∀ task ∈ (s.thread move.1).testing,
    (s.shared.att task.att).left = false ∧
      ∀ name, ¬ (s.thread name).works task.att))

end Runs

end Xpmem.Concurrent.Paging
