import Xpmem.Concurrent.Paging

/-!
# The flag `XPMEM_FLAG_VALIDPTEs`

`xpmem_clear_PTEs_of_ap` skips an attachment without the flag.  A fault sets
it under `att->mutex`, and a clear of the whole attachment resets it: from a
recall or a removal under `att->mutex`, but from the MMU notifier under
`att->invalidate_mutex` only.  So the flag tells of every PTE as long as no
clear of the whole attachment by the notifier takes PTEs away and resets the
flag while a fault is between setting the flag and inserting its PTE.
-/

namespace Xpmem.Concurrent.Paging

open Foundation

universe u

variable {pages : Nat → Nat} {s next : Shared} {place place' : Place}
    {choice : Choice}

/-! ## What a step does to the flag and the PTEs -/

/-- The range is the whole attachment. -/
def Task.whole (pages : Nat → Nat) (task : Task) : Prop :=
  task.first = 0 ∧ task.last = pages task.att

instance (task : Task) : Decidable (task.whole pages) := by
  unfold Task.whole
  infer_instance

/-- The fault is between setting the flag and inserting its PTE. -/
def Place.inserts (att : Nat) : Place → Prop
  | .faultUpRead slot _ | .faultLook slot _ | .faultInsert slot _ =>
      slot.att = att
  | _ => False

/--
The notifier takes away the PTEs of the whole attachment, and is yet to reset
the flag.
-/
def Place.wipes (pages : Nat → Nat) (att : Nat) : Place → Prop
  | .zap task _ | .clearFlag task =>
      task.att = att ∧ task.clearer = .notifier ∧ task.whole pages
  | _ => False

/-- The clear of a whole attachment has taken away the PTE of the page. -/
def Place.wiped (pages : Nat → Nat) (slot : Slot) : Place → Prop
  | .zap task page =>
      task.att = slot.att ∧ task.whole pages ∧ slot.page < page
  | .clearFlag task =>
      task.att = slot.att ∧ task.whole pages ∧ slot.page < pages slot.att
  | _ => False

/-- Faults stay in the attachment. -/
def Place.within (pages : Nat → Nat) : Place → Prop
  | .faultPin slot | .faultFlag slot _ | .faultUpRead slot _
  | .faultLook slot _ | .faultInsert slot _ => slot.page < pages slot.att
  | .detachMark _ | .detachOwner _ | .detachUnlink _ | .munmap _ => False
  | .clearTest task | .unpin task _ | .put task _ _ | .zap task _
  | .clearFlag task | .clearUnlock task => ∀ e, task.clearer ≠ .detach e
  | _ => True

/-- No attachment is detached. -/
def Choice.keeps : Choice → Prop
  | .clear task => ∀ exiting, task.clearer ≠ .detach exiting
  | .exitMmap _ => False
  | _ => True

theorem within_act (moved : act pages s place choice = some (next, place'))
    (within : place.within pages) (keeps : choice.keeps) :
    place'.within pages := by
  revert moved
  fun_cases act pages s place choice <;> intro moved <;>
    simp only [Option.some.injEq, Prod.mk.injEq, reduceCtorEq] at moved <;>
    obtain ⟨rfl, rfl⟩ := moved <;>
    simp_all [Place.within, Choice.keeps]

theorem inserts_act (moved : act pages s place choice = some (next, place'))
    {att : Nat} (inserts : place'.inserts att) :
    place.inserts att ∨
      ∃ slot pin, place = .faultFlag slot pin ∧ slot.att = att := by
  revert moved
  fun_cases act pages s place choice <;> intro moved <;>
    simp only [Option.some.injEq, Prod.mk.injEq, reduceCtorEq] at moved <;>
    obtain ⟨rfl, rfl⟩ := moved <;>
    simp_all [Place.inserts]

theorem wipes_act (moved : act pages s place choice = some (next, place'))
    {att : Nat} (wipes : place'.wipes pages att) :
    place.wipes pages att ∨
      ∃ task page, place = .unpin task page ∧ task.att = att ∧
        task.last ≤ page ∧ task.clearer = .notifier ∧ task.whole pages := by
  revert moved
  fun_cases act pages s place choice <;> intro moved <;>
    simp only [Option.some.injEq, Prod.mk.injEq, reduceCtorEq] at moved <;>
    obtain ⟨rfl, rfl⟩ := moved <;>
    simp_all [Place.wipes]

theorem wiped_act (moved : act pages s place choice = some (next, place'))
    {slot : Slot} (wiped : place'.wiped pages slot) :
    next.pte slot = none ∨
      (place.wiped pages slot ∧ next.pte slot = s.pte slot) := by
  revert moved
  fun_cases act pages s place choice <;> intro moved <;>
    simp only [Option.some.injEq, Prod.mk.injEq, reduceCtorEq] at moved <;>
    obtain ⟨rfl, rfl⟩ := moved <;>
    simp only [Place.wiped, Task.whole, Function.update_apply] at wiped ⊢ <;>
    grind [cases Slot]

theorem pte_act (moved : act pages s place choice = some (next, place'))
    {slot : Slot} (present : next.pte slot ≠ none) :
    s.pte slot ≠ none ∨ ∃ pin, place = .faultInsert slot pin := by
  revert moved
  fun_cases act pages s place choice <;> intro moved <;>
    simp only [Option.some.injEq, Prod.mk.injEq, reduceCtorEq] at moved <;>
    obtain ⟨rfl, rfl⟩ := moved
  case case13 inserted pin _ _ =>
    by_cases equal : slot = inserted
    · exact .inr ⟨pin, equal ▸ rfl⟩
    · exact .inl (by simpa [Function.update_of_ne equal] using present)
  all_goals
    first
    | exact .inl present
    | grind [Function.update_apply, Shared.unmap]

theorem pte_eq_none_of_act
    (moved : act pages s place choice = some (next, place'))
    {slot : Slot} (absent : s.pte slot = none)
    (quiet : ¬ place.inserts slot.att) : next.pte slot = none := by
  by_contra present
  rcases pte_act moved present with before | ⟨pin, rfl⟩
  · exact before absent
  · exact quiet rfl

theorem validPTEs_act
    (moved : act pages s place choice = some (next, place'))
    (within : place.within pages) (att : Nat) :
    (next.att att).validPTEs = (s.att att).validPTEs ∨
      (next.att att).validPTEs = true ∨
      ∃ task, place = .clearFlag task ∧ task.att = att ∧
        task.whole pages := by
  revert moved
  fun_cases act pages s place choice <;> intro moved <;>
    simp only [Option.some.injEq, Prod.mk.injEq, reduceCtorEq] at moved <;>
    obtain ⟨rfl, rfl⟩ := moved <;>
    simp only [Shared.att_modAtt, Shared.modPin, Shared.unmap,
      Attachment.unlock, Task.whole, Place.within] at within ⊢ <;>
    grind

theorem validPTEs_faultFlag {slot : Slot} {pin : Nat}
    (moved : act pages s (.faultFlag slot pin) choice =
      some (next, place')) :
    (next.att slot.att).validPTEs = true := by
  cases choice <;> simp only [act, reduceCtorEq, Option.some.injEq,
    Prod.mk.injEq] at moved
  rw [← moved.1, Shared.att_modAtt, if_pos rfl]

theorem locks_of_inserts {att : Nat} (inserts : place.inserts att) :
    place.locks att := by
  cases place <;> simp_all [Place.inserts, Place.locks]

theorem wipes_or_locks_of_wiped {slot : Slot}
    (wiped : place.wiped pages slot) :
    place.wipes pages slot.att ∨ place.locks slot.att := by
  cases place <;> simp only [Place.wiped] at wiped <;>
    simp_all [Place.wipes, Place.locks] <;> tauto

/-! ## What a run keeps of the flag -/

section Runs

variable {ι : Type u}

/--
No attachment is detached, and no fault is between setting the flag and
inserting its PTE while the notifier clears the whole attachment, from its
first `zap` to its reset of the flag.
-/
def Apart (pages : Nat → Nat) (s : Threads ι Shared Place)
    (move : ι × Choice) : Prop :=
  move.2.keeps ∧
    match s.thread move.1 with
    | .faultFlag slot _ => ∀ name, ¬ (s.thread name).wipes pages slot.att
    | .unpin task page =>
        task.last ≤ page → task.clearer = .notifier → task.whole pages →
          ∀ name, ¬ (s.thread name).inserts task.att
    | _ => True

/-- What such runs keep. -/
structure Flagged (pages : Nat → Nat) (s : Shared) (thread : ι → Place) :
    Prop where
  within (name : ι) : (thread name).within pages
  mutex (att : Nat) :
    Threads.Exclusive (s.att att).mutex (Place.locks att) thread
  inside {slot : Slot} (present : s.pte slot ≠ none) :
    slot.page < pages slot.att
  apart {name other : ι} {att : Nat} (inserts : (thread name).inserts att) :
    ¬ (thread other).wipes pages att
  wiped {name : ι} {slot : Slot} (wiped : (thread name).wiped pages slot) :
    s.pte slot = none
  flag {att : Nat} (off : (s.att att).validPTEs = false) :
    (∀ name, ¬ (thread name).inserts att) ∧
      ∀ slot, slot.att = att → s.pte slot = none

variable {thread : ι → Place} {name : ι}

namespace Flagged

/-- While a whole clear goes on no fault inserts a PTE. -/
theorem not_inserts (flagged : Flagged pages s thread) {other : ι}
    {att : Nat}
    (clears : (thread name).wipes pages att ∨ (thread name).locks att)
    (differs : other ≠ name) : ¬ (thread other).inserts att := by
  intro inserts
  rcases clears with wipes | locks
  · exact flagged.apart inserts wipes
  · exact differs
      ((flagged.mutex att).unique (locks_of_inserts inserts) locks)

variable [DecidableEq ι]

theorem act_apart (flagged : Flagged pages s thread)
    (permitted : Apart pages ⟨s, thread⟩ (name, choice))
    (moved : act pages s (thread name) choice = some (next, place))
    {first second : ι} {att : Nat}
    (inserts : (Function.update thread name place first).inserts att) :
    ¬ (Function.update thread name place second).wipes pages att := by
  intro wipes
  have rule := permitted.2
  by_cases one : first = name <;> by_cases two : second = name
  · rw [one, Function.update_self] at inserts
    rw [two, Function.update_self] at wipes
    cases place <;> simp [Place.inserts, Place.wipes] at inserts wipes
  · rw [one, Function.update_self] at inserts
    rw [Function.update_of_ne two] at wipes
    rcases inserts_act moved inserts with before | ⟨slot, pin, here, rfl⟩
    · exact flagged.apart before wipes
    · simp only [here] at rule
      exact rule second wipes
  · rw [Function.update_of_ne one] at inserts
    rw [two, Function.update_self] at wipes
    rcases wipes_act moved wipes with
      before | ⟨task, page, here, rfl, done, notifier, whole⟩
    · exact flagged.apart inserts before
    · simp only [here] at rule
      exact rule done notifier whole first inserts
  · rw [Function.update_of_ne one] at inserts
    rw [Function.update_of_ne two] at wipes
    exact flagged.apart inserts wipes

theorem act_wiped (flagged : Flagged pages s thread)
    (moved : act pages s (thread name) choice = some (next, place))
    {other : ι} {slot : Slot}
    (wiped : (Function.update thread name place other).wiped pages slot) :
    next.pte slot = none := by
  by_cases equal : other = name
  · rw [equal, Function.update_self] at wiped
    rcases wiped_act moved wiped with gone | ⟨before, same⟩
    · exact gone
    · exact same.trans (flagged.wiped before)
  · rw [Function.update_of_ne equal] at wiped
    exact pte_eq_none_of_act moved (flagged.wiped wiped)
      (flagged.not_inserts (wipes_or_locks_of_wiped wiped) (Ne.symm equal))

theorem act_flag (flagged : Flagged pages s thread)
    (moved : act pages s (thread name) choice = some (next, place))
    {att : Nat} (off : (next.att att).validPTEs = false) :
    (∀ other, ¬ (Function.update thread name place other).inserts att) ∧
      ∀ slot, slot.att = att → next.pte slot = none := by
  -- a thread that inserts after the step did so before
  have before (other : ι)
      (inserts : (Function.update thread name place other).inserts att) :
      (thread other).inserts att := by
    by_cases equal : other = name
    · rw [equal, Function.update_self] at inserts
      rcases inserts_act moved inserts with before | ⟨slot, pin, here, rfl⟩
      · rwa [equal]
      · rw [here] at moved
        rw [validPTEs_faultFlag moved] at off
        cases off
    · rwa [Function.update_of_ne equal] at inserts
  rcases validPTEs_act moved (flagged.within name) att with
    same | on | ⟨task, here, rfl, whole⟩
  · obtain ⟨quiet, absent⟩ := flagged.flag (same ▸ off)
    refine ⟨fun other inserts => quiet other (before other inserts), ?_⟩
    rintro slot rfl
    exact pte_eq_none_of_act moved (absent slot rfl) (quiet name)
  · rw [on] at off
    cases off
  · have wiped (slot : Slot) (same : slot.att = task.att)
        (inside : slot.page < pages slot.att) :
        (thread name).wiped pages slot := by
      rw [here]
      exact ⟨same.symm, whole, inside⟩
    have idle : ¬ (thread name).inserts task.att := by
      rw [here]
      exact id
    have clears : (thread name).wipes pages task.att ∨
        (thread name).locks task.att := by
      rw [here]
      by_cases notifier : task.clearer = .notifier
      · exact .inl ⟨rfl, notifier, whole⟩
      · exact .inr ⟨rfl, notifier⟩
    refine ⟨fun other inserts => ?_, fun slot same => ?_⟩
    · have inserting := before other inserts
      refine flagged.not_inserts clears ?_ inserting
      rintro rfl
      exact idle inserting
    · refine pte_eq_none_of_act moved ?_ (same ▸ idle)
      by_contra present
      exact present (flagged.wiped (wiped slot same (flagged.inside present)))

theorem act (flagged : Flagged pages s thread)
    (permitted : Apart pages ⟨s, thread⟩ (name, choice))
    (moved : act pages s (thread name) choice = some (next, place)) :
    Flagged pages next (Function.update thread name place) where
  within other := by
    by_cases equal : other = name
    · rw [equal, Function.update_self]
      exact within_act moved (flagged.within name) permitted.1
    · rw [Function.update_of_ne equal]
      exact flagged.within other
  mutex att := (flagged.mutex att).update (mutex_act moved att)
  inside present := by
    rcases pte_act moved present with before | ⟨pin, here⟩
    · exact flagged.inside before
    · have within := flagged.within name
      rwa [here] at within
  apart inserts := flagged.act_apart permitted moved inserts
  wiped wiped := flagged.act_wiped moved wiped
  flag off := flagged.act_flag moved off

end Flagged

theorem flagged_still :
    Flagged pages {} fun _ : ι => Place.idle where
  within _ := trivial
  mutex _ := ⟨nofun, nofun⟩
  inside present := (present rfl).elim
  apart := nofun
  wiped := nofun
  flag _ := ⟨fun _ => id, fun _ _ => rfl⟩

variable [DecidableEq ι]
    {events : List (Event (Threads ι Shared Place) (ι × Choice) Unit)}

/-- An attachment that has a PTE present is flagged. -/
theorem validPTEs_of_present {s : Threads ι Shared Place}
    (run : Runs pages (Apart pages) events s) {slot : Slot}
    (present : s.shared.pte slot ≠ none) :
    (s.shared.att slot.att).validPTEs = true := by
  have flagged : Flagged pages s.shared s.thread :=
    Threads.invariant (Flagged pages) run flagged_still
      fun _ _ _ _ _ _ flagged permitted moved =>
        flagged.act permitted moved
  by_contra off
  exact present ((flagged.flag (Bool.eq_false_iff.mpr off)).2 slot rfl)

instance (att : Nat) : Decidable (place.inserts att) := by
  unfold Place.inserts
  split <;> infer_instance

instance (att : Nat) : Decidable (place.wipes pages att) := by
  unfold Place.wipes
  split <;> infer_instance

instance : Decidable choice.keeps := by
  unfold Choice.keeps
  split <;> infer_instance

instance [Fintype ι] (s : Threads ι Shared Place) (move : ι × Choice) :
    Decidable (Apart pages s move) := by
  unfold Apart
  refine @instDecidableAnd _ _ _ ?_
  split <;> infer_instance

/-- The notifier clears one of two pages beside a fault on the other. -/
theorem validPTEs_of_notified :
    ∃ events s, Runs (ι := Fin 2) (fun _ => 2) (Apart fun _ => 2) events s ∧
      s.shared.pte ⟨0, 0⟩ ≠ none ∧ s.thread 1 = .idle ∧
      (s.shared.att 0).validPTEs = true := by
  obtain ⟨events, s, run, present, done⟩ := exists_run
    (Threads.step fun _ : Fin 2 => act fun _ => 2) (.still {} .idle)
    (Apart fun _ => 2)
    [(0, .fault ⟨0, 0⟩), (0, .go true), (0, .page 7), (0, .go true),
      (1, .clear ⟨.notifier, 0, 1, 2⟩), (1, .go true), (1, .go true),
      (1, .go true), (1, .go true), (0, .go true), (0, .go true),
      (0, .go true), (1, .go true), (1, .go true), (1, .go true)]
    (fun _ s => s.shared.pte ⟨0, 0⟩ ≠ none ∧ s.thread 1 = .idle)
    (by decide)
  exact ⟨events, s, run, present, done, validPTEs_of_present run present⟩

/--
The notifier clears the whole attachment between the two steps of a fault,
which then leaves a PTE without the flag.
-/
theorem unflagged_of_notified :
    ∃ events s,
      Runs (ι := Fin 2) (fun _ => 1) (fun _ move => move.2.keeps) events s ∧
      s.shared.pte ⟨0, 0⟩ ≠ none ∧ (s.shared.att 0).validPTEs = false ∧
      ∀ name, ¬ (s.thread name).inserts 0 := by
  exact exists_run
    (Threads.step fun _ : Fin 2 => act fun _ => 1) (.still {} .idle)
    (fun _ move => move.2.keeps)
    [(0, .fault ⟨0, 0⟩), (0, .go true), (0, .page 7), (0, .go true),
      (1, .clear ⟨.notifier, 0, 0, 1⟩), (1, .go true), (1, .go true),
      (1, .go true), (1, .go true), (1, .go true), (1, .go true),
      (1, .go true), (0, .go true), (0, .go true), (0, .go true),
      (0, .go true)]
    (fun _ s => s.shared.pte ⟨0, 0⟩ ≠ none ∧
      (s.shared.att 0).validPTEs = false ∧
      ∀ name, ¬ (s.thread name).inserts 0)
    (by decide)

end Runs

end Xpmem.Concurrent.Paging
