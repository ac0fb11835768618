import Xpmem.Foundation.Threads
import Xpmem.Kernel.Platform

/-!
# Destroying a permit and a segment

Threads of one process run `xpmem_attach`, `xpmem_detach` and
`xpmem_release` on one access permit, and `xpmem_remove` on one segment.  The
steps are the critical sections of `ap->lock`, `seg->lock` and the
`att->mutex`es.  `xpmem_attach` creates the attachments, numbered in the
order in which they are made.
-/

namespace Xpmem.Concurrent.Destroying

open Foundation Kernel

universe u

/-- The range of the segment. -/
structure Segment where
  vaddr : Nat := 0
  size : Nat := 0

/-- A PTE present in an attachment of the segment. -/
structure Pte where
  /-- Where in the segment the attachment starts, and its size. -/
  offset : Nat
  atSize : Nat
  /-- Where in the attachment the PTE is. -/
  addr : Nat
deriving DecidableEq

/-- `xpmem_clear_PTEs` clears the PTE when it comes to its attachment. -/
def Segment.clears (seg : Segment) (pte : Pte) : Bool :=
  let vaddr := u64 (seg.vaddr + pte.offset)
  let attVaddrEnd := u64 (vaddr + pte.atSize)
  let invalidateStart := max seg.vaddr vaddr
  let invalidateEnd := min (u64 (seg.vaddr + seg.size)) attVaddrEnd
  !(attVaddrEnd ≤ invalidateStart ∨ invalidateEnd ≤ vaddr) &&
    invalidateStart ≤ vaddr + pte.addr && vaddr + pte.addr < invalidateEnd

/-- The segment does not wrap, and its attachments lie inside. -/
structure Segment.Holds (seg : Segment) (present : List Pte) : Prop where
  fits : seg.vaddr + seg.size < 2 ^ 64
  inside {pte : Pte} (member : pte ∈ present) :
    pte.offset + pte.atSize ≤ seg.size ∧ pte.addr < pte.atSize

theorem Segment.Holds.clears {seg : Segment} {present : List Pte}
    (holds : seg.Holds present) {pte : Pte} (member : pte ∈ present) :
    seg.clears pte = true := by
  have fits := holds.fits
  have inside := holds.inside member
  have start : u64 (seg.vaddr + pte.offset) = seg.vaddr + pte.offset :=
    u64_of_lt (by omega)
  have stop : u64 (seg.vaddr + pte.offset + pte.atSize) =
      seg.vaddr + pte.offset + pte.atSize := u64_of_lt (by omega)
  simp only [Segment.clears, start, stop, u64_of_lt fits, Bool.and_eq_true,
    Bool.not_eq_true', decide_eq_false_iff_not, decide_eq_true_iff]
  omega

/-- An attachment of the permit. -/
structure Attachment where
  mutex : Bool := false
  destroying : Bool := false
  /-- Its area refers to it. -/
  mapped : Bool := false
  /-- Its `xpmem_attach` returns zero. -/
  attached : Bool := false
  /-- How often it was detached. -/
  detached : Nat := 0

/-- What the threads share. -/
structure Shared where
  /-- `XPMEM_FLAG_DESTROYING` and `XPMEM_FLAG_DESTROYED` of the permit. -/
  apDestroying : Bool := false
  apDestroyed : Bool := false
  /-- `ap->att_list`. -/
  attList : List Nat := []
  /-- The attachments made so far are those below. -/
  made : Nat := 0
  att : Nat → Attachment := fun _ => {}
  /-- `XPMEM_FLAG_DESTROYING` and `XPMEM_FLAG_DESTROYED` of the segment. -/
  segDestroying : Bool := false
  segDestroyed : Bool := false
  sema : Bool := false
  seg : Segment := {}
  /-- The PTEs present in the attachments of the segment. -/
  present : List Pte := []

/-- Where a thread is. -/
inductive Place where
  | idle
  -- `xpmem_attach` with the mutex of its attachment: before it is linked,
  -- linked, after an error, and before the mutex is unlocked
  | attachLink (att : Nat)
  | attachMap (att : Nat)
  | attachFail (att : Nat) (noent : Bool)
  | attachUnlock (att : Nat)
  -- `xpmem_detach`, and `xpmem_detach_att` in a release
  | detachLock (att : Nat) (release : Bool)
  | detachTest (att : Nat) (release : Bool)
  | detachOwner (att : Nat)
  | detachUnlink (att : Nat) (release : Bool)
  | detachUnlock (att : Nat) (release : Bool)
  -- `xpmem_release_ap`, and the return of `xpmem_release` with zero
  | releaseTest
  | releaseLoop
  | released
  -- `xpmem_remove_seg`, and the return of `xpmem_remove` with zero
  | removeTest
  | removeDown
  -- `xpmem_clear_PTEs`, which has left so many of the PTEs
  | removeClear (left : Nat)
  | removeUp
  | removed
deriving DecidableEq

/-- What a thread does next, where its place leaves that open. -/
inductive Choice where
  | attach
  | detach (att : Nat)
  /-- `xpmem_release`, which looks the permit up. -/
  | release
  /-- `xpmem_release_aps_of_tg`, which takes it from its list. -/
  | releaseAps
  | remove
  /-- Goes on; `yes` when a call succeeds that can fail. -/
  | go (yes : Bool)
deriving DecidableEq

namespace Shared

/-- Changes an attachment. -/
def modAtt (s : Shared) (att : Nat) (change : Attachment → Attachment) :
    Shared :=
  { s with att := Function.update s.att att (change (s.att att)) }

/-- Counts one more attachment. -/
def make (s : Shared) : Shared :=
  { s with made := s.made + 1 }

/-- Links an attachment to the permit. -/
def link (s : Shared) (att : Nat) : Shared :=
  { s with attList := s.attList ++ [att] }

/-- Unlinks an attachment. -/
def unlink (s : Shared) (att : Nat) : Shared :=
  { s with attList := s.attList.erase att }

variable {s : Shared} {att : Nat} {change : Attachment → Attachment}

theorem att_modAtt (other : Nat) :
    (s.modAtt att change).att other =
      if other = att then change (s.att att) else s.att other := by
  unfold modAtt
  exact Function.update_apply ..

@[simp]
theorem attList_modAtt : (s.modAtt att change).attList = s.attList := rfl

@[simp]
theorem att_make : s.make.att = s.att := rfl

@[simp]
theorem attList_make : s.make.attList = s.attList := rfl

@[simp]
theorem att_link : (s.link att).att = s.att := rfl

@[simp]
theorem attList_link : (s.link att).attList = s.attList ++ [att] := rfl

@[simp]
theorem att_unlink : (s.unlink att).att = s.att := rfl

@[simp]
theorem attList_unlink : (s.unlink att).attList = s.attList.erase att := rfl

@[simp]
theorem made_modAtt : (s.modAtt att change).made = s.made := rfl

@[simp]
theorem made_make : s.make.made = s.made + 1 := rfl

@[simp]
theorem made_link : (s.link att).made = s.made := rfl

@[simp]
theorem made_unlink : (s.unlink att).made = s.made := rfl

end Shared

/-- The loop of `xpmem_release_ap`, with `ap->lock` held. -/
def releaseLoop (s : Shared) : Shared × Place :=
  match s.attList with
  | [] => ({ s with apDestroyed := true }, .released)
  | att :: _ => (s, .detachLock att true)

/-- One step of a thread. -/
def act (s : Shared) : Place → Choice → Option (Shared × Place)
  | .idle, .attach =>
      some ((s.modAtt s.made ({ · with mutex := true })).make,
        .attachLink s.made)
  | .attachLink att, .go _ =>
      if s.apDestroying then some (s.link att, .attachFail att true)
      else some (s.link att, .attachMap att)
  | .attachMap att, .go mapped =>
      if mapped then
        some (s.modAtt att ({ · with mapped := true, attached := true }),
          .attachUnlock att)
      else some (s, .attachFail att false)
  | .attachFail att _, .go _ =>
      some ((s.modAtt att ({ · with destroying := true })).unlink att,
        .attachUnlock att)
  | .attachUnlock att, .go _ =>
      some (s.modAtt att ({ · with mutex := false }), .idle)
  | .idle, .detach att =>
      if (s.att att).mapped then some (s, .detachLock att false) else none
  | .detachLock att release, .go locked =>
      -- `xpmem_detach` can be interrupted
      if !locked && !release then some (s, .idle)
      else if (s.att att).mutex then none
      else some (s.modAtt att ({ · with mutex := true }),
        .detachTest att release)
  | .detachTest att release, .go _ =>
      if (s.att att).destroying then some (s, .detachUnlock att release)
      else some (s.modAtt att ({ · with destroying := true }),
        if release then .detachUnlink att true else .detachOwner att)
  | .detachOwner att, .go own =>
      if own then some (s, .detachUnlink att false)
      else some (s.modAtt att ({ · with destroying := false }),
        .detachUnlock att false)
  | .detachUnlink att release, .go _ =>
      some ((s.modAtt att fun old => { old with
        mapped := false, detached := old.detached + 1 }).unlink att,
        .detachUnlock att release)
  | .detachUnlock att release, .go _ =>
      some (s.modAtt att ({ · with mutex := false }),
        if release then .releaseLoop else .idle)
  | .idle, .release =>
      if s.apDestroying then some (s, .idle) else some (s, .releaseTest)
  | .idle, .releaseAps => some (s, .releaseTest)
  | .releaseTest, .go _ =>
      if s.apDestroying then some (s, .released)
      else some (releaseLoop { s with apDestroying := true })
  | .releaseLoop, .go _ => some (releaseLoop s)
  | .released, .go _ => some (s, .idle)
  | .idle, .remove =>
      if s.segDestroying then some (s, .idle) else some (s, .removeTest)
  | .removeTest, .go _ =>
      if s.segDestroying then some (s, .removed)
      else some ({ s with segDestroying := true }, .removeDown)
  | .removeDown, .go _ =>
      if s.sema then none else some ({ s with sema := true }, .removeClear 0)
  | .removeClear left, .go _ =>
      match s.present[left]? with
      | none => some ({ s with segDestroyed := true }, .removeUp)
      | some pte =>
          if s.seg.clears pte then
            some ({ s with present := s.present.eraseIdx left },
              .removeClear left)
          else some (s, .removeClear (left + 1))
  | .removeUp, .go _ => some ({ s with sema := false }, .removed)
  | .removed, .go _ => some (s, .idle)
  | _, _ => none

/-! ## What a step does to one attachment -/

/-- The thread holds the mutex of the attachment. -/
def Place.owns (att : Nat) : Place → Prop
  | .attachLink other | .attachMap other | .attachFail other _
  | .attachUnlock other | .detachTest other _ | .detachOwner other
  | .detachUnlink other _ | .detachUnlock other _ => other = att
  | _ => False

/-- The thread is about to lock the mutex of the attachment. -/
def Place.wants (att : Nat) : Place → Prop
  | .detachLock other _ => other = att
  | _ => False

/--
Nobody is at work on the attachment: it is attached and linked, or it is
destroyed and unlinked, and was detached if it was ever attached.
-/
def Settled (att : Attachment) (linked : Prop) : Prop :=
  (att.destroying = false ∧ linked ∧ att.attached = true ∧
      att.detached = 0) ∨
    (att.destroying = true ∧ ¬ linked ∧
      att.detached = if att.attached then 1 else 0)

/-- What holds of the attachment while a thread is at work on it. -/
def Place.expects (att : Attachment) (linked : Prop) : Place → Prop
  | .attachLink _ =>
      ¬ linked ∧ att.destroying = false ∧ att.attached = false ∧
        att.detached = 0
  | .attachMap _ | .attachFail _ _ =>
      linked ∧ att.destroying = false ∧ att.attached = false ∧
        att.detached = 0
  | .detachOwner _ | .detachUnlink _ _ =>
      linked ∧ att.destroying = true ∧ att.attached = true ∧
        att.detached = 0
  | .attachUnlock _ | .detachTest _ _ | .detachUnlock _ _ =>
      Settled att linked
  | _ => True

variable {s next : Shared} {place place' : Place} {choice : Choice}

theorem mutex_act (moved : act s place choice = some (next, place'))
    (att : Nat) (fresh : (s.att s.made).mutex = false) :
    Threads.LockStep (s.att att).mutex (place.owns att)
      (next.att att).mutex (place'.owns att) := by
  rw [Threads.lockStep_iff]
  revert moved
  fun_cases act s place choice <;> intro moved <;>
    (try unfold releaseLoop at moved; split at moved) <;>
    simp only [Option.some.injEq, Prod.mk.injEq, reduceCtorEq] at moved <;>
    obtain ⟨rfl, rfl⟩ := moved <;>
    simp only [Place.owns, Shared.att_modAtt, Shared.att_make,
      Shared.att_link, Shared.att_unlink] <;>
    grind

/-- The thread is in the loop of `xpmem_release_ap`. -/
def Place.releasing : Place → Prop
  | .detachLock _ release | .detachTest _ release
  | .detachUnlink _ release | .detachUnlock _ release => release = true
  | .releaseLoop => True
  | _ => False

variable {ι : Type u}

/-- What holds of the permit and its attachments. -/
structure Sound (s : Shared) (thread : ι → Place) : Prop where
  fresh (att : Nat) (new : s.made ≤ att) :
    s.att att = {} ∧ att ∉ s.attList
  known (name : ι) (att : Nat)
    (knows : (thread name).owns att ∨ (thread name).wants att) :
    att < s.made
  mutex (att : Nat) :
    Threads.Exclusive (s.att att).mutex (Place.owns att) thread
  nodup : s.attList.Nodup
  busy (name : ι) (att : Nat) (own : (thread name).owns att) :
    (thread name).expects (s.att att) (att ∈ s.attList)
  rest (att : Nat) (made : att < s.made)
    (idle : ∀ name, ¬ (thread name).owns att) :
    Settled (s.att att) (att ∈ s.attList)
  releasing (name : ι) (inside : (thread name).releasing) :
    s.apDestroying = true
  flags : s.apDestroyed = true → s.apDestroying = true
  noent (destroyed : s.apDestroyed = true) (att : Nat)
    (linked : att ∈ s.attList) :
    ∃ name, thread name = .attachFail att true

/-- A step changes only the attachment whose mutex the thread holds. -/
theorem frame_act (moved : act s place choice = some (next, place'))
    {att : Nat} (before : ¬ place.owns att) (after : ¬ place'.owns att) :
    next.att att = s.att att ∧
      (att ∈ next.attList ↔ att ∈ s.attList) := by
  revert moved
  fun_cases act s place choice <;> intro moved <;>
    (try unfold releaseLoop at moved; split at moved) <;>
    simp only [Option.some.injEq, Prod.mk.injEq, reduceCtorEq] at moved <;>
    obtain ⟨rfl, rfl⟩ := moved <;>
    simp only [Place.owns, Shared.att_modAtt, Shared.att_make,
      Shared.att_link, Shared.att_unlink, Shared.attList_modAtt,
      Shared.attList_make, Shared.attList_link, Shared.attList_unlink]
      at before after ⊢ <;>
    grind

/-- A mutex is taken of a new attachment, or of one that is at rest. -/
theorem expects_of_owns (moved : act s place choice = some (next, place'))
    {att : Nat} (before : ¬ place.owns att) (after : place'.owns att)
    (fresh : s.att s.made = {} ∧ s.made ∉ s.attList)
    (settled : place.wants att → (s.att att).mutex = false →
      Settled (s.att att) (att ∈ s.attList)) :
    place'.expects (next.att att) (att ∈ next.attList) := by
  revert moved
  fun_cases act s place choice <;> intro moved <;>
    (try unfold releaseLoop at moved; split at moved) <;>
    simp only [Option.some.injEq, Prod.mk.injEq, reduceCtorEq] at moved <;>
    obtain ⟨rfl, rfl⟩ := moved <;>
    simp only [Place.owns, Place.expects, Settled, Shared.att_modAtt,
      Shared.att_make, Shared.att_link, Shared.att_unlink,
      Shared.attList_modAtt, Shared.attList_make, Shared.attList_link,
      Shared.attList_unlink, Place.wants] at before after settled ⊢ <;>
    grind

/-- What the thread that holds the mutex leaves. -/
theorem expects_act (moved : act s place choice = some (next, place'))
    {att : Nat} (own : place.owns att) (nodup : s.attList.Nodup)
    (expects : place.expects (s.att att) (att ∈ s.attList)) :
    (place'.owns att →
        place'.expects (next.att att) (att ∈ next.attList)) ∧
      (¬ place'.owns att → Settled (next.att att) (att ∈ next.attList)) := by
  revert moved
  fun_cases act s place choice <;> intro moved <;>
    (try unfold releaseLoop at moved; split at moved) <;>
    simp only [Option.some.injEq, Prod.mk.injEq, reduceCtorEq] at moved <;>
    obtain ⟨rfl, rfl⟩ := moved <;>
    simp only [Place.owns, Place.expects, Settled, Shared.att_modAtt,
      Shared.att_link, Shared.att_unlink, Shared.attList_modAtt,
      Shared.attList_link, Shared.attList_unlink] at own expects ⊢ <;>
    grind

/-- Attachments above the count are new, and no thread knows them. -/
theorem fresh_act (moved : act s place choice = some (next, place'))
    (fresh : ∀ att, s.made ≤ att → s.att att = {} ∧ att ∉ s.attList)
    (known : ∀ att, place.owns att ∨ place.wants att → att < s.made) :
    (∀ att, next.made ≤ att → next.att att = {} ∧ att ∉ next.attList) ∧
      (∀ att, place'.owns att ∨ place'.wants att → att < next.made) ∧
      s.made ≤ next.made := by
  have linked (att : Nat) (rest : List Nat)
      (first : s.attList = att :: rest) : att < s.made := by
    by_contra new
    exact (fresh att (not_lt.mp new)).2 (first ▸ List.mem_cons_self)
  revert moved
  fun_cases act s place choice <;> intro moved <;>
    (try unfold releaseLoop at moved; split at moved) <;>
    simp only [Option.some.injEq, Prod.mk.injEq, reduceCtorEq] at moved <;>
    obtain ⟨rfl, rfl⟩ := moved <;>
    simp only [Place.owns, Place.wants, Shared.att_modAtt,
      Shared.att_make, Shared.att_link, Shared.att_unlink,
      Shared.attList_modAtt, Shared.attList_make, Shared.attList_link,
      Shared.attList_unlink, Shared.made_modAtt, Shared.made_make,
      Shared.made_link, Shared.made_unlink] at known ⊢ <;>
    grind

theorem made_of_not_owns (moved : act s place choice = some (next, place'))
    {att : Nat} (before : ¬ place.owns att) (after : ¬ place'.owns att)
    (made : att < next.made) : att < s.made := by
  revert moved
  fun_cases act s place choice <;> intro moved <;>
    (try unfold releaseLoop at moved; split at moved) <;>
    simp only [Option.some.injEq, Prod.mk.injEq, reduceCtorEq] at moved <;>
    obtain ⟨rfl, rfl⟩ := moved <;>
    first
    | exact made
    | simp only [Place.owns, Shared.made_make, Shared.made_modAtt]
        at after made
      omega

theorem nodup_act (moved : act s place choice = some (next, place'))
    (nodup : s.attList.Nodup)
    (expects : ∀ att, place.owns att →
      place.expects (s.att att) (att ∈ s.attList)) :
    next.attList.Nodup := by
  revert moved
  fun_cases act s place choice <;> intro moved <;>
    (try unfold releaseLoop at moved; split at moved) <;>
    simp only [Option.some.injEq, Prod.mk.injEq, reduceCtorEq] at moved <;>
    obtain ⟨rfl, rfl⟩ := moved <;>
    simp only [Place.owns, Place.expects, Shared.attList_modAtt,
      Shared.attList_make, Shared.attList_link, Shared.attList_unlink]
      at expects ⊢ <;>
    grind

theorem releasing_act (moved : act s place choice = some (next, place'))
    (releasing : place.releasing → s.apDestroying = true) :
    (place'.releasing → next.apDestroying = true) ∧
      (s.apDestroying = true → next.apDestroying = true) := by
  revert moved
  fun_cases act s place choice <;> intro moved <;>
    (try unfold releaseLoop at moved; split at moved) <;>
    simp only [Option.some.injEq, Prod.mk.injEq, reduceCtorEq] at moved <;>
    obtain ⟨rfl, rfl⟩ := moved <;>
    simp only [Place.releasing] at releasing ⊢ <;>
    grind [Shared.modAtt, Shared.make, Shared.link, Shared.unlink,
      Place.releasing]

/-- What is linked after the permit is destroyed is about to be unlinked. -/
theorem noent_act (moved : act s place choice = some (next, place'))
    (nodup : s.attList.Nodup)
    (releasing : place.releasing → s.apDestroying = true)
    (flags : s.apDestroyed = true → s.apDestroying = true) :
    (next.apDestroyed = true → next.apDestroying = true) ∧
      (next.apDestroyed = true → ∀ att ∈ next.attList,
        place' = .attachFail att true ∨
          s.apDestroyed = true ∧ att ∈ s.attList ∧
            place ≠ .attachFail att true) := by
  revert moved
  fun_cases act s place choice <;> intro moved <;>
    (try unfold releaseLoop at moved; split at moved) <;>
    simp only [Option.some.injEq, Prod.mk.injEq, reduceCtorEq] at moved <;>
    obtain ⟨rfl, rfl⟩ := moved <;>
    simp only [Place.releasing] at releasing <;>
    grind [Shared.modAtt, Shared.make, Shared.link, Shared.unlink,
      List.Nodup.mem_erase_iff]

/-! ## What a run keeps -/

section Runs

variable [DecidableEq ι] {thread : ι → Place} {name : ι}

/-- What the thread that moved and the others own after the step. -/
theorem Sound.busy_act (sound : Sound s thread)
    (moved : act s (thread name) choice = some (next, place))
    {other : ι} {att : Nat}
    (own : (Function.update thread name place other).owns att) :
    (Function.update thread name place other).expects (next.att att)
      (att ∈ next.attList) := by
  have exclusive := (sound.mutex att).update
    (mutex_act moved att (by rw [(sound.fresh s.made le_rfl).1]))
  by_cases equal : other = name
  · subst other
    rw [Function.update_self] at own ⊢
    by_cases before : (thread name).owns att
    · exact (expects_act moved before sound.nodup
        (sound.busy name att before)).1 own
    · refine expects_of_owns moved before own (sound.fresh s.made le_rfl) ?_
      intro wants free
      refine sound.rest att (sound.known name att (.inr wants)) ?_
      intro owner owns
      rw [(sound.mutex att).held_of_owns owns] at free
      cases free
  · -- the mover does not own the attachment, before or after
    have before : ¬ (thread name).owns att := fun also => by
      rw [Function.update_of_ne equal] at own
      exact equal ((sound.mutex att).unique own also)
    have after : ¬ place.owns att := fun also =>
      equal (exclusive.unique own (by rwa [Function.update_self]))
    obtain ⟨same, linked⟩ := frame_act moved before after
    rw [Function.update_of_ne equal] at own ⊢
    have expects := sound.busy other att own
    rw [same]
    rwa [← propext linked] at expects

theorem Sound.rest_act (sound : Sound s thread)
    (moved : act s (thread name) choice = some (next, place))
    {att : Nat} (made : att < next.made)
    (idle : ∀ other, ¬ (Function.update thread name place other).owns att) :
    Settled (next.att att) (att ∈ next.attList) := by
  have after : ¬ place.owns att := by
    simpa using idle name
  by_cases before : (thread name).owns att
  · exact (expects_act moved before sound.nodup
      (sound.busy name att before)).2 after
  · obtain ⟨same, linked⟩ := frame_act moved before after
    have others (other : ι) : ¬ (thread other).owns att := by
      by_cases equal : other = name
      · rwa [equal]
      · simpa [Function.update_of_ne equal] using idle other
    have old : att < s.made := made_of_not_owns moved before after made
    rw [same, propext linked]
    exact sound.rest att old others

theorem Sound.act (sound : Sound s thread)
    (moved : act s (thread name) choice = some (next, place)) :
    Sound next (Function.update thread name place) := by
  obtain ⟨fresh, known, more⟩ := fresh_act moved sound.fresh
    (sound.known name)
  obtain ⟨releasing, grows⟩ := releasing_act moved (sound.releasing name)
  obtain ⟨flags, noent⟩ := noent_act moved sound.nodup
    (sound.releasing name) sound.flags
  refine ⟨fresh, fun other att knows => ?_, fun att => ?_,
    nodup_act moved sound.nodup (sound.busy name),
    fun other att => sound.busy_act moved,
    fun att => sound.rest_act moved, fun other inside => ?_, flags,
    fun destroyed att linked => ?_⟩
  · by_cases equal : other = name
    · rw [equal, Function.update_self] at knows
      exact known att knows
    · rw [Function.update_of_ne equal] at knows
      exact (sound.known other att knows).trans_le more
  · exact (sound.mutex att).update
      (mutex_act moved att (by rw [(sound.fresh s.made le_rfl).1]))
  · by_cases equal : other = name
    · rw [equal, Function.update_self] at inside
      exact releasing inside
    · rw [Function.update_of_ne equal] at inside
      exact grows (sound.releasing other inside)
  · rcases noent destroyed att linked with here | ⟨before, member, differs⟩
    · exact ⟨name, by rw [Function.update_self, here]⟩
    · obtain ⟨other, there⟩ := sound.noent before att member
      refine ⟨other, ?_⟩
      rw [Function.update_of_ne, there]
      rintro rfl
      exact differs there

omit [DecidableEq ι] in
theorem sound_still (seg : Segment) (present : List Pte) :
    Sound { seg, present } fun _ : ι => Place.idle where
  fresh _ _ := ⟨rfl, by simp⟩
  known := nofun
  mutex _ := ⟨nofun, nofun⟩
  nodup := .nil
  busy := nofun
  rest _ := nofun
  releasing := nofun
  flags := nofun
  noent := nofun

omit [DecidableEq ι] in
/-- What is linked to a destroyed permit was never attached. -/
theorem Sound.attached_eq_false (sound : Sound s thread)
    (destroyed : s.apDestroyed = true) {att : Nat}
    (linked : att ∈ s.attList) : (s.att att).attached = false := by
  obtain ⟨name, here⟩ := sound.noent destroyed att linked
  have expects := sound.busy name att (by rw [here]; rfl)
  rw [here] at expects
  exact expects.2.2.1

omit [DecidableEq ι] in
/-- An attachment is linked and not detached, or was detached once at most. -/
theorem Sound.detached_eq (sound : Sound s thread) (att : Nat) :
    (s.att att).detached = 0 ∧
        ((s.att att).attached = true → att ∈ s.attList) ∨
      (s.att att).detached = 1 := by
  by_cases new : s.made ≤ att
  · rw [(sound.fresh att new).1]
    exact .inl ⟨rfl, nofun⟩
  by_cases owned : ∃ name, (thread name).owns att
  · obtain ⟨name, own⟩ := owned
    have expects := sound.busy name att own
    revert expects own
    cases thread name <;> simp [Place.owns, Place.expects, Settled] <;> grind
  · have settled := sound.rest att (not_le.mp new) (not_exists.mp owned)
    grind [Settled]

/-- The runs of any number of threads, all idle at first. -/
abbrev Runs (seg : Segment) (present : List Pte)
    (allowed : Threads ι Shared Place → ι × Choice → Prop)
    (events : List (Event (Threads ι Shared Place) (ι × Choice) Unit))
    (s : Threads ι Shared Place) : Prop :=
  Run (Threads.step fun _ : ι => act) (.still { seg, present } .idle)
    allowed events s

variable {seg : Segment} {present : List Pte}
    {allowed : Threads ι Shared Place → ι × Choice → Prop}
    {events : List (Event (Threads ι Shared Place) (ι × Choice) Unit)}

theorem Sound.of_run {s : Threads ι Shared Place}
    (run : Runs seg present allowed events s) : Sound s.shared s.thread :=
  Threads.invariant Sound run (sound_still seg present)
    fun _ _ _ _ _ _ sound _ moved => sound.act moved

/--
No attachment is detached twice.  Once the permit is destroyed, all that is
linked to it are attachments whose `xpmem_attach` is about to fail with
`-ENOENT`, no other `xpmem_attach` is under way, and all that were attached
are detached.
-/
theorem detached_of_destroyed {s : Threads ι Shared Place}
    (run : Runs seg present (fun _ _ => True) events s) :
    (∀ att, (s.shared.att att).detached ≤ 1) ∧
      (s.shared.apDestroyed = true →
        (∀ att ∈ s.shared.attList,
          ∃ name, s.thread name = .attachFail att true) ∧
        (∀ name att, s.thread name ≠ .attachMap att) ∧
        ∀ att, (s.shared.att att).attached = true →
          (s.shared.att att).detached = 1) := by
  have sound := Sound.of_run run
  refine ⟨fun att => ?_, fun destroyed => ⟨sound.noent destroyed, ?_, ?_⟩⟩
  · rcases sound.detached_eq att with ⟨none, _⟩ | once <;> omega
  · intro name att here
    have expects := sound.busy name att (by rw [here]; rfl)
    rw [here] at expects
    obtain ⟨other, there⟩ := sound.noent destroyed att expects.1
    have same : other = name := (sound.mutex att).unique
      (by rw [there]; rfl) (by rw [here]; rfl)
    rw [← same, there] at here
    cases here
  · intro att attached
    rcases sound.detached_eq att with ⟨_, linked⟩ | once
    · rw [sound.attached_eq_false destroyed (linked attached)] at attached
      cases attached
    · exact once

/-- An attach comes after the release of the permit. -/
theorem detached_of_released :
    ∃ events s, Runs (ι := Nat) {} [] (fun _ _ => True) events s ∧
      s.shared.apDestroyed = true ∧ s.shared.attList = [1] ∧
      (∃ name, s.thread name = .attachFail 1 true) ∧
      (s.shared.att 0).detached = 1 := by
  obtain ⟨events, s, run, destroyed, linked, attached⟩ := exists_run
    (Threads.step fun _ : Nat => act) (.still {} .idle) (fun _ _ => True)
    [(0, .attach), (0, .go true), (0, .go true), (0, .go true),
      (1, .release), (1, .go true), (1, .go true), (1, .go true),
      (1, .go true), (1, .go true), (1, .go true), (2, .attach),
      (2, .go true)]
    (fun _ s => s.shared.apDestroyed = true ∧ s.shared.attList = [1] ∧
      (s.shared.att 0).attached = true)
    (by decide)
  obtain ⟨_, ended⟩ := detached_of_destroyed run
  obtain ⟨noent, _, detached⟩ := ended destroyed
  exact ⟨events, s, run, destroyed, linked, noent 1 (by simp [linked]),
    detached 0 attached⟩

end Runs

/-! ## What a return of zero means -/

/-- The thread is at work between the two flags of the segment. -/
def Place.removing : Place → Prop
  | .removeDown | .removeClear _ => True
  | _ => False

/-- A call that has returned zero, or is about to, found or set the flag. -/
def Place.returned (s : Shared) : Place → Prop
  | .released => s.apDestroying = true
  | .removeUp | .removed => s.segDestroying = true
  | _ => True

theorem Place.returned.mono
    (ap : s.apDestroying = true → next.apDestroying = true)
    (seg : s.segDestroying = true → next.segDestroying = true)
    (returned : place.returned s) : place.returned next := by
  cases place <;> simp_all [Place.returned]

/-- Between the two flags of an object the thread that set the first works. -/
theorem working_act (moved : act s place choice = some (next, place')) :
    (next.apDestroying = true → next.apDestroyed = true ∨
      place'.releasing ∨ s.apDestroying = true ∧ ¬ place.releasing) ∧
    (next.segDestroying = true → next.segDestroyed = true ∨
      place'.removing ∨ s.segDestroying = true ∧ ¬ place.removing) ∧
    (s.apDestroyed = true → next.apDestroyed = true) ∧
    (s.segDestroyed = true → next.segDestroyed = true) := by
  revert moved
  fun_cases act s place choice <;> intro moved <;>
    (try unfold releaseLoop at moved; split at moved) <;>
    simp only [Option.some.injEq, Prod.mk.injEq, reduceCtorEq] at moved <;>
    obtain ⟨rfl, rfl⟩ := moved <;>
    simp only [Place.releasing, Place.removing] <;>
    grind [Shared.modAtt, Shared.make, Shared.link, Shared.unlink,
      Place.releasing]

theorem returned_act (moved : act s place choice = some (next, place'))
    (returned : place.returned s) (removing : place.removing →
      s.segDestroying = true)
    (releasing : place.releasing → s.apDestroying = true) :
    place'.returned next ∧
      (place'.removing → next.segDestroying = true) ∧
      (s.segDestroying = true → next.segDestroying = true) := by
  revert moved
  fun_cases act s place choice <;> intro moved <;>
    (try unfold releaseLoop at moved; split at moved) <;>
    simp only [Option.some.injEq, Prod.mk.injEq, reduceCtorEq] at moved <;>
    obtain ⟨rfl, rfl⟩ := moved <;>
    simp only [Place.returned, Place.releasing, Place.removing]
      at returned removing releasing ⊢ <;>
    grind [Shared.modAtt, Shared.make, Shared.link, Shared.unlink,
      Place.returned, Place.removing]

/-- When it clears each PTE it comes to, `xpmem_clear_PTEs` leaves none. -/
theorem cleared_act (moved : act s place choice = some (next, place'))
    (clears : ∀ pte ∈ s.present, s.seg.clears pte = true)
    (first : ∀ left, place = .removeClear left → left = 0)
    (cleared : s.segDestroyed = true → s.present = []) :
    (∀ pte ∈ next.present, next.seg.clears pte = true) ∧
      (∀ left, place' = .removeClear left → left = 0) ∧
      (next.segDestroyed = true → next.present = []) := by
  have none : s.present[0]? = none → s.present = [] := by simp
  revert moved
  fun_cases act s place choice <;> intro moved <;>
    (try unfold releaseLoop at moved; split at moved) <;>
    simp only [Option.some.injEq, Prod.mk.injEq, reduceCtorEq] at moved <;>
    obtain ⟨rfl, rfl⟩ := moved <;>
    grind [Shared.modAtt, Shared.make, Shared.link, Shared.unlink,
      List.mem_of_mem_eraseIdx, List.mem_of_getElem?]

section Runs

variable {thread : ι → Place} {name : ι}

/-- What holds between the flags of the permit and of the segment. -/
structure Working (s : Shared) (thread : ι → Place) : Prop where
  releases (destroying : s.apDestroying = true) :
    s.apDestroyed = true ∨ ∃ name, (thread name).releasing
  removes (destroying : s.segDestroying = true) :
    s.segDestroyed = true ∨ ∃ name, (thread name).removing
  removing (name : ι) (inside : (thread name).removing) :
    s.segDestroying = true
  returned (name : ι) : (thread name).returned s

/-- What holds of the PTEs when `xpmem_clear_PTEs` clears all. -/
structure Clearing (s : Shared) (thread : ι → Place) : Prop where
  clears (pte : Pte) (member : pte ∈ s.present) : s.seg.clears pte = true
  first (name : ι) (left : Nat) (here : thread name = .removeClear left) :
    left = 0
  cleared (destroyed : s.segDestroyed = true) : s.present = []

variable [DecidableEq ι]

theorem Clearing.act (clearing : Clearing s thread)
    (moved : act s (thread name) choice = some (next, place)) :
    Clearing next (Function.update thread name place) := by
  obtain ⟨clears, first, cleared⟩ := cleared_act moved clearing.clears
    (clearing.first name) clearing.cleared
  refine ⟨clears, fun other left here => ?_, cleared⟩
  by_cases equal : other = name
  · rw [equal, Function.update_self] at here
    exact first left here
  · rw [Function.update_of_ne equal] at here
    exact clearing.first other left here

theorem Working.act (working : Working s thread) (sound : Sound s thread)
    (moved : act s (thread name) choice = some (next, place)) :
    Working next (Function.update thread name place) := by
  obtain ⟨ap, seg, apGrows, segGrows⟩ := working_act moved
  obtain ⟨returned, removing, segFlag⟩ := returned_act moved
    (working.returned name) (working.removing name) (sound.releasing name)
  obtain ⟨_, apFlag⟩ := releasing_act moved (sound.releasing name)
  -- a thread at work other than the mover is still at work
  have still {kind : Place → Prop}
      (busy : ∃ other, kind (thread other)) (idle : ¬ kind (thread name)) :
      ∃ other, kind (Function.update thread name place other) := by
    obtain ⟨other, inside⟩ := busy
    refine ⟨other, ?_⟩
    rwa [Function.update_of_ne]
    rintro rfl
    exact idle inside
  refine ⟨fun destroying => ?_, fun destroying => ?_,
    fun other inside => ?_, fun other => ?_⟩
  · rcases ap destroying with ended | here | ⟨before, idle⟩
    · exact .inl ended
    · exact .inr ⟨name, by rwa [Function.update_self]⟩
    · exact (working.releases before).imp apGrows (still · idle)
  · rcases seg destroying with ended | here | ⟨before, idle⟩
    · exact .inl ended
    · exact .inr ⟨name, by rwa [Function.update_self]⟩
    · exact (working.removes before).imp segGrows (still · idle)
  · by_cases equal : other = name
    · rw [equal, Function.update_self] at inside
      exact removing inside
    · rw [Function.update_of_ne equal] at inside
      exact segFlag (working.removing other inside)
  · by_cases equal : other = name
    · rwa [equal, Function.update_self]
    · rw [Function.update_of_ne equal]
      exact (working.returned other).mono apFlag segFlag

variable {seg : Segment} {present : List Pte}
    {events : List (Event (Threads ι Shared Place) (ι × Choice) Unit)}

theorem Clearing.of_run {s : Threads ι Shared Place}
    (run : Runs seg present (fun _ _ => True) events s)
    (holds : seg.Holds present) : Clearing s.shared s.thread :=
  Threads.invariant Clearing run
    ⟨fun _ member => holds.clears member, nofun, nofun⟩
    fun _ _ _ _ _ _ clearing _ moved => clearing.act moved

end Runs

end Xpmem.Concurrent.Destroying
