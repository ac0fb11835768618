import Xpmem.Foundation.LockOrder
import Xpmem.Foundation.Threads

/-!
# The order of the locks

Each operation of the driver is the list of what it does to the locks on
which a thread can sleep: `tg->recall_PFNs_mutex`, `seg->sema`, the mmap
locks, `att->mutex` and `att->invalidate_mutex`.  Where the way through a
function depends on data, the way taken is a parameter of its program.

A thread that asks for a lock which is not free waits for it.
-/

namespace Xpmem.Concurrent.LockOrder

open Foundation Foundation.LockOrder

universe u

/-- The locks; an mmap lock is that of the `mm_struct` at an address. -/
inductive Lock where
  | recallPFNs (group : Nat)
  | sema (seg : Nat)
  | mmap (mm : Nat)
  | att (att : Nat)
  | invalidate (att : Nat)
deriving DecidableEq

/-- The kinds of locks in their order. -/
def Lock.rank : Lock → Nat
  | .recallPFNs _ => 0
  | .sema _ => 1
  | .mmap _ => 2
  | .att _ => 3
  | .invalidate _ => 4

/-- The one order: by kind, and mmap locks by address. -/
def Lock.before : Lock → Lock → Prop
  | .mmap mm, .mmap other => mm < other
  | lock, other => lock.rank < other.rank

instance (lock other : Lock) : Decidable (lock.before other) := by
  unfold Lock.before
  split <;> infer_instance

instance : IsStrictOrder Lock Lock.before where
  irrefl lock := by cases lock <;> simp [Lock.before]
  trans first second third := by
    cases first <;> cases second <;> cases third <;>
      simp [Lock.before, Lock.rank]
    omega

/-! ## The programs -/

abbrev Program : Type := List (Action Lock)

/-- `down_read` of `xpmem_seg_down_read` with `wait`. -/
def segDownRead (seg : Nat) (contended : Bool) : Program :=
  if contended then
    [.tryLock (.sema seg) true false, .lock (.sema seg) true]
  else [.tryLock (.sema seg) true true]

/-- `xpmem_close_handler` on an area of an attachment. -/
def closeHandler (att : Nat) : Program :=
  [.lock (.att att) false, .unlock (.att att)]

/-- `xpmem_clear_PTEs_of_att` from the MMU notifier. -/
def clearFromMmu (att : Nat) : Program :=
  [.lock (.invalidate att) false, .unlock (.invalidate att)]

/-- `xpmem_clear_PTEs_of_att` from a recall or a removal. -/
def clearPTEsOfAtt (where_ : Nat × Nat) : Program :=
  .lock (.mmap where_.1) true ::
    [.lock (.att where_.2) false, .unlock (.att where_.2)] ++
    [.unlock (.mmap where_.1)]

/--
A change of a mapping by `vm_mmap`, `vm_munmap` or the process itself: the
attachments whose areas are closed, and those whose source it takes away.
-/
structure Change where
  mm : Nat
  closes : List Nat
  notifies : List Nat
deriving DecidableEq

def Change.program (change : Change) : Program :=
  .lock (.mmap change.mm) false ::
    (change.closes.flatMap closeHandler ++
      change.notifies.flatMap clearFromMmu) ++
    [.unlock (.mmap change.mm)]

/-- How an `xpmem_attach` ends. -/
inductive AttachEnd where
  /-- The segment is being destroyed, or the arguments are refused. -/
  | refused
  /-- The access permit is being destroyed. -/
  | noent
  /-- There is an attachment in the requested area. -/
  | occupied
  /-- `vm_mmap` fails. -/
  | unmapped
  | done
deriving DecidableEq

structure Attach where
  seg : Nat
  att : Nat
  contended : Bool
  fixed : Bool
  change : Change
  finish : AttachEnd
deriving DecidableEq

/-- `xpmem_mmap_write_lock` for a look at the areas. -/
def lookup (mm : Nat) : Program :=
  [.lock (.mmap mm) false, .unlock (.mmap mm)]

/-- `xpmem_attach` with `att->mutex` held. -/
def Attach.inside (attach : Attach) : Program :=
  match attach.finish with
  | .refused | .noent => []
  | .occupied => lookup attach.change.mm
  | .unmapped =>
      (if attach.fixed then lookup attach.change.mm else []) ++
        attach.change.program
  | .done =>
      (if attach.fixed then lookup attach.change.mm else []) ++
        (attach.change.program ++ lookup attach.change.mm)

def Attach.program (attach : Attach) : Program :=
  segDownRead attach.seg attach.contended ++
    (if attach.finish = .refused then []
    else .lock (.att attach.att) false :: attach.inside ++
      [.unlock (.att attach.att)]) ++
    [.unlock (.sema attach.seg)]

/-- How an `xpmem_detach` or `xpmem_detach_att` ends. -/
inductive DetachEnd where
  /-- No attachment is found there, or the wait is interrupted. -/
  | missing
  /-- Another thread detaches it. -/
  | destroying
  /-- It is not the caller's, or its area is not found. -/
  | refused
  /-- Without `current->mm`. -/
  | exiting
  | done (change : Change)
deriving DecidableEq

structure Detach where
  mm : Nat
  att : Nat
  finish : DetachEnd
deriving DecidableEq

def Detach.program (detach : Detach) : Program :=
  .lock (.mmap detach.mm) false ::
    (if detach.finish = .missing then []
    else .lock (.att detach.att) false ::
      [.lock (.invalidate detach.att) false,
        .unlock (.invalidate detach.att)] ++
      [.unlock (.att detach.att)]) ++
    [.unlock (.mmap detach.mm)] ++
    match detach.finish with
    | .done change => change.program
    | _ => []

/-- A segment, and the attachments whose PTEs are cleared with it. -/
structure Cleared where
  seg : Nat
  atts : List (Nat × Nat)
deriving DecidableEq

/-- `xpmem_remove_seg` and `xpmem_recall_PFNs`. -/
def Cleared.program (cleared : Cleared) : Program :=
  .lock (.sema cleared.seg) false ::
    cleared.atts.flatMap clearPTEsOfAtt ++ [.unlock (.sema cleared.seg)]

/-- How `xpmem_fault_handler` gets the segment. -/
inductive FaultSeg where
  /-- Nothing is attached there, or the permit is being destroyed. -/
  | unused
  /-- At once, and whether the segment is being destroyed. -/
  | atOnce (destroying : Bool)
  /-- After giving up `current->mm`, when a recall or a writer is in the way. -/
  | later (writer contended destroying : Bool)
deriving DecidableEq

structure Fault where
  mm : Nat
  seg : Nat
  att : Nat
  getSeg : FaultSeg
  /-- The `mm_struct` of the source, and whether its lock is contended. -/
  source : Nat
  contended : Bool
  /-- The area is as before, and the wait for the attachment not cut short. -/
  verified : Bool
  /-- The attachments whose source the pinning of the page takes away. -/
  notifies : List Nat
deriving DecidableEq

/-- The first call of `xpmem_seg_down_read`, and the second. -/
def Fault.down (fault : Fault) : Program :=
  match fault.getSeg with
  | .unused => []
  | .atOnce destroying =>
      .tryLock (.sema fault.seg) true true ::
        if destroying then [.unlock (.sema fault.seg)] else []
  | .later writer contended destroying =>
      (if writer then [.tryLock (.sema fault.seg) true false] else []) ++
        .unlock (.mmap fault.mm) ::
        (segDownRead fault.seg contended ++
          (if destroying then [.unlock (.sema fault.seg)] else []) ++
          [.lock (.mmap fault.mm) true])

/-- Whether the handler holds the segment. -/
def Fault.got (fault : Fault) : Bool :=
  match fault.getSeg with
  | .unused => false
  | .atOnce destroying | .later _ _ destroying => !destroying

/-- The source's mmap lock. -/
def Fault.lockSource (fault : Fault) : Program :=
  if fault.source = fault.mm then []
  else if fault.mm < fault.source then [.lock (.mmap fault.source) true]
  else if fault.contended then
    [.tryLock (.mmap fault.source) true false, .unlock (.mmap fault.mm),
      .lock (.mmap fault.source) true, .lock (.mmap fault.mm) true]
  else [.tryLock (.mmap fault.source) true true]

def Fault.unlockSource (fault : Fault) : Program :=
  if fault.source = fault.mm then [] else [.unlock (.mmap fault.source)]

/-- With segment and source locked. -/
def Fault.insert (fault : Fault) : Program :=
  if fault.verified then
    .lock (.att fault.att) false ::
      (fault.notifies.flatMap clearFromMmu ++
        (.unlock (.sema fault.seg) :: fault.unlockSource) ++
        [.unlock (.att fault.att)])
  else .unlock (.sema fault.seg) :: fault.unlockSource

/-- `xpmem_fault_handler`, inside the kernel's handling of the fault. -/
def Fault.program (fault : Fault) : Program :=
  .lock (.mmap fault.mm) true :: fault.down ++
    (if fault.got then fault.lockSource ++ fault.insert else []) ++
    [.unlock (.mmap fault.mm)]

/-- What threads do. -/
inductive Operation where
  | attach (attach : Attach)
  | detach (detach : Detach)
  /-- `xpmem_release`, which detaches the attachments of a permit. -/
  | release (detaches : List Detach)
  /-- `xpmem_remove`. -/
  | remove (cleared : Cleared)
  | fault (fault : Fault)
  /-- `xpmem_fork_begin` and `xpmem_unpin_procfs_write`. -/
  | recallPFNs (group : Nat) (segs : List Cleared)
  /-- `xpmem_teardown`. -/
  | teardown (detaches : List Detach) (segs : List Cleared)
  /-- A change of its address space by the process. -/
  | change (change : Change)
deriving DecidableEq

def Operation.program : Operation → Program
  | .attach call => call.program
  | .detach call => call.program
  | .release detaches => detaches.flatMap Detach.program
  | .remove cleared => cleared.program
  | .fault call => call.program
  | .recallPFNs group segs =>
      .lock (.recallPFNs group) false :: segs.flatMap Cleared.program ++
        [.unlock (.recallPFNs group)]
  | .teardown detaches segs =>
      detaches.flatMap Detach.program ++ segs.flatMap Cleared.program
  | .change call => call.program

/-! ## The programs lock in order -/

/-- Requests that may be out of order: those for mmap locks by an attach. -/
def Excused (attaching : Bool) (_ : List Lock) (lock : Lock) : Prop :=
  attaching = true ∧ lock.rank = 2

variable {held : List Lock} {attaching : Bool}

theorem Lock.before_of_rank_lt {lock other : Lock}
    (lower : lock.rank < other.rank) : lock.before other := by
  cases lock <;> cases other <;> simp_all [Lock.before, Lock.rank]

/-- The kinds of the locks held are below a bound. -/
def Below (bound : Nat) (held : List Lock) : Prop :=
  ∀ lock ∈ held, lock.rank < bound

theorem Below.cons {bound : Nat} {lock : Lock}
    (below : Below lock.rank held) (above : lock.rank < bound) :
    Below bound (lock :: held) := by
  intro other member
  rcases List.mem_cons.mp member with rfl | earlier
  · exact above
  · exact (below other earlier).trans above

/-- A program inside a lock of a kind above those held. -/
theorem keeps_within {lock : Lock} {reads : Bool} {program : Program}
    (below : Below lock.rank held)
    (inside : Keeps Lock.before (Excused attaching) (lock :: held) program) :
    Keeps Lock.before (Excused attaching) held
      (.lock lock reads :: program ++ [.unlock lock]) :=
  .within (.inl fun other member =>
    Lock.before_of_rank_lt (below other member)) inside

theorem keeps_clearFromMmu (att : Nat) (below : Below 4 held) :
    Keeps Lock.before (Excused attaching) held (clearFromMmu att) := by
  refine keeps_within ?_ .nil
  exact below

theorem keeps_closeHandler (att : Nat) (below : Below 3 held) :
    Keeps Lock.before (Excused attaching) held (closeHandler att) := by
  refine keeps_within ?_ .nil
  exact below

theorem keeps_clearPTEsOfAtt (where_ : Nat × Nat) (below : Below 2 held) :
    Keeps Lock.before (Excused attaching) held (clearPTEsOfAtt where_) := by
  refine keeps_within below (keeps_within ?_ .nil)
  exact Below.cons below (by simp [Lock.rank])

theorem Change.keeps (change : Change) (below : Below 2 held) :
    Keeps Lock.before (Excused attaching) held change.program := by
  refine keeps_within below (.append
    (.flatMap fun att _ => keeps_closeHandler att ?_)
    (.flatMap fun att _ => keeps_clearFromMmu att ?_))
  · exact Below.cons below (by simp [Lock.rank])
  · exact Below.cons below (by simp [Lock.rank])

/-- `vm_mmap` in an attach, with `att->mutex` held. -/
theorem Change.keeps_attach (change : Change) (apart : change.closes = [])
    (below : Below 4 held) :
    Keeps Lock.before (Excused true) held change.program := by
  refine .within (.inr ⟨rfl, rfl⟩) (.append ?_ (.flatMap fun att _ =>
    keeps_clearFromMmu att ?_))
  · rw [apart]
    exact .nil
  · intro lock member
    rcases List.mem_cons.mp member with rfl | earlier
    · simp [Lock.rank]
    · exact below lock earlier

theorem keeps_lookup (mm : Nat) :
    Keeps Lock.before (Excused true) held (lookup mm) :=
  .within (.inr ⟨rfl, rfl⟩) .nil

theorem Attach.keeps_inside (attach : Attach)
    (apart : attach.change.closes = []) (below : Below 4 held) :
    Keeps Lock.before (Excused true) held attach.inside := by
  have change := attach.change.keeps_attach apart below
  have look : Keeps Lock.before (Excused true) held
      (lookup attach.change.mm) := keeps_lookup attach.change.mm
  have check : Keeps Lock.before (Excused true) held
      (if attach.fixed then lookup attach.change.mm else []) := by
    split
    · exact look
    · exact .nil
  unfold Attach.inside
  cases attach.finish with
  | refused | noent => exact .nil
  | occupied => exact look
  | unmapped => exact check.append change
  | done => exact check.append (change.append look)

theorem safe_segDownRead {seg : Nat} {contended : Bool} {rest : Program}
    (safe : Safe Lock.before (Excused attaching) [.sema seg] rest) :
    Safe Lock.before (Excused attaching) []
      (segDownRead seg contended ++ rest) := by
  cases contended with
  | false => exact safe
  | true => exact ⟨.inl nofun, safe⟩

theorem Attach.safe (attach : Attach) (apart : attach.change.closes = []) :
    Safe Lock.before (Excused true) [] attach.program := by
  unfold Attach.program
  rw [List.append_assoc]
  apply safe_segDownRead
  have inside : Keeps Lock.before (Excused true) [.sema attach.seg]
      (if attach.finish = .refused then []
      else .lock (.att attach.att) false :: attach.inside ++
        [.unlock (.att attach.att)]) := by
    split
    · exact .nil
    · refine keeps_within ?_ (attach.keeps_inside apart ?_) <;>
        simp [Below, Lock.rank]
  exact inside _ (by simp [Safe])

theorem Detach.keeps (detach : Detach) (below : Below 2 held) :
    Keeps Lock.before (Excused attaching) held detach.program := by
  unfold Detach.program
  refine .append (keeps_within below ?_) ?_
  · split
    · exact .nil
    · have mmap : Below 3 (.mmap detach.mm :: held) :=
        Below.cons below (by simp [Lock.rank])
      refine keeps_within mmap (keeps_within ?_ .nil)
      exact Below.cons mmap (by simp [Lock.rank])
  · split
    · exact Change.keeps _ below
    · exact .nil

theorem Cleared.keeps (cleared : Cleared) (below : Below 1 held) :
    Keeps Lock.before (Excused attaching) held cleared.program := by
  refine keeps_within below (.flatMap fun where_ _ =>
    keeps_clearPTEsOfAtt where_ ?_)
  exact Below.cons below (by simp [Lock.rank])

/-- The locks held when the fault goes for the attachment. -/
def Fault.locked (fault : Fault) : List Lock :=
  .sema fault.seg :: .mmap fault.mm ::
    if fault.source = fault.mm then [] else [.mmap fault.source]

theorem Fault.below_of_perm (fault : Fault) (all : held.Perm fault.locked) :
    Below 3 held := by
  intro lock member
  have inside : lock ∈ fault.locked := all.mem_iff.mp member
  unfold Fault.locked at inside
  split at inside <;> simp at inside <;> grind [Lock.rank]

/-- The locks in the order in which the fault gives them up. -/
theorem Fault.perm_unlockSource (fault : Fault) (middle : List Lock)
    (all : held.Perm fault.locked) :
    ∃ locks : List Lock,
      .unlock (.sema fault.seg) :: fault.unlockSource ++
        (middle ++ [Lock.mmap fault.mm]).map .unlock = locks.map .unlock ∧
      (middle ++ held).Perm locks := by
  unfold Fault.unlockSource
  unfold Fault.locked at all
  split <;> rename_i same
  · refine ⟨.sema fault.seg :: (middle ++ [.mmap fault.mm]), rfl, ?_⟩
    rw [if_pos same] at all
    exact (all.append_left middle).trans List.perm_middle
  · refine ⟨.sema fault.seg :: .mmap fault.source ::
      (middle ++ [.mmap fault.mm]), rfl, ?_⟩
    rw [if_neg same] at all
    refine (all.append_left middle).trans
      (List.perm_middle.trans (.cons _ ?_))
    exact (List.Perm.append_left middle (.swap ..)).trans List.perm_middle

/-- With the segment and the mmap locks held. -/
theorem Fault.safe_insert (fault : Fault) (all : held.Perm fault.locked) :
    Safe Lock.before (Excused attaching) held
      (fault.insert ++ [.unlock (.mmap fault.mm)]) := by
  have below := fault.below_of_perm all
  unfold Fault.insert
  split
  · refine ⟨.inl fun lock member =>
      Lock.before_of_rank_lt (below lock member), ?_⟩
    have higher : Below 4 (.att fault.att :: held) :=
      Below.cons below (by simp [Lock.rank])
    have notified : Keeps Lock.before (Excused attaching)
        (.att fault.att :: held) (fault.notifies.flatMap clearFromMmu) :=
      .flatMap fun att _ => keeps_clearFromMmu att higher
    obtain ⟨locks, same, perm⟩ :=
      fault.perm_unlockSource [.att fault.att] all
    have ends := notified _ (safe_map_unlock perm)
    rw [← same] at ends
    simpa using ends
  · obtain ⟨locks, same, perm⟩ := fault.perm_unlockSource [] all
    have ends : Safe Lock.before (Excused attaching) held
        (locks.map .unlock) := safe_map_unlock perm
    rw [← same] at ends
    exact ends

/-- With the segment and the own mmap lock held. -/
theorem Fault.safe_lockSource (fault : Fault)
    (shape : held = [.sema fault.seg, .mmap fault.mm] ∨
      held = [.mmap fault.mm, .sema fault.seg]) {rest : Program}
    (safe : ∀ held : List Lock, held.Perm fault.locked →
      Safe Lock.before (Excused attaching) held rest) :
    Safe Lock.before (Excused attaching) held
      (fault.lockSource ++ rest) := by
  have all : held.Perm [.sema fault.seg, .mmap fault.mm] := by
    rcases shape with rfl | rfl
    · exact .refl _
    · exact .swap ..
  unfold Fault.locked at safe
  unfold Fault.lockSource
  split
  next same =>
    rw [if_pos same] at safe
    exact safe held all
  next differs =>
  rw [if_neg differs] at safe
  have more : (Lock.mmap fault.source :: held).Perm
      [.sema fault.seg, .mmap fault.mm, .mmap fault.source] :=
    (all.cons _).trans (List.perm_append_singleton _ [_, _]).symm
  split
  next lower =>
    refine ⟨.inl ?_, safe _ more⟩
    rcases shape with rfl | rfl <;> simp [Lock.before, Lock.rank, lower]
  next higher =>
  split
  · have erased : held.erase (.mmap fault.mm) = [.sema fault.seg] := by
      rcases shape with rfl | rfl <;> simp
    have lower : fault.source < fault.mm := by omega
    change Safe _ _ (held.erase (.mmap fault.mm)) _
    rw [erased]
    refine ⟨.inl (by simp [Lock.before, Lock.rank]),
      .inl (by simp [Lock.before, Lock.rank, lower]), safe _ ?_⟩
    exact List.perm_append_singleton _ [_, _]
  · exact safe _ more

theorem Fault.safe (fault : Fault) :
    Safe Lock.before (Excused attaching) [] fault.program := by
  have goes (held : List Lock)
      (shape : held = [.sema fault.seg, .mmap fault.mm] ∨
        held = [.mmap fault.mm, .sema fault.seg]) :
      Safe Lock.before (Excused attaching) held
        (fault.lockSource ++ (fault.insert ++ [.unlock (.mmap fault.mm)])) :=
    fault.safe_lockSource shape fun _ all => fault.safe_insert all
  unfold Fault.program Fault.down Fault.got
  refine ⟨.inl nofun, ?_⟩
  cases fault.getSeg with
  | unused => simp [Safe]
  | atOnce destroying =>
      cases destroying with
      | true => simp [Safe]
      | false =>
          simp only [Bool.false_eq_true, if_false, Bool.not_false, if_true]
          have source := goes _ (.inl rfl)
          rw [← List.append_assoc] at source
          exact source
  | later writer contended destroying =>
      have again (rest : Program)
          (safe : Safe Lock.before (Excused attaching) [.sema fault.seg]
            rest) :
          Safe Lock.before (Excused attaching) [.mmap fault.mm]
            (.unlock (.mmap fault.mm) ::
              (segDownRead fault.seg contended ++ rest)) := by
        change Safe _ _ ([Lock.mmap fault.mm].erase (.mmap fault.mm)) _
        rw [List.erase_cons_head]
        exact safe_segDownRead safe
      have taken : Safe Lock.before (Excused attaching) [.sema fault.seg]
          (.lock (.mmap fault.mm) true :: (fault.lockSource ++
            (fault.insert ++ [.unlock (.mmap fault.mm)]))) :=
        ⟨.inl (by simp [Lock.before, Lock.rank]), goes _ (.inr rfl)⟩
      have given : Safe Lock.before (Excused attaching) [.sema fault.seg]
          [.unlock (.sema fault.seg), .lock (.mmap fault.mm) true,
            .unlock (.mmap fault.mm)] := by
        simp [Safe]
      cases writer <;> cases destroying <;> simp
      · exact again _ taken
      · exact again _ given
      · exact again _ taken
      · exact again _ given

/-- The operation is an attach. -/
def Operation.attaches : Operation → Bool
  | .attach _ => true
  | _ => false

/-- An attach that maps over no attachment. -/
def Operation.apart : Operation → Prop
  | .attach call => call.change.closes = []
  | _ => True

theorem Operation.safe (operation : Operation) (apart : operation.apart) :
    Safe Lock.before (Excused operation.attaches) [] operation.program := by
  have nothing (bound : Nat) : Below bound [] := nofun
  cases operation with
  | attach call => exact call.safe apart
  | detach call => exact (call.keeps (nothing 2)).safe
  | release detaches =>
      exact Keeps.safe (.flatMap fun call _ => call.keeps (nothing 2))
  | remove cleared => exact (cleared.keeps (nothing 1)).safe
  | fault call => exact call.safe
  | recallPFNs group segs =>
      refine Keeps.safe (keeps_within (nothing _)
        (.flatMap fun cleared _ => cleared.keeps ?_))
      exact Below.cons (nothing _) (by simp [Lock.rank])
  | teardown detaches segs =>
      exact Keeps.safe (.append
        (.flatMap fun call _ => call.keeps (nothing 2))
        (.flatMap fun cleared _ => cleared.keeps (nothing 1)))
  | change call => exact (call.keeps (nothing 2)).safe

/-! ## The threads -/

/-- Who holds the locks: how many readers, or a writer. -/
structure Shared where
  readers : Lock → Nat := fun _ => 0
  writer : Lock → Bool := fun _ => false

namespace Shared

/-- The lock can be taken. -/
def free (s : Shared) (lock : Lock) (reads : Bool) : Bool :=
  !s.writer lock && (reads || s.readers lock == 0)

def take (s : Shared) (lock : Lock) (reads : Bool) : Shared :=
  if reads then
    { s with
      readers := Function.update s.readers lock (s.readers lock + 1) }
  else { s with writer := Function.update s.writer lock true }

def give (s : Shared) (lock : Lock) : Shared :=
  if s.writer lock then
    { s with writer := Function.update s.writer lock false }
  else
    { s with
      readers := Function.update s.readers lock (s.readers lock - 1) }

end Shared

/-- Where a thread is. -/
structure Place where
  held : List Lock := []
  /-- The lock for which it waits, and for reading or not. -/
  waiting : Option (Lock × Bool) := none
  todo : Program := []
  /-- It is in `xpmem_attach`. -/
  attaching : Bool := false
deriving DecidableEq

/-- What a thread does next: it starts an operation, or goes on. -/
inductive Choice where
  | start (operation : Operation)
  | go
deriving DecidableEq

/-- One step of a thread. -/
def act (s : Shared) (place : Place) : Choice → Option (Shared × Place)
  | .start operation =>
      if place.todo = [] ∧ place.waiting = none then
        some (s, { place with
          todo := operation.program, attaching := operation.attaches })
      else none
  | .go =>
      match place.waiting, place.todo with
      | some (lock, reads), _ =>
          if s.free lock reads then
            some (s.take lock reads,
              { place with held := lock :: place.held, waiting := none })
          else none
      | none, [] => none
      | none, .lock lock reads :: rest =>
          if s.free lock reads then
            some (s.take lock reads,
              { place with held := lock :: place.held, todo := rest })
          else some (s,
            { place with waiting := some (lock, reads), todo := rest })
      | none, .tryLock lock reads taken :: rest =>
          if !taken then some (s, { place with todo := rest })
          else if s.free lock reads then
            some (s.take lock reads,
              { place with held := lock :: place.held, todo := rest })
          else none
      | none, .unlock lock :: rest =>
          some (s.give lock,
            { place with held := place.held.erase lock, todo := rest })

/-- The thread waits in order, and goes on in order. -/
def Place.ordered (place : Place) : Prop :=
  match place.waiting with
  | none => Safe Lock.before (Excused place.attaching) place.held place.todo
  | some (lock, _) =>
      (∀ other ∈ place.held, other.before lock) ∧
        Safe Lock.before (Excused place.attaching) (lock :: place.held)
          place.todo

/-- What is asked for an mmap lock in an attach is free. -/
def Place.unblocked (s : Shared) (place : Place) : Prop :=
  match place.todo with
  | .lock (.mmap mm) reads :: _ =>
      place.attaching = true → s.free (.mmap mm) reads = true
  | _ => True

/-- No attach maps over an attachment. -/
def Choice.apart : Choice → Prop
  | .start operation => operation.apart
  | .go => True

theorem ordered_act {s next : Shared} {place place' : Place}
    {choice : Choice} (moved : act s place choice = some (next, place'))
    (ordered : place.ordered) (unblocked : place.unblocked s)
    (apart : choice.apart) : place'.ordered := by
  obtain ⟨held, waiting, todo, attaching⟩ := place
  cases choice with
  | start operation =>
      simp only [act] at moved
      split at moved
      next idle =>
        obtain ⟨rfl, rfl⟩ := idle
        simp only [Option.some.injEq, Prod.mk.injEq] at moved
        obtain ⟨rfl, rfl⟩ := moved
        have none : held = [] := ordered
        subst held
        exact operation.safe apart
      · cases moved
  | go =>
      cases waiting with
      | some asked =>
          simp only [act] at moved
          split at moved
          · simp only [Option.some.injEq, Prod.mk.injEq] at moved
            obtain ⟨rfl, rfl⟩ := moved
            exact ordered.2
          · cases moved
      | none =>
          cases todo with
          | nil => simp [act] at moved
          | cons action rest =>
              cases action with
              | lock lock reads =>
                  obtain ⟨before, after⟩ := ordered
                  simp only [act] at moved
                  split at moved
                  next free =>
                    simp only [Option.some.injEq, Prod.mk.injEq] at moved
                    obtain ⟨rfl, rfl⟩ := moved
                    exact after
                  next busy =>
                    simp only [Option.some.injEq, Prod.mk.injEq] at moved
                    obtain ⟨rfl, rfl⟩ := moved
                    refine ⟨?_, after⟩
                    rcases before with before | ⟨attaches, mmap⟩
                    · exact before
                    · cases lock <;> simp [Lock.rank] at mmap
                      exact (busy (unblocked attaches)).elim
              | tryLock lock reads taken =>
                  cases taken with
                  | false =>
                      simp only [act, Bool.not_false, if_true,
                        Option.some.injEq, Prod.mk.injEq] at moved
                      obtain ⟨rfl, rfl⟩ := moved
                      exact ordered
                  | true =>
                      simp only [act, Bool.not_true, Bool.false_eq_true,
                        if_false] at moved
                      split at moved
                      · simp only [Option.some.injEq, Prod.mk.injEq] at moved
                        obtain ⟨rfl, rfl⟩ := moved
                        exact ordered
                      · cases moved
              | unlock lock =>
                  simp only [act, Option.some.injEq, Prod.mk.injEq] at moved
                  obtain ⟨rfl, rfl⟩ := moved
                  exact ordered

section Runs

variable {ι : Type u} [DecidableEq ι]

/--
No attach maps over an attachment, and what an attach asks for an mmap lock
is free.
-/
def Unblocked (s : Threads ι Shared Place) (move : ι × Choice) : Prop :=
  (s.thread move.1).unblocked s.shared ∧ move.2.apart

instance (s : Threads ι Shared Place) (move : ι × Choice) :
    Decidable (Unblocked s move) := by
  unfold Unblocked Place.unblocked Choice.apart Operation.apart
  refine @instDecidableAnd _ _ ?_ ?_
  · split <;> infer_instance
  · split
    · split <;> infer_instance
    · infer_instance

/-- The runs of any number of threads, all idle at first. -/
abbrev Runs (allowed : Threads ι Shared Place → ι × Choice → Prop)
    (events : List (Event (Threads ι Shared Place) (ι × Choice) Unit))
    (s : Threads ι Shared Place) : Prop :=
  Run (Threads.step fun _ : ι => act) (.still {} {}) allowed events s

/-- The lock for which a thread waits. -/
def waitingFor (thread : ι → Place) (name : ι) : Option Lock :=
  (thread name).waiting.map Prod.fst

/-- A thread waits for a lock that another holds. -/
abbrev Waits (thread : ι → Place) : ι → ι → Prop :=
  WaitsFor (fun name => (thread name).held) (waitingFor thread)

/-- Threads wait in the one order, and never in a cycle. -/
theorem waits_in_order
    {events : List (Event (Threads ι Shared Place) (ι × Choice) Unit)}
    {s : Threads ι Shared Place} (run : Runs Unblocked events s) :
    (∀ name lock, waitingFor s.thread name = some lock →
      ∀ other ∈ (s.thread name).held, other.before lock) ∧
      ∀ name, ¬ Relation.TransGen (Waits s.thread) name name := by
  have ordered : ∀ name, (s.thread name).ordered := by
    refine Threads.invariant
      (fun _ (thread : ι → Place) => ∀ name, (thread name).ordered) run
      (fun _ => rfl) ?_
    rintro shared thread name choice next place ordered
      ⟨unblocked, apart⟩ moved other
    by_cases equal : other = name
    · rw [equal, Function.update_self]
      exact ordered_act moved (ordered name) unblocked apart
    · rw [Function.update_of_ne equal]
      exact ordered other
  have waits (name : ι) (lock : Lock)
      (waiting : waitingFor s.thread name = some lock) :
      ∀ other ∈ (s.thread name).held, other.before lock := by
    have here := ordered name
    obtain ⟨⟨_, reads⟩, asked, rfl⟩ := Option.map_eq_some_iff.mp waiting
    unfold Place.ordered at here
    rw [asked] at here
    exact here.1
  exact ⟨waits, not_cycle waits⟩

/-- A fault waits for an attachment whose PTEs a removal clears. -/
theorem waits_in_order_fault :
    ∃ events s, Runs (ι := Nat) Unblocked events s ∧
      waitingFor s.thread 1 = some (.att 0) ∧
      (s.thread 1).held = [.sema 9, .mmap 1] ∧
      ¬ Relation.TransGen (Waits s.thread) 1 1 := by
  obtain ⟨events, s, run, waits, holds⟩ := exists_run
    (Threads.step fun _ : Nat => act) (.still {} {}) Unblocked
    [(0, .start (.remove ⟨0, [(1, 0)]⟩)), (0, .go), (0, .go), (0, .go),
      (1, .start (.fault ⟨1, 9, 0, .atOnce false, 1, false, true, []⟩)),
      (1, .go), (1, .go), (1, .go)]
    (fun _ s => waitingFor s.thread 1 = some (.att 0) ∧
      (s.thread 1).held = [.sema 9, .mmap 1])
    (by decide)
  exact ⟨events, s, run, waits, holds, (waits_in_order run).2 1⟩

/--
An attach waits for the mmap lock with its `att->mutex` held, while a release
holds the mmap lock and waits for that mutex.
-/
theorem waits_in_cycle :
    ∃ events s, Runs (ι := Nat) (fun _ _ => True) events s ∧
      waitingFor s.thread 0 = some (.mmap 1) ∧
      Lock.att 0 ∈ (s.thread 0).held ∧
      Relation.TransGen (Waits s.thread) 0 0 := by
  obtain ⟨events, s, run, waits, holds, waits', holds'⟩ := exists_run
    (Threads.step fun _ : Nat => act) (.still {} {}) (fun _ _ => True)
    [(0, .start (.attach ⟨0, 0, false, true, ⟨1, [], []⟩, .done⟩)), (0, .go),
      (0, .go), (1, .start (.release [⟨1, 0, .done ⟨1, [], []⟩⟩])),
      (1, .go), (1, .go), (0, .go)]
    (fun _ s => waitingFor s.thread 0 = some (.mmap 1) ∧
      Lock.att 0 ∈ (s.thread 0).held ∧
      waitingFor s.thread 1 = some (.att 0) ∧
      Lock.mmap 1 ∈ (s.thread 1).held)
    (by decide)
  exact ⟨events, s, run, waits, holds,
    .head ⟨_, waits, holds'⟩ (.single ⟨_, waits', holds⟩)⟩

end Runs

end Xpmem.Concurrent.LockOrder
