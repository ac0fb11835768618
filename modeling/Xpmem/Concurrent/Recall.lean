import Mathlib.Tactic.Ring
import Xpmem.Foundation.Threads
import Xpmem.Kernel.Platform

/-!
# Blocking the recall of PFNs

Threads run `xpmem_block_recall_PFNs`, `xpmem_unblock_recall_PFNs`,
`xpmem_disallow_blocking_recall_PFNs` and `xpmem_allow_blocking_recall_PFNs`
on the counters `n_recall_PFNs` of the thread groups, one atomic operation at
a time.  The callers are `xpmem_fault_handler` through `xpmem_seg_down_read`
and `xpmem_seg_up_read`, `xpmem_unpin_procfs_write`, `xpmem_fork_begin` and
`xpmem_fork_end`; `/dev/xpmem` is opened and closed meanwhile.

The counter is an `atomic_t`, an `int` that wraps.  One thread moves it by one
at most, except that completed `XPMEM_CMD_FORK_BEGIN`s add up.
-/

namespace Xpmem.Concurrent.Recall

open Foundation Kernel

universe u

/-- What the threads share. -/
structure Shared where
  /-- `n_recall_PFNs` of each thread group. -/
  counter : Nat → Int := fun _ => 0
  /-- The group that `xpmem_tg_ref_by_tgid` finds. -/
  current : Nat → Option Nat := fun _ => none
  /-- The groups made so far are those below. -/
  made : Nat := 0
  /--
  The `XPMEM_CMD_FORK_BEGIN`s of each group that returned and have no
  `XPMEM_CMD_FORK_END` yet.
  -/
  forks : Nat → Nat := fun _ => 0

/-- Where a thread is. -/
inductive Place where
  | idle
  -- `xpmem_block_recall_PFNs`: the test of `waitqueue_active`, the first read,
  -- the exchange with the value last read, and the sleep
  | block (group : Nat) (wait : Bool)
  | blockRead (group : Nat) (wait : Bool)
  | blockExchange (group : Nat) (wait : Bool) (value : Int)
  | blockWait (group : Nat)
  -- `xpmem_seg_down_read` with the block held
  | blocked (group : Nat) (wait : Bool)
  | flags (group : Nat)
  -- `xpmem_fault_handler` up to `xpmem_seg_up_read`
  | fault (group : Nat)
  -- about to unblock; `again` when the fault then waits for the segment
  | unblock (group : Nat) (again : Bool)
  -- `xpmem_disallow_blocking_recall_PFNs`, called to fork or to unpin
  | disallow (group : Nat) (forking : Bool)
  | disallowExchange (group : Nat) (forking : Bool) (value : Int)
  | disallowWait (group : Nat) (forking : Bool)
  -- the recall itself
  | recall (group : Nat) (forking : Bool)
  -- `xpmem_fork_end` with the group found
  | forkEnd (group : Nat)
deriving DecidableEq

/-- What a thread does next, where its place leaves that open. -/
inductive Choice where
  /-- A fault on an attachment of a segment of the group. -/
  | fault (group : Nat)
  /-- A write to the group's file under `/proc/xpmem`. -/
  | unpin (tgid : Nat)
  | forkBegin (tgid : Nat)
  | forkEnd (tgid : Nat)
  | openDev (tgid : Nat)
  | closeDev (tgid : Nat)
  /--
  Goes on; `yes` answers `waitqueue_active`, `down_read_trylock` and the test
  of `XPMEM_FLAG_DESTROYING`, which other parts of the driver decide.
  -/
  | go (yes : Bool)
deriving DecidableEq

/-- Adds to the counter of a group. -/
def Shared.add (s : Shared) (group : Nat) (change : Int) : Shared :=
  { s with
    counter := Function.update s.counter group
      (int32 (s.counter group + change)) }

/-- Where `xpmem_block_recall_PFNs` goes on from its label `wait`. -/
def atWait (group : Nat) (wait : Bool) : Place :=
  -- without `wait` the fault gets `-EAGAIN`, and tries again with it
  if !wait then .block group true else .blockWait group

/-- One step of a thread. -/
def act (s : Shared) : Place → Choice → Option (Shared × Place)
  | .idle, .fault group =>
      if group < s.made then some (s, .block group false) else none
  | .idle, .unpin tgid =>
      (s.current tgid).map fun group => (s, .disallow group false)
  | .idle, .forkBegin tgid =>
      (s.current tgid).map fun group => (s, .disallow group true)
  | .idle, .forkEnd tgid =>
      (s.current tgid).map fun group => (s, .forkEnd group)
  | .idle, .openDev tgid =>
      match s.current tgid with
      | some _ => some (s, .idle)
      | none =>
          some ({ s with
            current := Function.update s.current tgid (some s.made)
            made := s.made + 1 }, .idle)
  | .idle, .closeDev tgid =>
      some ({ s with current := Function.update s.current tgid none }, .idle)
  | .block group wait, .go waiting =>
      if waiting then some (s, atWait group wait)
      else some (s, .blockRead group wait)
  | .blockRead group wait, .go _ =>
      some (s, .blockExchange group wait (s.counter group))
  | .blockExchange group wait value, .go _ =>
      if value > 0 then some (s, atWait group wait)
      else if s.counter group = value then
        some (s.add group (-1), .blocked group wait)
      else some (s, .blockExchange group wait (s.counter group))
  | .blockWait group, .go _ =>
      if s.counter group ≤ 0 then some (s, .block group true) else none
  | .blocked group wait, .go locked =>
      -- with `wait` the thread sleeps in `down_read`
      if locked then some (s, .flags group)
      else if !wait then some (s, .unblock group true) else none
  | .flags group, .go destroying =>
      if destroying then some (s, .unblock group false)
      else some (s, .fault group)
  | .fault group, .go _ => some (s, .unblock group false)
  | .unblock group again, .go _ =>
      some (s.add group 1, if again then .block group true else .idle)
  | .disallow group forking, .go _ =>
      some (s, .disallowExchange group forking (s.counter group))
  | .disallowExchange group forking value, .go _ =>
      if value < 0 then some (s, .disallowWait group forking)
      else if s.counter group = value then
        some (s.add group 1, .recall group forking)
      else some (s, .disallowExchange group forking (s.counter group))
  | .disallowWait group forking, .go _ =>
      if s.counter group ≥ 0 then some (s, .disallow group forking) else none
  | .recall group forking, .go _ =>
      if forking then
        some ({ s with
          forks := Function.update s.forks group (s.forks group + 1) }, .idle)
      else some (s.add group (-1), .idle)
  | .forkEnd group, .go _ =>
      some ({ s.add group (-1) with
        forks := Function.update s.forks group (s.forks group - 1) }, .idle)
  | _, _ => none

/-! ## What a step does to the counter -/

/-- What a thread holds of the counters. -/
inductive Grip where
  | free
  | block (group : Nat)
  | recall (group : Nat)
deriving DecidableEq

/-- What a thread holds where it is. -/
def Place.grip : Place → Grip
  | .blocked group _ | .flags group | .fault group | .unblock group _ =>
      .block group
  | .recall group _ => .recall group
  | _ => .free

@[simp]
theorem grip_atWait (group : Nat) (wait : Bool) :
    (atWait group wait).grip = .free := by
  cases wait <;> rfl

/-- The counter of a group does not wrap when so much is added to it. -/
def Shared.Fits (s : Shared) (group : Nat) (change : Int) : Prop :=
  int32 (s.counter group + change) = s.counter group + change

/-- The counter that the next step of a thread may change, and by how much. -/
def Place.change : Place → Option (Nat × Int)
  | .unblock group _ | .disallowExchange group _ _ => some (group, 1)
  | .blockExchange group _ _ | .recall group false | .forkEnd group =>
      some (group, -1)
  | _ => none

/-- The next step of a thread does not wrap a counter. -/
def Place.Fits (s : Shared) (place : Place) : Prop :=
  ∀ change ∈ place.change, s.Fits change.1 change.2

instance (s : Shared) (place : Place) : Decidable (place.Fits s) :=
  inferInstanceAs (Decidable (∀ change ∈ place.change,
    int32 (s.counter change.1 + change.2) = s.counter change.1 + change.2))

/--
All that a step does to the counters: it takes or gives up one hold, ends
a fork, or does nothing.
-/
inductive Effect (s : Shared) : Grip → Shared → Grip → Prop where
  | none {next : Shared} {grip : Grip} (counter : next.counter = s.counter)
      (forks : next.forks = s.forks) : Effect s grip next grip
  | block (group : Nat) (low : s.counter group ≤ 0)
      (fits : s.Fits group (-1)) :
      Effect s .free (s.add group (-1)) (.block group)
  | unblock (group : Nat) (fits : s.Fits group 1) :
      Effect s (.block group) (s.add group 1) .free
  | disallow (group : Nat) (high : 0 ≤ s.counter group)
      (fits : s.Fits group 1) :
      Effect s .free (s.add group 1) (.recall group)
  | allow (group : Nat) (fits : s.Fits group (-1)) :
      Effect s (.recall group) (s.add group (-1)) .free
  | forkBegin (group : Nat) : Effect s (.recall group)
      { s with forks := Function.update s.forks group (s.forks group + 1) }
      .free
  | forkEnd (group : Nat) (begun : 0 < s.forks group)
      (fits : s.Fits group (-1)) : Effect s .free
      { s.add group (-1) with
        forks := Function.update s.forks group (s.forks group - 1) } .free

variable {s next : Shared} {place place' : Place} {choice : Choice}
    {grip grip' : Grip}

/--
An `XPMEM_CMD_FORK_END` finds an `XPMEM_CMD_FORK_BEGIN` that returned, a recall
finds the counter below the largest `int`, and a fault finds it above the
smallest.
-/
def Place.paired (s : Shared) : Place → Prop
  | .forkEnd group => 0 < s.forks group
  | .disallowExchange group _ _ => s.counter group < 2 ^ 31 - 1
  | .blockExchange group _ _ => -2 ^ 31 < s.counter group
  | _ => True

instance : Decidable (place.paired s) := by
  unfold Place.paired
  split <;> infer_instance

theorem act_effect (moved : act s place choice = some (next, place'))
    (paired : place.paired s) (fits : place.Fits s) :
    Effect s place.grip next place'.grip := by
  revert moved
  fun_cases act s place choice <;> intro moved <;>
    simp only [Option.map_eq_some_iff, Option.some.injEq, Prod.mk.injEq,
      reduceCtorEq] at moved
  case case3 | case4 | case5 =>
    obtain ⟨_, _, rfl, rfl⟩ := moved
    exact .none rfl rfl
  -- of the other steps these change a counter, and the rest do not
  case case13 low =>
    obtain ⟨rfl, rfl⟩ := moved
    exact .block _ (not_lt.mp low) (fits _ rfl)
  case case23 again _ =>
    obtain ⟨rfl, rfl⟩ := moved
    cases again <;> exact .unblock _ (fits _ rfl)
  case case26 high =>
    obtain ⟨rfl, rfl⟩ := moved
    exact .disallow _ (not_lt.mp high) (fits _ rfl)
  case case30 =>
    obtain ⟨rfl, rfl⟩ := moved
    exact .forkBegin _
  case case31 forking =>
    obtain ⟨rfl, rfl⟩ := moved
    rw [Bool.not_eq_true] at forking
    subst forking
    exact .allow _ (fits _ rfl)
  case case32 =>
    obtain ⟨rfl, rfl⟩ := moved
    exact .forkEnd _ paired (fits _ rfl)
  all_goals
    obtain ⟨rfl, rfl⟩ := moved
    first
    | exact .none rfl rfl
    | rw [grip_atWait]; exact .none rfl rfl

/-- The counter moves with the recalls, the completed forks and the blocks. -/
theorem Effect.ledger (effect : Effect s grip next grip') (group : Nat) :
    next.counter group + (if grip = .recall group then 1 else 0) +
        s.forks group + (if grip' = .block group then 1 else 0) =
      s.counter group + (if grip' = .recall group then 1 else 0) +
        next.forks group + if grip = .block group then 1 else 0 := by
  cases effect with
  | none counter forks => rw [counter, forks]
  | block other | unblock other | disallow other | allow other
  | forkBegin other | forkEnd other =>
      simp only [Shared.add, Function.update_apply, Grip.block.injEq,
        Grip.recall.injEq, reduceCtorEq, if_false]
      grind [Shared.Fits]

/-- A block is taken only when the counter is not positive. -/
theorem Effect.low (effect : Effect s grip next grip') (group : Nat)
    (taken : grip' = .block group) :
    next.forks group = s.forks group ∧
      (grip = .block group ∨ s.counter group ≤ 0) := by
  cases effect <;> grind [Shared.add]

/-- A recall starts only when the counter is not negative. -/
theorem Effect.high (effect : Effect s grip next grip') (group : Nat)
    (more : s.forks group + (if grip = .recall group then 1 else 0) <
      next.forks group + if grip' = .recall group then 1 else 0) :
    0 ≤ s.counter group := by
  cases effect <;> grind [Shared.add]

theorem Effect.counter_fits {group : Nat}
    (effect : Effect s grip next grip') (fits : s.Fits group 0) :
    next.Fits group 0 := by
  simp only [Shared.Fits, add_zero] at fits ⊢
  cases effect with
  | none counter => rw [counter, fits]
  | forkBegin => exact fits
  | block | unblock | disallow | allow | forkEnd =>
      simp only [Shared.add, Function.update_apply]
      split
      · exact int32_int32 _
      · exact fits

/-! ## What a run keeps -/

section Runs

variable {ι : Type u} [DecidableEq ι]

/-- The faults that hold the block of a group. -/
def blockers (thread : ι → Place) (group : Nat) : Set ι :=
  Threads.among thread fun place => place.grip = .block group

/-- The recalls of a group in progress. -/
def recallers (thread : ι → Place) (group : Nat) : Set ι :=
  Threads.among thread fun place => place.grip = .recall group

/-- The counters tell the holds, and no group is held both ways. -/
structure Balanced (s : Shared) (thread : ι → Place) : Prop where
  counter_fits (group : Nat) : s.Fits group 0
  blockers_finite (group : Nat) : (blockers thread group).Finite
  recallers_finite (group : Nat) : (recallers thread group).Finite
  counter_eq (group : Nat) :
    s.counter group = (recallers thread group).ncard + s.forks group -
      (blockers thread group).ncard
  apart (group : Nat) :
    (recallers thread group).ncard + s.forks group = 0 ∨
      (blockers thread group).ncard = 0

omit [DecidableEq ι] in
theorem balanced_still : Balanced {} fun _ : ι => Place.idle where
  counter_fits _ := rfl
  blockers_finite _ := by simp [blockers, Threads.among, Place.grip]
  recallers_finite _ := by simp [recallers, Threads.among, Place.grip]
  counter_eq _ := by simp [blockers, recallers, Threads.among, Place.grip]
  apart _ := by simp [recallers, Threads.among, Place.grip]

omit [DecidableEq ι] in
theorem Balanced.neg_of_block {thread : ι → Place} {name : ι} {group : Nat}
    (balanced : Balanced s thread)
    (blocks : (thread name).grip = .block group) :
    s.counter group < 0 ∧ (recallers thread group).ncard = 0 ∧
      s.forks group = 0 := by
  have count := balanced.counter_eq group
  have apart := balanced.apart group
  have some : 0 < (blockers thread group).ncard :=
    (Set.ncard_pos (balanced.blockers_finite group)).mpr ⟨name, blocks⟩
  omega

omit [DecidableEq ι] in
theorem Balanced.pos_of_recall {thread : ι → Place} {name : ι} {group : Nat}
    (balanced : Balanced s thread)
    (recalls : (thread name).grip = .recall group ∨ 0 < s.forks group) :
    0 < s.counter group := by
  have count := balanced.counter_eq group
  have apart := balanced.apart group
  have some : 0 < (recallers thread group).ncard + s.forks group := by
    rcases recalls with recalls | forks
    · have := (Set.ncard_pos (balanced.recallers_finite group)).mpr
        ⟨name, recalls⟩
      omega
    · omega
  omega

omit [DecidableEq ι] in
/-- Whoever gives up a hold brings the counter nearer to zero. -/
theorem Balanced.fits {thread : ι → Place} {name : ι}
    (balanced : Balanced s thread) (paired : (thread name).paired s) :
    (thread name).Fits s := by
  have block := @balanced.neg_of_block _ _ _ name
  have recall' := @balanced.pos_of_recall _ _ _ name
  rintro ⟨group, change⟩ changes
  have range := balanced.counter_fits group
  specialize block group
  specialize recall' group
  cases here : thread name <;>
    simp only [here, Place.change, Place.paired, Place.grip, Shared.Fits,
      int32] at * <;> grind

theorem Balanced.act {thread : ι → Place} {name : ι}
    (balanced : Balanced s thread)
    (paired : (thread name).paired s)
    (moved : act s (thread name) choice = some (next, place)) :
    Balanced next (Function.update thread name place) := by
  have effect := act_effect moved paired (balanced.fits paired)
  have blocks (group : Nat) := Threads.ncard_among_update
    (balanced.blockers_finite group) name place
  have recalls (group : Nat) := Threads.ncard_among_update
    (balanced.recallers_finite group) name place
  refine ⟨fun group => effect.counter_fits (balanced.counter_fits group),
    fun group => Threads.finite_among_update
      (balanced.blockers_finite group) name place,
    fun group => Threads.finite_among_update
      (balanced.recallers_finite group) name place,
    fun group => ?_, fun group => ?_⟩
  all_goals
    specialize blocks group
    specialize recalls group
    have ledger := effect.ledger group
    have before := balanced.counter_eq group
    have apart := balanced.apart group
    have low := effect.low group
    have high := effect.high group
    unfold blockers recallers at *
  · grind
  · grind

/-- The runs of any number of threads, all idle at first. -/
abbrev Runs (allowed : Threads ι Shared Place → ι × Choice → Prop)
    (events : List (Event (Threads ι Shared Place) (ι × Choice) Unit))
    (s : Threads ι Shared Place) : Prop :=
  Run (Threads.step fun _ : ι => act) (.still {} .idle) allowed events s

/-! ## Faults and unpin writes -/

/-- The thread is in an ioctl about a fork. -/
def Place.forking : Place → Bool
  | .disallow _ forking | .disallowExchange _ forking _
  | .disallowWait _ forking | .recall _ forking => forking
  | .forkEnd _ => true
  | _ => false

theorem forking_atWait (group : Nat) (wait : Bool) :
    (atWait group wait).forking = false := by
  cases wait <;> rfl

/-- The thread does not call into the driver about a fork. -/
def Choice.forkless : Choice → Bool
  | .forkBegin _ | .forkEnd _ => false
  | _ => true

theorem forkless_act (moved : act s place choice = some (next, place'))
    (outside : place.forking = false) (forkless : choice.forkless) :
    place'.forking = false ∧ next.forks = s.forks := by
  revert moved
  fun_cases act s place choice <;> intro moved <;>
    simp only [Option.map_eq_some_iff, Option.some.injEq, Prod.mk.injEq,
      reduceCtorEq] at moved
  case case3 | case4 | case5 =>
    obtain ⟨_, _, rfl, rfl⟩ := moved
    simp_all [Place.forking, Choice.forkless]
  case case9 | case12 =>
    obtain ⟨rfl, rfl⟩ := moved
    exact ⟨forking_atWait _ _, rfl⟩
  case case23 again _ =>
    obtain ⟨rfl, rfl⟩ := moved
    cases again <;> exact ⟨rfl, rfl⟩
  all_goals
    obtain ⟨rfl, rfl⟩ := moved
    simp_all [Place.forking, Shared.add]

/-- Without forks no thread is ever in one. -/
structure Forkless (s : Shared) (thread : ι → Place) : Prop where
  balanced : Balanced s thread
  forks_eq (group : Nat) : s.forks group = 0
  outside (name : ι) : (thread name).forking = false

omit [DecidableEq ι] in
/-- A thread that holds nothing leaves fewer holds than threads. -/
theorem Forkless.paired [Finite ι] (few : Nat.card ι < 2 ^ 31)
    {thread : ι → Place} {name : ι} (forkless : Forkless s thread) :
    (thread name).paired s := by
  have count (group : Nat) := forkless.balanced.counter_eq group
  have fewer {grip : Grip} (free : (thread name).grip ≠ grip) :
      (Threads.among thread fun place => place.grip = grip).ncard <
        Nat.card ι :=
    Set.ncard_lt_card fun all => free (Set.eq_univ_iff_forall.mp all name)
  have outside := forkless.outside name
  cases here : thread name with
  | forkEnd group =>
      rw [here] at outside
      cases outside
  | disallowExchange group =>
      have := @fewer (.recall group) (by simp [here, Place.grip])
      simp only [Place.paired, count, forkless.forks_eq, recallers]
      omega
  | blockExchange group =>
      have := @fewer (.block group) (by simp [here, Place.grip])
      simp only [Place.paired, count, forkless.forks_eq, blockers]
      omega
  | _ => trivial

theorem Forkless.act {thread : ι → Place} {name : ι} [Finite ι]
    (few : Nat.card ι < 2 ^ 31)
    (forkless : Forkless s thread) (chosen : choice.forkless)
    (moved : act s (thread name) choice = some (next, place)) :
    Forkless next (Function.update thread name place) := by
  have outside := forkless.outside name
  have paired : (thread name).paired s := forkless.paired few
  obtain ⟨after, same⟩ := forkless_act moved outside chosen
  refine ⟨forkless.balanced.act paired moved,
    fun group => same ▸ forkless.forks_eq group, fun other => ?_⟩
  by_cases equal : other = name
  · rw [equal, Function.update_self, after]
  · rw [Function.update_of_ne equal, forkless.outside]

/--
`n_recall_PFNs` is the number of recalls in progress less the number of
faults that hold the block, and these never meet.  There are fewer threads
than an `int` counts.
-/
theorem counter_eq_recallers_sub_blockers [Finite ι]
    (few : Nat.card ι < 2 ^ 31)
    {events : List (Event (Threads ι Shared Place) (ι × Choice) Unit)}
    {s : Threads ι Shared Place}
    (run : Runs (fun _ move => move.2.forkless) events s) (group : Nat) :
    s.shared.counter group = (recallers s.thread group).ncard -
        (blockers s.thread group).ncard ∧
      ((recallers s.thread group).ncard = 0 ∨
        (blockers s.thread group).ncard = 0) := by
  have forkless : Forkless s.shared s.thread :=
    Threads.invariant Forkless run
      ⟨balanced_still, fun _ => rfl, fun _ => rfl⟩
      fun _ _ _ _ _ _ forkless chosen moved => forkless.act few chosen moved
  have count := forkless.balanced.counter_eq group
  have apart := forkless.balanced.apart group
  rw [forkless.forks_eq] at count apart
  exact ⟨by simpa using count, by simpa using apart⟩

/-- Two threads fault while a third waits to unpin. -/
theorem counter_eq_of_two_faults :
    ∃ events s, Runs (ι := Fin 3) (fun _ move => move.2.forkless) events s ∧
      s.thread 2 = .disallowWait 0 false ∧ s.shared.counter 0 = -2 ∧
      (recallers s.thread 0).ncard = 0 := by
  obtain ⟨events, s, run, waits, count⟩ := exists_run
    (Threads.step fun _ : Fin 3 => act) (.still {} .idle)
    (fun _ move => move.2.forkless)
    [(0, .openDev 7), (0, .fault 0), (0, .go false), (0, .go true),
      (0, .go true), (1, .fault 0), (1, .go false), (1, .go true),
      (1, .go true), (2, .unpin 7), (2, .go true), (2, .go true)]
    (fun _ s => s.thread 2 = .disallowWait 0 false ∧
      s.shared.counter 0 = -2)
    (by decide)
  have counted := counter_eq_recallers_sub_blockers (by simp) run 0
  exact ⟨events, s, run, waits, count, by omega⟩

/-! ## Forks -/

/-- The group on a segment of which the thread faults. -/
def Place.faulting : Place → Option Nat
  | .block group _ | .blockRead group _ | .blockExchange group _ _
  | .blockWait group | .blocked group _ | .flags group | .fault group | .unblock group _ =>
      some group
  | _ => none

theorem faulting_of_grip {group : Nat} (blocks : place.grip = .block group) :
    place.faulting = some group := by
  cases place <;> simp_all [Place.grip, Place.faulting]

/-- Forks are paired, and the counters stay within an `int`. -/
def Paired (s : Threads ι Shared Place) (move : ι × Choice) : Prop :=
  (s.thread move.1).paired s.shared

instance (s : Threads ι Shared Place) (move : ι × Choice) :
    Decidable (Paired s move) := by
  unfold Paired
  infer_instance

/--
With forks paired, the counter is negative only while a fault is in progress,
and no fault holds the block while a recall runs.
-/
theorem counter_of_paired
    {events : List (Event (Threads ι Shared Place) (ι × Choice) Unit)}
    {s : Threads ι Shared Place}
    (run : Runs Paired events s) (group : Nat) :
    ((∀ name, (s.thread name).faulting ≠ some group) →
        0 ≤ s.shared.counter group) ∧
      ∀ name, (s.thread name).grip = .block group →
        s.shared.forks group = 0 ∧
          ∀ other, (s.thread other).grip ≠ .recall group := by
  have balanced : Balanced s.shared s.thread :=
    Threads.invariant Balanced run balanced_still
      fun _ _ _ _ _ _ balanced paired moved => balanced.act paired moved
  have count := balanced.counter_eq group
  constructor
  · intro quiet
    have none : blockers s.thread group = ∅ :=
      Set.eq_empty_of_forall_notMem fun name blocks =>
        quiet name (faulting_of_grip blocks)
    rw [none, Set.ncard_empty] at count
    omega
  · intro name blocks
    have low := balanced.neg_of_block blocks
    refine ⟨low.2.2, fun other recalls => ?_⟩
    have high := balanced.pos_of_recall (.inl recalls)
    omega

/-- A fault waits for a fork to end. -/
theorem counter_of_paired_fork :
    ∃ events s, Runs (ι := Nat) Paired events s ∧
      (s.thread 0).grip = .block 0 ∧ s.shared.forks 0 = 0 := by
  obtain ⟨events, s, run, blocks⟩ := exists_run
    (Threads.step fun _ : Nat => act) (.still {} .idle) Paired
    [(0, .openDev 7), (1, .forkBegin 7), (1, .go true), (1, .go true),
      (0, .fault 0), (0, .go false), (0, .go true), (0, .go true),
      (0, .go false), (0, .go true), (0, .go true), (1, .go true),
      (1, .forkEnd 7), (1, .go true), (0, .go true), (0, .go false),
      (0, .go true), (0, .go true)]
    (fun _ s => (s.thread 0).grip = .block 0)
    (by decide)
  exact ⟨events, s, run, blocks, ((counter_of_paired run 0).2 0 blocks).1⟩

/--
An `XPMEM_CMD_FORK_END` alone makes the counter negative, and one during a
recall lets a fault in.
-/
theorem counter_of_unpaired :
    (∃ events s, Runs (ι := Fin 3) (fun _ _ => True) events s ∧
      (∀ name, (s.thread name).faulting ≠ some 0) ∧
      s.shared.counter 0 < 0) ∧
    ∃ events s, Runs (ι := Fin 3) (fun _ _ => True) events s ∧
      (s.thread 0).grip = .recall 0 ∧ (s.thread 1).grip = .block 0 := by
  constructor
  · exact exists_run (Threads.step fun _ : Fin 3 => act) (.still {} .idle)
      (fun _ _ => True) [(0, .openDev 7), (0, .forkEnd 7), (0, .go true)]
      (fun _ s => (∀ name, (s.thread name).faulting ≠ some 0) ∧
        s.shared.counter 0 < 0)
      (by decide)
  · exact exists_run (Threads.step fun _ : Fin 3 => act) (.still {} .idle)
      (fun _ _ => True)
      [(0, .openDev 7), (0, .unpin 7), (0, .go true), (0, .go true),
        (2, .forkEnd 7), (2, .go true), (1, .fault 0), (1, .go false),
        (1, .go true), (1, .go true)]
      (fun _ s => (s.thread 0).grip = .recall 0 ∧
        (s.thread 1).grip = .block 0)
      (by decide)

end Runs

end Xpmem.Concurrent.Recall
